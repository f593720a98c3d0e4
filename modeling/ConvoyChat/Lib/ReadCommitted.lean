import ConvoyChat.Lib.Rows
import Mathlib.Logic.Function.Basic

/-!
# A table under READ COMMITTED

One table shared by concurrent transactions `τ`, as PostgreSQL runs them at
isolation level READ COMMITTED. A statement reads the committed rows, with the
versions that its own transaction has written in their place and the rows that it
has inserted (`view`). Writing a row takes its lock, which is held until the
transaction commits or rolls back; a transaction that needs a lock held by
another one waits, so a step that needs it is only possible when the row is free
(`Free`). A commit publishes the versions and the inserts of the transaction and
releases its locks; a rollback only releases them.

Rows are identified by `key`. `Owned` is the invariant that every uncommitted
version belongs to the holder of its row's lock; from it, a commit changes no row
that the transaction has not locked (`mem_commit_of_unlocked`).
-/

namespace ConvoyChat.Lib

variable {ρ κ τ : Type}

/-- An entry after an update is the new one or an old one. -/
theorem update_eq_some {α β : Type} [DecidableEq α] {f : α → Option β} {a a' : α} {b b' : β}
    (h : Function.update f a (some b) a' = some b') :
    (a' = a ∧ b' = b) ∨ (a' ≠ a ∧ f a' = some b') := by
  by_cases ha : a' = a
  · subst ha
    simp only [Function.update_self, Option.some.injEq] at h
    exact .inl ⟨rfl, h.symm⟩
  · exact .inr ⟨ha, by simpa [ha] using h⟩

/-- Committed rows, row locks, uncommitted versions and uncommitted inserts. -/
structure Table (ρ κ τ : Type) where
  rows : List ρ
  lock : κ → Option τ
  versions : τ → κ → Option ρ
  pending : List (τ × ρ)

namespace Table

/-- A table that no transaction has touched. -/
def fresh (rows : List ρ) : Table ρ κ τ := ⟨rows, fun _ => none, fun _ _ => none, []⟩

section

variable [DecidableEq κ] [DecidableEq τ] (key : ρ → κ) (T : Table ρ κ τ) (t : τ)

/-- The version of a committed row that `t` sees. -/
def current (r : ρ) : ρ := (T.versions t (key r)).getD r

/-- The rows that a statement of `t` sees at its start. -/
def view : List ρ :=
  T.rows.map (T.current key t) ++ (T.pending.filter fun p => p.1 = t).map (·.2)

/-- `t` can take the lock of row `k` without waiting. -/
def Free (k : κ) : Prop := T.lock k = none ∨ T.lock k = some t

instance (k : κ) : Decidable (T.Free t k) := inferInstanceAs (Decidable (_ ∨ _))

/-- Take the lock of row `k`. -/
def acquire (k : κ) : Table ρ κ τ := { T with lock := Function.update T.lock k (some t) }

/-- Write a new version of row `k`. -/
def write (k : κ) (r : ρ) : Table ρ κ τ :=
  { T with versions := Function.update T.versions t (Function.update (T.versions t) k (some r)) }

/-- Insert a row. -/
def insert (r : ρ) : Table ρ κ τ := { T with pending := T.pending ++ [(t, r)] }

/-- Give up the locks of `t` and forget what it has written. -/
def rollback : Table ρ κ τ where
  rows := T.rows
  lock k := if T.lock k = some t then none else T.lock k
  versions := Function.update T.versions t fun _ => none
  pending := T.pending.filter fun p => p.1 ≠ t

/-- Publish what `t` sees, then give up its locks. -/
def commit : Table ρ κ τ := { T.rollback t with rows := T.view key t }

end

variable {key : ρ → κ} {T : Table ρ κ τ} {t : τ}

/-- Every uncommitted version was written under the lock of its row. -/
def Owned (key : ρ → κ) (T : Table ρ κ τ) : Prop :=
  ∀ t k r, T.versions t k = some r → T.lock k = some t ∧ key r = k

theorem owned_fresh (rows : List ρ) : (fresh rows : Table ρ κ τ).Owned key := by
  intro t k r h
  cases h

theorem Owned.insert (h : T.Owned key) (r : ρ) : (T.insert t r).Owned key := h

theorem Owned.current_of_unlocked (h : T.Owned key) {r : ρ} (hlock : T.lock (key r) ≠ some t) :
    T.current key t r = r := by
  unfold current
  cases hv : T.versions t (key r) with
  | none => rfl
  | some r' => exact absurd (h t (key r) r' hv).1 hlock

theorem Owned.key_current (h : T.Owned key) (r : ρ) : key (T.current key t r) = key r := by
  unfold current
  cases hv : T.versions t (key r) with
  | none => rfl
  | some r' => exact (h t (key r) r' hv).2

/-! ### Locks and versions -/

section

variable [DecidableEq κ]

@[simp] theorem acquire_lock_self {k : κ} : (T.acquire t k).lock k = some t := by
  simp [acquire]

/-- Taking a free lock takes nothing from anybody else. -/
theorem acquire_lock_of_free {k k' : κ} {t' : τ} (hfree : T.Free t k)
    (h : T.lock k' = some t') : (T.acquire t k).lock k' = some t' := by
  unfold acquire
  by_cases hk : k' = k
  · subst hk
    rcases hfree with hnone | hself
    · rw [hnone] at h
      cases h
    · rw [hself] at h
      cases h
      simp
  · simp [hk, h]

theorem Owned.acquire (h : T.Owned key) {k : κ} (hfree : T.Free t k) :
    (T.acquire t k).Owned key := by
  intro t' k' r hv
  obtain ⟨hlock, hkey⟩ := h t' k' r hv
  exact ⟨acquire_lock_of_free hfree hlock, hkey⟩

variable [DecidableEq τ]

/-- A version is the one just written or an earlier one. -/
theorem write_versions_cases {k k' : κ} {r v : ρ} {t' : τ}
    (h : (T.write t k r).versions t' k' = some v) :
    (t' = t ∧ k' = k ∧ v = r) ∨ T.versions t' k' = some v := by
  unfold write at h
  by_cases ht : t' = t
  · subst ht
    by_cases hk : k' = k
    · subst hk
      simp only [Function.update_self, Option.some.injEq] at h
      exact .inl ⟨rfl, rfl, h.symm⟩
    · exact .inr (by simpa [hk] using h)
  · exact .inr (by simpa [ht] using h)

theorem write_versions_self {k : κ} {r : ρ} :
    ((T.write t k r).versions t k).isSome = true := by
  simp [write]

theorem write_versions_isSome {k k' : κ} {r : ρ} {t' : τ}
    (h : (T.versions t' k').isSome = true) : ((T.write t k r).versions t' k').isSome = true := by
  unfold write
  by_cases ht : t' = t
  · subst ht
    by_cases hk : k' = k
    · simp [hk]
    · simpa [hk] using h
  · simpa [ht] using h

theorem Owned.write (h : T.Owned key) {k : κ} {r : ρ} (hlock : T.lock k = some t)
    (hkey : key r = k) : (T.write t k r).Owned key := by
  intro t' k' r' hv
  rcases write_versions_cases hv with ⟨rfl, rfl, rfl⟩ | hv
  · exact ⟨hlock, hkey⟩
  · exact h t' k' r' hv

end

/-! ### The end of a transaction -/

section

variable [DecidableEq τ]

@[simp] theorem commit_rows : (T.commit key t).rows = T.view key t := rfl

theorem rollback_lock_other {k : κ} {t' : τ} (hne : t' ≠ t) (h : T.lock k = some t') :
    (T.rollback t).lock k = some t' := by
  show (if T.lock k = some t then none else T.lock k) = some t'
  rw [h, if_neg (by simpa using hne)]

theorem rollback_versions_other {t' : τ} (hne : t' ≠ t) :
    (T.rollback t).versions t' = T.versions t' := by
  simp [rollback, hne]

theorem Owned.rollback (h : T.Owned key) : (T.rollback t).Owned key := by
  intro t' k r hv
  by_cases ht : t' = t
  · subst ht
    simp [Table.rollback] at hv
  · rw [rollback_versions_other ht] at hv
    obtain ⟨hlock, hkey⟩ := h t' k r hv
    exact ⟨rollback_lock_other ht hlock, hkey⟩

theorem mem_view {r' : ρ} : r' ∈ T.view key t ↔
    (∃ r ∈ T.rows, r' = T.current key t r) ∨ (t, r') ∈ T.pending := by
  simp only [view, List.mem_append, List.mem_map, List.mem_filter,
    decide_eq_true_eq]
  constructor
  · rintro (⟨r, hr, rfl⟩ | ⟨⟨t', r⟩, ⟨hp, rfl⟩, rfl⟩)
    · exact .inl ⟨r, hr, rfl⟩
    · exact .inr hp
  · rintro (⟨r, hr, rfl⟩ | hp)
    · exact .inl ⟨r, hr, rfl⟩
    · exact .inr ⟨(t, r'), ⟨hp, rfl⟩, rfl⟩

/-- A commit leaves the rows that the transaction has not locked alone. -/
theorem Owned.mem_commit_of_unlocked (h : T.Owned key) {r : ρ} (hr : r ∈ T.rows)
    (hlock : T.lock (key r) ≠ some t) : r ∈ (T.commit key t).rows :=
  mem_view.mpr (.inl ⟨r, hr, (h.current_of_unlocked hlock).symm⟩)

end

end Table

end ConvoyChat.Lib
