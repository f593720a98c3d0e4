import Mathlib.Data.List.Basic
import Mathlib.Data.List.Count
import Mathlib.Data.List.Nodup

/-!
# Tables as lists of rows

A SQL table is a list of rows. `updateWhere p f` is
`UPDATE … SET f WHERE p`; inserting appends a row. The lemmas say which rows an
update leaves alone and how it moves a count. Two tables that have the same rows with
`q` answer a query about such rows in the same way (`filter_agree` and what follows it),
and `take_filter_eq_iff` says when two conditions select the same first rows.
-/

namespace ConvoyChat.Lib

variable {ρ : Type*}

/-- `UPDATE … SET f WHERE p`: every row that satisfies `p` becomes its image
    under `f`. -/
def updateWhere (p : ρ → Bool) (f : ρ → ρ) (rows : List ρ) : List ρ :=
  rows.map fun r => if p r then f r else r

@[simp] theorem updateWhere_cons (p : ρ → Bool) (f : ρ → ρ) (r : ρ) (rows : List ρ) :
    updateWhere p f (r :: rows) = (if p r then f r else r) :: updateWhere p f rows := rfl

theorem mem_updateWhere {p : ρ → Bool} {f : ρ → ρ} {rows : List ρ} {r' : ρ} :
    r' ∈ updateWhere p f rows ↔ ∃ r ∈ rows, r' = if p r then f r else r := by
  simp only [updateWhere, List.mem_map]
  exact ⟨fun ⟨r, hr, e⟩ => ⟨r, hr, e.symm⟩, fun ⟨r, hr, e⟩ => ⟨r, hr, e.symm⟩⟩

/-- A column that `f` does not write is unchanged by the update. -/
theorem map_updateWhere {β : Type*} {p : ρ → Bool} {f : ρ → ρ} {g : ρ → β}
    (hg : ∀ r, g (f r) = g r) (rows : List ρ) :
    (updateWhere p f rows).map g = rows.map g := by
  induction rows with
  | nil => rfl
  | cons r rows ih =>
    simp only [updateWhere_cons, List.map_cons, ih]
    split_ifs <;> simp [hg]

theorem mem_updateWhere_of_not {p : ρ → Bool} {f : ρ → ρ} {rows : List ρ} {r : ρ} (hr : r ∈ rows)
    (hp : p r = false) : r ∈ updateWhere p f rows :=
  mem_updateWhere.mpr ⟨r, hr, by simp [hp]⟩

theorem mem_updateWhere_of {p : ρ → Bool} {f : ρ → ρ} {rows : List ρ} {r : ρ} (hr : r ∈ rows)
    (hp : p r = true) : f r ∈ updateWhere p f rows :=
  mem_updateWhere.mpr ⟨r, hr, by simp [hp]⟩

/-- An update of rows outside `q` that stay outside does not change the rows of `q`. -/
theorem filter_updateWhere {p q : ρ → Bool} {f : ρ → ρ} {rows : List ρ}
    (hq : ∀ r ∈ rows, p r = true → q r = false ∧ q (f r) = false) :
    (updateWhere p f rows).filter q = rows.filter q := by
  induction rows with
  | nil => rfl
  | cons r rows ih =>
    rw [updateWhere_cons, List.filter_cons, List.filter_cons,
      ih fun x hx => hq x (List.mem_cons_of_mem _ hx)]
    by_cases hp : p r = true
    · obtain ⟨hr, hfr⟩ := hq r List.mem_cons_self hp
      rw [if_pos hp, if_neg (by simp [hfr]), if_neg (by simp [hr])]
    · rw [if_neg hp]

/-- Rows outside `p` survive, and the updated ones have left `q`. -/
theorem countP_updateWhere {p q : ρ → Bool} {f : ρ → ρ} (hf : ∀ r, p r → q (f r) = false)
    (rows : List ρ) :
    (updateWhere p f rows).countP q = rows.countP fun r => q r && !p r := by
  induction rows with
  | nil => rfl
  | cons r rows ih =>
    simp only [updateWhere_cons, List.countP_cons, ih]
    by_cases hp : p r
    · simp [hp, hf r hp]
    · simp [hp]

/-- An update that `q` does not see. -/
theorem countP_updateWhere_same {p q : ρ → Bool} {f : ρ → ρ} (hf : ∀ r, q (f r) = q r)
    (rows : List ρ) :
    (updateWhere p f rows).countP q = rows.countP q := by
  rw [updateWhere, List.countP_map]
  refine List.countP_congr fun r _ => ?_
  show q (if p r then f r else r) = true ↔ _
  split_ifs
  · rw [hf]
  · rfl

/-- The rows that satisfy `q`, split by `p`. -/
theorem countP_split (p q : ρ → Bool) (rows : List ρ) :
    rows.countP q = (rows.countP fun r => q r && p r) + rows.countP fun r => q r && !p r := by
  rw [List.countP_eq_countP_filter_add rows q p, List.countP_filter, List.countP_filter]

/-- Inserting a row whose key is new keeps the key unique. -/
theorem nodup_map_append_singleton {β : Type*} {key : ρ → β} {rows : List ρ} {row : ρ}
    (hnodup : (rows.map key).Nodup) (hfresh : ∀ r ∈ rows, key r ≠ key row) :
    ((rows ++ [row]).map key).Nodup := by
  rw [List.map_append, List.map_singleton, List.nodup_append]
  refine ⟨hnodup, by simp, ?_⟩
  intro a ha b hb
  obtain ⟨r, hr, rfl⟩ := List.mem_map.mp ha
  rw [List.mem_singleton.mp hb]
  exact hfresh r hr

section Agree

variable {p q q' : ρ → Bool} {rows rows' : List ρ}

/-- The rows of one table with `q` are those of the other with `q'`, and `p` selects no
    other rows. -/
theorem filter_agree (h : rows.filter q = rows'.filter q')
    (hp : ∀ r ∈ rows, p r = true → q r = true)
    (hp' : ∀ r ∈ rows', p r = true → q' r = true) : rows.filter p = rows'.filter p := by
  have hsub : ∀ {l : List ρ} {f : ρ → Bool}, (∀ r ∈ l, p r = true → f r = true) →
      l.filter p = (l.filter f).filter p := by
    intro l f hl
    rw [List.filter_filter]
    refine List.filter_congr fun r hr => ?_
    cases hpr : p r with
    | false => rfl
    | true => simp [hl r hr hpr]
  rw [hsub hp, hsub hp', h]

theorem find?_agree (h : rows.filter q = rows'.filter q') (hp : ∀ r ∈ rows, p r = true → q r = true)
    (hp' : ∀ r ∈ rows', p r = true → q' r = true) : rows.find? p = rows'.find? p := by
  rw [← List.head?_filter, ← List.head?_filter, filter_agree h hp hp']

theorem countP_agree (h : rows.filter q = rows'.filter q')
    (hp : ∀ r ∈ rows, p r = true → q r = true)
    (hp' : ∀ r ∈ rows', p r = true → q' r = true) : rows.countP p = rows'.countP p := by
  rw [List.countP_eq_length_filter, List.countP_eq_length_filter, filter_agree h hp hp']

theorem any_agree (h : rows.filter q = rows'.filter q') (hp : ∀ r ∈ rows, p r = true → q r = true)
    (hp' : ∀ r ∈ rows', p r = true → q' r = true) : rows.any p = rows'.any p := by
  rw [← List.isSome_find?, ← List.isSome_find?, find?_agree h hp hp']

/-- Tables with the same rows, of which `p` selects one at most. -/
theorem find?_eq_of_mem_iff (hmem : ∀ r, r ∈ rows ↔ r ∈ rows')
    (hunique : ∀ r ∈ rows, ∀ r' ∈ rows, p r = true → p r' = true → r = r') :
    rows.find? p = rows'.find? p := by
  cases hfind : rows.find? p with
  | none =>
    rw [eq_comm, List.find?_eq_none]
    intro r hr
    exact List.find?_eq_none.mp hfind r ((hmem r).mpr hr)
  | some r =>
    have hr : r ∈ rows := List.mem_of_find?_eq_some hfind
    cases hfind' : rows'.find? p with
    | none => exact absurd (List.find?_some hfind) (List.find?_eq_none.mp hfind' r ((hmem r).mp hr))
    | some r' =>
      have hr' : r' ∈ rows := (hmem r').mpr (List.mem_of_find?_eq_some hfind')
      rw [hunique r hr r' hr' (List.find?_some hfind) (List.find?_some hfind')]

end Agree

/-- The first `n` rows with `p` are the first `n` rows with `q` if and only if every row
    on which `p` and `q` differ comes after `n` rows with both. -/
theorem take_filter_eq_iff {p q : ρ → Bool} {rows : List ρ} (hnodup : rows.Nodup) (n : ℕ) :
    (rows.filter p).take n = (rows.filter q).take n ↔
      ∀ before row after, rows = before ++ row :: after → p row ≠ q row →
        n ≤ before.countP fun r => p r && q r := by
  induction rows generalizing n with
  | nil => simp
  | cons x rows ih =>
    rw [List.nodup_cons] at hnodup
    have hsplit : (∀ before row after, x :: rows = before ++ row :: after → p row ≠ q row →
          n ≤ before.countP fun r => p r && q r) ↔
        (p x ≠ q x → n = 0) ∧ ∀ before row after, rows = before ++ row :: after → p row ≠ q row →
          n ≤ (before.countP fun r => p r && q r) + if p x && q x then 1 else 0 := by
      constructor
      · intro h
        refine ⟨fun hx => ?_, fun before row after heq hrow => ?_⟩
        · have hzero := h [] x rows rfl hx
          rw [List.countP_nil] at hzero
          omega
        · have hle := h (x :: before) row after (by rw [heq]; rfl) hrow
          rw [List.countP_cons] at hle
          exact hle
      · rintro ⟨hhead, htail⟩ before row after heq hrow
        cases before with
        | nil =>
          obtain ⟨rfl, -⟩ := List.cons.inj heq
          rw [hhead hrow]
          exact Nat.zero_le _
        | cons y before =>
          obtain ⟨rfl, hrest⟩ := List.cons.inj heq
          rw [List.countP_cons]
          exact htail before row after hrest hrow
    rw [hsplit]
    by_cases hx : p x = q x
    · cases hp : p x with
      | true =>
        rw [List.filter_cons_of_pos hp, List.filter_cons_of_pos (hx ▸ hp)]
        cases n with
        | zero => simp
        | succ n =>
          have hiff := ih hnodup.2 n
          rw [List.take_succ_cons, List.take_succ_cons, List.cons.injEq, hiff]
          simp [← hx, hp]
      | false =>
        rw [List.filter_cons_of_neg (by simp [hp]), List.filter_cons_of_neg (by simp [← hx, hp]),
          ih hnodup.2 n]
        simp [← hx, hp]
    · -- one of the two lists begins with `x`, which the other one does not hold
      have hnot : ∀ f : ρ → Bool, x ∉ (rows.filter f).take n := fun f hmem =>
        hnodup.1 (List.mem_of_mem_filter (List.mem_of_mem_take hmem))
      have hdiff : ∀ {f g : ρ → Bool}, f x = true → g x = false → 0 < n →
          ((x :: rows).filter f).take n ≠ ((x :: rows).filter g).take n := by
        intro f g hf hg hpos heq
        obtain ⟨k, rfl⟩ : ∃ k, n = k + 1 := ⟨n - 1, by omega⟩
        rw [List.filter_cons_of_pos hf, List.filter_cons_of_neg (by simp [hg]),
          List.take_succ_cons] at heq
        exact hnot g (heq ▸ List.mem_cons_self)
      rcases Nat.eq_zero_or_pos n with rfl | hpos
      · simp
      · have hne : ((x :: rows).filter p).take n ≠ ((x :: rows).filter q).take n := by
          cases hp : p x with
          | true => exact hdiff hp (by simpa [hp] using hx) hpos
          | false => exact (hdiff (by simpa [hp] using hx) hp hpos).symm
        refine ⟨fun h => absurd h hne, fun h => ?_⟩
        have hzero := h.1 hx
        omega

/-- A sequence of statements succeeds exactly when each of them does. -/
theorem bind_eq_ok {ε α β : Type} {x : Except ε α} {f : α → Except ε β} {b : β} :
    (x >>= f) = .ok b ↔ ∃ a, x = .ok a ∧ f a = .ok b := by
  cases x with
  | error e => simp [bind, Except.bind]
  | ok a => simp [bind, Except.bind]

end ConvoyChat.Lib
