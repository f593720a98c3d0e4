import Mathlib.Data.List.Basic
import Mathlib.Data.List.Nodup
import Mathlib.Logic.Function.Basic

/-!
# Row versions under READ COMMITTED

A table with a unique key as PostgreSQL keeps it: a list of row versions, each with the transaction
that inserted it and the one that deleted it, if any, and the status of every transaction. What a
transaction does to a version counts from its commit on and is void after its rollback.

`DELETE` looks at the versions that its snapshot saw one after another: it waits for the transaction
that is deleting one, and skips a version whose deletion is committed (`deleteAt`).
`INSERT … ON CONFLICT DO NOTHING` looks at the versions of now: it waits while the key depends on a
running transaction, and does nothing if the key is taken (`insertNew`).

* `Distinct`: the invariant of the unique key, kept by both statements, by commit and by rollback.
* `live_unique`: so no two committed rows have one key.
* `present_commit`: what a commit makes of the committed rows; nothing else changes them.
-/

namespace ConvoyChat.Lib

/-- The status of a transaction; one that has not begun is `running` and has done nothing. -/
inductive TxStatus
  | running
  | committed
  | aborted
deriving DecidableEq, Repr

structure RowVersion (κ : Type) where
  key : κ
  insertedBy : ℕ
  deletedBy : Option ℕ
deriving DecidableEq, Repr

/-- The versions by their position. -/
structure VersionHeap (κ : Type) where
  versions : List (RowVersion κ)
  status : ℕ → TxStatus

namespace VersionHeap

variable {κ : Type} (H : VersionHeap κ)

/-- A deletion of the version is committed. -/
def gone (v : RowVersion κ) : Bool := v.deletedBy.any fun t => H.status t = .committed

/-- The version is a committed row. -/
def live (v : RowVersion κ) : Bool := H.status v.insertedBy = .committed && !H.gone v

/-- The version is a row, or may become one or stay one. -/
def standing (v : RowVersion κ) : Bool := H.status v.insertedBy ≠ .aborted && !H.gone v

/-- Whether the version is a row depends on a running transaction. -/
def unsettled (v : RowVersion κ) : Bool :=
  H.status v.insertedBy = .running || v.deletedBy.any fun t => H.status t = .running

/-- A committed row has the key `k`. -/
def present [DecidableEq κ] (k : κ) : Bool := H.versions.any fun v => v.key = k && H.live v

/-- The positions of the rows that a statement which begins now finds under `k`. -/
def snapshot [DecidableEq κ] (k : κ) : List ℕ :=
  (List.range H.versions.length).filter fun i =>
    (H.versions[i]?).any fun v => v.key = k && H.live v

/-- Transaction `t` ends. -/
def finish (t : ℕ) (status : TxStatus) : VersionHeap κ :=
  { H with status := Function.update H.status t status }

/-- Mark the version at `i` as deleted by `t`. -/
def mark (t i : ℕ) : VersionHeap κ :=
  { H with versions := H.versions.modify i fun v => { v with deletedBy := some t } }

/-- Append a version. -/
def append (t : ℕ) (k : κ) : VersionHeap κ :=
  { H with versions := H.versions ++ [⟨k, t, none⟩] }

/-- `DELETE` arrives at the version at `i`; `none` while it waits. -/
def deleteAt (t i : ℕ) : Option (VersionHeap κ × Bool) :=
  match H.versions[i]? with
  | none => some (H, false)
  | some v =>
    match v.deletedBy with
    | none => some (H.mark t i, true)
    | some t' =>
      match H.status t' with
      | .aborted => some (H.mark t i, true)
      | .committed => some (H, false)
      | .running => none

/-- `INSERT … ON CONFLICT DO NOTHING`; `none` while it waits. -/
def insertNew [DecidableEq κ] (t : ℕ) (k : κ) : Option (VersionHeap κ × Bool) :=
  let rivals := H.versions.filter fun v => v.key = k && H.standing v
  if rivals.any H.unsettled then none
  else if rivals = [] then some (H.append t k, true)
  else some (H, false)

/-! ## What is looked at -/

variable {H : VersionHeap κ} {t : ℕ} {k : κ} {v w : RowVersion κ} {i j : ℕ}

theorem present_iff [DecidableEq κ] :
    H.present k = true ↔ ∃ v ∈ H.versions, v.key = k ∧ H.live v = true := by
  simp [present]

theorem live_iff : H.live v = true ↔ H.status v.insertedBy = .committed ∧ H.gone v = false := by
  simp [live]

theorem standing_iff :
    H.standing v = true ↔ H.status v.insertedBy ≠ .aborted ∧ H.gone v = false := by
  simp [standing]

theorem gone_eq_false : H.gone v = false ↔ ∀ t, v.deletedBy = some t → H.status t ≠ .committed := by
  unfold gone
  cases v.deletedBy with
  | none => simp
  | some t => simp

theorem standing_of_live (h : H.live v = true) : H.standing v = true := by
  rw [live_iff] at h
  exact standing_iff.mpr ⟨by simp [h.1], h.2⟩

/-- A row that no running transaction is deleting, and none has inserted, is committed. -/
theorem live_of_settled (hstanding : H.standing v = true) (hsettled : H.unsettled v = false) :
    H.live v = true := by
  rw [standing_iff] at hstanding
  simp only [unsettled, Bool.or_eq_false_iff, decide_eq_false_iff_not] at hsettled
  refine live_iff.mpr ⟨?_, hstanding.2⟩
  cases hstatus : H.status v.insertedBy with
  | committed => rfl
  | running => exact absurd hstatus hsettled.1
  | aborted => exact absurd hstatus hstanding.1

theorem mem_snapshot [DecidableEq κ] :
    i ∈ H.snapshot k ↔ ∃ v, H.versions[i]? = some v ∧ v.key = k ∧ H.live v = true := by
  simp only [snapshot, List.mem_filter, List.mem_range, Option.any_eq_true, Bool.and_eq_true,
    decide_eq_true_eq]
  constructor
  · intro h
    exact h.2
  · intro h
    obtain ⟨v, hv, hrest⟩ := h
    exact ⟨(List.getElem?_eq_some_iff.mp hv).1, v, hv, hrest⟩

/-! ## The unique key -/

/-- `w` takes the place of `v` in one running transaction. -/
def Replaces (H : VersionHeap κ) (w v : RowVersion κ) : Prop :=
  ∃ t, H.status t = .running ∧ v.deletedBy = some t ∧ w.insertedBy = t

/-- Whatever becomes of the running transactions, no key has two rows. -/
def Distinct (H : VersionHeap κ) : Prop :=
  ∀ (i j : ℕ) (v w : RowVersion κ), i < j → H.versions[i]? = some v → H.versions[j]? = some w →
  v.key = w.key →
    H.standing v = true → H.standing w = true → H.Replaces w v

/-- Two committed rows have different keys. -/
theorem live_unique (h : H.Distinct) (hi : H.versions[i]? = some v) (hj : H.versions[j]? = some w)
    (hkey : v.key = w.key) (hv : H.live v = true) (hw : H.live w = true) : i = j := by
  have hnot : ∀ {i j : ℕ} {v w : RowVersion κ}, i < j → H.versions[i]? = some v →
    H.versions[j]? = some w →
      v.key = w.key → H.live v = true → H.live w = true → False := by
    intro i j v w hlt hi hj hkey hv hw
    obtain ⟨t, ht, -, hins⟩ := h i j v w hlt hi hj hkey (standing_of_live hv) (standing_of_live hw)
    rw [live_iff, hins, ht] at hw
    cases hw.1
  rcases Nat.lt_trichotomy i j with hlt | heq | hlt
  · exact (hnot hlt hi hj hkey hv hw).elim
  · exact heq
  · exact (hnot hlt hj hi hkey.symm hw hv).elim

/-- A row is found at one position. -/
theorem snapshot_eq_or [DecidableEq κ] (h : H.Distinct) (k : κ) :
    H.snapshot k = [] ∨ ∃ i, H.snapshot k = [i] := by
  have hnodup : (H.snapshot k).Nodup := List.nodup_range.filter _
  cases hsnap : H.snapshot k with
  | nil => exact .inl rfl
  | cons i rest =>
    refine .inr ⟨i, ?_⟩
    cases rest with
    | nil => rfl
    | cons j rest =>
      obtain ⟨v, hv, hkv, hlv⟩ := mem_snapshot.mp (hsnap ▸ List.mem_cons_self : i ∈ H.snapshot k)
      obtain ⟨w, hw, hkw, hlw⟩ := mem_snapshot.mp
        (hsnap ▸ List.mem_cons_of_mem _ List.mem_cons_self : j ∈ H.snapshot k)
      have hij := live_unique h hv hw (hkv.trans hkw.symm) hlv hlw
      rw [hsnap, hij] at hnodup
      simp at hnodup

/-! ## Statements -/

theorem getElem?_mark :
    (H.mark t i).versions[j]? =
      if j = i then (H.versions[j]?).map fun v => { v with deletedBy := some t }
      else H.versions[j]? := by
  show (H.versions.modify i _)[j]? = _
  rw [List.getElem?_modify]
  split_ifs with hij hji hji
  · rfl
  · exact absurd hij.symm hji
  · exact absurd hji.symm hij
  · exact Option.map_id' ..

/-- The version of a marked heap and the one it was. -/
theorem of_getElem?_mark (h : (H.mark t i).versions[j]? = some w) :
    ∃ v, H.versions[j]? = some v ∧
      ((j = i ∧ w = { v with deletedBy := some t }) ∨ (j ≠ i ∧ w = v)) := by
  rw [getElem?_mark] at h
  split_ifs at h with hji
  · obtain ⟨v, hv, rfl⟩ := Option.map_eq_some_iff.mp h
    exact ⟨v, hv, .inl ⟨hji, rfl⟩⟩
  · exact ⟨w, h, .inr ⟨hji, rfl⟩⟩

theorem of_getElem?_append (h : (H.append t k).versions[j]? = some w) :
    H.versions[j]? = some w ∨ (j = H.versions.length ∧ w = ⟨k, t, none⟩) := by
  change (H.versions ++ [⟨k, t, none⟩])[j]? = some w at h
  rw [List.getElem?_append] at h
  split_ifs at h with hj
  · exact .inl h
  · obtain ⟨hlt, rfl⟩ := List.getElem?_eq_some_iff.mp h
    have hj' : j - H.versions.length = 0 := by simpa using hlt
    exact .inr ⟨by omega, by simp [hj']⟩

/-- All that `DELETE` does with one version. -/
theorem deleteAt_cases {out : VersionHeap κ × Bool} (h : H.deleteAt t i = some out) :
    (∃ v, H.versions[i]? = some v ∧ (∀ t', v.deletedBy = some t' → H.status t' = .aborted) ∧
      out = (H.mark t i, true)) ∨
    ((∀ v, H.versions[i]? = some v → H.gone v = true) ∧ out = (H, false)) := by
  unfold deleteAt at h
  split at h
  · rename_i hnone
    cases h
    refine .inr ⟨fun v hv => ?_, rfl⟩
    rw [hnone] at hv
    cases hv
  · rename_i v hv
    split at h
    · rename_i hdel
      cases h
      exact .inl ⟨v, hv, by simp [hdel], rfl⟩
    · rename_i t' hdel
      split at h
      · rename_i hstatus
        cases h
        refine .inl ⟨v, hv, fun t'' ht'' => ?_, rfl⟩
        rw [hdel] at ht''
        cases ht''
        exact hstatus
      · rename_i hstatus
        cases h
        refine .inr ⟨fun v' hv' => ?_, rfl⟩
        rw [hv] at hv'
        cases hv'
        simp [gone, hdel, hstatus]
      · cases h

/-- What `DELETE` waits for. -/
theorem deleteAt_waits (h : H.deleteAt t i = none) (hv : H.versions[i]? = some v) :
    ∃ t', v.deletedBy = some t' ∧ H.status t' = .running := by
  simp only [deleteAt, hv] at h
  split at h
  · cases h
  · rename_i t' hdel
    split at h
    · cases h
    · cases h
    · rename_i hrun
      exact ⟨t', hdel, hrun⟩

/-- What `INSERT … ON CONFLICT DO NOTHING` waits for. -/
theorem insertNew_waits [DecidableEq κ] (h : H.insertNew t k = none) : ∃ v ∈ H.versions, v.key = k ∧
    (H.status v.insertedBy = .running ∨ ∃ t', v.deletedBy = some t' ∧ H.status t' = .running) := by
  simp only [insertNew] at h
  split_ifs at h with hwait
  obtain ⟨v, hv, hunsettled⟩ := List.any_eq_true.mp hwait
  simp only [List.mem_filter, Bool.and_eq_true, decide_eq_true_eq] at hv
  simp only [unsettled, Bool.or_eq_true, decide_eq_true_eq, Option.any_eq_true] at hunsettled
  exact ⟨v, hv.1, hv.2.1, hunsettled⟩

/-- All that `INSERT … ON CONFLICT DO NOTHING` does. -/
theorem insertNew_cases [DecidableEq κ] {out : VersionHeap κ × Bool}
    (h : H.insertNew t k = some out) :
    ((∀ v ∈ H.versions, v.key = k → H.standing v = false) ∧ out = (H.append t k, true)) ∨
    ((∃ v ∈ H.versions, v.key = k ∧ H.live v = true) ∧ out = (H, false)) := by
  simp only [insertNew] at h
  split_ifs at h with hwait hfree
  · cases h
    rw [List.filter_eq_nil_iff] at hfree
    refine .inl ⟨fun v hv hkey => ?_, rfl⟩
    simpa [hkey] using hfree v hv
  · cases h
    obtain ⟨v, hv⟩ := List.exists_mem_of_ne_nil _ hfree
    have hsettled : H.unsettled v = false := by
      simp only [List.any_eq_true, not_exists, not_and, Bool.not_eq_true] at hwait
      exact hwait v hv
    simp only [List.mem_filter, Bool.and_eq_true, decide_eq_true_eq] at hv
    exact .inr ⟨⟨v, hv.1, hv.2.1, live_of_settled hv.2.2 hsettled⟩, rfl⟩

theorem Distinct.mark (h : H.Distinct) (hv : H.versions[i]? = some v)
    (hfree : ∀ t', v.deletedBy = some t' → H.status t' = .aborted) : (H.mark t i).Distinct := by
  intro m n x y hmn hx hy hkey hsx hsy
  obtain ⟨x', hx', hxcase⟩ := of_getElem?_mark hx
  obtain ⟨y', hy', hycase⟩ := of_getElem?_mark hy
  -- a version that stands after it was marked stood before
  have hgone : H.gone v = false := by
    refine gone_eq_false.mpr fun t' hdel => ?_
    rw [hfree t' hdel]
    exact nofun
  have hstood : ∀ {n : ℕ} {x x' : RowVersion κ}, H.versions[n]? = some x' →
      ((n = i ∧ x = { x' with deletedBy := some t }) ∨ (n ≠ i ∧ x = x')) →
      (H.mark t i).standing x = true → x.key = x'.key ∧ x.insertedBy = x'.insertedBy ∧
        H.standing x' = true := by
    intro n x x' hx' hcase hs
    rcases hcase with ⟨rfl, rfl⟩ | ⟨-, rfl⟩
    · rw [hv] at hx'
      cases hx'
      exact ⟨rfl, rfl, standing_iff.mpr ⟨(standing_iff.mp hs).1, hgone⟩⟩
    · exact ⟨rfl, rfl, hs⟩
  obtain ⟨hxkey, -, hxs⟩ := hstood hx' hxcase hsx
  obtain ⟨hykey, hyins, hys⟩ := hstood hy' hycase hsy
  obtain ⟨t', hrun, hdel, hins⟩ := h m n x' y' hmn hx' hy'
    (hxkey.symm.trans (hkey.trans hykey)) hxs hys
  rcases hxcase with ⟨rfl, rfl⟩ | ⟨-, rfl⟩
  · -- its deletion was free, so nothing replaced it
    rw [hv] at hx'
    cases hx'
    rw [hfree t' hdel] at hrun
    cases hrun
  · exact ⟨t', hrun, hdel, hyins.trans hins⟩

theorem Distinct.append (h : H.Distinct) (ht : H.status t = .running)
    (hfree : ∀ v ∈ H.versions, v.key = k → H.standing v = false ∨ v.deletedBy = some t) :
    (H.append t k).Distinct := by
  intro m n x y hmn hx hy hkey hsx hsy
  rcases of_getElem?_append hx with hx' | ⟨rfl, rfl⟩
  · rcases of_getElem?_append hy with hy' | ⟨rfl, rfl⟩
    · exact h m n x y hmn hx' hy' hkey hsx hsy
    · rcases hfree x (List.mem_of_getElem? hx') hkey with hfalse | hdel
      · have htrue : H.standing x = true := hsx
        rw [hfalse] at htrue
        cases htrue
      · exact ⟨t, ht, hdel, rfl⟩
  · rcases of_getElem?_append hy with hy' | ⟨rfl, rfl⟩
    · have hlt := (List.getElem?_eq_some_iff.mp hy').1
      omega
    · omega

/-- A transaction that ends leaves fewer versions standing. -/
theorem standing_finish {status : TxStatus} (ht : H.status t = .running)
    (h : (H.finish t status).standing v = true) :
    H.standing v = true ∧ (v.insertedBy = t → status ≠ .aborted) ∧
      (v.deletedBy = some t → status ≠ .committed) := by
  rw [standing_iff, gone_eq_false] at h
  obtain ⟨hins, hdel⟩ := h
  change Function.update H.status t status v.insertedBy ≠ _ at hins
  refine ⟨standing_iff.mpr ⟨?_, gone_eq_false.mpr fun t' ht' => ?_⟩, fun hit => ?_, fun hdt => ?_⟩
  · by_cases hit : v.insertedBy = t
    · rw [hit, ht]
      exact nofun
    · rwa [Function.update_of_ne hit] at hins
  · have hnot := hdel t' ht'
    change Function.update H.status t status t' ≠ _ at hnot
    by_cases htt : t' = t
    · rw [htt, ht]
      exact nofun
    · rwa [Function.update_of_ne htt] at hnot
  · rwa [hit, Function.update_self] at hins
  · have hnot := hdel t hdt
    change Function.update H.status t status t ≠ _ at hnot
    rwa [Function.update_self] at hnot

theorem Distinct.finish (h : H.Distinct) {status : TxStatus} (ht : H.status t = .running)
    (hended : status ≠ .running) : (H.finish t status).Distinct := by
  intro m n x y hmn hx hy hkey hsx hsy
  obtain ⟨hsx', -, hxdel⟩ := standing_finish ht hsx
  obtain ⟨hsy', hyins, -⟩ := standing_finish ht hsy
  obtain ⟨t', hrun, hdel, hins⟩ := h m n x y hmn hx hy hkey hsx' hsy'
  have htt : t' ≠ t := by
    rintro rfl
    cases hstatus : status with
    | running => exact hended hstatus
    | committed => exact hxdel hdel hstatus
    | aborted => exact hyins hins hstatus
  refine ⟨t', ?_, hdel, hins⟩
  show Function.update H.status t status t' = .running
  rw [Function.update_of_ne htt]
  exact hrun

/-! ## The committed rows -/

/-- An uncommitted insert is not seen. -/
theorem present_append [DecidableEq κ] (ht : H.status t = .running) :
    (H.append t k).present = H.present := by
  funext k'
  have hnew : (H.append t k).live ⟨k, t, none⟩ = false := by
    show (decide (H.status t = .committed) && _) = false
    rw [ht]
    rfl
  show (H.versions ++ [(⟨k, t, none⟩ : RowVersion κ)]).any
    (fun v => v.key = k' && (H.append t k).live v) = _
  rw [List.any_append, List.any_cons, hnew]
  simp only [Bool.and_false, List.any_nil, Bool.or_false]
  rfl

/-- An uncommitted deletion is not seen. -/
theorem present_mark [DecidableEq κ] (ht : H.status t = .running) (hv : H.versions[i]? = some v)
    (hgone : H.gone v = false) : (H.mark t i).present = H.present := by
  have hlive : (H.mark t i).live { v with deletedBy := some t } = H.live v := by
    have hnot : (H.mark t i).gone { v with deletedBy := some t } = false := by
      show decide (H.status t = .committed) = false
      rw [ht]
      rfl
    rw [live, live, hnot, hgone]
    rfl
  funext k'
  rw [Bool.eq_iff_iff, present_iff, present_iff]
  constructor
  · intro h
    obtain ⟨w, hw, hkey, hlw⟩ := h
    obtain ⟨n, hn⟩ := List.mem_iff_getElem?.mp hw
    obtain ⟨x, hx, hcase⟩ := of_getElem?_mark hn
    rcases hcase with ⟨rfl, rfl⟩ | ⟨-, rfl⟩
    · rw [hv] at hx
      cases hx
      exact ⟨v, List.mem_of_getElem? hv, hkey, hlive ▸ hlw⟩
    · exact ⟨w, List.mem_of_getElem? hx, hkey, hlw⟩
  · intro h
    obtain ⟨w, hw, hkey, hlw⟩ := h
    obtain ⟨n, hn⟩ := List.mem_iff_getElem?.mp hw
    by_cases hni : n = i
    · subst hni
      rw [hv] at hn
      cases hn
      refine ⟨{ v with deletedBy := some t }, List.mem_of_getElem? (i := n) ?_,
        hkey, hlive.trans hlw⟩
      rw [getElem?_mark, if_pos rfl, hv]
      rfl
    · refine ⟨w, List.mem_of_getElem? (i := n) ?_, hkey, hlw⟩
      rw [getElem?_mark, if_neg hni]
      exact hn

/-- A rollback undoes nothing that was seen. -/
theorem live_abort (ht : H.status t = .running) : (H.finish t .aborted).live v = H.live v := by
  have hstatus : ∀ t', Function.update H.status t .aborted t' = .committed ↔
      H.status t' = .committed := by
    intro t'
    by_cases htt : t' = t
    · subst htt
      simp [ht]
    · rw [Function.update_of_ne htt]
  rw [Bool.eq_iff_iff, live_iff, live_iff, gone_eq_false, gone_eq_false]
  show (Function.update H.status t .aborted v.insertedBy = .committed ∧
    ∀ t', v.deletedBy = some t' → Function.update H.status t .aborted t' ≠ .committed) ↔ _
  simp only [ne_eq, hstatus]

theorem present_abort [DecidableEq κ] (ht : H.status t = .running) :
    (H.finish t .aborted).present = H.present := by
  funext k'
  show (H.versions.any fun v => v.key = k' && (H.finish t .aborted).live v) = _
  simp only [live_abort ht]
  rfl

theorem live_commit (ht : H.status t = .running) : (H.finish t .committed).live v = true ↔
    v.deletedBy ≠ some t ∧ H.gone v = false ∧
      (v.insertedBy = t ∨ H.status v.insertedBy = .committed) := by
  rw [live_iff, gone_eq_false, gone_eq_false]
  show (Function.update H.status t .committed v.insertedBy = .committed ∧
    ∀ t', v.deletedBy = some t' → Function.update H.status t .committed t' ≠ .committed) ↔ _
  constructor
  · intro h
    obtain ⟨hins, hdel⟩ := h
    have hnot : v.deletedBy ≠ some t := by
      intro hdt
      have hcommitted := hdel t hdt
      rw [Function.update_self] at hcommitted
      exact hcommitted rfl
    refine ⟨hnot, fun t' ht' => ?_, ?_⟩
    · have htt : t' ≠ t := by
        rintro rfl
        exact hnot ht'
      have hstatus := hdel t' ht'
      rwa [Function.update_of_ne htt] at hstatus
    · by_cases hit : v.insertedBy = t
      · exact .inl hit
      · rw [Function.update_of_ne hit] at hins
        exact .inr hins
  · intro h
    obtain ⟨hnot, hgone, hins⟩ := h
    refine ⟨?_, fun t' ht' => ?_⟩
    · by_cases hit : v.insertedBy = t
      · rw [hit, Function.update_self]
      · rw [Function.update_of_ne hit]
        exact hins.resolve_left hit
    · have htt : t' ≠ t := by
        rintro rfl
        exact hnot ht'
      rw [Function.update_of_ne htt]
      exact hgone t' ht'

theorem present_commit [DecidableEq κ] (ht : H.status t = .running) :
    (H.finish t .committed).present k = true ↔
    ∃ v ∈ H.versions, v.key = k ∧ v.deletedBy ≠ some t ∧ H.gone v = false ∧
      (v.insertedBy = t ∨ H.status v.insertedBy = .committed) := by
  rw [present_iff]
  simp only [live_commit ht]
  rfl

end VersionHeap

end ConvoyChat.Lib
