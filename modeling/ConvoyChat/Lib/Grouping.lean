import Mathlib.Data.List.Induction
import Mathlib.Data.List.Nodup

/-!
# Grouping a keyed list

`groups mk l` has one entry for each key of the list `l`, in the order in which the keys first
occur: `mk k vs`, where `vs` are the values of the key `k` in order. An index map holds the
position of the entry of each key, `(groupKeys l).idxOf? k`. One more pair at the end

* changes the entry of its key alone, and no position, if the key occurred before
  (`groups_concat_of_idxOf`);
* appends an entry, whose position is the number of entries before it, if it did not
  (`groups_concat_of_notMem`, `idxOf?_groupKeys_concat`).

`foldl_updateKey` is about a map that is filled by such a loop, key by key.
-/

namespace ConvoyChat.Lib

universe u v w

variable {κ : Type u} {υ : Type v} {γ : Type w} [DecidableEq κ]

/-- The keys, each once, in the order in which they first occur. -/
def groupKeys (l : List (κ × υ)) : List κ := (l.map (·.1)).eraseDups

/-- The values of `k`, in order. -/
def valuesAt (l : List (κ × υ)) (k : κ) : List υ := (l.filter fun p => p.1 = k).map (·.2)

/-- One entry for each key. -/
def groups (mk : κ → List υ → γ) (l : List (κ × υ)) : List γ :=
  (groupKeys l).map fun k => mk k (valuesAt l k)

variable {l : List (κ × υ)} {k k' : κ} {v : υ} {i : ℕ}

/-! ## Keys -/

theorem mem_groupKeys : k ∈ groupKeys l ↔ ∃ v, (k, v) ∈ l := by
  rw [groupKeys, List.mem_eraseDups, List.mem_map]
  constructor
  · rintro ⟨⟨k', v⟩, hmem, rfl⟩
    exact ⟨v, hmem⟩
  · rintro ⟨v, hmem⟩
    exact ⟨(k, v), hmem, rfl⟩

theorem groupKeys_concat_of_mem (h : k ∈ groupKeys l) :
    groupKeys (l ++ [(k, v)]) = groupKeys l := by
  rw [groupKeys, List.mem_eraseDups] at h
  rw [groupKeys, List.map_append, List.eraseDups_append]
  simp [List.removeAll, h, groupKeys]

theorem groupKeys_concat_of_notMem (h : k ∉ groupKeys l) :
    groupKeys (l ++ [(k, v)]) = groupKeys l ++ [k] := by
  rw [groupKeys, List.mem_eraseDups] at h
  rw [groupKeys, List.map_append, List.eraseDups_append]
  simp [List.removeAll, h, groupKeys, List.eraseDups_cons]

theorem mem_groupKeys_of_idxOf (h : (groupKeys l).idxOf? k = some i) : k ∈ groupKeys l := by
  obtain ⟨hlt, heq, -⟩ := List.idxOf?_eq_some_iff.mp h
  rw [← heq]
  exact List.getElem_mem hlt

/-- The keys stand in the order of their first pairs. -/
theorem groupKeys_pairwise (l : List (κ × υ)) :
    (groupKeys l).Pairwise fun a b => (l.map (·.1)).idxOf a < (l.map (·.1)).idxOf b := by
  induction l using List.reverseRecOn with
  | nil => exact List.Pairwise.nil
  | append_singleton l p ih =>
    have hold : ∀ a ∈ groupKeys l, ((l ++ [p]).map (·.1)).idxOf a = (l.map (·.1)).idxOf a := by
      intro a ha
      rw [List.map_append, List.idxOf_append_of_mem (List.mem_eraseDups.mp ha)]
    have hbefore : (groupKeys l).Pairwise fun a b =>
        ((l ++ [p]).map (·.1)).idxOf a < ((l ++ [p]).map (·.1)).idxOf b := by
      refine ih.imp_of_mem fun {a b} ha hb hab => ?_
      rw [hold a ha, hold b hb]
      exact hab
    by_cases h : p.1 ∈ groupKeys l
    · rw [groupKeys_concat_of_mem h]
      exact hbefore
    · rw [groupKeys_concat_of_notMem h, List.pairwise_append]
      refine ⟨hbefore, List.pairwise_singleton _ _, fun a ha b hb => ?_⟩
      have hlt := List.idxOf_lt_length_of_mem (List.mem_eraseDups.mp ha)
      rw [hold a ha, List.mem_singleton.mp hb, List.map_append,
        List.idxOf_append_of_notMem fun hmem => h (List.mem_eraseDups.mpr hmem)]
      omega

theorem groupKeys_nodup (l : List (κ × υ)) : (groupKeys l).Nodup :=
  (groupKeys_pairwise l).imp fun {a b} hab heq => by
    rw [heq] at hab
    omega

/-! ## Values -/

theorem valuesAt_concat_self : valuesAt (l ++ [(k, v)]) k = valuesAt l k ++ [v] := by
  simp [valuesAt]

theorem valuesAt_concat_of_ne (h : k ≠ k') : valuesAt (l ++ [(k, v)]) k' = valuesAt l k' := by
  simp [valuesAt, h]

theorem mem_valuesAt : v ∈ valuesAt l k ↔ (k, v) ∈ l := by
  simp [valuesAt]

theorem valuesAt_nodup (h : l.Nodup) (k : κ) : (valuesAt l k).Nodup := by
  refine (h.filter _).map_on fun p hp q hq heq => ?_
  have hpk := of_decide_eq_true (List.mem_filter.mp hp).2
  have hqk := of_decide_eq_true (List.mem_filter.mp hq).2
  exact Prod.ext (hpk.trans hqk.symm) heq

/-! ## One more pair -/

/-- An index map that appends the new key at the end. -/
theorem idxOf?_groupKeys_concat (h : k ∉ groupKeys l) (k' : κ) :
    (groupKeys (l ++ [(k, v)])).idxOf? k' =
      if k' = k then some (groupKeys l).length else (groupKeys l).idxOf? k' := by
  rw [groupKeys_concat_of_notMem h, List.idxOf?, List.findIdx?_append]
  by_cases hk : k' = k
  · have hnone : (groupKeys l).findIdx? (· == k') = none := by
      rw [hk]
      exact List.idxOf?_eq_none_iff.mpr h
    rw [hnone, if_pos hk]
    simp [hk]
  · rw [if_neg hk]
    simp [Ne.symm hk]

/-- The entry of a key that occurred before is changed in its place. -/
theorem groups_concat_of_idxOf {mk : κ → List υ → γ} (add : γ → γ)
    (hadd : add (mk k (valuesAt l k)) = mk k (valuesAt l k ++ [v]))
    (hpos : (groupKeys l).idxOf? k = some i) :
    groups mk (l ++ [(k, v)]) = (groups mk l).modify i add := by
  obtain ⟨hlt, heq, -⟩ := List.idxOf?_eq_some_iff.mp hpos
  have hk : (groupKeys l)[i]? = some k := by
    rw [List.getElem?_eq_getElem hlt, heq]
  rw [groups, groupKeys_concat_of_mem (mem_groupKeys_of_idxOf hpos)]
  refine List.ext_getElem? fun j => ?_
  rw [groups, List.getElem?_modify, List.getElem?_map, List.getElem?_map]
  cases hj : (groupKeys l)[j]? with
  | none => rfl
  | some a =>
    simp only [Option.map_some]
    by_cases hij : i = j
    · subst hij
      rw [hk] at hj
      cases hj
      rw [valuesAt_concat_self, ← hadd]
      simp
    · have hne : k ≠ a := by
        rintro rfl
        exact hij ((List.getElem?_inj (List.getElem?_eq_some_iff.mp hk).1 (groupKeys_nodup l)).mp
          (hk.trans hj.symm))
      rw [valuesAt_concat_of_ne hne]
      simp [hij]

/-- A new key has an entry of its own at the end. -/
theorem groups_concat_of_notMem {mk : κ → List υ → γ} (h : k ∉ groupKeys l) :
    groups mk (l ++ [(k, v)]) = groups mk l ++ [mk k [v]] := by
  rw [groups, groups, groupKeys_concat_of_notMem h, List.map_append, List.map_singleton,
    valuesAt_concat_self]
  have hnone : valuesAt l k = [] :=
    List.eq_nil_iff_forall_not_mem.mpr fun v hv => h (mem_groupKeys.mpr ⟨v, mem_valuesAt.mp hv⟩)
  have hold : ∀ a ∈ groupKeys l, mk a (valuesAt (l ++ [(k, v)]) a) = mk a (valuesAt l a) := by
    intro a ha
    have hne : k ≠ a := by
      rintro rfl
      exact h ha
    rw [valuesAt_concat_of_ne hne]
  rw [List.map_congr_left hold, hnone, List.nil_append]

/-! ## A map by key -/

/-- Folding into the entry of each key folds, at one key, over the elements of that key. -/
theorem foldl_updateKey {ρ : Type v} (key : ρ → κ) (add : List γ → ρ → List γ) (l : List ρ)
    (result : κ → Option (List γ)) (k : κ) :
    ((l.foldl (fun (result : κ → Option (List γ)) row => Function.update result (key row)
      (some (add ((result (key row)).getD []) row))) result) k).getD [] =
      (l.filter fun row => key row = k).foldl add ((result k).getD []) := by
  induction l generalizing result with
  | nil => simp
  | cons row l ih =>
    rw [List.foldl_cons, ih]
    by_cases hk : key row = k
    · subst hk
      rw [Function.update_self, List.filter_cons_of_pos (by simp)]
      rfl
    · rw [Function.update_of_ne (Ne.symm hk), List.filter_cons_of_neg (by simpa using hk)]

end ConvoyChat.Lib
