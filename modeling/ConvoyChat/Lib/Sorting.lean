import Mathlib.Data.List.Sort

/-!
# Sorting what is there

A comparator is often total and transitive on the rows of one list only. Lists that are
strictly sorted by it are determined by their members, and the first `n` of them are the
members with fewer than `n` smaller ones.

* `pairwise_mergeSort_of_mem`: the sort sorts, by the laws on the members.
* `eq_of_pairwise_of_mem_iff`: a strictly sorted list is determined by its members.
* `pair_sublist_iff_of_pairwise`: who stands before whom.
* `mem_take_iff_of_pairwise`: who is among the first `n`.
-/

namespace ConvoyChat.Lib

universe u

variable {α : Type u}

section Total

variable {le : α → α → Bool} {l : List α}

theorem pairwise_mergeSort_of_mem
    (htrans : ∀ a ∈ l, ∀ b ∈ l, ∀ c ∈ l, le a b = true → le b c = true → le a c = true)
    (htotal : ∀ a ∈ l, ∀ b ∈ l, (le a b || le b a) = true) :
    (l.mergeSort le).Pairwise fun a b => le a b = true := by
  -- the members of `l`, with their membership, are sorted by a lawful comparator
  have hmap : (l.attach.mergeSort fun a b => le a.1 b.1).map Subtype.val = l.mergeSort le := by
    rw [List.map_mergeSort (s := le) fun _ _ _ _ => rfl, List.attach_map_subtype_val]
  rw [← hmap, List.pairwise_map]
  refine List.pairwise_mergeSort (fun a b c hab hbc => ?_) (fun a b => ?_) l.attach
  · exact htrans a.1 a.2 b.1 b.2 c.1 c.2 hab hbc
  · exact htotal a.1 a.2 b.1 b.2

end Total

section Strict

variable {lt : α → α → Prop} {l l' : List α}

/-- No row comes before itself, so a strictly sorted list has no row twice. -/
theorem nodup_of_pairwise (hasymm : ∀ a ∈ l, ∀ b ∈ l, lt a b → ¬ lt b a) (h : l.Pairwise lt) :
    l.Nodup := by
  refine List.Pairwise.imp_of_mem ?_ h
  intro a b ha hb hab heq
  apply hasymm a ha b hb hab
  rw [heq] at hab ⊢
  exact hab

theorem eq_of_pairwise_of_mem_iff (hasymm : ∀ a ∈ l, ∀ b ∈ l, lt a b → ¬ lt b a)
    (h : l.Pairwise lt) (h' : l'.Pairwise lt) (hmem : ∀ x, x ∈ l ↔ x ∈ l') : l = l' := by
  have hasymm' : ∀ a ∈ l', ∀ b ∈ l', lt a b → ¬ lt b a :=
    fun a ha b hb => hasymm a ((hmem a).mpr ha) b ((hmem b).mpr hb)
  have hperm : l.Perm l' :=
    (List.perm_ext_iff_of_nodup (nodup_of_pairwise hasymm h) (nodup_of_pairwise hasymm' h')).mpr
      hmem
  refine hperm.eq_of_pairwise ?_ h h'
  intro a b ha hb hab hba
  exact absurd hba (hasymm a ha b ((hmem b).mpr hb) hab)

/-- In a strictly sorted list `a` stands before `b` exactly when it is smaller. -/
theorem pair_sublist_iff_of_pairwise {a b : α} (hasymm : ∀ a ∈ l, ∀ b ∈ l, lt a b → ¬ lt b a)
    (h : l.Pairwise lt) (ha : a ∈ l) (hb : b ∈ l) : [a, b].Sublist l ↔ lt a b := by
  constructor
  · intro hsub
    exact List.pairwise_iff_forall_sublist.mp h hsub
  · intro hab
    induction l with
    | nil => simp at ha
    | cons x l ih =>
      obtain ⟨hfirst, hrest⟩ := List.pairwise_cons.mp h
      rcases List.mem_cons.mp ha with rfl | ha'
      · rcases List.mem_cons.mp hb with rfl | hb'
        · exact absurd hab (hasymm b ha b ha hab)
        · exact List.Sublist.cons_cons a (List.singleton_sublist.mpr hb')
      · rcases List.mem_cons.mp hb with rfl | hb'
        · exact absurd hab (hasymm b hb a ha (hfirst a ha'))
        · have hrec := ih (fun y hy z hz => hasymm y (by simp [hy]) z (by simp [hz])) hrest ha' hb'
          exact hrec.cons x

theorem mem_take_iff_of_pairwise [DecidableRel lt]
    (hasymm : ∀ a ∈ l, ∀ b ∈ l, lt a b → ¬ lt b a) (h : l.Pairwise lt) (n : ℕ) (x : α) :
    x ∈ l.take n ↔ x ∈ l ∧ (l.countP fun y => lt y x) < n := by
  induction l generalizing n with
  | nil => simp
  | cons a l ih =>
    obtain ⟨hfirst, hrest⟩ := List.pairwise_cons.mp h
    have hirrefl : ¬ lt a a := fun haa => hasymm a (by simp) a (by simp) haa haa
    have hself : (l.countP fun y => lt y a) = 0 := by
      rw [List.countP_eq_zero]
      intro y hy
      simpa using hasymm a (by simp) y (by simp [hy]) (hfirst y hy)
    cases n with
    | zero => simp
    | succ n =>
      have hrec := ih (fun b hb c hc => hasymm b (by simp [hb]) c (by simp [hc])) hrest n
      rw [List.take_succ_cons, List.mem_cons, List.mem_cons, hrec, List.countP_cons]
      by_cases hx : x = a
      · rw [hx, hself]
        simp [hirrefl]
      · simp only [hx, false_or]
        refine and_congr_right fun hmem => ?_
        simp only [hfirst x hmem, decide_true, if_true]
        omega

end Strict

end ConvoyChat.Lib
