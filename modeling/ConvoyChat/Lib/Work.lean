import ConvoyChat.Lib.Proc
import ConvoyChat.Lib.Runs
import Mathlib.Data.Multiset.DershowitzManna
import Mathlib.SetTheory.Ordinal.Family
import Mathlib.Tactic.Abel

/-!
# Work that runs out

A system that is left alone stops if every step finishes a job and creates only
smaller ones. The jobs of a state form a multiset of weights. A weight is a stage,
which bounds the stages of the jobs that follow, and within a stage an ordinal: a
procedure that branches over all answers of its environment has no finite depth, but
it has a rank, which drops at every operation.

* `eases_of_le`: a job is replaced by smaller ones, and others may disappear with it.
* `halts_of_work`: where every step eases the work or is the last one, no run goes on
  for ever.
-/

namespace ConvoyChat.Lib

/-! ## Weights -/

/-- A stage, and the rank of a job among those of its stage. -/
abbrev Weight := ℕ ×ₗ Ordinal.{0}

/-- The weight of a job that its stage determines. -/
def stage (n : ℕ) : Weight := toLex (n, 0)

theorem stage_lt {m n : ℕ} (h : m < n) : stage m < stage n :=
  Prod.Lex.toLex_lt_toLex.mpr (.inl h)

theorem stage_lt_rank {m n : ℕ} {r : Ordinal} (h : m < n) : stage m < toLex (n, r) :=
  Prod.Lex.toLex_lt_toLex.mpr (.inl h)

/-- How deep a procedure is, over all answers. -/
noncomputable def Proc.rank {Op : Type} {Res : Op → Type} {α : Type} :
    Proc Op Res α → Ordinal.{0}
  | .ret _ => 0
  | .op _ k => ⨆ a, Order.succ (k a).rank

theorem Proc.rank_lt {Op : Type} {Res : Op → Type} {α : Type} {o : Op}
    (k : Res o → Proc Op Res α) (a : Res o) : (k a).rank < (Proc.op o k).rank :=
  (Order.lt_succ _).trans_le (Ordinal.le_iSup (fun a => Order.succ (k a).rank) a)

/-! ## Multisets of jobs -/

section

variable {ι : Type*} [PartialOrder ι]

/-- The jobs `M` are less work than `N`. -/
abbrev Eases (M N : Multiset ι) : Prop := M.IsDershowitzMannaLT N

/-- The job `z` is replaced by smaller ones. -/
theorem eases_of_balance {M N Y : Multiset ι} {z : ι} (h : M + {z} = N + Y)
    (hY : ∀ y ∈ Y, y < z) : Eases M N := by
  have hz : z ∈ N := by
    have hmem : z ∈ N + Y := h ▸ Multiset.mem_add.mpr (.inr (Multiset.mem_singleton_self z))
    rcases Multiset.mem_add.mp hmem with hN | hY'
    · exact hN
    · exact absurd (hY z hY') (lt_irrefl z)
  obtain ⟨X, hX⟩ := Multiset.exists_cons_of_mem hz
  have hsum : M + {z} = X + Y + {z} := by
    rw [h, hX, ← Multiset.singleton_add]
    abel
  refine ⟨X, Y, {z}, by simp, add_right_cancel hsum, ?_, ?_⟩
  · rw [hX, ← Multiset.singleton_add, add_comm]
  · intro y hy
    exact ⟨z, Multiset.mem_singleton_self z, hY y hy⟩

theorem eases_of_lt {M N : Multiset ι} (h : M < N) : Eases M N := by
  obtain ⟨Z, rfl⟩ := Multiset.le_iff_exists_add.mp h.le
  refine ⟨M, 0, Z, ?_, by simp, rfl, by simp⟩
  rintro rfl
  simp at h

/-- The job `z` is replaced by smaller ones, and others may disappear with it. -/
theorem eases_of_le {M N Y : Multiset ι} {z : ι} (h : M + {z} ≤ N + Y) (hY : ∀ y ∈ Y, y < z) :
    Eases M N := by
  obtain ⟨D, hD⟩ := Multiset.le_iff_exists_add.mp h
  have hmore : Eases (M + D) N := by
    refine eases_of_balance (Y := Y) ?_ hY
    rw [hD]
    abel
  rcases Multiset.empty_or_exists_mem D with rfl | ⟨d, hd⟩
  · simpa using hmore
  · refine Multiset.IsDershowitzMannaLT.trans (eases_of_lt ?_) hmore
    refine lt_of_le_of_ne (Multiset.le_add_right M D) fun heq => ?_
    have hzero : D = 0 := by simpa using heq.symm
    simp [hzero] at hd

theorem eases_of_count [DecidableEq ι] {M N Y : Multiset ι} {z : ι} (hY : ∀ y ∈ Y, y < z)
    (h : ∀ w, M.count w + Multiset.count w {z} ≤ N.count w + Y.count w) : Eases M N := by
  refine eases_of_le (Multiset.le_iff_count.mpr fun w => ?_) hY
  rw [Multiset.count_add, Multiset.count_add]
  exact h w

end

/-! ## Runs -/

section

variable {σ α : Type} {step : σ → α → Option σ} {ok : σ → α → Prop} {s : σ}

/-- No run from `s` goes on for ever. -/
def Halts (step : σ → α → Option σ) (ok : σ → α → Prop) (s : σ) : Prop :=
  ∀ f : ℕ → σ, f 0 = s → ∃ n, ¬ Moves step ok (f n) (f (n + 1))

theorem acc_of_work {ι : Type*} [PartialOrder ι] [WellFoundedLT ι] (work : σ → Multiset ι)
    (Inv Dead : σ → Prop) (hdead : ∀ s s', Dead s → ¬ Moves step ok s s')
    (hstep : ∀ s s', Inv s → Moves step ok s s' → Inv s' ∧ (Dead s' ∨ Eases (work s') (work s)))
    (hs : Inv s) : Acc (fun s' s => Moves step ok s s') s := by
  induction hw : work s using (Multiset.wellFounded_isDershowitzMannaLT (α := ι)).induction
    generalizing s with
  | _ M ih =>
    subst hw
    refine ⟨s, fun s' hmove => ?_⟩
    obtain ⟨hinv, hend | heases⟩ := hstep s s' hs hmove
    · exact ⟨s', fun s'' hmove' => absurd hmove' (hdead s' s'' hend)⟩
    · exact ih _ heases hinv rfl

theorem halts_of_acc (h : Acc (fun s' s => Moves step ok s s') s) : Halts step ok s := by
  induction h with
  | intro s _ ih =>
    intro f hf
    by_cases hmove : Moves step ok (f 0) (f 1)
    · obtain ⟨n, hn⟩ := ih (f 1) (hf ▸ hmove) (fun n => f (n + 1)) rfl
      exact ⟨n + 1, hn⟩
    · exact ⟨0, hmove⟩

/-- Where every step eases the work or is the last one, every run ends. -/
theorem halts_of_work {ι : Type*} [PartialOrder ι] [WellFoundedLT ι] (work : σ → Multiset ι)
    (Inv Dead : σ → Prop) (hdead : ∀ s s', Dead s → ¬ Moves step ok s s')
    (hstep : ∀ s s', Inv s → Moves step ok s s' → Inv s' ∧ (Dead s' ∨ Eases (work s') (work s)))
    (hs : Inv s) : Halts step ok s :=
  halts_of_acc (acc_of_work work Inv Dead hdead hstep hs)

end

/-! ## Sums of jobs -/

/-- Only the part of `c` changes. -/
theorem sum_change {γ ι : Type*} [DecidableEq γ] {K : Finset γ} {c : γ} (hc : c ∈ K)
    (f f' : γ → Multiset ι) (h : ∀ c', c' ≠ c → f' c' = f c') :
    ∑ x ∈ K, f' x + f c = ∑ x ∈ K, f x + f' c := by
  have hrest : ∑ x ∈ K.erase c, f' x = ∑ x ∈ K.erase c, f x :=
    Finset.sum_congr rfl fun x hx => h x (Finset.ne_of_mem_erase hx)
  rw [← Finset.add_sum_erase K f' hc, ← Finset.add_sum_erase K f hc, hrest]
  abel

end ConvoyChat.Lib
