import Mathlib.Logic.Relation
import Mathlib.Data.List.Basic

/-!
# Runs of a guarded transition system

A system is a partial function `step : σ → α → Option σ` from a state and an
action to the next state; `none` means that the action is not possible there
(a blocked goroutine, an empty queue). A *guard* `ok s a` is a condition on an
action and the state before it. `Reach step ok s s'` says that some run, each of
whose steps meets the guard, leads from `s` to `s'`.

* `Reach.invariant`: an invariant that every guarded step preserves holds in
  every state reached.
* `Reach.mono`: a weaker guard admits more runs.
* `Reach.simulate`: a system whose steps are runs of another has no other runs.
* `Reach.of_exec`: an executable action list is such a run, so a concrete run
  can be checked by evaluation, and `meets_of_checks` does the same for its guard.
-/

namespace ConvoyChat.Lib

universe u v

variable {σ τ : Type u} {α β : Type v}

/-- One transition by an action that `ok` admits in the state before it. -/
def Moves (step : σ → α → Option σ) (ok : σ → α → Prop) (s s' : σ) : Prop :=
  ∃ a, ok s a ∧ step s a = some s'

/-- `s'` is reached from `s` by a run whose steps all meet `ok`. -/
abbrev Reach (step : σ → α → Option σ) (ok : σ → α → Prop) : σ → σ → Prop :=
  Relation.ReflTransGen (Moves step ok)

/-- The guard that admits every action. -/
def Unguarded (_ : σ) (_ : α) : Prop := True

theorem Reach.single {step : σ → α → Option σ} {ok : σ → α → Prop} {s s' : σ} {a : α}
    (hok : ok s a) (h : step s a = some s') : Reach step ok s s' :=
  Relation.ReflTransGen.single ⟨a, hok, h⟩

/-- Invariant rule: what every guarded step preserves holds along every run. -/
theorem Reach.invariant {step : σ → α → Option σ} {ok : σ → α → Prop} (Inv : σ → Prop)
    (hstep : ∀ s a s', Inv s → ok s a → step s a = some s' → Inv s')
    {s s' : σ} (hrun : Reach step ok s s') (h : Inv s) : Inv s' := by
  induction hrun with
  | refl => exact h
  | tail _ hmove ih =>
    obtain ⟨a, hok, hs⟩ := hmove
    exact hstep _ a _ ih hok hs

theorem Reach.mono {step : σ → α → Option σ} {ok ok' : σ → α → Prop}
    (hle : ∀ s a, ok s a → ok' s a) {s s' : σ} (hrun : Reach step ok s s') :
    Reach step ok' s s' := by
  refine Relation.ReflTransGen.mono ?_ _ _ hrun
  rintro x y ⟨a, hok, hs⟩
  exact ⟨a, hle x a hok, hs⟩

/-- Forward simulation: where every guarded step is matched by a run of another system, so is
    every run. -/
theorem Reach.simulate {step : σ → α → Option σ} {ok : σ → α → Prop} {step' : τ → β → Option τ}
    {ok' : τ → β → Prop} (f : σ → τ) (Inv : σ → Prop)
    (hstep : ∀ s a s', Inv s → ok s a → step s a = some s' →
      Inv s' ∧ Reach step' ok' (f s) (f s'))
    {s s' : σ} (hrun : Reach step ok s s') (h : Inv s) : Reach step' ok' (f s) (f s') := by
  have hboth : Inv s' ∧ Reach step' ok' (f s) (f s') := by
    refine hrun.invariant (fun x => Inv x ∧ Reach step' ok' (f s) (f x)) ?_ ⟨h, .refl⟩
    intro x a x' hx hok hs
    obtain ⟨hinv, hmatch⟩ := hstep x a x' hx.1 hok hs
    exact ⟨hinv, hx.2.trans hmatch⟩
  exact hboth.2

/-- Perform a list of actions one after another. -/
def exec (step : σ → α → Option σ) : σ → List α → Option σ
  | s, [] => some s
  | s, a :: as => (step s a).bind fun s' => exec step s' as

/-- Every action of the list meets the guard in the state it is performed in. -/
def Meets (step : σ → α → Option σ) (ok : σ → α → Prop) : σ → List α → Prop
  | _, [] => True
  | s, a :: as => ok s a ∧ ∀ s', step s a = some s' → Meets step ok s' as

theorem exec_append (step : σ → α → Option σ) (s : σ) (as bs : List α) :
    exec step s (as ++ bs) = (exec step s as).bind fun s' => exec step s' bs := by
  induction as generalizing s with
  | nil => rfl
  | cons a as ih =>
    simp only [List.cons_append, exec, Option.bind_assoc]
    exact congrArg _ (funext fun s' => ih s')

theorem Reach.of_exec {step : σ → α → Option σ} {ok : σ → α → Prop} {s s' : σ} {as : List α}
    (hok : Meets step ok s as) (h : exec step s as = some s') : Reach step ok s s' := by
  induction as generalizing s with
  | nil =>
    cases h
    exact .refl
  | cons a as ih =>
    obtain ⟨m, hm, hrest⟩ := Option.bind_eq_some_iff.mp h
    exact .head ⟨a, hok.1, hm⟩ (ih (hok.2 m hm) hrest)

theorem meets_unguarded (step : σ → α → Option σ) (s : σ) (as : List α) :
    Meets step Unguarded s as := by
  induction as generalizing s with
  | nil => trivial
  | cons a as ih => exact ⟨trivial, fun s' _ => ih s'⟩

/-- A guard that looks at the action only. -/
theorem meets_of_forall {step : σ → α → Option σ} {ok : σ → α → Prop} {as : List α}
    (h : ∀ a ∈ as, ∀ s, ok s a) (s : σ) : Meets step ok s as := by
  induction as generalizing s with
  | nil => trivial
  | cons a as ih =>
    exact ⟨h a List.mem_cons_self s,
      fun s' _ => ih (fun b hb => h b (List.mem_cons_of_mem _ hb)) s'⟩

/-- The executable condition `check` holds at every action of the list. -/
def checks (step : σ → α → Option σ) (check : σ → α → Bool) : σ → List α → Bool
  | _, [] => true
  | s, a :: as => check s a && ((step s a).map fun s' => checks step check s' as).getD true

/-- It is enough that `check` implies the guard in the states that satisfy an invariant. -/
theorem meets_of_checks_invariant {step : σ → α → Option σ} {ok : σ → α → Prop}
    {check : σ → α → Bool}
    (Inv : σ → Prop) (hstep : ∀ s a s', Inv s → ok s a → step s a = some s' → Inv s')
    (hle : ∀ s a, Inv s → check s a = true → ok s a) {s : σ} (hinv : Inv s) {as : List α}
    (h : checks step check s as = true) : Meets step ok s as := by
  induction as generalizing s with
  | nil => trivial
  | cons a as ih =>
    unfold checks at h
    rw [Bool.and_eq_true] at h
    have hok := hle s a hinv h.1
    refine ⟨hok, fun s' hs => ih (hstep s a s' hinv hok hs) ?_⟩
    rw [hs] at h
    exact h.2

theorem meets_of_checks {step : σ → α → Option σ} {ok : σ → α → Prop} {check : σ → α → Bool}
    (hle : ∀ s a, check s a = true → ok s a) {s : σ} {as : List α}
    (h : checks step check s as = true) : Meets step ok s as :=
  meets_of_checks_invariant (fun _ => True) (fun _ _ _ _ _ _ => trivial) (fun s a _ => hle s a)
    trivial h

end ConvoyChat.Lib
