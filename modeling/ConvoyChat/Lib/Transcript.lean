import ConvoyChat.Lib.Proc
import Mathlib.Data.List.Basic

/-!
# Transcripts of procedures

`Follows p calls q`: with the answers of `calls`, one after another, `p` has come to `q`. A state
that keeps the calls of its procedures beside what is left of them can say later what a result
rests on.

* `Follows.answer`: one more call.
* `follows_pure`, `follows_perform`, `follows_bind`: how a procedure has come to its result.
* `Within`: the operations and the results of a procedure, and so of its transcripts.
-/

namespace ConvoyChat.Lib

/-- An operation with its answer. -/
abbrev Call (Op : Type) (Res : Op → Type) := (o : Op) × Res o

namespace Proc

variable {Op : Type} {Res : Op → Type} {α : Type}

/-- `p` has performed `calls`, and `q` is left of it. -/
inductive Follows : Proc Op Res α → List (Call Op Res) → Proc Op Res α → Prop
  | refl (p : Proc Op Res α) : Follows p [] p
  | cons {o : Op} {k : Res o → Proc Op Res α} {r : Res o} {calls : List (Call Op Res)}
      {q : Proc Op Res α} (h : Follows (k r) calls q) : Follows (op o k) (⟨o, r⟩ :: calls) q

variable {p q : Proc Op Res α} {cs : List (Call Op Res)} {o : Op} {a b : α}

/-- The next operation is answered. -/
theorem Follows.answer {k : Res o → Proc Op Res α} (h : Follows p cs (op o k)) (r : Res o) :
    Follows p (cs ++ [⟨o, r⟩]) (k r) := by
  generalize hq : op o k = q at h
  induction h with
  | refl p =>
    subst hq
    exact .cons (.refl _)
  | cons h ih => exact .cons (ih hq)

/-- A procedure that returns at once. -/
theorem follows_pure : Follows (pure a) cs (ret b) ↔ cs = [] ∧ a = b := by
  constructor
  · intro h
    generalize hp : (pure a : Proc Op Res α) = p at h
    generalize hq : (ret b : Proc Op Res α) = q at h
    cases h with
    | refl =>
      subst hp
      cases hq
      exact ⟨rfl, rfl⟩
    | cons => cases hp
  · rintro ⟨rfl, rfl⟩
    exact .refl _

/-- A procedure that begins with an operation. -/
theorem follows_perform {f : Res o → Proc Op Res α} :
    Follows (perform o >>= f) cs (ret b) ↔
      ∃ r rest, cs = ⟨o, r⟩ :: rest ∧ Follows (f r) rest (ret b) := by
  constructor
  · intro h
    generalize hp : perform o >>= f = p at h
    generalize hq : (ret b : Proc Op Res α) = q at h
    cases h with
    | refl =>
      subst hp
      cases hq
    | cons h =>
      cases hp
      subst hq
      exact ⟨_, _, rfl, h⟩
  · rintro ⟨r, rest, rfl, h⟩
    exact .cons h

/-- A procedure that begins with another one. -/
theorem follows_bind {β : Type} {f : α → Proc Op Res β} {c : β} :
    Follows (p >>= f) cs (ret c) ↔ ∃ before after a, cs = before ++ after ∧
      Follows p before (ret a) ∧ Follows (f a) after (ret c) := by
  constructor
  · intro h
    induction p generalizing cs with
    | ret a => exact ⟨[], cs, a, rfl, .refl _, h⟩
    | op o k ih =>
      obtain ⟨r, rest, rfl, hrest⟩ :=
        follows_perform.mp (show Follows (perform o >>= fun r => k r >>= f) _ _ from h)
      obtain ⟨before, after, a, rfl, hbefore, hafter⟩ := ih r hrest
      exact ⟨_, after, a, rfl, .cons hbefore, hafter⟩
  · rintro ⟨before, after, a, rfl, hbefore, hafter⟩
    generalize hq : (ret a : Proc Op Res α) = q at hbefore
    induction hbefore with
    | refl p =>
      subst hq
      exact hafter
    | cons _ ih => exact .cons (ih hq)

/-- The cs so far of a procedure that begins with an operation. -/
theorem follows_perform_cons {f : Res o → Proc Op Res α} {c : Call Op Res} :
    Follows (perform o >>= f) (c :: cs) q ↔ ∃ r, c = ⟨o, r⟩ ∧ Follows (f r) cs q := by
  constructor
  · intro h
    generalize hp : perform o >>= f = p at h
    cases h with
    | cons h =>
      cases hp
      exact ⟨_, rfl, h⟩
  · rintro ⟨r, rfl, h⟩
    exact .cons h

/-- Every operation of `p` is in `ops`, and every result in `Q`. -/
def Within (ops : Op → Prop) (Q : α → Prop) : Proc Op Res α → Prop
  | ret a => Q a
  | op o k => ops o ∧ ∀ r, (k r).Within ops Q

variable {ops : Op → Prop} {Q : α → Prop}

theorem Within.perform {f : Res o → Proc Op Res α} (ho : ops o) (h : ∀ r, (f r).Within ops Q) :
    (perform o >>= f).Within ops Q :=
  ⟨ho, h⟩

theorem Within.bind {β : Type} {p : Proc Op Res β} {f : β → Proc Op Res α}
    (h : p.Within ops fun _ => True) (hf : ∀ b, (f b).Within ops Q) : (p >>= f).Within ops Q := by
  induction p with
  | ret b => exact hf b
  | op o k ih => exact ⟨h.1, fun r => ih r (h.2 r)⟩

theorem Within.calls (h : p.Within ops Q) (hf : Follows p cs q) : ∀ c ∈ cs, ops c.1 := by
  induction hf with
  | refl p => simp
  | @cons o k r cs q _ ih =>
    intro c hc
    rcases List.mem_cons.mp hc with rfl | hc
    · exact h.1
    · exact ih (h.2 r) c hc

theorem Within.result (h : p.Within ops Q) (hf : Follows p cs (ret a)) : Q a := by
  generalize hq : (ret a : Proc Op Res α) = q at hf
  induction hf with
  | refl p =>
    subst hq
    exact h
  | cons _ ih => exact ih (h.2 _) hq

end Proc

end ConvoyChat.Lib
