/-!
# Procedures that call out

A handler computes, calls an operation of its environment (a SQL statement, a
publication, a channel send), goes on with the answer, and ends with a result.
`Proc Op Res α` is that tree: `op o k` performs `o` and continues with `k` on the
answer, whose type `Res o` depends on the operation.

The environment decides what runs between two operations. `Proc.run` is the
serial environment: the operations of one procedure are answered one after
another by a function on the state, with nothing in between. `Ends` is its
postcondition, with one rule per constructor and one for sequencing.

`Can allow P` is about every environment: some answers, all of them admitted by
`allow`, lead to an operation in `P`. `Never` is its negation, with the same
rules; what a procedure never does, none of its remainders does. `Returns` is about the
results in the same environments. `Owes` says that
all admitted answers lead to one given operation, `Will` that they lead to an operation in
`P`. `After Q` says that, wherever the
procedure is, `Q` holds of an answer and of what remains after it. `SettlesOnce` is about
procedures with one operation that counts: it decides how they end.
-/

namespace ConvoyChat.Lib

/-- A procedure over operations `Op` with answers `Res`, ending with an `α`. -/
inductive Proc (Op : Type) (Res : Op → Type) (α : Type)
  | ret (a : α)
  | op (o : Op) (k : Res o → Proc Op Res α)

namespace Proc

variable {Op : Type} {Res : Op → Type} {α β σ : Type}

def bind : Proc Op Res α → (α → Proc Op Res β) → Proc Op Res β
  | ret a, f => f a
  | op o k, f => op o fun r => (k r).bind f

instance : Monad (Proc Op Res) where
  pure := ret
  bind := bind

/-- Perform one operation and return its answer. -/
def perform (o : Op) : Proc Op Res (Res o) := op o ret

/-- The same procedure over more operations: `f` embeds the operations, `back` reads
    the answers. -/
def embed {Op' : Type} {Res' : Op' → Type} (f : Op → Op') (back : (o : Op) → Res' (f o) → Res o) :
    Proc Op Res α → Proc Op' Res' α
  | ret a => ret a
  | op o k => op (f o) fun r => (k (back o r)).embed f back

/-- Run a procedure on its own. -/
def run (answer : (o : Op) → σ → Res o × σ) : Proc Op Res α → σ → α × σ
  | ret a, s => (a, s)
  | op o k, s => (k (answer o s).1).run answer (answer o s).2

theorem run_bind (answer : (o : Op) → σ → Res o × σ) (p : Proc Op Res α)
    (f : α → Proc Op Res β) (s : σ) :
    (p >>= f).run answer s = (f (p.run answer s).1).run answer (p.run answer s).2 := by
  induction p generalizing s with
  | ret a => rfl
  | op o k ih => exact ih (answer o s).1 (answer o s).2

/-- Run on its own from `s`, `p` ends with a result and a state that satisfy `Q`. -/
def Ends (answer : (o : Op) → σ → Res o × σ) (p : Proc Op Res α) (s : σ) (Q : α → σ → Prop) :
    Prop :=
  Q (p.run answer s).1 (p.run answer s).2

variable {answer : (o : Op) → σ → Res o × σ} {s : σ}

theorem Ends.ret {a : α} {Q : α → σ → Prop} (h : Q a s) :
    Ends answer (pure a : Proc Op Res α) s Q := h

theorem Ends.perform {o : Op} {f : Res o → Proc Op Res α} {Q : α → σ → Prop}
    (h : ∀ r s', answer o s = (r, s') → Ends answer (f r) s' Q) :
    Ends answer (perform o >>= f) s Q :=
  h _ _ rfl

theorem Ends.bind {p : Proc Op Res α} {f : α → Proc Op Res β} {Q : β → σ → Prop}
    (h : Ends answer p s fun a s' => Ends answer (f a) s' Q) : Ends answer (p >>= f) s Q := by
  unfold Ends at h ⊢
  rw [run_bind]
  exact h

theorem Ends.mono {p : Proc Op Res α} {Q Q' : α → σ → Prop} (h : Ends answer p s Q)
    (hle : ∀ a s', Q a s' → Q' a s') : Ends answer p s Q' :=
  hle _ _ h

/-! ## What a procedure may still do -/

/-- Answers that `allow` admits lead `p` to an operation in `P`. -/
def Can (allow : (o : Op) → Res o → Prop) (P : Op → Prop) : Proc Op Res α → Prop
  | ret _ => False
  | op o k => P o ∨ ∃ a, allow o a ∧ (k a).Can allow P

/-- Whatever the answers that `allow` admits, `p` performs no operation in `P`. -/
def Never (allow : (o : Op) → Res o → Prop) (P : Op → Prop) (p : Proc Op Res α) : Prop :=
  ¬ p.Can allow P

/-- The answers are not restricted. -/
def Always (o : Op) (_ : Res o) : Prop := True

variable {allow : (o : Op) → Res o → Prop} {P : Op → Prop}

theorem Can.here {o : Op} {k : Res o → Proc Op Res α} (h : P o) : (op o k).Can allow P :=
  .inl h

theorem Can.next {o : Op} {k : Res o → Proc Op Res α} {a : Res o} (ha : allow o a)
    (h : (k a).Can allow P) : (op o k).Can allow P :=
  .inr ⟨a, ha, h⟩

theorem Can.mono {allow' : (o : Op) → Res o → Prop} {P' : Op → Prop} {p : Proc Op Res α}
    (hallow : ∀ o a, allow o a → allow' o a) (hP : ∀ o, P o → P' o) (h : p.Can allow P) :
    p.Can allow' P' := by
  induction p with
  | ret a => exact h
  | op o k ih =>
    rcases h with h | ⟨a, ha, h⟩
    · exact .inl (hP o h)
    · exact .inr ⟨a, hallow o a ha, ih a h⟩

theorem Never.not {o : Op} {k : Res o → Proc Op Res α} (h : (op o k).Never allow P) : ¬ P o :=
  fun hP => h (.inl hP)

theorem Never.next {o : Op} {k : Res o → Proc Op Res α} (h : (op o k).Never allow P) {a : Res o}
    (ha : allow o a) : (k a).Never allow P :=
  fun hk => h (.inr ⟨a, ha, hk⟩)

theorem Never.ret (a : α) : (pure a : Proc Op Res α).Never allow P := id

theorem Never.perform {o : Op} {f : Res o → Proc Op Res α} (ho : ¬ P o)
    (h : ∀ a, allow o a → (f a).Never allow P) : (perform o >>= f).Never allow P := by
  rintro (hP | ⟨a, ha, hf⟩)
  · exact ho hP
  · exact h a ha hf

theorem Never.of_forall (hP : ∀ o, ¬ P o) (p : Proc Op Res α) : p.Never allow P := by
  induction p with
  | ret a => exact .ret a
  | op o k ih =>
    rintro (h | ⟨a, -, h⟩)
    · exact hP o h
    · exact ih a h

/-- Whatever the answers that `allow` admits, `p` ends with a result in `Q`. -/
def Returns (allow : (o : Op) → Res o → Prop) (Q : α → Prop) : Proc Op Res α → Prop
  | ret a => Q a
  | op o k => ∀ a, allow o a → (k a).Returns allow Q

theorem Returns.perform {o : Op} {f : Res o → Proc Op Res α} {Q : α → Prop}
    (h : ∀ a, allow o a → (f a).Returns allow Q) : (perform o >>= f).Returns allow Q :=
  h

theorem Returns.mono {p : Proc Op Res α} {Q Q' : α → Prop} (h : p.Returns allow Q)
    (hle : ∀ a, Q a → Q' a) : p.Returns allow Q' := by
  induction p with
  | ret a => exact hle a h
  | op o k ih => exact fun a ha => ih a (h a ha)

/-- Sequencing, with what is known of the result of the first part. -/
theorem Never.bind_of_returns {p : Proc Op Res α} {f : α → Proc Op Res β} {Q : α → Prop}
    (h : p.Never allow P) (hp : p.Returns allow Q) (hf : ∀ a, Q a → (f a).Never allow P) :
    (p >>= f).Never allow P := by
  induction p with
  | ret a => exact hf a hp
  | op o k ih =>
    rintro (hP | ⟨a, ha, hk⟩)
    · exact h.not hP
    · exact ih a (h.next ha) (hp a ha) hk

theorem Returns.trivial (p : Proc Op Res α) : p.Returns allow fun _ => True := by
  induction p with
  | ret a => exact True.intro
  | op o k ih => exact fun a _ => ih a

theorem Never.bind {p : Proc Op Res α} {f : α → Proc Op Res β} (h : p.Never allow P)
    (hf : ∀ a, (f a).Never allow P) : (p >>= f).Never allow P :=
  h.bind_of_returns (.trivial p) fun a _ => hf a

theorem Never.embed {Op' : Type} {Res' : Op' → Type} {f : Op → Op'}
    {back : (o : Op) → Res' (f o) → Res o} {allow' : (o : Op') → Res' o → Prop} {P' : Op' → Prop}
    (hallow : ∀ o r, allow' (f o) r → allow o (back o r)) (hP : ∀ o, P' (f o) → P o)
    {p : Proc Op Res α} (h : p.Never allow P) : (p.embed f back).Never allow' P' := by
  induction p with
  | ret a => exact id
  | op o k ih =>
    rintro (hP' | ⟨r, hr, hk⟩)
    · exact h.not (hP o hP')
    · exact ih (back o r) (h.next (hallow o r hr)) hk

/-- Whatever the answers that `allow` admits, `p` comes to the operation `o`, and it
    performs nothing else in `P`, before or after. -/
def Owes (allow : (o : Op) → Res o → Prop) (P : Op → Prop) (o : Op) : Proc Op Res α → Prop
  | ret _ => False
  | op o' k => (o' = o ∧ ∀ a, (k a).Never Always P) ∨
      (¬ P o' ∧ ∀ a, allow o' a → (k a).Owes allow P o)

theorem Owes.here {o : Op} {f : Res o → Proc Op Res α} (h : ∀ a, (f a).Never Always P) :
    (perform o >>= f).Owes allow P o :=
  .inl ⟨rfl, h⟩

theorem Owes.perform {o o' : Op} {f : Res o' → Proc Op Res α} (ho : ¬ P o')
    (h : ∀ a, allow o' a → (f a).Owes allow P o) : (perform o' >>= f).Owes allow P o :=
  .inr ⟨ho, h⟩

/-- Whatever the answers that `allow` admits, `p` comes to an operation in `P`. -/
def Will (allow : (o : Op) → Res o → Prop) (P : Op → Prop) : Proc Op Res α → Prop
  | ret _ => False
  | op o k => P o ∨ ∀ a, allow o a → (k a).Will allow P

theorem Will.here {o : Op} {k : Res o → Proc Op Res α} (h : P o) : (op o k).Will allow P :=
  .inl h

theorem Will.perform {o : Op} {f : Res o → Proc Op Res α}
    (h : ∀ a, allow o a → (f a).Will allow P) : (Proc.perform o >>= f).Will allow P :=
  .inr h

/-- An admitted answer to an operation that is not in `P` leaves it to come. -/
theorem Will.next {o : Op} {k : Res o → Proc Op Res α} (h : (op o k).Will allow P) (ho : ¬ P o)
    {a : Res o} (ha : allow o a) : (k a).Will allow P :=
  h.resolve_left ho a ha

/-- After every operation of `p`, whatever its answer, `Q` holds of what remains. -/
def After (Q : (o : Op) → Res o → Proc Op Res α → Prop) : Proc Op Res α → Prop
  | ret _ => True
  | op o k => ∀ a, Q o a (k a) ∧ (k a).After Q

variable {Q : (o : Op) → Res o → Proc Op Res α → Prop}

theorem After.ret (a : α) : (pure a : Proc Op Res α).After Q := trivial

theorem After.perform {o : Op} {f : Res o → Proc Op Res α} (h : ∀ a, Q o a (f a))
    (hf : ∀ a, (f a).After Q) : (Proc.perform o >>= f).After Q :=
  fun a => ⟨h a, hf a⟩

/-- `p` ends outside `good` unless the answer to one of its operations commits it; that
    operation is in `P`, it is the last that can commit, and `p` ends in `good` after it. -/
def SettlesOnce (commits : (o : Op) → Res o → Prop) (P : Op → Prop) (good : α → Prop) :
    Proc Op Res α → Prop
  | ret a => ¬ good a
  | op o k => ∀ a,
      (commits o a → P o ∧ (k a).Returns Always good ∧
        (k a).Never Always fun o => ∃ a, commits o a) ∧
      (¬ commits o a → (k a).SettlesOnce commits P good)

variable {commits : (o : Op) → Res o → Prop} {good : α → Prop}

theorem SettlesOnce.ret {a : α} (h : ¬ good a) :
    (pure a : Proc Op Res α).SettlesOnce commits P good :=
  h

/-- An operation that commits nothing. -/
theorem SettlesOnce.perform {o : Op} {f : Res o → Proc Op Res α} (ho : ∀ a, ¬ commits o a)
    (h : ∀ a, (f a).SettlesOnce commits P good) :
    (Proc.perform o >>= f).SettlesOnce commits P good :=
  fun a => ⟨fun hc => absurd hc (ho a), fun _ => h a⟩

/-- The operation that may commit. -/
theorem SettlesOnce.commit {o : Op} {f : Res o → Proc Op Res α} (ho : P o)
    (hdone : ∀ a, commits o a → (f a).Returns Always good ∧
      (f a).Never Always fun o => ∃ a, commits o a)
    (h : ∀ a, ¬ commits o a → (f a).SettlesOnce commits P good) :
    (Proc.perform o >>= f).SettlesOnce commits P good :=
  fun a => ⟨fun hc => ⟨ho, hdone a hc⟩, h a⟩

/-- A first part that commits nothing, with what is known of its result. -/
theorem SettlesOnce.bind_of_returns {p : Proc Op Res β} {f : β → Proc Op Res α} {Q : β → Prop}
    (h : p.Never Always fun o => ∃ a, commits o a) (hp : p.Returns Always Q)
    (hf : ∀ b, Q b → (f b).SettlesOnce commits P good) :
    (p >>= f).SettlesOnce commits P good := by
  induction p with
  | ret b => exact hf b hp
  | op o k ih =>
    intro a
    have ho : ¬ commits o a := fun hc => h.not ⟨a, hc⟩
    exact ⟨fun hc => absurd hc ho, fun _ => ih a (h.next trivial) (hp a trivial)⟩

theorem Returns.bind {p : Proc Op Res α} {f : α → Proc Op Res β} {Q : α → Prop} {Q' : β → Prop}
    (h : p.Returns allow Q) (hf : ∀ a, Q a → (f a).Returns allow Q') :
    (p >>= f).Returns allow Q' := by
  induction p with
  | ret a => exact hf a h
  | op o k ih => exact fun a ha => ih a (h a ha)

/-- The result is renamed. -/
theorem SettlesOnce.rename {p : Proc Op Res α} {f : α → β} {good' : β → Prop}
    (h : p.SettlesOnce commits P good) (hf : ∀ a, good' (f a) ↔ good a) :
    (p >>= fun a => pure (f a)).SettlesOnce commits P good' := by
  induction p with
  | ret a => exact fun hgood => h ((hf a).mp hgood)
  | op o k ih =>
    intro a
    refine ⟨fun hc => ?_, fun hc => ih a ((h a).2 hc)⟩
    obtain ⟨ho, hgood, hnever⟩ := (h a).1 hc
    exact ⟨ho, hgood.bind fun b hb => (hf b).mpr hb, hnever.bind fun _ => .ret _⟩

end Proc

end ConvoyChat.Lib
