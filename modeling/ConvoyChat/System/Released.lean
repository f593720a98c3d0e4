import ConvoyChat.System.Idempotency
import Mathlib.Tactic.FinCases

/-!
# Keys that are left behind

`SendMessage` releases its key after a failed insert "so a legitimate client retry isn't
blocked for the rest of the TTL window" (`internal/store/messages.go` lines 202–204). The
release runs with the context of the request: if the insert failed because that context was
cancelled, the release fails too.

* `keys_accounted`: while Redis answers, a key is reserved for a message or by a running
  request only, as long as no context is cancelled between a reservation and the end of its
  request; and every context that is cancelled there leaves its key behind.
-/

namespace ConvoyChat.System

open ConvoyChat.Lib ConvoyChat.Store ConvoyChat.Handlers

variable {uuid : UuidString} {parse : String → Option UUID} {calls : ℕ → SendCall}
  {p p' : SendProc SendResponse} {s s' : SendTraffic} {n : ℕ} {a : TrafficStep}

/-- The request stands between its reservation and its end. -/
def SendTraffic.Holding (s : SendTraffic) (n : ℕ) : Prop :=
  s.phase n = some .inserting ∨ s.phase n = some .releasing

def SendTraffic.Ended (s : SendTraffic) (n : ℕ) : Prop :=
  s.phase n = some .refused ∨ s.phase n = some .sent

/-- The calls to Redis whose context is not cancelled do not fail. -/
def RedisUp (_ : SendTraffic) : TrafficStep → Prop
  | .serve _ env _ => ∀ o, RedisAnswers o (env o)
  | _ => True

/-- The request stands between its reservation and its end, and its key is set. -/
def HoldsKey (uuid : UuidString) (parse : String → Option UUID) (calls : ℕ → SendCall)
    (s : SendTraffic) (n : ℕ) : Prop :=
  s.Holding n ∧ ∃ x, (calls n).slot parse = some x ∧ s.redis (messageIdempotencyKey uuid x) = some n

/-- No context is cancelled while its request holds its reservation. -/
def CancelsOutside (uuid : UuidString) (parse : String → Option UUID) (calls : ℕ → SendCall)
    (s : SendTraffic) : TrafficStep → Prop
  | .cancel n => ¬ HoldsKey uuid parse calls s n
  | _ => True

/-- A request that has ended without a message has left no key behind, and a key is set
    for a message or by a request that is still running. -/
def Accounted (uuid : UuidString) (parse : String → Option UUID) (calls : ℕ → SendCall)
    (s : SendTraffic) : Prop :=
  (∀ n, s.Ended n → (∀ m ∈ s.rows, m.request ≠ n) → ∀ text, s.redis text ≠ some n) ∧
    ∀ x, s.redis (messageIdempotencyKey uuid x) ≠ none →
      (∃ m ∈ s.rows, m.slot calls = x) ∨ ∃ n, (calls n).slot parse = some x ∧ s.Holding n

/-- A key that is set is the key of the request that has set it. -/
def Owned (uuid : UuidString) (parse : String → Option UUID) (calls : ℕ → SendCall)
    (s : SendTraffic) :
    Prop :=
  ∀ text n, s.redis text = some n →
    ∃ x, (calls n).slot parse = some x ∧ text = messageIdempotencyKey uuid x

theorem Owned.update (h : Owned uuid parse calls s) {text : String} {v : Option ℕ}
    (hv : ∀ n, v = some n → ∃ x, (calls n).slot parse = some x ∧
      text = messageIdempotencyKey uuid x)
    (hredis : s'.redis = Function.update s.redis text v) : Owned uuid parse calls s' := by
  intro text' n hn
  rw [hredis] at hn
  by_cases heq : text' = text
  · rw [heq, Function.update_self] at hn
    obtain ⟨x, hx, htext⟩ := hv n hn
    exact ⟨x, hx, heq.trans htext⟩
  · rw [Function.update_of_ne heq] at hn
    exact h text' n hn

theorem Owned.move (h : Owned uuid parse calls s) (hmove : SendMove uuid parse calls s a s') :
    Owned uuid parse calls s' := by
  cases hmove with
  | request => exact h
  | @serve n _ _ _ _ _ _ _ _ heffect =>
    cases heffect with
    | quiet => exact h
    | @reserved x hslot _ _ _ =>
      refine h.update (fun m hm => ?_) rfl
      exact ⟨x, Option.some.inj hm ▸ hslot, rfl⟩
    | inserted => exact h
    | failed => exact h
    | released => exact h.update (fun m hm => by cases hm) rfl
    | unreleased => exact h
  | fail => exact h
  | cancel => exact h
  | expire => exact h.update (fun m hm => by cases hm) rfl

structure AccountedInv (uuid : UuidString) (parse : String → Option UUID) (calls : ℕ → SendCall)
    (s : SendTraffic) : Prop where
  pointed : Pointed parse calls s
  rows : RowsInv parse calls s
  owner : Owned uuid parse calls s
  held : ∀ text n, s.redis text = some n →
    (s.Holding n ∧ s.cancelled n = false) ∨ ∃ m ∈ s.rows, m.request = n

theorem AccountedInv.accounted (h : AccountedInv uuid parse calls s) :
    Accounted uuid parse calls s := by
  refine ⟨fun n hended hnone text htext => ?_, fun x hx => ?_⟩
  · rcases h.held text n htext with ⟨hholding, -⟩ | ⟨m, hm, hrequest⟩
    · rcases hended with hended | hended <;> rcases hholding with hholding | hholding <;>
        rw [hholding] at hended <;> cases hended
    · exact hnone m hm hrequest
  · obtain ⟨n, hn⟩ := Option.ne_none_iff_exists'.mp hx
    obtain ⟨y, hslot, heq⟩ := h.owner _ n hn
    have hxy : x = y := messageIdempotencyKey_inj uuid heq
    subst hxy
    rcases h.held _ n hn with ⟨hholding, -⟩ | ⟨m, hm, rfl⟩
    · exact .inr ⟨n, hslot, hholding⟩
    · obtain ⟨hroom, huser⟩ := h.rows.keyed m hm
      refine .inl ⟨m, hm, ?_⟩
      rw [SendCall.slot_eq hroom (SendCall.key_of_slot hslot), huser] at hslot
      exact Option.some.inj hslot

theorem start_accountedInv : AccountedInv uuid parse calls SendTraffic.start := by
  refine ⟨start_pointed, start_rows, fun text n hn => ?_, fun text n hn => ?_⟩
  · cases hn
  · cases hn

theorem not_holding_of_phase {ph : SendPhase} (h : s.phase n = some ph) (hi : ph ≠ .inserting)
    (hr : ph ≠ .releasing) : ¬ s.Holding n := by
  rintro (hh | hh) <;> rw [h] at hh
  · exact hi (Option.some.inj hh)
  · exact hr (Option.some.inj hh)

theorem holding_resume {m : ℕ} (hm : m ≠ n) (h : s.Holding m) : (s.resume n p).Holding m := by
  unfold SendTraffic.Holding
  rw [SendTraffic.phase_resume, if_neg hm]
  exact h

/-- What is said of the key of a request that did not make the step. -/
theorem AccountedInv.held_resume (h : AccountedInv uuid parse calls s) {text : String} {m : ℕ}
    (htext : s.redis text = some m)
    (hself : m = n → s.Holding n → s.cancelled n = false →
      ((s.resume n p).Holding n ∧ s.cancelled n = false) ∨ ∃ m ∈ s.rows, m.request = n) :
    ((s.resume n p).Holding m ∧ s.cancelled m = false) ∨ ∃ row ∈ s.rows, row.request = m := by
  rcases h.held text m htext with ⟨hholding, hlive⟩ | hrow
  · by_cases hm : m = n
    · subst hm
      exact hself rfl hholding hlive
    · exact .inl ⟨holding_resume hm hholding, hlive⟩
  · exact .inr hrow

theorem AccountedInv.held_effect {answered : Prop} (h : AccountedInv uuid parse calls s)
    (hanswered : answered) (hn : s.phase n = some (sendPhase p)) (hlive : s.cancelled n = false)
    (heffect : SendEffect uuid parse (calls n) answered n s p p' s') {text : String} {m : ℕ}
    (htext : s'.redis text = some m) :
    (s'.Holding m ∧ s'.cancelled m = false) ∨ ∃ row ∈ s'.rows, row.request = m := by
  have hnot : ∀ ph, sendPhase p = ph → ph ≠ .inserting → ph ≠ .releasing → ¬ s.Holding n :=
    fun ph hp => not_holding_of_phase (hn.trans (congrArg some hp))
  cases heffect with
  | quiet hp _ =>
    exact h.held_resume htext fun _ hh => absurd hh (hnot _ hp (by decide) (by decide))
  | @reserved x hslot hp hp' hfree =>
    have htext : Function.update s.redis (messageIdempotencyKey uuid x) (some n) text = some m :=
      htext
    by_cases heq : text = messageIdempotencyKey uuid x
    · rw [heq, Function.update_self] at htext
      cases htext
      refine .inl ⟨.inl ?_, hlive⟩
      have hinserting : sendPhase p' = .inserting := hp'.resolve_right fun hr => hr.2 hanswered
      show (s.resume n p').phase n = _
      rw [SendTraffic.phase_resume, if_pos rfl, hinserting]
    · rw [Function.update_of_ne heq] at htext
      exact h.held_resume htext fun _ hh => absurd hh (hnot _ hp (by decide) (by decide))
  | @inserted row hp hp' hrow _ _ =>
    rcases h.held text m htext with ⟨hholding, hlive'⟩ | ⟨x, hx, hxm⟩
    · by_cases hm : m = n
      · subst hm
        exact .inr ⟨row, List.mem_append_right _ (List.mem_singleton.mpr rfl), hrow⟩
      · exact .inl ⟨holding_resume hm hholding, hlive'⟩
    · exact .inr ⟨x, List.mem_append_left _ hx, hxm⟩
  | failed hp hp' =>
    refine h.held_resume htext fun hm _ hlive' => .inl ⟨.inr ?_, hlive'⟩
    obtain ⟨x, hslot, -⟩ := h.owner text m htext
    rw [SendTraffic.phase_resume, if_pos rfl, hp', if_neg (SendCall.key_of_slot (hm ▸ hslot))]
  | @released x hslot hp hp' =>
    have htext : Function.update s.redis (messageIdempotencyKey uuid x) none text = some m := htext
    by_cases heq : text = messageIdempotencyKey uuid x
    · rw [heq, Function.update_self] at htext
      cases htext
    · rw [Function.update_of_ne heq] at htext
      refine h.held_resume htext fun hm _ _ => ?_
      -- the key of this request is the one that was released
      obtain ⟨y, hy, htexty⟩ := h.owner text m htext
      rw [hm, hslot] at hy
      rw [← Option.some.inj hy] at htexty
      exact absurd htexty heq
  | unreleased hnot' _ _ => exact absurd hanswered hnot'

theorem AccountedInv.step (h : AccountedInv uuid parse calls s) (hup : RedisUp s a)
    (hok : CancelsOutside uuid parse calls s a) (hs : s.step uuid parse calls a = some s') :
    AccountedInv uuid parse calls s' := by
  obtain ⟨hmove, hpoint⟩ := sendTraffic_move h.pointed hs
  refine ⟨hpoint, h.rows.move hmove, h.owner.move hmove, fun text m htext => ?_⟩
  cases hmove with
  | @request n hn =>
    refine h.held_resume htext fun _ hh => ?_
    rcases hh with hh | hh <;> rw [SendTraffic.phase, hn] at hh <;> cases hh
  | @serve n env written o k p' s' hn hlive heffect =>
    exact h.held_effect (hup o) (by rw [SendTraffic.phase, hn]; rfl) hlive heffect htext
  | @fail n p p' hn hcancelled _ =>
    refine h.held_resume htext fun _ _ hlive => ?_
    rw [hcancelled] at hlive
    cases hlive
  | @cancel n =>
    rcases h.held text m htext with ⟨hholding, hlive⟩ | hrow
    · refine .inl ⟨hholding, ?_⟩
      show Function.update s.cancelled n true m = false
      rw [Function.update_of_ne, hlive]
      rintro rfl
      obtain ⟨x, hslot, rfl⟩ := h.owner text m htext
      exact hok ⟨hholding, x, hslot, htext⟩
    · exact .inr hrow
  | @expire text' =>
    have htext : Function.update s.redis text' none text = some m := htext
    by_cases heq : text = text'
    · rw [heq, Function.update_self] at htext
      cases htext
    · rw [Function.update_of_ne heq] at htext
      exact h.held text m htext

theorem fail_step (uuid : UuidString) (hpoint : Pointed parse calls s) (hholding : s.Holding n)
    (hcancelled : s.cancelled n = true) :
    ∃ p p', s.phase n = some (sendPhase p) ∧ FailsOver (calls n) p p' ∧
      s.step uuid parse calls (.fail n) = some (s.resume n p') := by
  cases hn : s.requests n with
  | none => rcases hholding with hh | hh <;> rw [SendTraffic.phase, hn] at hh <;> cases hh
  | some p =>
    cases p with
    | ret w =>
      cases w <;> rcases hholding with hh | hh <;> rw [SendTraffic.phase, hn] at hh <;> cases hh
    | op o k =>
      refine ⟨.op o k, k (cancelledAnswer o), by rw [SendTraffic.phase, hn]; rfl,
        fail_phases (hpoint n _ hn), ?_⟩
      simp only [SendTraffic.step, hn, hcancelled, if_true]

/-- The conditions on a step under which the keys stay accounted for. -/
def Careful (uuid : UuidString) (parse : String → Option UUID) (calls : ℕ → SendCall)
    (s : SendTraffic) (a : TrafficStep) : Prop :=
  RedisUp s a ∧ CancelsOutside uuid parse calls s a

theorem careful_fail (s : SendTraffic) (n : ℕ) : Careful uuid parse calls s (.fail n) :=
  ⟨trivial, trivial⟩

/-- The release of a cancelled request fails, and the request ends with its key set. -/
theorem left_behind_releasing (hpoint : Pointed parse calls s)
    (hreleasing : s.phase n = some .releasing)
    (hcancelled : s.cancelled n = true) {text : String} (htext : s.redis text = some n)
    (hnone : ∀ m ∈ s.rows, m.request ≠ n) :
    ∃ s₂, Reach (SendTraffic.step uuid parse calls) (Careful uuid parse calls) s s₂ ∧
      ¬ Accounted uuid parse calls s₂ := by
  obtain ⟨p, p', hp, hfails, hstep⟩ := fail_step uuid hpoint (.inr hreleasing) hcancelled
  have hphase : sendPhase p = .releasing := Option.some.inj (hp.symm.trans hreleasing)
  have hrefused : sendPhase p' = .refused := by
    rcases hfails with ⟨h, -⟩ | ⟨h, -⟩ | ⟨-, h⟩
    · rw [hphase] at h
      cases h
    · rw [hphase] at h
      cases h
    · exact h
  refine ⟨_, Reach.single (careful_fail s n) hstep, fun hacc => ?_⟩
  have hended : (s.resume n p').Ended n := by
    refine .inl ?_
    rw [SendTraffic.phase_resume, if_pos rfl, hrefused]
  exact hacc.1 n hended hnone text htext

/-- A context that is cancelled while its request holds its key. -/
theorem left_behind (h : AccountedInv uuid parse calls s) (hholds : HoldsKey uuid parse calls s n)
    (hs : s.step uuid parse calls (.cancel n) = some s') :
    ∃ s₂, Reach (SendTraffic.step uuid parse calls) (Careful uuid parse calls) s' s₂ ∧
      ¬ Accounted uuid parse calls s₂ := by
  obtain ⟨hholding, x, hslot, htext⟩ := hholds
  have hnone : ∀ m ∈ s.rows, m.request ≠ n := by
    rintro m hm rfl
    have hsent := h.rows.sent m hm
    rcases hholding with hh | hh <;> rw [hsent] at hh <;> cases hh
  have hcancel : s' = { s with cancelled := Function.update s.cancelled n true } :=
    (Option.some.inj hs).symm
  have hcancelled : s'.cancelled n = true := by
    rw [hcancel]
    exact Function.update_self _ _ _
  have hpoint : Pointed parse calls s' := by
    rw [hcancel]
    exact h.pointed
  have hphase : s'.phase = s.phase := by rw [hcancel]; rfl
  have htext' : s'.redis (messageIdempotencyKey uuid x) = some n := by
    rw [hcancel]
    exact htext
  have hnone' : ∀ m ∈ s'.rows, m.request ≠ n := by
    rw [hcancel]
    exact hnone
  rcases hholding with hinserting | hreleasing
  · have hinserting' : s'.phase n = some .inserting := by rw [hphase, hinserting]
    obtain ⟨p, p', hp, hfails, hstep⟩ := fail_step uuid hpoint (.inl hinserting') hcancelled
    have hp : sendPhase p = .inserting := Option.some.inj (hp.symm.trans hinserting')
    have hreleasing : sendPhase p' = .releasing := by
      rcases hfails with ⟨h, -⟩ | ⟨-, h⟩ | ⟨h, -⟩
      · rw [hp] at h
        cases h
      · rw [h, if_neg (SendCall.key_of_slot hslot)]
      · rw [hp] at h
        cases h
    have hreleasing' : (s'.resume n p').phase n = some .releasing := by
      rw [SendTraffic.phase_resume, if_pos rfl, hreleasing]
    obtain ⟨s₂, hreach, hacc⟩ :=
      left_behind_releasing (sendTraffic_move hpoint hstep).2 hreleasing' hcancelled htext' hnone'
    exact ⟨s₂, .head ⟨_, careful_fail _ n, hstep⟩ hreach, hacc⟩
  · exact left_behind_releasing hpoint (by rw [hphase, hreleasing]) hcancelled htext' hnone'

/-- While Redis answers: in every run in which no context is cancelled between the
    reservation and the end of its request, the keys are accounted for in every state; and
    the cancellation of a context keeps them so, whatever follows, if and only if it does not
    come there. -/
theorem keys_accounted (uuid : UuidString) (parse : String → Option UUID) (calls : ℕ → SendCall) :
    (∀ s, Reach (SendTraffic.step uuid parse calls) (Careful uuid parse calls) SendTraffic.start s →
      Accounted uuid parse calls s) ∧
    ∀ s n s', Reach (SendTraffic.step uuid parse calls) (Careful uuid parse calls)
      SendTraffic.start s →
      s.step uuid parse calls (.cancel n) = some s' →
      ((∀ s₂, Reach (SendTraffic.step uuid parse calls) (Careful uuid parse calls) s' s₂ →
        Accounted uuid parse calls s₂) ↔ ¬ HoldsKey uuid parse calls s n) := by
  have hinv : ∀ s, Reach (SendTraffic.step uuid parse calls) (Careful uuid parse calls)
      SendTraffic.start s → AccountedInv uuid parse calls s := fun s hrun =>
    hrun.invariant (AccountedInv uuid parse calls) (fun _ _ _ h hok hs => h.step hok.1 hok.2 hs)
      start_accountedInv
  refine ⟨fun s hrun => (hinv s hrun).accounted, fun s n s' hrun hs => ⟨fun hall hholds => ?_, ?_⟩⟩
  · obtain ⟨s₂, hreach, hacc⟩ := left_behind (hinv s hrun) hholds hs
    exact hacc (hall s₂ hreach)
  · intro hout s₂ hreach
    have hcancel : Reach (SendTraffic.step uuid parse calls) (Careful uuid parse calls)
        SendTraffic.start s' := hrun.tail ⟨.cancel n, ⟨trivial, hout⟩, hs⟩
    exact (hinv s₂ (hcancel.trans hreach)).accounted

/-! ## A cancelled send -/

/-- The context is cancelled right after the reservation; the insert fails, and so does the
    release. -/
def cancelledSend : List TrafficStep :=
  [.request 0, .serve 0 (sendEnv true) false, .serve 0 (sendEnv true) false,
    .cancel 0, .fail 0, .fail 0]

theorem sendEnv_answers (inserts : Bool) (o : SendOp) : RedisAnswers o (sendEnv inserts o) := by
  cases o with
  | getMembership => trivial
  | insertMessage => trivial
  | reserveMessageIdempotencyKey => rfl
  | releaseMessageIdempotencyKey => rfl

/-- The request has ended, there is no message, and the key is still reserved. -/
theorem cancelled_send_keeps_key :
    ¬ ∀ (uuid : UuidString) (parse : String → Option UUID) (calls : ℕ → SendCall) (s : SendTraffic),
      Reach (SendTraffic.step uuid parse calls) RedisUp SendTraffic.start s →
        Accounted uuid parse calls s := by
  intro h
  have hexec : exec keyedStep SendTraffic.start cancelledSend = some (keyedAfter cancelledSend) :=
    rfl
  have hup : ∀ a ∈ cancelledSend, ∀ s, RedisUp s a := by
    intro a ha s
    fin_cases ha <;> first | exact sendEnv_answers true | trivial
  have hacc := h _ _ _ _ (Reach.of_exec (meets_of_forall hup _) hexec)
  have hended : (keyedAfter cancelledSend).Ended 0 := .inl (by decide)
  have hrows : ∀ m ∈ (keyedAfter cancelledSend).rows, m.request ≠ 0 := by decide
  exact hacc.1 0 hended hrows (messageIdempotencyKey canonicalUuid (1, 1, "k")) (by decide)

/-- Without a cancellation, and after one that comes before the reservation. -/
theorem keys_accounted_of_ada :
    Accounted canonicalUuid parseId adaSends (keyedAfter sentAgain) ∧
      ((∀ s₂, Reach keyedStep (Careful canonicalUuid parseId adaSends)
          (keyedAfter [.request 0, .cancel 0]) s₂ → Accounted canonicalUuid parseId adaSends s₂) ↔
        ¬ HoldsKey canonicalUuid parseId adaSends (keyedAfter [.request 0]) 0) := by
  have hcareful : ∀ a ∈ sentAgain, ∀ s, Careful canonicalUuid parseId adaSends s a := by
    intro a ha s
    fin_cases ha <;> first | exact ⟨sendEnv_answers _, trivial⟩ | exact ⟨trivial, trivial⟩
  have hexec : exec keyedStep SendTraffic.start sentAgain = some (keyedAfter sentAgain) := rfl
  have hfirst : keyedStep SendTraffic.start (.request 0) = some (keyedAfter [.request 0]) := rfl
  have hcareful₀ : Careful canonicalUuid parseId adaSends SendTraffic.start (.request 0) :=
    ⟨trivial, trivial⟩
  have hcancel : keyedStep (keyedAfter [.request 0]) (.cancel 0) =
      some (keyedAfter [.request 0, .cancel 0]) := rfl
  have hall := keys_accounted canonicalUuid parseId adaSends
  exact ⟨hall.1 _ (Reach.of_exec (meets_of_forall hcareful _) hexec),
    hall.2 _ 0 _ (Reach.single hcareful₀ hfirst) hcancel⟩

end ConvoyChat.System
