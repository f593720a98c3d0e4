import ConvoyChat.System.Presence
import Mathlib.Data.Finset.Card

/-!
# Presence when commands fail

The connections of one user while commands of `PresenceConnect` and `PresenceDisconnect`
fail (`internal/store/presence.go` lines 33–84). A command that fails has no effect; the
call returns its error, and `presenceOnline` and `presenceOffline` log it
(`internal/websocket/presence.go` lines 72–101): the connection stays open, and its
`PresenceDisconnect` comes all the same. The commands of all calls, and those of
heartbeats and `presence.update`, are executed in any order; no key expires.

`counted` is kept by the model only: the connections whose `INCR` was executed and whose
`DECR` has not been tried. The counter covers them, until the `DECR` of a connection
whose `INCR` failed takes one of them away.

* `offline_reported`: in every run in which that does not happen, a reset of a negative
  counter does not fail, and no `INCR` comes between the `DECR` of a last disconnect and
  its return, no `PresenceDisconnect` reports the user offline who is still connected.
* `uncounted_goes_offline`: what happens else.
-/

namespace ConvoyChat.System

open ConvoyChat.Lib ConvoyChat.Store

/-- The two calls of connection `n`. -/
inductive ConnectionCall
  | connect (n : ℕ)
  | disconnect (n : ℕ)
deriving DecidableEq, Repr

abbrev ReportProc := PresenceProc (Except StoreErr Bool)

structure Attended where
  keys : PresenceKeys
  calls : ConnectionCall → Option ReportProc
  counted : Finset ℕ

inductive AttendedAction
  | connect (n : ℕ)
  | disconnect (n : ℕ)
  /-- the next command of a call is executed at `now`, or fails -/
  | serve (c : ConnectionCall) (now : Time) (fails : Bool)
  /-- a command of a heartbeat or of `presence.update` -/
  | other (o : PresenceOp) (now : Time)
deriving DecidableEq, Repr

def presenceFailed : (o : PresenceOp) → o.Res
  | .incrConns => .error .internal
  | .decrConns => .error .internal
  | .expireConns _ => .error .internal
  | .setConns _ _ => .error .internal
  | .expireStatus _ => .error .internal
  | .setStatus _ _ => .error .internal
  | .delStatus => .error .internal
  | .upsertUserPresence _ => .error .internal

/-- What a heartbeat or `presence.update` may send. -/
def isOther : PresenceOp → Bool
  | .expireConns _ => true
  | .expireStatus _ => true
  | .setStatus _ _ => true
  | .upsertUserPresence _ => true
  | _ => false

/-- The connections that are counted after a command. -/
def tally (counted : Finset ℕ) (fails : Bool) : ConnectionCall → PresenceOp → Finset ℕ
  | .connect n, .incrConns => if fails then counted else insert n counted
  | .disconnect n, .decrConns => counted.erase n
  | _, _ => counted

namespace Attended

def start : Attended := ⟨.empty, fun _ => none, ∅⟩

def resume (s : Attended) (c : ConnectionCall) (p : ReportProc) : Attended :=
  { s with calls := Function.update s.calls c (some p) }

def hasReturned : Option ReportProc → Bool
  | some (.ret _) => true
  | _ => false

/-- `PresenceDisconnect` is called once, after `PresenceConnect` has returned. -/
def step (s : Attended) : AttendedAction → Option Attended
  | .connect n =>
    if (s.calls (.connect n)).isNone then
      some (s.resume (.connect n) (presenceConnect presenceTTL))
    else none
  | .disconnect n =>
    if hasReturned (s.calls (.connect n)) ∧ (s.calls (.disconnect n)).isNone then
      some (s.resume (.disconnect n) presenceDisconnect)
    else none
  | .serve c now fails =>
    match s.calls c with
    | some (.op o k) =>
      let out := if fails then (presenceFailed o, s.keys) else o.serve now s.keys
      some { s.resume c (k out.1) with keys := out.2, counted := tally s.counted fails c o }
    | _ => none
  | .other o now => if isOther o then some { s with keys := (o.serve now s.keys).2 } else none

/-- The connection is live, and its `PresenceConnect` has succeeded. -/
def Online (s : Attended) (n : ℕ) : Prop :=
  (∃ wentOnline, s.calls (.connect n) = some (.ret (.ok wentOnline))) ∧
  s.calls (.disconnect n) = none

/-- From `s` to `s'` the `PresenceDisconnect` of `n` returns that the user went offline. -/
def ReportsOffline (s s' : Attended) (n : ℕ) : Prop :=
  s.calls (.disconnect n) ≠ some (.ret (.ok true)) ∧
  s'.calls (.disconnect n) = some (.ret (.ok true))

end Attended

/-! ## What is left of a disconnect -/

/-- After a `DECR` below 0. -/
def resetConns : ReportProc := do
  match ← Proc.perform (PresenceOp.setConns 0 connsSafetyTTL) with
  | .error err => return .error err
  | .ok () => clearStatus

/-- After the `DEL`. -/
def recordOffline : ReportProc := do
  match ← Proc.perform (PresenceOp.upsertUserPresence .offline) with
  | .error err => return .error err
  | .ok () => return .ok true

/-- A disconnect that stands between its `DECR`, to 0 or less, and its return. -/
def Clearing (p : ReportProc) : Prop := p = resetConns ∨ p = clearStatus ∨ p = recordOffline

/-- An `INCR` finds no disconnect that is clearing; the `DECR` of a connection that was not
    counted finds nobody counted, or a counter that exceeds their number; and when the reset
    of a negative counter fails, another one is still to come. -/
def Attended.Backed (s : Attended) : AttendedAction → Prop
  | .serve c _ fails => ∀ o k, s.calls c = some (.op o k) →
    (∀ n, c = .connect n → o = .incrConns → fails = false →
      ∀ m p, s.calls (.disconnect m) = some p → ¬ Clearing p) ∧
    (∀ n, c = .disconnect n → o = .decrConns → fails = false → n ∉ s.counted →
      s.counted = ∅ ∨ (s.counted.card : ℤ) < s.keys.count) ∧
    (∀ n, c = .disconnect n → o = .setConns 0 connsSafetyTTL → fails = true →
      0 ≤ s.keys.count ∨ ∃ m, m ≠ n ∧ s.calls (.disconnect m) = some resetConns)
  | _ => True

/-! ## The counter covers the connections -/

variable {s s' : Attended} {a : AttendedAction} {n : ℕ} {counted counted' : Finset ℕ}

/-- The two calls of connection `n`. -/
def CallsOk (counted : Finset ℕ) (n : ℕ) : Option ReportProc → Option ReportProc → Prop
  | none, q => q = none ∧ n ∉ counted
  | some p, none => p = presenceConnect presenceTTL ∧ n ∉ counted ∨
      p.Never Proc.Always Counts ∧ (n ∈ counted ∨ ∃ err, p = .ret (.error err))
  | some p, some q => (∃ r, p = .ret r) ∧
      (q = presenceDisconnect ∨ n ∉ counted ∧ (Clearing q ∨ ∃ r, q = .ret r))

structure AttendedInv (s : Attended) : Prop where
  calls : ∀ n, CallsOk s.counted n (s.calls (.connect n)) (s.calls (.disconnect n))
  covered : (s.counted.card : ℤ) ≤ s.keys.count ∨ ∃ n, s.calls (.disconnect n) = some resetConns
  clearing : ∀ n p, s.calls (.disconnect n) = some p → Clearing p → s.counted = ∅

theorem attendedInv_start : AttendedInv .start where
  calls _ := ⟨rfl, Finset.notMem_empty _⟩
  covered := .inl (le_refl 0)
  clearing _ _ h := by cases h

theorem CallsOk.congr {p q : Option ReportProc} (h : CallsOk counted n p q)
    (hn : n ∈ counted' ↔ n ∈ counted) : CallsOk counted' n p q := by
  unfold CallsOk at h ⊢
  rw [hn]
  exact h

theorem calls_resume_self (s : Attended) (c : ConnectionCall) (p : ReportProc) :
    (s.resume c p).calls c = some p := Function.update_self ..

theorem calls_resume_ne (s : Attended) (p : ReportProc) {c c' : ConnectionCall} (h : c' ≠ c) :
    (s.resume c p).calls c' = s.calls c' := Function.update_of_ne h ..

/-- A connect goes on. -/
theorem AttendedInv.connect_moves (h : AttendedInv s) {p : ReportProc} {keys : PresenceKeys}
    (hfree : s.calls (.disconnect n) = none) (hn : CallsOk counted n (some p) none)
    (hcounted : ∀ m, m ≠ n → (m ∈ counted ↔ m ∈ s.counted))
    (hcovered : (counted.card : ℤ) ≤ keys.count ∨ ∃ m, s.calls (.disconnect m) = some resetConns)
    (hclearing : ∀ m q, s.calls (.disconnect m) = some q → Clearing q → counted = ∅) :
    AttendedInv { s.resume (.connect n) p with keys := keys, counted := counted } := by
  have hdisconnect : ∀ m, (s.resume (.connect n) p).calls (.disconnect m) =
      s.calls (.disconnect m) :=
    fun m => calls_resume_ne s p ConnectionCall.noConfusion
  refine ⟨fun m => ?_, hcovered.imp_right fun ⟨m, hm⟩ => ⟨m, (hdisconnect m).trans hm⟩,
    fun m q hq => hclearing m q ((hdisconnect m).symm.trans hq)⟩
  show CallsOk counted m ((s.resume (.connect n) p).calls (.connect m))
    ((s.resume (.connect n) p).calls (.disconnect m))
  rw [hdisconnect m]
  by_cases hm : m = n
  · rw [hm, calls_resume_self, hfree]
    exact hn
  · rw [calls_resume_ne s p fun hc => hm (ConnectionCall.connect.inj hc)]
    exact (h.calls m).congr (hcounted m hm)

/-- A disconnect goes on. -/
theorem AttendedInv.disconnect_moves (h : AttendedInv s) {p : ReportProc} {keys : PresenceKeys}
    (hn : CallsOk counted n (s.calls (.connect n)) (some p))
    (hcounted : ∀ m, m ≠ n → (m ∈ counted ↔ m ∈ s.counted))
    (hcovered : (counted.card : ℤ) ≤ keys.count ∨
      p = resetConns ∨ ∃ m, m ≠ n ∧ s.calls (.disconnect m) = some resetConns)
    (hclearing : Clearing p → counted = ∅)
    (hothers : ∀ m q, m ≠ n → s.calls (.disconnect m) = some q → Clearing q → counted = ∅) :
    AttendedInv { s.resume (.disconnect n) p with keys := keys, counted := counted } := by
  have hconnect : ∀ m, (s.resume (.disconnect n) p).calls (.connect m) = s.calls (.connect m) :=
    fun m => calls_resume_ne s p ConnectionCall.noConfusion
  have hdisconnect : ∀ m, m ≠ n →
      (s.resume (.disconnect n) p).calls (.disconnect m) = s.calls (.disconnect m) :=
    fun m hm => calls_resume_ne s p fun hc => hm (ConnectionCall.disconnect.inj hc)
  have hself := calls_resume_self s (.disconnect n) p
  refine ⟨fun m => ?_, hcovered.imp_right ?_, fun m q hq hc => ?_⟩
  · show CallsOk counted m ((s.resume (.disconnect n) p).calls (.connect m))
      ((s.resume (.disconnect n) p).calls (.disconnect m))
    rw [hconnect m]
    by_cases hm : m = n
    · rw [hm, hself]
      exact hn
    · rw [hdisconnect m hm]
      exact (h.calls m).congr (hcounted m hm)
  · rintro (rfl | ⟨m, hm, hreset⟩)
    · exact ⟨n, hself⟩
    · exact ⟨m, (hdisconnect m hm).trans hreset⟩
  · by_cases hm : m = n
    · subst hm
      cases hself.symm.trans hq
      exact hclearing hc
    · exact hothers m q hm ((hdisconnect m hm).symm.trans hq) hc

/-- A connection that is online is counted. -/
theorem AttendedInv.online (h : AttendedInv s) (hn : s.Online n) : n ∈ s.counted := by
  obtain ⟨⟨wentOnline, hconnect⟩, hdisconnect⟩ := hn
  have hcalls := h.calls n
  rw [hconnect, hdisconnect] at hcalls
  rcases hcalls with ⟨hp, -⟩ | ⟨-, hin | ⟨err, hp⟩⟩
  · cases hp
  · exact hin
  · cases hp

theorem clearing_counts {p : ReportProc} (h : Clearing p) :
    ∃ o k, p = .op o k ∧ o ≠ .decrConns := by
  rcases h with rfl | rfl | rfl
  · exact ⟨_, _, rfl, PresenceOp.noConfusion⟩
  · exact ⟨_, _, rfl, PresenceOp.noConfusion⟩
  · exact ⟨_, _, rfl, PresenceOp.noConfusion⟩

theorem presenceDisconnect_not_clearing : ¬ Clearing presenceDisconnect := by
  intro h
  obtain ⟨o, k, hp, ho⟩ := clearing_counts h
  cases hp
  exact ho rfl

theorem ret_not_clearing (r : Except StoreErr Bool) : ¬ Clearing (.ret r) := by
  intro h
  obtain ⟨o, k, hp, -⟩ := clearing_counts h
  cases hp

/-! ## Commands -/

theorem tally_other {o : PresenceOp} (ho : ¬ Counts o) (counted : Finset ℕ) (fails : Bool)
    (c : ConnectionCall) : tally counted fails c o = counted := by
  cases o with
  | incrConns => exact absurd (.inl rfl) ho
  | decrConns => exact absurd (.inr (.inl rfl)) ho
  | _ => cases c <;> rfl

/-- The answer to a command and the keys after it. -/
theorem count_other {o : PresenceOp} (ho : ¬ Counts o) (keys : PresenceKeys)
    (now : Time) (fails : Bool) :
    (if fails then (presenceFailed o, keys) else o.serve now keys).2.count = keys.count := by
  cases fails with
  | true => rfl
  | false => exact count_serve ho now keys

theorem step_serve {c : ConnectionCall} {now : Time} {fails : Bool} {o : PresenceOp}
    {k : o.Res → ReportProc} (hc : s.calls c = some (.op o k))
    (hs : s.step (.serve c now fails) = some s') :
    s' = { s.resume c (k (if fails then (presenceFailed o, s.keys) else o.serve now s.keys).1) with
      keys := (if fails then (presenceFailed o, s.keys) else o.serve now s.keys).2
      counted := tally s.counted fails c o } := by
  simp only [Attended.step, hc, Option.some.injEq] at hs
  exact hs.symm

/-- The next command of a `PresenceConnect`. -/
theorem AttendedInv.serve_connect (h : AttendedInv s) {now : Time} {fails : Bool} {o : PresenceOp}
    {k : o.Res → ReportProc} (hc : s.calls (.connect n) = some (.op o k))
    (hok : s.Backed (.serve (.connect n) now fails))
      (hs : s.step (.serve (.connect n) now fails) = some s') :
    AttendedInv s' := by
  have hfree : s.calls (.disconnect n) = none := by
    have hcalls := h.calls n
    cases hd : s.calls (.disconnect n) with
    | none => rfl
    | some q =>
      rw [hc, hd] at hcalls
      obtain ⟨⟨r, hr⟩, -⟩ := hcalls
      cases hr
  have hcalls := h.calls n
  rw [hc, hfree] at hcalls
  cases step_serve hc hs
  rcases hcalls with ⟨hp, hout⟩ | ⟨hnever, hin⟩
  · obtain ⟨k', hk, herr, hrest⟩ := presenceConnect_counts presenceTTL
    cases hp.trans hk
    cases fails with
    | true =>
      refine h.connect_moves hfree (.inr ⟨hrest _, .inr ⟨.internal, herr _⟩⟩) (fun m _ => Iff.rfl)
        h.covered h.clearing
    | false =>
      have hnone := (hok _ _ hc).1 n rfl rfl rfl
      have hcovered : (s.counted.card : ℤ) ≤ s.keys.count := by
        rcases h.covered with hle | ⟨m, hm⟩
        · exact hle
        · exact absurd (.inl rfl) (hnone m _ hm)
      refine h.connect_moves hfree (.inr ⟨hrest _, .inl (Finset.mem_insert_self n s.counted)⟩)
        (fun m hm => Finset.mem_insert.trans (or_iff_right hm)) (.inl ?_)
        fun m q hq hclearing => absurd hclearing (hnone m q hq)
      show ((insert n s.counted).card : ℤ) ≤ s.keys.count + 1
      rw [Finset.card_insert_of_notMem hout]
      push_cast
      omega
  · have hcounted : n ∈ s.counted := by
      rcases hin with hin | ⟨err, hp⟩
      · exact hin
      · cases hp
    rw [tally_other hnever.not]
    refine h.connect_moves hfree (.inr ⟨hnever.next trivial, .inl hcounted⟩) (fun m _ => Iff.rfl)
      ?_ h.clearing
    rw [count_other hnever.not]
    exact h.covered

theorem presenceDisconnect_counts :
    ∃ k, presenceDisconnect = .op .decrConns k ∧ (∀ err, k (.error err) = .ret (.error err)) ∧
      ∀ count, k (.ok count) =
        if count > 0 then .ret (.ok false) else if count < 0 then resetConns else clearStatus :=
  ⟨_, rfl, fun _ => rfl, fun _ => rfl⟩

/-- A connection that is not counted may go on with what clears its status. -/
theorem AttendedInv.callsOk_disconnect (h : AttendedInv s) {p q : ReportProc}
    (hc : s.calls (.disconnect n) = some p) {counted : Finset ℕ} (hn : n ∉ counted)
    (hq : Clearing q ∨ ∃ r, q = .ret r) : CallsOk counted n (s.calls (.connect n)) (some q) := by
  have hcalls := h.calls n
  rw [hc] at hcalls
  cases hconnect : s.calls (.connect n) with
  | none =>
    rw [hconnect] at hcalls
    cases hcalls.1
  | some p =>
    rw [hconnect] at hcalls
    exact ⟨hcalls.1, .inr ⟨hn, hq⟩⟩

/-- A `DECR` that does not fail leaves the counter above the other connections, unless
    there are none. -/
theorem AttendedInv.covered_decr (h : AttendedInv s) {now : Time}
    {k : Except StoreErr ℤ → ReportProc} (hc : s.calls (.disconnect n) = some (.op .decrConns k))
    (hok : s.Backed (.serve (.disconnect n) now false)) :
    ((s.counted.erase n).card : ℤ) ≤ s.keys.count - 1 ∨ s.counted.erase n = ∅ := by
  by_cases hn : n ∈ s.counted
  · have hcard := Finset.card_erase_add_one hn
    rcases h.covered with hcov | ⟨m, hm⟩
    · left
      omega
    · rw [h.clearing m _ hm (.inl rfl)] at hn
      exact absurd hn (Finset.notMem_empty n)
  · rw [Finset.erase_eq_of_notMem hn]
    rcases (hok _ _ hc).2.1 n rfl rfl rfl hn with hempty | hlt
    · exact .inr hempty
    · left
      omega

/-- The `DECR` of a connection. -/
theorem AttendedInv.serve_decr (h : AttendedInv s) {now : Time} {fails : Bool}
    (hc : s.calls (.disconnect n) = some presenceDisconnect)
    (hok : s.Backed (.serve (.disconnect n) now fails))
    (hs : s.step (.serve (.disconnect n) now fails) = some s') : AttendedInv s' := by
  obtain ⟨k, hk, herr, hcount⟩ := presenceDisconnect_counts
  rw [hk] at hc
  cases step_serve hc hs
  have hcallsOk : ∀ q, (Clearing q ∨ ∃ r, q = .ret r) →
      CallsOk (s.counted.erase n) n (s.calls (.connect n)) (some q) :=
    fun q hq => h.callsOk_disconnect hc (Finset.notMem_erase n _) hq
  have hothers : ∀ m, m ≠ n → (m ∈ s.counted.erase n ↔ m ∈ s.counted) := fun m hm =>
    Finset.mem_erase.trans (and_iff_right hm)
  have hclearing : ∀ m q, m ≠ n → s.calls (.disconnect m) = some q → Clearing q →
      s.counted.erase n = ∅ := by
    intro m q _ hq hclearing
    rw [h.clearing m q hq hclearing, Finset.erase_empty]
  cases fails with
  | true =>
    show AttendedInv { s.resume (.disconnect n) (k (.error .internal)) with
      keys := s.keys, counted := s.counted.erase n }
    rw [herr]
    refine h.disconnect_moves (hcallsOk _ (.inr ⟨_, rfl⟩)) hothers ?_
      (fun hq => absurd hq (ret_not_clearing _)) hclearing
    rcases h.covered with hcov | ⟨m, hm⟩
    · left
      have hle : ((s.counted.erase n).card : ℤ) ≤ s.counted.card := by
        exact_mod_cast Finset.card_erase_le
      exact hle.trans hcov
    · refine .inr (.inr ⟨m, ?_, hm⟩)
      rintro rfl
      rw [hc] at hm
      cases hm
  | false =>
    have hcases := h.covered_decr hc hok
    have hempty : s.keys.count - 1 ≤ 0 → s.counted.erase n = ∅ := by
      intro hle
      rcases hcases with hcov | hempty
      · apply Finset.card_eq_zero.mp
        omega
      · exact hempty
    have hcov : 0 ≤ s.keys.count - 1 → ((s.counted.erase n).card : ℤ) ≤ s.keys.count - 1 := by
      intro hpos
      rcases hcases with hcov | hempty
      · exact hcov
      · rw [hempty]
        exact hpos
    show AttendedInv { s.resume (.disconnect n) (k (.ok (s.keys.count - 1))) with
      keys := s.keys.addConns (-1), counted := s.counted.erase n }
    rw [hcount]
    by_cases hpos : s.keys.count - 1 > 0
    · rw [if_pos hpos]
      exact h.disconnect_moves (hcallsOk _ (.inr ⟨_, rfl⟩)) hothers (.inl (hcov hpos.le))
        (fun hq => absurd hq (ret_not_clearing _)) hclearing
    · rw [if_neg hpos]
      by_cases hneg : s.keys.count - 1 < 0
      · rw [if_pos hneg]
        exact h.disconnect_moves (hcallsOk _ (.inl (.inl rfl))) hothers (.inr (.inl rfl))
          (fun _ => hempty hneg.le) hclearing
      · rw [if_neg hneg]
        exact h.disconnect_moves (hcallsOk _ (.inl (.inr (.inl rfl)))) hothers
          (.inl (hcov (not_lt.mp hneg))) (fun _ => hempty (not_lt.mp hpos)) hclearing

/-- A command of a disconnect that is clearing. -/
theorem AttendedInv.serve_clearing (h : AttendedInv s) {now : Time} {fails : Bool} {p : ReportProc}
    (hp : Clearing p) (hc : s.calls (.disconnect n) = some p)
    (hok : s.Backed (.serve (.disconnect n) now fails))
    (hs : s.step (.serve (.disconnect n) now fails) = some s') : AttendedInv s' := by
  have hempty := h.clearing n p hc hp
  have hout : n ∉ s.counted := by
    rw [hempty]
    exact Finset.notMem_empty n
  -- the keys still cover nobody, or another reset is to come
  have hmoves : ∀ q keys, (Clearing q ∨ ∃ r, q = .ret r) →
      (0 ≤ keys.count ∨ ∃ m, m ≠ n ∧ s.calls (.disconnect m) = some resetConns) →
      AttendedInv { s.resume (.disconnect n) q with keys := keys, counted := s.counted } := by
    intro q keys hq hcov
    refine h.disconnect_moves (h.callsOk_disconnect hc hout hq) (fun m _ => Iff.rfl)
      ?_ (fun _ => hempty)
      fun m q _ hm hclearing => hempty
    rw [hempty, Finset.card_empty]
    exact hcov.imp_right .inr
  have hkept : p ≠ resetConns →
      0 ≤ s.keys.count ∨ ∃ m, m ≠ n ∧ s.calls (.disconnect m) = some resetConns := by
    intro hne
    rcases h.covered with hcov | ⟨m, hm⟩
    · left
      omega
    · refine .inr ⟨m, ?_, hm⟩
      rintro rfl
      exact hne (Option.some.inj (hc.symm.trans hm))
  rcases hp with rfl | rfl | rfl
  · cases step_serve hc hs
    cases fails with
    | true => exact hmoves _ _ (.inr ⟨_, rfl⟩) ((hok _ _ hc).2.2 n rfl rfl rfl)
    | false => exact hmoves _ _ (.inl (.inr (.inl rfl))) (.inl (le_refl 0))
  · have hne : clearStatus ≠ resetConns := fun heq => by cases heq
    cases step_serve hc hs
    cases fails with
    | true => exact hmoves _ _ (.inr ⟨_, rfl⟩) (hkept hne)
    | false => exact hmoves _ _ (.inl (.inr (.inr rfl))) (hkept hne)
  · have hne : recordOffline ≠ resetConns := fun heq => by cases heq
    cases step_serve hc hs
    cases fails with
    | true => exact hmoves _ _ (.inr ⟨_, rfl⟩) (hkept hne)
    | false => exact hmoves _ _ (.inr ⟨_, rfl⟩) (hkept hne)

/-- What is left of a disconnect when it comes to a command. -/
theorem AttendedInv.disconnecting (h : AttendedInv s) {p : ReportProc}
    (hc : s.calls (.disconnect n) = some p) :
    p = presenceDisconnect ∨ Clearing p ∨ ∃ r, p = .ret r := by
  have hcalls := h.calls n
  rw [hc] at hcalls
  cases hconnect : s.calls (.connect n) with
  | none =>
    rw [hconnect] at hcalls
    cases hcalls.1
  | some q =>
    rw [hconnect] at hcalls
    exact hcalls.2.imp_right fun hq => hq.2

theorem attendedInv_step (h : AttendedInv s) (hok : s.Backed a) (hs : s.step a = some s') :
    AttendedInv s' := by
  cases a with
  | connect n =>
    simp only [Attended.step] at hs
    split_ifs at hs with hnone
    cases hs
    rw [Option.isNone_iff_eq_none] at hnone
    have hcalls := h.calls n
    rw [hnone] at hcalls
    exact h.connect_moves hcalls.1 (.inl ⟨rfl, hcalls.2⟩) (fun m _ => Iff.rfl) h.covered h.clearing
  | disconnect n =>
    simp only [Attended.step] at hs
    split_ifs at hs with hreturned
    cases hs
    obtain ⟨hconnect, hnone⟩ := hreturned
    rw [Option.isNone_iff_eq_none] at hnone
    have hcalls : CallsOk s.counted n (s.calls (.connect n)) (some presenceDisconnect) := by
      match s.calls (.connect n), hconnect with
      | some (.ret r), _ => exact ⟨⟨r, rfl⟩, .inl rfl⟩
    refine h.disconnect_moves hcalls (fun m _ => Iff.rfl) (h.covered.imp_right fun ⟨m, hm⟩ => ?_)
      (fun hc => absurd hc presenceDisconnect_not_clearing) fun m q _ => h.clearing m q
    refine .inr ⟨m, ?_, hm⟩
    rintro rfl
    rw [hnone] at hm
    cases hm
  | serve c now fails =>
    cases hc : s.calls c with
    | none =>
      simp only [Attended.step, hc] at hs
      cases hs
    | some p =>
      cases p with
      | ret r =>
        simp only [Attended.step, hc] at hs
        cases hs
      | op o k =>
        cases c with
        | connect n => exact h.serve_connect hc hok hs
        | disconnect n =>
          rcases h.disconnecting hc with hp | hp | ⟨r, hp⟩
          · exact h.serve_decr (hc.trans (congrArg some hp)) hok hs
          · exact h.serve_clearing hp hc hok hs
          · cases hp
  | other o now =>
    simp only [Attended.step] at hs
    split_ifs at hs with hother
    cases hs
    have hcounts : ¬ Counts o := by
      rintro (rfl | rfl | ⟨n, ttl, rfl⟩)
      · cases hother
      · cases hother
      · cases hother
    refine ⟨h.calls, ?_, h.clearing⟩
    show (s.counted.card : ℤ) ≤ (o.serve now s.keys).2.count ∨ _
    rw [count_serve hcounts]
    exact h.covered

/-! ## Reports -/

theorem decr_not_report :
    ∃ k, presenceDisconnect = .op .decrConns k ∧ ∀ res, k res ≠ .ret (.ok true) := by
  obtain ⟨k, hk, herr, hcount⟩ := presenceDisconnect_counts
  refine ⟨k, hk, fun res hret => ?_⟩
  cases res with
  | error err =>
    rw [herr] at hret
    cases hret
  | ok count =>
    rw [hcount] at hret
    split_ifs at hret
    · cases hret
    · exact ret_not_clearing (.ok true) (.inl hret.symm)
    · exact ret_not_clearing (.ok true) (.inr (.inl hret.symm))

/-- Whoever reports finds nobody counted. -/
theorem AttendedInv.report (h : AttendedInv s) (hs : s.step a = some s')
    (hreport : s.ReportsOffline s' n) :
    s'.counted = ∅ := by
  have hmoved : s'.calls (.disconnect n) ≠ s.calls (.disconnect n) := fun heq =>
    hreport.1 (heq.symm.trans hreport.2)
  cases a with
  | connect k =>
    simp only [Attended.step] at hs
    split_ifs at hs
    cases hs
    exact absurd (calls_resume_ne s _ ConnectionCall.noConfusion) hmoved
  | disconnect k =>
    simp only [Attended.step] at hs
    split_ifs at hs
    cases hs
    by_cases hk : n = k
    · subst hk
      cases (calls_resume_self s (.disconnect n) presenceDisconnect).symm.trans hreport.2
    · exact absurd (calls_resume_ne s _ fun hc => hk (ConnectionCall.disconnect.inj hc)) hmoved
  | other o now =>
    simp only [Attended.step] at hs
    split_ifs at hs
    cases hs
    exact absurd rfl hmoved
  | serve c now fails =>
    cases hc : s.calls c with
    | none =>
      simp only [Attended.step, hc] at hs
      cases hs
    | some p =>
      cases p with
      | ret r =>
        simp only [Attended.step, hc] at hs
        cases hs
      | op o k =>
        have hs' := step_serve hc hs
        by_cases hcn : .disconnect n = c
        · subst hcn
          rcases h.disconnecting hc with hp | hp | ⟨r, hp⟩
          · -- the `DECR` itself does not report
            obtain ⟨k', hk, hnot⟩ := decr_not_report
            cases hp.trans hk
            have hret := hreport.2
            rw [hs'] at hret
            exact absurd (Option.some.inj ((calls_resume_self s _ _).symm.trans hret)) (hnot _)
          · have hcounts : tally s.counted fails (.disconnect n) o = s.counted := by
              obtain ⟨o', k', hp', ho⟩ := clearing_counts hp
              cases hp'
              cases o with
              | decrConns => exact absurd rfl ho
              | _ => rfl
            rw [hs']
            exact hcounts.trans (h.clearing n _ hc hp)
          · cases hp
        · rw [hs'] at hmoved
          exact absurd (calls_resume_ne s _ hcn) hmoved

/-- The commands of the connections of one user in any order, any of which may fail: in
    every run that goes as `Backed` says, a `PresenceDisconnect` that reports the user
    offline finds no connection that is live and whose `PresenceConnect` has succeeded. -/
theorem offline_reported {s s' : Attended} {a : AttendedAction} {n m : ℕ}
    (hrun : Reach Attended.step Attended.Backed .start s) (hok : s.Backed a)
    (hs : s.step a = some s') (hreport : s.ReportsOffline s' n) : ¬ s'.Online m := by
  have hinv : AttendedInv s := hrun.invariant AttendedInv
    (fun _ _ _ h hok hs => attendedInv_step h hok hs) attendedInv_start
  intro hm
  have hin := (attendedInv_step hinv hok hs).online hm
  rw [hinv.report hs hreport] at hin
  exact Finset.notMem_empty m hin

/-! ## A connection that was not counted -/

/-- The whole `PresenceConnect` of a first connection. -/
def firstConnects : List AttendedAction :=
  [.connect 0, .serve (.connect 0) 1 false, .serve (.connect 0) 1 false,
    .serve (.connect 0) 1 false, .serve (.connect 0) 1 false]

/-- The `INCR` of a second one fails, and it disconnects. -/
def uncountedLeaves : List AttendedAction :=
  firstConnects ++ [.connect 1, .serve (.connect 1) 2 true, .disconnect 1,
    .serve (.disconnect 1) 3 false, .serve (.disconnect 1) 3 false]

/-- The `INCR` of a second one fails, and the first one disconnects. -/
def countedLeaves : List AttendedAction :=
  firstConnects ++ [.connect 1, .serve (.connect 1) 2 true, .disconnect 0,
    .serve (.disconnect 0) 3 false, .serve (.disconnect 0) 3 false]

def attendedAfter (as : List AttendedAction) : Attended :=
  (exec Attended.step .start as).getD .start

/-- The first connection is open, and the user is reported offline. -/
theorem uncounted_goes_offline :
    ¬ ∀ (s s' : Attended) (a : AttendedAction) (n m : ℕ), Reach Attended.step Unguarded .start s →
      s.step a = some s' → s.ReportsOffline s' n → ¬ s'.Online m := by
  intro h
  have hexec : exec Attended.step .start uncountedLeaves = some (attendedAfter uncountedLeaves) :=
    rfl
  have hs : (attendedAfter uncountedLeaves).step (.serve (.disconnect 1) 3 false) =
      some (attendedAfter (uncountedLeaves ++ [.serve (.disconnect 1) 3 false])) := rfl
  refine h _ _ _ 1 0 (Reach.of_exec (meets_unguarded _ _ _) hexec) hs ⟨?_, rfl⟩ ⟨⟨true, rfl⟩, rfl⟩
  intro hret
  cases hret

/-- A command of which `Backed` asks nothing. -/
def isHarmless (s : Attended) : AttendedAction → Bool
  | .serve (.connect n) _ fails =>
    match s.calls (.connect n) with
    | some (.op .incrConns _) => fails
    | _ => true
  | .serve (.disconnect n) _ fails =>
    match s.calls (.disconnect n) with
    | some (.op .decrConns _) => n ∈ s.counted
    | some (.op _ _) => !fails
    | _ => true
  | _ => true

theorem backed_of_isHarmless (h : isHarmless s a = true) : s.Backed a := by
  cases a with
  | serve c now fails =>
    intro o k hc
    cases c with
    | connect n =>
      refine ⟨?_, fun m hm => absurd hm ConnectionCall.noConfusion, fun m hm =>
        absurd hm ConnectionCall.noConfusion⟩
      rintro m - rfl rfl
      simp only [isHarmless, hc] at h
      cases h
    | disconnect n =>
      refine ⟨fun m hm => absurd hm ConnectionCall.noConfusion, ?_, ?_⟩
      · rintro m hm rfl - hout
        cases hm
        simp only [isHarmless, hc, decide_eq_true_eq] at h
        exact absurd h hout
      · rintro m - rfl rfl
        simp only [isHarmless, hc] at h
        cases h
  | _ => trivial

/-- The second connection is still open, but the first one was the last to succeed. -/
theorem offline_reported_last :
    ¬ (attendedAfter (countedLeaves ++ [.serve (.disconnect 0) 3 false])).Online 1 := by
  have hfirst : Reach Attended.step Attended.Backed .start
      (attendedAfter [.connect 0, .serve (.connect 0) 1 false]) := by
    refine (Reach.single (a := .connect 0) trivial rfl).tail ⟨.serve (.connect 0) 1 false, ?_, rfl⟩
    intro o k hc
    refine ⟨fun n hn ho _ m p hp => ?_, fun m hm => absurd hm ConnectionCall.noConfusion,
      fun m hm => absurd hm ConnectionCall.noConfusion⟩
    cases hp
  have hexec : exec Attended.step (attendedAfter [.connect 0, .serve (.connect 0) 1 false])
      (countedLeaves.drop 2) = some (attendedAfter countedLeaves) := rfl
  have hrest : Reach Attended.step Attended.Backed
      (attendedAfter [.connect 0, .serve (.connect 0) 1 false]) (attendedAfter countedLeaves) :=
    Reach.of_exec (meets_of_checks (fun _ _ => backed_of_isHarmless) (by rfl)) hexec
  have hlast : (attendedAfter countedLeaves).Backed (.serve (.disconnect 0) 3 false) :=
    backed_of_isHarmless rfl
  refine offline_reported (hfirst.trans hrest) hlast rfl (n := 0) ⟨?_, rfl⟩
  intro hret
  cases hret

end ConvoyChat.System
