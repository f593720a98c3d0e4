import ConvoyChat.Lib.Runs
import ConvoyChat.Websocket.Server

/-!
# The typing timers

Model of `typingTracker` (`internal/websocket/typing.go`). `Start` and `Stop` hold `t.mu` from
beginning to end, so each is one step. A timer expires at some time while it is pending; its
callback then runs in a goroutine of its own, which waits for `t.mu`, deletes the key, releases
`t.mu` and calls `onExpire`. `Timer.Stop` does nothing to a callback that has begun.

The callback deletes its key without looking whose timer is there.

* `typing_current`: in every run in which each callback that takes `t.mu` finds its own timer
  under its key, `timers` holds the pending timer of each key, and `onExpire` runs for no arming
  that a later call overtook; the first callback that finds another timer, or none, breaks this.
* `reach_ownTimer`: so it is when no `Start` or `Stop` comes for a key while a callback of it waits.
* `refresh_lost`: a `Start` between the expiry of a timer and its callback is lost.
-/

namespace ConvoyChat.Websocket

open ConvoyChat.Lib

/-! ## The tracker -/

/-- Where a timer of `time.AfterFunc` is. -/
inductive TimerPhase
  | pending
  /-- stopped before it expired -/
  | stopped
  /-- expired; the callback waits for `t.mu` -/
  | waiting
  /-- the callback has deleted the key and released `t.mu` -/
  | released
  /-- `onExpire` has run -/
  | done
deriving DecidableEq, Repr

/-- A `*time.Timer`. `overtaken` is not part of the code: it records that a later `Start` or
    `Stop` of the key came before the callback took `t.mu`. -/
structure TypingTimer where
  key : TypingKey
  phase : TimerPhase
  overtaken : Bool
deriving DecidableEq, Repr

/-- `Timer.Stop`. -/
def TypingTimer.stop (tm : TypingTimer) : TypingTimer :=
  if tm.phase = .pending then { tm with phase := .stopped } else tm

/-- A call for `key` comes. -/
def TypingTimer.overtake (key : TypingKey) (tm : TypingTimer) : TypingTimer :=
  if tm.key = key ∧ tm.phase ≠ .released ∧
    tm.phase ≠ .done then { tm with overtaken := true } else tm

@[simp] theorem TypingTimer.phase_overtake (key : TypingKey) (tm : TypingTimer) :
    (tm.overtake key).phase = tm.phase := by
  unfold overtake
  split_ifs <;> rfl

theorem TypingTimer.overtake_of_ne {key : TypingKey} {tm : TypingTimer} (h : tm.key ≠ key) :
    tm.overtake key = tm := by
  simp [overtake, h]

/-- A callback that has begun is not stopped. -/
theorem TypingTimer.stop_of_ne {tm : TypingTimer} (h : tm.phase ≠ .pending) : tm.stop = tm :=
  if_neg h

theorem TypingTimer.phase_stop_waiting {tm : TypingTimer} :
    tm.stop.phase = .waiting ↔ tm.phase = .waiting := by
  unfold stop
  split_ifs with h
  · simp [h]
  · rfl

/-- `timers` refers to the timers that `AfterFunc` has made by their number; `armed` of them
    were made so far. -/
structure TypingTracker where
  timers : TypingKey → Option ℕ
  timer : ℕ → Option TypingTimer
  armed : ℕ

namespace TypingTracker

/-- Model of `newTypingTracker`. -/
def new : TypingTracker := ⟨fun _ => none, fun _ => none, 0⟩

def setTimer (t : TypingTracker) (n : ℕ) (f : TypingTimer → TypingTimer) : TypingTracker :=
  { t with timer := Function.update t.timer n ((t.timer n).map f) }

/-- `if existing, ok := t.timers[key]; ok { existing.Stop() }`. -/
def stopExisting (t : TypingTracker) (key : TypingKey) : TypingTracker :=
  let overtaken : TypingTracker :=
    { t with timer := fun n => (t.timer n).map (TypingTimer.overtake key) }
  match t.timers key with
  | some existing => overtaken.setTimer existing TypingTimer.stop
  | none => overtaken

/-- Model of `Start` (lines 35–47). -/
def start (t : TypingTracker) (key : TypingKey) : TypingTracker :=
  { timers := Function.update t.timers key (some t.armed)
    timer := Function.update (t.stopExisting key).timer t.armed (some ⟨key, .pending, false⟩)
    armed := t.armed + 1 }

/-- Model of `Stop` (lines 50–57); deleting a missing key does nothing. -/
def stop (t : TypingTracker) (key : TypingKey) : TypingTracker :=
  { t.stopExisting key with timers := Function.update t.timers key none }

end TypingTracker

inductive TypingAction
  | start (key : TypingKey)
  | stop (key : TypingKey)
  /-- the timer expires -/
  | expire (n : ℕ)
  /-- its callback takes `t.mu`, deletes the key and releases `t.mu` -/
  | lock (n : ℕ)
  /-- its callback calls `onExpire` -/
  | onExpire (n : ℕ)
deriving DecidableEq, Repr

/-- One step. -/
def TypingTracker.step (t : TypingTracker) : TypingAction → Option TypingTracker
  | .start key => some (t.start key)
  | .stop key => some (t.stop key)
  | .expire n =>
    match t.timer n with
    | some ⟨_, .pending, _⟩ => some (t.setTimer n fun tm => { tm with phase := .waiting })
    | _ => none
  | .lock n =>
    match t.timer n with
    | some ⟨key, .waiting, _⟩ =>
      some { t.setTimer n fun tm => { tm with phase := .released } with
        timers := Function.update t.timers key none }
    | _ => none
  | .onExpire n =>
    match t.timer n with
    | some ⟨_, .released, _⟩ => some (t.setTimer n fun tm => { tm with phase := .done })
    | _ => none

/-! ## What the tracker should do -/

namespace TypingTracker

/-- The timer `n` of `key` is pending. -/
def Pending (t : TypingTracker) (key : TypingKey) (n : ℕ) : Prop :=
  ∃ overtaken, t.timer n = some ⟨key, .pending, overtaken⟩

/-- `timers[key]` is the most recently armed timer of `key` that is still pending, if there is
    one. -/
def LatestHeld (t : TypingTracker) : Prop :=
  ∀ key n, t.Pending key n → (∀ m, t.Pending key m → m ≤ n) → t.timers key = some n

def OnePending (t : TypingTracker) : Prop :=
  ∀ key m n, t.Pending key m → t.Pending key n → m = n

/-- `onExpire` ran for no arming that was overtaken. -/
def ExpiredCurrent (t : TypingTracker) : Prop :=
  ∀ n tm, t.timer n = some tm → tm.phase = .done → tm.overtaken = false

structure Current (t : TypingTracker) : Prop where
  latestHeld : t.LatestHeld
  onePending : t.OnePending
  expiredCurrent : t.ExpiredCurrent

/-- A callback that takes `t.mu` finds its own timer under its key. -/
def OwnTimer (t : TypingTracker) : TypingAction → Prop
  | .lock n => ∀ tm, t.timer n = some tm → t.timers tm.key = some n
  | _ => True

/-! ## The invariant -/

end TypingTracker

/-- The arming still counts: no later call came for its key. -/
def TypingTimer.Live (tm : TypingTimer) : Prop :=
  (tm.phase = .pending ∨ tm.phase = .waiting) ∧ tm.overtaken = false

namespace TypingTracker

/-- `timers` holds exactly the timers that count, and an overtaken one has been stopped or its
    callback waits. -/
structure Coherent (t : TypingTracker) : Prop where
  fresh : ∀ n, t.armed ≤ n → t.timer n = none
  held : ∀ key n, t.timers key = some n → ∃ tm, t.timer n = some tm ∧ tm.key = key ∧ tm.Live
  listed : ∀ n tm, t.timer n = some tm → tm.Live → t.timers tm.key = some n
  overtaken : ∀ n tm, t.timer n = some tm → tm.overtaken = true →
    tm.phase = .waiting ∨ tm.phase = .stopped

variable {t t' : TypingTracker} {key : TypingKey} {n m : ℕ} {tm : TypingTimer}

theorem coherent_new : Coherent new where
  fresh _ _ := rfl
  held := nofun
  listed := nofun
  overtaken := nofun

theorem Coherent.lt_armed (h : t.Coherent) (htm : t.timer n = some tm) : n < t.armed := by
  by_contra hle
  rw [h.fresh n (by omega)] at htm
  cases htm

theorem Coherent.pending_live (h : t.Coherent) (htm : t.timer n = some tm)
    (hphase : tm.phase = .pending) : tm.Live := by
  refine ⟨.inl hphase, ?_⟩
  by_contra hover
  have hcases := h.overtaken n tm htm (by simpa using hover)
  rw [hphase] at hcases
  simp at hcases

theorem Coherent.current (h : t.Coherent) : t.Current := by
  have hpending : ∀ key n, t.Pending key n → t.timers key = some n := by
    intro key n hn
    obtain ⟨overtaken, htm⟩ := hn
    exact h.listed n _ htm (h.pending_live htm rfl)
  refine ⟨fun key n hn _ => hpending key n hn, fun key m n hm hn => ?_, fun n tm htm hdone => ?_⟩
  · have hm' := hpending key m hm
    rw [hpending key n hn] at hm'
    exact (Option.some.inj hm').symm
  · by_contra hover
    have hcases := h.overtaken n tm htm (by simpa using hover)
    rw [hdone] at hcases
    simp at hcases

/-! ## Steps -/

theorem setTimer_timer (f : TypingTimer → TypingTimer) (htm : t.timer n = some tm) (m : ℕ) :
    (t.setTimer n f).timer m = if m = n then some (f tm) else t.timer m := by
  show Function.update t.timer n ((t.timer n).map f) m = _
  rw [htm, Function.update_apply]
  rfl

/-- What is left of the timer `n` when a call for `key` comes. -/
theorem stopExisting_timer (t : TypingTracker) (key : TypingKey) (n : ℕ) :
    (t.stopExisting key).timer n = (t.timer n).map fun tm =>
      if t.timers key = some n then (tm.overtake key).stop else tm.overtake key := by
  unfold stopExisting
  cases hkey : t.timers key with
  | none => simp
  | some existing =>
    show Function.update _ existing _ n = _
    by_cases hn : n = existing
    · subst hn
      rw [Function.update_self, Option.map_map]
      simp [Function.comp_def]
    · rw [Function.update_of_ne hn]
      simp [Ne.symm hn]

theorem armed_stop : (t.stop key).armed = t.armed := by
  show (t.stopExisting key).armed = t.armed
  unfold stopExisting
  cases t.timers key with
  | none => rfl
  | some existing => rfl

/-- A call for another key changes no timer that counts. -/
theorem Coherent.stopExisting_of_ne (h : t.Coherent) (htm : t.timer n = some tm)
    (hne : tm.key ≠ key) : (t.stopExisting key).timer n = some tm := by
  have hunlisted : t.timers key ≠ some n := by
    intro hkey
    obtain ⟨tm', htm', hkey', -⟩ := h.held key n hkey
    rw [htm] at htm'
    cases htm'
    exact hne hkey'
  rw [stopExisting_timer, htm]
  simp [hunlisted, TypingTimer.overtake, hne]

/-- After a call for `key`, no earlier timer of it counts, and none is pending. -/
theorem Coherent.stopExisting_self (h : t.Coherent) (htm : t.timer n = some tm)
    (hkey : tm.key = key) {tm' : TypingTimer} (htm' : (t.stopExisting key).timer n = some tm') :
    tm'.key = key ∧ ¬ tm'.Live ∧
      (tm'.overtaken = true → tm'.phase = .waiting ∨ tm'.phase = .stopped) := by
  rw [stopExisting_timer, htm, Option.map_some, Option.some.injEq] at htm'
  subst htm'
  by_cases hpending : tm.phase = .pending
  · have hlisted := h.listed n tm htm (h.pending_live htm hpending)
    rw [hkey] at hlisted
    rw [if_pos hlisted]
    simp [TypingTimer.overtake, TypingTimer.stop, TypingTimer.Live, hkey, hpending]
  · have hstay : (tm.overtake key).stop = tm.overtake key := by
      apply TypingTimer.stop_of_ne
      rwa [TypingTimer.phase_overtake]
    rw [hstay, ite_self]
    by_cases hended : tm.phase = .released ∨ tm.phase = .done
    · -- the callback had taken `t.mu` before the call
      have hsame : tm.overtake key = tm := by
        rcases hended with hphase | hphase <;> simp [TypingTimer.overtake, hphase]
      rw [hsame]
      refine ⟨hkey, fun hlive => ?_, h.overtaken n tm htm⟩
      rcases hended with hphase | hphase <;> simp [TypingTimer.Live, hphase] at hlive
    · rw [not_or] at hended
      have hover : tm.overtake key = { tm with overtaken := true } := if_pos ⟨hkey, hended⟩
      rw [hover]
      refine ⟨hkey, fun hlive => ?_, fun _ => ?_⟩
      · cases hlive.2
      · cases hphase : tm.phase with
        | waiting => exact .inl rfl
        | stopped => exact .inr rfl
        | pending => exact absurd hphase hpending
        | released => exact absurd hphase hended.1
        | done => exact absurd hphase hended.2

/-- Every timer that a call for `key` leaves. -/
theorem Coherent.stopExisting_cases (h : t.Coherent)
    (htm : (t.stopExisting key).timer n = some tm) :
    (tm.key ≠ key ∧ t.timer n = some tm) ∨
      (tm.key = key ∧ ¬ tm.Live ∧
        (tm.overtaken = true → tm.phase = .waiting ∨ tm.phase = .stopped)) := by
  have hold : ∃ old, t.timer n = some old := by
    rw [stopExisting_timer] at htm
    obtain ⟨old, hold, -⟩ := Option.map_eq_some_iff.mp htm
    exact ⟨old, hold⟩
  obtain ⟨old, hold⟩ := hold
  by_cases hkey : old.key = key
  · exact .inr (h.stopExisting_self hold hkey htm)
  · rw [h.stopExisting_of_ne hold hkey] at htm
    cases htm
    exact .inl ⟨hkey, hold⟩

theorem Coherent.stop (h : t.Coherent) (key : TypingKey) : (t.stop key).Coherent where
  fresh n hn := by
    rw [armed_stop] at hn
    show (t.stopExisting key).timer n = none
    rw [stopExisting_timer, h.fresh n hn]
    rfl
  held k n hk := by
    change Function.update t.timers key none k = some n at hk
    have hne : k ≠ key := by
      rintro rfl
      rw [Function.update_self] at hk
      cases hk
    rw [Function.update_of_ne hne] at hk
    obtain ⟨tm, htm, hkey, hlive⟩ := h.held k n hk
    refine ⟨tm, ?_, hkey, hlive⟩
    exact h.stopExisting_of_ne htm (by rwa [hkey])
  listed n tm htm hlive := by
    show Function.update t.timers key none tm.key = some n
    rcases h.stopExisting_cases htm with ⟨hne, hold⟩ | ⟨-, hdead, -⟩
    · rw [Function.update_of_ne hne]
      exact h.listed n tm hold hlive
    · exact absurd hlive hdead
  overtaken n tm htm hover := by
    rcases h.stopExisting_cases htm with ⟨-, hold⟩ | ⟨-, -, hphase⟩
    · exact h.overtaken n tm hold hover
    · exact hphase hover

/-- A new timer under `key`. -/
def arm (t : TypingTracker) (key : TypingKey) : TypingTracker where
  timers := Function.update t.timers key (some t.armed)
  timer := Function.update t.timer t.armed (some ⟨key, .pending, false⟩)
  armed := t.armed + 1

/-- `Start` is `Stop` and a new timer. -/
theorem start_eq (t : TypingTracker) (key : TypingKey) : t.start key = (t.stop key).arm key := by
  have htimers : Function.update (t.stop key).timers key (some t.armed) =
      Function.update t.timers key (some t.armed) := Function.update_idem ..
  rw [arm, armed_stop, htimers]
  rfl

theorem timers_stop : (t.stop key).timers key = none :=
  Function.update_self ..

theorem arm_timer (t : TypingTracker) (key : TypingKey) (n : ℕ) :
    (t.arm key).timer n = if n = t.armed then some ⟨key, .pending, false⟩ else t.timer n :=
  Function.update_apply ..

theorem Coherent.arm (h : t.Coherent) (hfree : t.timers key = none) : (t.arm key).Coherent where
  fresh n hn := by
    change t.armed + 1 ≤ n at hn
    rw [arm_timer, if_neg (by omega)]
    exact h.fresh n (by omega)
  held k n hk := by
    change Function.update t.timers key (some t.armed) k = some n at hk
    by_cases hkey : k = key
    · subst hkey
      rw [Function.update_self, Option.some.injEq] at hk
      rw [arm_timer, if_pos hk.symm]
      exact ⟨_, rfl, rfl, .inl rfl, rfl⟩
    · rw [Function.update_of_ne hkey] at hk
      obtain ⟨tm, htm, htmkey, hlive⟩ := h.held k n hk
      have hlt := h.lt_armed htm
      rw [arm_timer, if_neg (by omega)]
      exact ⟨tm, htm, htmkey, hlive⟩
  listed n tm htm hlive := by
    show Function.update t.timers key (some t.armed) tm.key = some n
    rw [arm_timer] at htm
    split_ifs at htm with hn
    · cases htm
      rw [Function.update_self, hn]
    · have hlisted := h.listed n tm htm hlive
      have hne : tm.key ≠ key := by
        intro hkey
        rw [hkey, hfree] at hlisted
        cases hlisted
      rwa [Function.update_of_ne hne]
  overtaken n tm htm hover := by
    rw [arm_timer] at htm
    split_ifs at htm with hn
    · cases htm
      cases hover
    · exact h.overtaken n tm htm hover

theorem Coherent.start (h : t.Coherent) (key : TypingKey) : (t.start key).Coherent := by
  rw [start_eq]
  exact (h.stop key).arm timers_stop

/-- A timer goes on to a phase in which it counts as before. -/
theorem Coherent.setPhase (h : t.Coherent) {phase : TimerPhase} (htm : t.timer n = some tm)
    (hlive : ({ tm with phase := phase } : TypingTimer).Live ↔ tm.Live)
    (hover : tm.overtaken = true → phase = .waiting ∨ phase = .stopped) :
    (t.setTimer n fun tm => { tm with phase := phase }).Coherent where
  fresh m hm := by
    have hlt := h.lt_armed htm
    change t.armed ≤ m at hm
    rw [setTimer_timer _ htm, if_neg (by omega)]
    exact h.fresh m hm
  held key m hm := by
    obtain ⟨old, hold, hkey, holdlive⟩ := h.held key m hm
    rw [setTimer_timer _ htm]
    by_cases hmn : m = n
    · subst hmn
      rw [htm] at hold
      cases hold
      exact ⟨_, if_pos rfl, hkey, hlive.mpr holdlive⟩
    · exact ⟨old, by rwa [if_neg hmn], hkey, holdlive⟩
  listed m tm' htm' hlive' := by
    rw [setTimer_timer _ htm] at htm'
    split_ifs at htm' with hmn
    · subst hmn
      cases htm'
      exact h.listed m tm htm (hlive.mp hlive')
    · exact h.listed m tm' htm' hlive'
  overtaken m tm' htm' hover' := by
    rw [setTimer_timer _ htm] at htm'
    split_ifs at htm' with hmn
    · cases htm'
      exact hover hover'
    · exact h.overtaken m tm' htm' hover'

/-- The callback of the timer that its key holds takes `t.mu`. -/
theorem Coherent.lock (h : t.Coherent) (htm : t.timer n = some tm)
    (hown : t.timers tm.key = some n) :
    ({ t.setTimer n fun tm => { tm with phase := .released } with
      timers := Function.update t.timers tm.key none } : TypingTracker).Coherent where
  fresh m hm := by
    have hlt := h.lt_armed htm
    change t.armed ≤ m at hm
    show (t.setTimer n _).timer m = none
    rw [setTimer_timer _ htm, if_neg (by omega)]
    exact h.fresh m hm
  held key m hm := by
    change Function.update t.timers tm.key none key = some m at hm
    have hne : key ≠ tm.key := by
      rintro rfl
      rw [Function.update_self] at hm
      cases hm
    rw [Function.update_of_ne hne] at hm
    obtain ⟨old, hold, hkey, hlive⟩ := h.held key m hm
    have hmn : m ≠ n := by
      rintro rfl
      rw [htm] at hold
      cases hold
      exact hne hkey.symm
    refine ⟨old, ?_, hkey, hlive⟩
    show (t.setTimer n _).timer m = some old
    rwa [setTimer_timer _ htm, if_neg hmn]
  listed m tm' htm' hlive := by
    change (t.setTimer n _).timer m = some tm' at htm'
    show Function.update t.timers tm.key none tm'.key = some m
    rw [setTimer_timer _ htm] at htm'
    split_ifs at htm' with hmn
    · cases htm'
      simp [TypingTimer.Live] at hlive
    · have hlisted := h.listed m tm' htm' hlive
      have hne : tm'.key ≠ tm.key := by
        intro hkey
        rw [hkey, hown, Option.some.injEq] at hlisted
        exact hmn hlisted.symm
      rwa [Function.update_of_ne hne]
  overtaken m tm' htm' hover := by
    change (t.setTimer n _).timer m = some tm' at htm'
    rw [setTimer_timer _ htm] at htm'
    split_ifs at htm' with hmn
    · cases htm'
      obtain ⟨old, hold, -, hlive⟩ := h.held _ n hown
      rw [htm] at hold
      cases hold
      rw [hlive.2] at hover
      cases hover
    · exact h.overtaken m tm' htm' hover

/-- Each kind of step. -/
inductive Move (t : TypingTracker) : TypingAction → TypingTracker → Prop
  | start (key : TypingKey) : Move t (.start key) (t.start key)
  | stop (key : TypingKey) : Move t (.stop key) (t.stop key)
  | expire {n : ℕ} {tm : TypingTimer} (htm : t.timer n = some tm) (hphase : tm.phase = .pending) :
      Move t (.expire n) (t.setTimer n fun tm => { tm with phase := .waiting })
  | lock {n : ℕ} {tm : TypingTimer} (htm : t.timer n = some tm) (hphase : tm.phase = .waiting) :
      Move t (.lock n) { t.setTimer n fun tm => { tm with phase := .released } with
        timers := Function.update t.timers tm.key none }
  | onExpire {n : ℕ} {tm : TypingTimer} (htm : t.timer n = some tm)
      (hphase : tm.phase = .released) :
      Move t (.onExpire n) (t.setTimer n fun tm => { tm with phase := .done })

theorem step_move {a : TypingAction} (h : t.step a = some t') : Move t a t' := by
  cases a with
  | start key =>
    cases h
    exact .start key
  | stop key =>
    cases h
    exact .stop key
  | expire n =>
    simp only [step] at h
    split at h
    · rename_i htm
      cases h
      exact .expire htm rfl
    · cases h
  | lock n =>
    simp only [step] at h
    split at h
    · rename_i htm
      cases h
      exact .lock htm rfl
    · cases h
  | onExpire n =>
    simp only [step] at h
    split at h
    · rename_i htm
      cases h
      exact .onExpire htm rfl
    · cases h

theorem step_onExpire (htm : t.timer n = some tm) (hphase : tm.phase = .released) :
    t.step (.onExpire n) = some (t.setTimer n fun tm => { tm with phase := .done }) := by
  obtain ⟨key, phase, overtaken⟩ := tm
  dsimp only at hphase
  subst hphase
  simp only [step, htm]

theorem Coherent.step {a : TypingAction} (h : t.Coherent) (hok : t.OwnTimer a)
    (hstep : t.step a = some t') : t'.Coherent := by
  cases step_move hstep with
  | start key => exact h.start key
  | stop key => exact h.stop key
  | expire htm hphase =>
    have hlive := h.pending_live htm hphase
    refine h.setPhase htm ?_ fun _ => .inl rfl
    simp [TypingTimer.Live, hlive.2, hphase]
  | lock htm hphase => exact h.lock htm (hok _ htm)
  | onExpire htm hphase =>
    refine h.setPhase htm ?_ fun hover => ?_
    · simp [TypingTimer.Live, hphase]
    · have hcases := h.overtaken _ _ htm hover
      rw [hphase] at hcases
      simp at hcases

/-! ## Runs -/

theorem coherent_of_reach (hrun : Reach step OwnTimer new t) : t.Coherent :=
  hrun.invariant Coherent (fun _ _ _ h hok hstep => h.step hok hstep) coherent_new

/-- A callback that finds another timer under its key, or none, calls `onExpire` for an arming
    that was overtaken. -/
theorem Coherent.strange (h : t.Coherent) (hstep : t.step (.lock n) = some t')
    (hok : ¬ t.OwnTimer (.lock n)) : ∃ t'', t'.step (.onExpire n) = some t'' ∧ ¬ t''.Current := by
  cases step_move hstep with
  | lock htm hphase =>
    rename_i tm
    have hover : tm.overtaken = true := by
      by_contra hover
      refine hok fun tm' htm' => ?_
      rw [htm] at htm'
      cases htm'
      exact h.listed n tm htm ⟨.inr hphase, by simpa using hover⟩
    have hlocked : ({ t.setTimer n fun tm => { tm with phase := .released } with
        timers := Function.update t.timers tm.key none } : TypingTracker).timer n =
        some { tm with phase := .released } := by
      show (t.setTimer n _).timer n = _
      rw [setTimer_timer _ htm, if_pos rfl]
    refine ⟨_, step_onExpire hlocked rfl, fun hcurrent => ?_⟩
    have hdone := hcurrent.expiredCurrent n { tm with phase := .done }
      (by rw [setTimer_timer _ hlocked, if_pos rfl]) rfl
    rw [show tm.overtaken = false from hdone] at hover
    cases hover

/-- In every run in which each callback that takes `t.mu` finds its own timer, the tracker is
    current; the first callback that does not breaks this as soon as it calls `onExpire`. -/
theorem typing_current (hrun : Reach step OwnTimer new t) :
    t.Current ∧ ∀ n t', t.step (.lock n) = some t' → ¬ t.OwnTimer (.lock n) →
      ∃ t'', t'.step (.onExpire n) = some t'' ∧ ¬ t''.Current :=
  ⟨(coherent_of_reach hrun).current,
    fun _ _ hstep hok => (coherent_of_reach hrun).strange hstep hok⟩

/-- The tracker after these actions. -/
def after (as : List TypingAction) : TypingTracker := (exec step new as).getD new

/-- User 2 types in room 5. -/
def typist : TypingKey := ⟨5, 2⟩

/-- The executable form of `OwnTimer`. -/
def ownTimer (t : TypingTracker) : TypingAction → Bool
  | .lock n => (t.timer n).all fun tm => t.timers tm.key = some n
  | _ => true

theorem ownTimer_of_check (t : TypingTracker) (a : TypingAction) (h : t.ownTimer a = true) :
    t.OwnTimer a := by
  cases a with
  | lock n =>
    intro tm htm
    rw [ownTimer, htm] at h
    simpa using h
  | _ => trivial

/-- After a timer that runs out, a `Start` comes between the expiry of the next one and its
    callback. -/
def raced : List TypingAction :=
  [.start typist, .expire 0, .lock 0, .onExpire 0, .start typist, .expire 1, .start typist]

theorem typing_current_raced :
    (after raced).Current ∧ ∃ t' t'', (after raced).step (.lock 1) = some t' ∧
      t'.step (.onExpire 1) = some t'' ∧ ¬ t''.Current := by
  have hexec : exec step new raced = some (after raced) := rfl
  have hrun : Reach step OwnTimer new (after raced) :=
    Reach.of_exec (meets_of_checks ownTimer_of_check rfl) hexec
  obtain ⟨hcurrent, hbreak⟩ := typing_current hrun
  have hstrange : ¬ (after raced).OwnTimer (.lock 1) := by
    intro hown
    have hheld := hown ⟨typist, .waiting, true⟩ rfl
    cases hheld
  obtain ⟨t'', hstep, hnot⟩ := hbreak 1 _ rfl hstrange
  exact ⟨hcurrent, _, t'', rfl, hstep, hnot⟩

/-- A `Start` or `Stop` comes for a key while no callback of it waits. -/
def Unraced (t : TypingTracker) : TypingAction → Prop
  | .start key => ∀ n tm, t.timer n = some tm → tm.key = key → tm.phase ≠ .waiting
  | .stop key => ∀ n tm, t.timer n = some tm → tm.key = key → tm.phase ≠ .waiting
  | _ => True

/-- Every callback that waits belongs to a timer that counts. -/
def WaitingLive (t : TypingTracker) : Prop :=
  ∀ n tm, t.timer n = some tm → tm.phase = .waiting → tm.overtaken = false

theorem WaitingLive.stopExisting (h : t.WaitingLive)
    (hnone : ∀ n tm, t.timer n = some tm → tm.key = key → tm.phase ≠ .waiting) :
    (t.stopExisting key).WaitingLive := by
  intro n tm htm hphase
  rw [stopExisting_timer] at htm
  obtain ⟨old, hold, hleft⟩ := Option.map_eq_some_iff.mp htm
  by_cases hwait : old.phase = .waiting
  · have hne : old.key ≠ key := fun hkey => hnone n old hold hkey hwait
    have hstay : old.stop = old := TypingTimer.stop_of_ne (by simp [hwait])
    rw [TypingTimer.overtake_of_ne hne, hstay, ite_self] at hleft
    rw [← hleft]
    exact h n old hold hwait
  · refine absurd ?_ hwait
    rw [← hleft] at hphase
    split_ifs at hphase
    · rwa [TypingTimer.phase_stop_waiting, TypingTimer.phase_overtake] at hphase
    · rwa [TypingTimer.phase_overtake] at hphase

theorem WaitingLive.setPhase (h : t.WaitingLive) {phase : TimerPhase} (htm : t.timer n = some tm)
    (hover : phase = .waiting → tm.overtaken = false) :
    (t.setTimer n fun tm => { tm with phase := phase }).WaitingLive := by
  intro m tm' htm' hphase
  rw [setTimer_timer _ htm] at htm'
  split_ifs at htm' with hmn
  · cases htm'
    exact hover hphase
  · exact h m tm' htm' hphase

theorem WaitingLive.step {a : TypingAction} (h : t.WaitingLive) (hcoherent : t.Coherent)
    (hok : t.Unraced a) (hstep : t.step a = some t') : t'.WaitingLive := by
  cases step_move hstep with
  | start key =>
    have hstop : (t.stop key).WaitingLive := h.stopExisting hok
    rw [start_eq]
    intro n tm htm hphase
    rw [arm_timer] at htm
    split_ifs at htm
    · cases htm
      rfl
    · exact hstop n tm htm hphase
  | stop key => exact h.stopExisting hok
  | expire htm hphase => exact h.setPhase htm fun _ => (hcoherent.pending_live htm hphase).2
  | lock htm _ => exact h.setPhase htm nofun
  | onExpire htm _ => exact h.setPhase htm nofun

/-- When no call comes for a key while a callback of it waits, each callback finds its own
    timer. -/
theorem reach_ownTimer (hrun : Reach step Unraced new t) : Reach step OwnTimer new t := by
  refine hrun.simulate id (fun t => t.Coherent ∧ t.WaitingLive) ?_ ⟨coherent_new, nofun⟩
  intro t a t' hinv hok hstep
  obtain ⟨hcoherent, hlive⟩ := hinv
  have hown : t.OwnTimer a := by
    cases step_move hstep with
    | lock htm hphase =>
      intro tm' htm'
      rw [htm] at htm'
      cases htm'
      exact hcoherent.listed _ _ htm ⟨.inr hphase, hlive _ _ htm hphase⟩
    | _ => trivial
  exact ⟨⟨hcoherent.step hown hstep, hlive.step hcoherent hok hstep⟩, .single hown hstep⟩

/-! ## A refresh that is lost -/

/-- A timer expires, and its user types on before the callback takes `t.mu`. -/
def refreshed : List TypingAction :=
  [.start typist, .expire 0, .start typist, .lock 0, .onExpire 0]

theorem reach_after {as : List TypingAction} (h : (exec step new as).isSome) :
    Reach step Unguarded new (after as) := by
  obtain ⟨t, ht⟩ := Option.isSome_iff_exists.mp h
  refine Reach.of_exec (meets_unguarded step new as) ?_
  rw [after, ht]
  rfl

theorem refresh_lost :
    (Reach step Unguarded new (after refreshed) ∧ ¬ (after refreshed).LatestHeld ∧
      ¬ (after refreshed).ExpiredCurrent) ∧
    (Reach step Unguarded new (after (refreshed ++ [.stop typist])) ∧
      (after (refreshed ++ [.stop typist])).Pending typist 1) ∧
    Reach step Unguarded new (after (refreshed ++ [.start typist])) ∧
      ¬ (after (refreshed ++ [.start typist])).OnePending := by
  refine ⟨⟨reach_after rfl, fun h => ?_, fun h => ?_⟩, ⟨reach_after rfl, ?_⟩, reach_after rfl,
    fun h => ?_⟩
  · have hheld : (after refreshed).timers typist = some 1 := by
      refine h typist 1 ⟨_, rfl⟩ fun m hm => ?_
      obtain ⟨overtaken, htm⟩ := hm
      match m, htm with
      | 0, _ => omega
      | 1, _ => omega
    cases hheld
  · have hcurrent := h 0 ⟨typist, .done, true⟩ rfl rfl
    cases hcurrent
  · exact ⟨_, rfl⟩
  · have hsame := h typist 1 2 ⟨_, rfl⟩ ⟨_, rfl⟩
    omega

end TypingTracker

/-! ## The timers of a server

`onExpire` publishes `user.typing` with `is_typing` false (`handlers.go` lines 199–203), a call
of Redis that changes nothing in this state. -/

/-- A server with its tracker. -/
structure TypingServer where
  server : Server
  typing : TypingTracker

inductive TypingServerAction
  | server (a : Action)
  /-- a timer or its callback -/
  | timer (a : TypingAction)

/-- The call of the tracker that an action makes. -/
def Server.typingCall (s : Server) : Action → Option TypingAction
  | .perform c _ =>
    match s.thread c with
    | .running (.op (.typingStart key) _) => some (.start key)
    | .running (.op (.typingStop key) _) => some (.stop key)
    | _ => none
  | _ => none

/-- `Start` and `Stop` are only called by the connections. -/
def TypingAction.isCall : TypingAction → Bool
  | .start _ => true
  | .stop _ => true
  | _ => false

namespace TypingServer

def new : TypingServer := ⟨Server.new, TypingTracker.new⟩

/-- One step; a crashed process takes none. -/
def step (parse : String → Option UUID) (s : TypingServer) :
    TypingServerAction → Option TypingServer
  | .server a =>
    match s.server.step parse a, s.server.typingCall a with
    | some server, some call => (s.typing.step call).map fun typing => ⟨server, typing⟩
    | some server, none => some ⟨server, s.typing⟩
    | none, _ => none
  | .timer a =>
    if s.server.panicked || a.isCall then none
    else (s.typing.step a).map fun typing => { s with typing }

/-- A callback that takes `t.mu` finds its own timer under its key. -/
def OwnTimer (s : TypingServer) : TypingServerAction → Prop
  | .server _ => True
  | .timer a => s.typing.OwnTimer a

variable {parse : String → Option UUID} {s s' : TypingServer} {a : TypingServerAction}

/-- The connections call `Start` and `Stop` at any time. -/
theorem ownTimer_typingCall {call : TypingAction} {a : Action}
    (h : s.server.typingCall a = some call) : s.typing.OwnTimer call := by
  unfold Server.typingCall at h
  split at h
  · split at h
    · cases h
      trivial
    · cases h
      trivial
    · cases h
  · cases h

/-- A step of the server is a step of the tracker, or leaves it as it is. -/
theorem step_typing (hok : s.OwnTimer a) (h : s.step parse a = some s') :
    Reach TypingTracker.step TypingTracker.OwnTimer s.typing s'.typing := by
  cases a with
  | server a =>
    simp only [step] at h
    split at h
    · rename_i server call hserver hcall
      obtain ⟨typing, htyping, rfl⟩ := Option.map_eq_some_iff.mp h
      exact .single (ownTimer_typingCall hcall) htyping
    · cases h
      exact .refl
    · cases h
  | timer a =>
    simp only [step] at h
    split at h
    · cases h
    · obtain ⟨typing, htyping, rfl⟩ := Option.map_eq_some_iff.mp h
      exact .single hok htyping

/-- So the tracker of a server stays current in the same runs. -/
theorem server_current (hrun : Reach (step parse) OwnTimer new s) : s.typing.Current := by
  have htracker : Reach TypingTracker.step TypingTracker.OwnTimer TypingTracker.new s.typing :=
    hrun.simulate (·.typing) (fun _ => True)
      (fun _ _ _ _ hok hstep => ⟨trivial, step_typing hok hstep⟩) trivial
  exact (TypingTracker.coherent_of_reach htracker).current

end TypingServer

end ConvoyChat.Websocket
