import ConvoyChat.Websocket.Typing

/-!
# How long a typing indicator is seen

The composer of `useTyping` (`frontend/hooks/useTyping.ts`), the handlers of `typing.start` and
`typing.stop` with the timers of `typingTracker` (`internal/websocket/handlers.go`, `typing.go`),
and the list of typing users that another member's `useTyping` keeps, in one system with a clock.
Time passes in steps of its own. `lag` bounds how late a thing is that is due: a frame is handled
and a timer's callback has ended at most `lag` milliseconds after it could be. The watching client
hears what is published at once.

* `typing_stays_seen`: while the user pauses for at most `g` ms between two keystrokes, where
  `TYPING_IDLE_MS + g + lag < typingTimeout`, and no frame is lost, the user stays in the list,
  if no earlier callback met a later timer or is still under way.
* `typing_flickers`: with longer pauses it is not so, though the composer never went idle.
* `typing_ends`: a user who stays in the list has pressed a key in the last
  `TYPING_IDLE_MS + 2 * lag` ms.
* `typing_ends_unheard`: so it is within `typingTimeout + 2 * lag` ms when frames are lost, the tab
  goes away or a publication of `is_typing` true fails, if `lag < typingTimeout`.
-/

namespace ConvoyChat.System

open ConvoyChat.Lib ConvoyChat.Websocket

/-! ## The composer -/

/-- The constant of `useTyping.ts`, line 16, in milliseconds. -/
def TYPING_IDLE_MS : ℕ := 3000

/-- The constant of `presence.go`, line 21. -/
def typingTimeout : ℕ := 5000

/-- A `typing.start` (`isTyping`) or `typing.stop` frame. -/
structure TypingFrame where
  isTyping : Bool
  sentAt : ℕ
deriving DecidableEq, Repr

/-- The refs of one composer; the idle timer by the time it is due. -/
structure Composer where
  activeRef : Bool
  lastStartSentRef : ℕ
  idleTimerRef : Option ℕ
deriving DecidableEq, Repr

namespace Composer

def new : Composer := ⟨false, 0, none⟩

/-- Model of `stopTyping` (lines 31–40), with the frames that it sends. -/
def stopTyping (c : Composer) (now : ℕ) : Composer × List TypingFrame :=
  let cleared : Composer := { c with idleTimerRef := none }
  if c.activeRef then ({ cleared with activeRef := false }, [⟨false, now⟩]) else (cleared, [])

/-- Model of `notifyTyping` (lines 42–51). -/
def notifyTyping (c : Composer) (now : ℕ) : Composer × List TypingFrame :=
  if c.activeRef = false ∨ now - c.lastStartSentRef > TYPING_IDLE_MS then
    (⟨true, now, some (now + TYPING_IDLE_MS)⟩, [⟨true, now⟩])
  else ({ c with idleTimerRef := some (now + TYPING_IDLE_MS) }, [])

end Composer

/-! ## The list of typing users -/

/-- A `user.typing` event. -/
structure UserTyping where
  roomID : UUID
  userID : UUID
  isTyping : Bool
deriving DecidableEq, Repr

/-- Model of the `user.typing` subscriber (`useTyping.ts` lines 53–62). -/
def onUserTyping (roomId : UUID) (currentUserId : Option UUID) (prev : List UUID)
    (event : UserTyping) : List UUID :=
  if event.roomID ≠ roomId ∨ some event.userID = currentUserId then prev
  else if event.isTyping then
    if event.userID ∈ prev then prev else prev ++ [event.userID]
  else if event.userID ∈ prev then prev.filter fun id => id ≠ event.userID
  else prev

section List

variable {roomId : UUID} {currentUserId : Option UUID} {prev : List UUID} {event : UserTyping}

/-- An event of the room tells whether its user is in the list. -/
theorem mem_onUserTyping_self (hroom : event.roomID = roomId)
    (hother : some event.userID ≠ currentUserId) :
    event.userID ∈ onUserTyping roomId currentUserId prev event ↔ event.isTyping = true := by
  unfold onUserTyping
  rw [if_neg (by simp [hroom, hother])]
  cases event.isTyping with
  | true => by_cases hmem : event.userID ∈ prev <;> simp [hmem]
  | false => by_cases hmem : event.userID ∈ prev <;> simp [hmem]

/-- No event changes what is said of another user. -/
theorem mem_onUserTyping_of_ne {userID : UUID} (hne : event.userID ≠ userID) :
    userID ∈ onUserTyping roomId currentUserId prev event ↔ userID ∈ prev := by
  have hne' : userID ≠ event.userID := Ne.symm hne
  unfold onUserTyping
  split_ifs <;> simp [hne']

/-- An event of another room changes nothing. -/
theorem onUserTyping_of_room (hroom : event.roomID ≠ roomId) :
    onUserTyping roomId currentUserId prev event = prev :=
  if_pos (.inl hroom)

end List

/-! ## The system

One user types in one room (`key`) and another member's client watches the room. -/

/-- `due n` is when the timer `n` expires. `lastKey` is not part of the code: it is when the user
    last pressed a key. -/
structure Cadence where
  now : ℕ
  composer : Composer
  /-- sent, not handled yet -/
  frames : List TypingFrame
  /-- its handler has called the tracker and publishes next -/
  handling : Option TypingFrame
  tracker : TypingTracker
  due : ℕ → ℕ
  typingUserIds : List UUID
  lastKey : ℕ

inductive CadenceAction
  /-- `d` milliseconds pass -/
  | wait (d : ℕ)
  /-- the text changes and is not blank -/
  | key
  /-- the text is blank, is sent, or the composer goes away -/
  | stop
  /-- the idle timer of the composer fires -/
  | idle
  /-- the tab crashes, or is closed without its cleanup -/
  | vanish
  /-- the next frame is lost, or its handler answers with an error -/
  | drop
  /-- the handler of the next frame calls the tracker -/
  | call
  /-- it publishes `user.typing` -/
  | announce
  /-- its publication fails -/
  | fail
  /-- a timer of the tracker expires or its callback goes on -/
  | timer (a : TypingAction)
  /-- a `user.typing` event of another user or room -/
  | overhear (event : UserTyping)
  /-- the watching client leaves the room and opens it again -/
  | remount
deriving DecidableEq, Repr

namespace Cadence

def new : Cadence := ⟨0, .new, [], none, .new, fun _ => 0, [], 0⟩

/-- What a callback of the composer leaves. -/
def compose (s : Cadence) (out : Composer × List TypingFrame) : Cadence :=
  { s with composer := out.1, frames := s.frames ++ out.2 }

/-- `handleTypingStart` (line 199) or `handleTypingStop` (line 218) calls the tracker. -/
def handle (key : TypingKey) (s : Cadence) (f : TypingFrame) : Cadence :=
  if f.isTyping then
    { s with
      handling := some f
      tracker := s.tracker.start key
      due := Function.update s.due s.tracker.armed (s.now + typingTimeout) }
  else { s with handling := some f, tracker := s.tracker.stop key }

/-- `user.typing` of `key` is published. -/
def publish (key : TypingKey) (me : Option UUID) (s : Cadence) (isTyping : Bool) : Cadence :=
  { s with
    typingUserIds := onUserTyping key.roomID me s.typingUserIds ⟨key.roomID, key.userID, isTyping⟩ }

/-- One step; `me` is the user of the watching client. -/
def step (key : TypingKey) (me : Option UUID) (s : Cadence) : CadenceAction → Option Cadence
  | .wait d => some { s with now := s.now + d }
  | .key => some { s.compose (s.composer.notifyTyping s.now) with lastKey := s.now }
  | .stop => some (s.compose (s.composer.stopTyping s.now))
  | .idle =>
    match s.composer.idleTimerRef with
    | some due => if due ≤ s.now then some (s.compose (s.composer.stopTyping s.now)) else none
    | none => none
  | .vanish => some { s with composer := .new }
  | .drop =>
    match s.frames with
    | _ :: frames => some { s with frames }
    | [] => none
  | .call =>
    match s.handling, s.frames with
    | none, f :: frames => some ({ s with frames }.handle key f)
    | _, _ => none
  | .announce =>
    match s.handling with
    | some f => some ({ s with handling := none }.publish key me f.isTyping)
    | none => none
  | .fail =>
    match s.handling with
    | some _ => some { s with handling := none }
    | none => none
  | .timer (.expire n) =>
    if s.due n ≤ s.now then
      (s.tracker.step (.expire n)).map fun tracker => { s with tracker }
    else none
  | .timer (.lock n) => (s.tracker.step (.lock n)).map fun tracker => { s with tracker }
  | .timer (.onExpire n) =>
    (s.tracker.step (.onExpire n)).map fun tracker => { s with tracker }.publish key me false
  | .timer _ => none
  | .overhear event =>
    if event.roomID = key.roomID ∧ event.userID = key.userID then none
    else some { s with typingUserIds := onUserTyping key.roomID me s.typingUserIds event }
  | .remount => some { s with typingUserIds := [] }

/-- The frames whose effect is still to come, oldest first. -/
def pipeline (s : Cadence) : List TypingFrame := s.handling.toList ++ s.frames

end Cadence

/-- The callback of the timer is still to come, or under way. -/
def TimerRunning (tm : TypingTimer) : Prop :=
  tm.phase = .pending ∨ tm.phase = .waiting ∨ tm.phase = .released

instance (tm : TypingTimer) : Decidable (TimerRunning tm) :=
  inferInstanceAs (Decidable (_ ∨ _))

/-- A frame on its way at `now`. -/
structure TypingFrame.Timely (lag now lastKey : ℕ) (f : TypingFrame) : Prop where
  sent : f.sentAt ≤ now
  inTime : now ≤ f.sentAt + lag
  idle : f.sentAt ≤ lastKey + TYPING_IDLE_MS + lag
  start : f.isTyping = true → f.sentAt ≤ lastKey

namespace Cadence

/-- Nothing is more than `lag` late at time `t`. -/
structure InTime (lag : ℕ) (s : Cadence) (t : ℕ) : Prop where
  idle : ∀ due ∈ s.composer.idleTimerRef, t ≤ due + lag
  frames : ∀ f ∈ s.pipeline, t ≤ f.sentAt + lag
  timers : ∀ n < s.tracker.armed, ∀ tm ∈ s.tracker.timer n, TimerRunning tm → t ≤ s.due n + lag

/-- Time does not pass over what is due. -/
def Punctual (lag : ℕ) (s : Cadence) : CadenceAction → Prop
  | .wait d => s.InTime lag (s.now + d)
  | _ => True

/-- Moreover nothing is lost, and the tab stays. -/
def Reliable (lag : ℕ) (s : Cadence) (a : CadenceAction) : Prop :=
  s.Punctual lag a ∧ a ≠ .vanish ∧ a ≠ .drop ∧ a ≠ .fail

/-- The user pauses for at most `g`. -/
def Paces (g : ℕ) (s : Cadence) : CadenceAction → Prop
  | .wait d => s.now + d ≤ s.lastKey + g
  | _ => True

/-- Moreover the user types on, and the client watches on. -/
def Typing (lag g : ℕ) (s : Cadence) (a : CadenceAction) : Prop :=
  s.Reliable lag a ∧ a ≠ .stop ∧ a ≠ .remount ∧ s.Paces g a

/-- Any frame may be lost, but a publication of `is_typing` false never fails. -/
def Unheard (lag : ℕ) (s : Cadence) (a : CadenceAction) : Prop :=
  s.Punctual lag a ∧ (a = .fail → ∀ f ∈ s.handling, f.isTyping = true)

/-- A callback that takes `t.mu` finds its own timer (`Typing.lean`). -/
def OwnTimer (s : Cadence) : CadenceAction → Prop
  | .timer a => s.tracker.OwnTimer a
  | _ => True

/-- Moreover no callback meets the timer of a later call, which the code does not check. -/
def OnTime (lag : ℕ) (s : Cadence) (a : CadenceAction) : Prop :=
  s.Unheard lag a ∧ s.OwnTimer a

/-! ### Checking a run -/

instance (lag : ℕ) (s : Cadence) (t : ℕ) : Decidable (s.InTime lag t) :=
  decidable_of_iff ((∀ due ∈ s.composer.idleTimerRef, t ≤ due + lag) ∧
      (∀ f ∈ s.pipeline, t ≤ f.sentAt + lag) ∧
      ∀ n < s.tracker.armed, ∀ tm ∈ s.tracker.timer n, TimerRunning tm → t ≤ s.due n + lag)
    ⟨fun h => ⟨h.1, h.2.1, h.2.2⟩, fun h => ⟨h.idle, h.frames, h.timers⟩⟩

instance (lag : ℕ) (s : Cadence) (a : CadenceAction) : Decidable (s.Punctual lag a) :=
  match a with
  | .wait d => inferInstanceAs (Decidable (s.InTime lag (s.now + d)))
  | .key | .stop | .idle | .vanish | .drop | .call | .announce | .fail | .timer _ | .overhear _
  | .remount => .isTrue trivial

instance (lag : ℕ) (s : Cadence) (a : CadenceAction) : Decidable (s.Reliable lag a) :=
  inferInstanceAs (Decidable (_ ∧ _))

instance (g : ℕ) (s : Cadence) (a : CadenceAction) : Decidable (s.Paces g a) :=
  match a with
  | .wait d => inferInstanceAs (Decidable (s.now + d ≤ s.lastKey + g))
  | .key | .stop | .idle | .vanish | .drop | .call | .announce | .fail | .timer _ | .overhear _
  | .remount => .isTrue trivial

instance (lag g : ℕ) (s : Cadence) (a : CadenceAction) : Decidable (s.Typing lag g a) :=
  inferInstanceAs (Decidable (_ ∧ _))

instance (lag : ℕ) (s : Cadence) (a : CadenceAction) : Decidable (s.Unheard lag a) :=
  inferInstanceAs (Decidable (_ ∧ _))

/-- The executable form of `OwnTimer`. -/
def ownTimer (s : Cadence) : CadenceAction → Bool
  | .timer a => s.tracker.ownTimer a
  | _ => true

theorem onTime_of_check (lag : ℕ) (s : Cadence) (a : CadenceAction)
    (h : (decide (s.Unheard lag a) && s.ownTimer a) = true) : s.OnTime lag a := by
  rw [Bool.and_eq_true, decide_eq_true_eq] at h
  refine ⟨h.1, ?_⟩
  cases a with
  | timer a => exact s.tracker.ownTimer_of_check a h.2
  | _ => trivial

/-- User 2 types in room 5; user 3 watches. -/
def run (s : Cadence) (as : List CadenceAction) : Cadence :=
  (exec (step TypingTracker.typist (some 3)) s as).getD s

/-- A run of actions that meet the executable guard `check`. -/
theorem reach_run {ok : Cadence → CadenceAction → Prop} {check : Cadence → CadenceAction → Bool}
    (hle : ∀ s a, check s a = true → ok s a) {s : Cadence} {as : List CadenceAction}
    (hexec : (exec (step TypingTracker.typist (some 3)) s as).isSome)
    (hchecks : checks (step TypingTracker.typist (some 3)) check s as = true) :
    Reach (step TypingTracker.typist (some 3)) ok s (run s as) := by
  obtain ⟨s', hs'⟩ := Option.isSome_iff_exists.mp hexec
  refine Reach.of_exec (meets_of_checks hle hchecks) ?_
  rw [run, hs']
  rfl

/-! ## Steps -/

variable {key : TypingKey} {me : Option UUID} {s s' : Cadence} {a : CadenceAction}

/-- Each kind of step. -/
inductive Move (key : TypingKey) (me : Option UUID) (s : Cadence) : CadenceAction → Cadence → Prop
  | wait (d : ℕ) : Move key me s (.wait d) { s with now := s.now + d }
  | key : Move key me s .key { s.compose (s.composer.notifyTyping s.now) with lastKey := s.now }
  | stop : Move key me s .stop (s.compose (s.composer.stopTyping s.now))
  | idle {due : ℕ} (hidle : s.composer.idleTimerRef = some due) (hdue : due ≤ s.now) :
      Move key me s .idle (s.compose (s.composer.stopTyping s.now))
  | vanish : Move key me s .vanish { s with composer := .new }
  | drop {f : TypingFrame} {frames : List TypingFrame} (hframes : s.frames = f :: frames) :
      Move key me s .drop { s with frames }
  | call {f : TypingFrame} {frames : List TypingFrame} (hfree : s.handling = none)
      (hframes : s.frames = f :: frames) : Move key me s .call ({ s with frames }.handle key f)
  | announce {f : TypingFrame} (hf : s.handling = some f) :
      Move key me s .announce ({ s with handling := none }.publish key me f.isTyping)
  | fail {f : TypingFrame} (hf : s.handling = some f) :
      Move key me s .fail { s with handling := none }
  | expire {n : ℕ} {tm : TypingTimer} (hdue : s.due n ≤ s.now) (htm : s.tracker.timer n = some tm)
      (hphase : tm.phase = .pending) :
      Move key me s (.timer (.expire n))
        { s with tracker := s.tracker.setTimer n fun tm => { tm with phase := .waiting } }
  | lock {n : ℕ} {tm : TypingTimer} (htm : s.tracker.timer n = some tm)
      (hphase : tm.phase = .waiting) :
      Move key me s (.timer (.lock n))
        { s with
          tracker := { s.tracker.setTimer n fun tm => { tm with phase := .released } with
            timers := Function.update s.tracker.timers tm.key none } }
  | onExpire {n : ℕ} {tm : TypingTimer} (htm : s.tracker.timer n = some tm)
      (hphase : tm.phase = .released) :
      Move key me s (.timer (.onExpire n))
        ({ s with tracker := s.tracker.setTimer n fun tm => { tm with phase := .done } }.publish key
          me false)
  | overhear {event : UserTyping}
    (hother : ¬ (event.roomID = key.roomID ∧ event.userID = key.userID)) :
      Move key me s (.overhear event)
        { s with typingUserIds := onUserTyping key.roomID me s.typingUserIds event }
  | remount : Move key me s .remount { s with typingUserIds := [] }

theorem step_timer {a : TypingAction} {f : TypingTracker → Cadence}
    (h : (s.tracker.step a).map f = some s') : ∃ t, TypingTracker.Move s.tracker a t ∧
    f t = s' := by
  obtain ⟨t, ht, hf⟩ := Option.map_eq_some_iff.mp h
  exact ⟨t, TypingTracker.step_move ht, hf⟩

theorem step_move (h : step key me s a = some s') : Move key me s a s' := by
  cases a with
  | wait d => cases h; exact .wait d
  | key => cases h; exact .key
  | stop => cases h; exact .stop
  | idle =>
    simp only [step] at h
    split at h
    · rename_i due hidle
      split_ifs at h with hdue
      cases h
      exact .idle hidle hdue
    · cases h
  | vanish => cases h; exact .vanish
  | drop =>
    simp only [step] at h
    split at h
    · rename_i hframes
      cases h
      exact .drop hframes
    · cases h
  | call =>
    simp only [step] at h
    split at h
    · rename_i hfree hframes
      cases h
      exact .call hfree hframes
    · cases h
  | announce =>
    simp only [step] at h
    split at h
    · rename_i hf
      cases h
      exact .announce hf
    · cases h
  | fail =>
    simp only [step] at h
    split at h
    · rename_i hf
      cases h
      exact .fail hf
    · cases h
  | timer a =>
    cases a with
    | start _ => cases h
    | stop _ => cases h
    | expire n =>
      simp only [step] at h
      split_ifs at h with hdue
      obtain ⟨t, ht, rfl⟩ := step_timer h
      cases ht with
      | expire htm hphase => exact .expire hdue htm hphase
    | lock n =>
      obtain ⟨t, ht, rfl⟩ := step_timer h
      cases ht with
      | lock htm hphase => exact .lock htm hphase
    | onExpire n =>
      obtain ⟨t, ht, rfl⟩ := step_timer h
      cases ht with
      | onExpire htm hphase => exact .onExpire htm hphase
  | overhear event =>
    simp only [step] at h
    split_ifs at h with hother
    cases h
    exact .overhear hother
  | remount => cases h; exact .remount

/-! ## The tracker's timers -/

/-- A timer that runs after a call ran before it. -/
theorem running_stopExisting {t : TypingTracker} {n : ℕ} {tm : TypingTimer}
    (htm : (t.stopExisting key).timer n = some tm) (hrun : TimerRunning tm) :
    ∃ old, t.timer n = some old ∧ TimerRunning old := by
  rw [TypingTracker.stopExisting_timer] at htm
  obtain ⟨old, hold, rfl⟩ := Option.map_eq_some_iff.mp htm
  refine ⟨old, hold, ?_⟩
  by_cases hpending : old.phase = .pending
  · exact .inl hpending
  · have hstay : (old.overtake key).stop = old.overtake key :=
      TypingTimer.stop_of_ne (by simpa using hpending)
    rw [hstay, ite_self] at hrun
    simpa [TimerRunning] using hrun

/-- `Start` leaves the timers that were armed before it to `stopExisting`, and arms one more. -/
theorem timer_start (t : TypingTracker) (key : TypingKey) (n : ℕ) :
    (t.start key).timer n =
      if n = t.armed then some ⟨key, .pending, false⟩ else (t.stopExisting key).timer n :=
  Function.update_apply ..

/-- A callback goes on: the other timers stay, and this one was running. -/
theorem running_setTimer {t : TypingTracker} {n m : ℕ} {tm tm' : TypingTimer} {phase : TimerPhase}
    (htm : t.timer n = some tm) (hrun : TimerRunning tm)
    (htm' : (t.setTimer n fun tm => { tm with phase := phase }).timer m = some tm')
    (hrun' : TimerRunning tm') : ∃ old, t.timer m = some old ∧ TimerRunning old := by
  rw [TypingTracker.setTimer_timer _ htm] at htm'
  split_ifs at htm' with hmn
  · exact ⟨tm, hmn ▸ htm, hrun⟩
  · exact ⟨tm', htm', hrun'⟩

/-- A callback that has not ended yet keeps running. -/
theorem running_setTimer_of_ne_done {t : TypingTracker} {n m : ℕ} {tm tm' : TypingTimer}
    {phase : TimerPhase} (htm : t.timer n = some tm)
    (hphase : TimerRunning { tm with phase := phase }) (htm' : t.timer m = some tm')
    (hrun' : TimerRunning tm') :
    ∃ new, (t.setTimer n fun tm => { tm with phase := phase }).timer m = some new ∧
      TimerRunning new := by
  rw [TypingTracker.setTimer_timer _ htm]
  split_ifs with hmn
  · exact ⟨_, rfl, hphase⟩
  · exact ⟨tm', htm', hrun'⟩

/-! ## Nothing is late -/

/-- What a run that is in time keeps. -/
structure Timely (lag : ℕ) (s : Cadence) : Prop where
  lastKey_le : s.lastKey ≤ s.now
  active : s.composer.activeRef = true →
    s.composer.idleTimerRef = some (s.lastKey + TYPING_IDLE_MS)
  idle : ∀ due ∈ s.composer.idleTimerRef, s.now ≤ due + lag
  frames : ∀ f ∈ s.pipeline, f.Timely lag s.now s.lastKey
  timers : ∀ n < s.tracker.armed, ∀ tm ∈ s.tracker.timer n, TimerRunning tm →
    s.now ≤ s.due n + lag ∧ s.due n ≤ s.lastKey + lag + typingTimeout

variable {lag g : ℕ}

theorem timely_new : new.Timely lag where
  lastKey_le := le_rfl
  active := nofun
  idle := nofun
  frames := nofun
  timers := nofun

/-- A composer that is not idle has had a key in time. -/
theorem Timely.now_le (h : s.Timely lag) (hactive : s.composer.activeRef = true) :
    s.now ≤ s.lastKey + TYPING_IDLE_MS + lag :=
  h.idle _ (h.active hactive)

/-- Frames leave the pipeline. -/
theorem Timely.frames_of_subset (h : s.Timely lag) {frames : List TypingFrame}
    (hsub : frames ⊆ s.pipeline) : ∀ f ∈ frames, f.Timely lag s.now s.lastKey :=
  fun f hf => h.frames f (hsub hf)

theorem mem_pipeline_compose {out : Composer × List TypingFrame} {f : TypingFrame} :
    f ∈ (s.compose out).pipeline ↔ f ∈ s.pipeline ∨ f ∈ out.2 := by
  simp [compose, pipeline, or_assoc]

theorem Timely.stopTyping (h : s.Timely lag) :
    (s.compose (s.composer.stopTyping s.now)).Timely lag where
  lastKey_le := h.lastKey_le
  active hactive := by
    simp only [compose, Composer.stopTyping] at hactive
    split_ifs at hactive with hold
    · exact absurd hactive hold
  idle due hdue := by
    simp only [compose, Composer.stopTyping] at hdue
    split_ifs at hdue <;> cases hdue
  frames f hf := by
    rcases mem_pipeline_compose.mp hf with hold | hnew
    · exact h.frames f hold
    · unfold Composer.stopTyping at hnew
      split_ifs at hnew with hactive
      · rw [List.mem_singleton] at hnew
        subst hnew
        exact ⟨le_rfl, Nat.le_add_right _ _, h.now_le hactive, nofun⟩
      · cases hnew
  timers := h.timers

theorem Timely.notifyTyping (h : s.Timely lag) :
    ({ s.compose (s.composer.notifyTyping s.now) with lastKey := s.now } : Cadence).Timely lag where
  lastKey_le := le_rfl
  active _ := by
    show (s.composer.notifyTyping s.now).1.idleTimerRef = _
    unfold Composer.notifyTyping
    split_ifs <;> rfl
  idle due hdue := by
    change due ∈ (s.composer.notifyTyping s.now).1.idleTimerRef at hdue
    show s.now ≤ due + lag
    unfold Composer.notifyTyping at hdue
    split_ifs at hdue
    all_goals
      cases hdue
      omega
  frames f hf := by
    change f ∈ (s.compose (s.composer.notifyTyping s.now)).pipeline at hf
    show f.Timely lag s.now s.now
    rcases mem_pipeline_compose.mp hf with hold | hnew
    · have hf := h.frames f hold
      have hkey := h.lastKey_le
      exact ⟨hf.sent, hf.inTime, by have := hf.sent; omega, fun _ => hf.sent⟩
    · unfold Composer.notifyTyping at hnew
      split_ifs at hnew
      · rw [List.mem_singleton] at hnew
        subst hnew
        exact ⟨le_rfl, Nat.le_add_right _ _, by dsimp only; omega, fun _ => le_rfl⟩
      · cases hnew
  timers n hn tm htm hrun := by
    obtain ⟨hnow, hdue⟩ := h.timers n hn tm htm hrun
    have hkey := h.lastKey_le
    exact ⟨hnow, by show s.due n ≤ s.now + lag + typingTimeout; omega⟩

theorem pipeline_handle (f : TypingFrame) : (s.handle key f).pipeline = f :: s.frames := by
  unfold handle
  split_ifs <;> rfl

theorem Timely.call (h : s.Timely lag) {f : TypingFrame} {frames : List TypingFrame}
    (hfree : s.handling = none) (hframes : s.frames = f :: frames) :
    ({ s with frames }.handle key f).Timely lag := by
  have hpipeline : s.pipeline = f :: frames := by
    rw [pipeline, hfree, hframes]
    rfl
  have hrest : ∀ f' ∈ f :: frames, f'.Timely lag s.now s.lastKey := by
    rw [← hpipeline]
    exact h.frames
  have hf := hrest f List.mem_cons_self
  unfold handle
  split_ifs with hstart
  · refine ⟨h.lastKey_le, h.active, h.idle, hrest, fun n hn tm htm hrun => ?_⟩
    change n < s.tracker.armed + 1 at hn
    change (s.tracker.start key).timer n = some tm at htm
    show s.now ≤ Function.update s.due s.tracker.armed (s.now + typingTimeout) n + lag ∧
      Function.update s.due s.tracker.armed (s.now + typingTimeout) n ≤ s.lastKey +
        lag + typingTimeout
    rw [timer_start] at htm
    split_ifs at htm with hnew
    · -- the timer that this frame arms
      subst hnew
      rw [Function.update_self]
      have hkey := hf.start hstart
      have hnow := hf.inTime
      omega
    · rw [Function.update_of_ne hnew]
      obtain ⟨old, hold, hrunning⟩ := running_stopExisting htm hrun
      exact h.timers n (by omega) old hold hrunning
  · refine ⟨h.lastKey_le, h.active, h.idle, hrest, fun n hn tm htm hrun => ?_⟩
    change n < (s.tracker.stop key).armed at hn
    rw [TypingTracker.armed_stop] at hn
    obtain ⟨old, hold, hrunning⟩ := running_stopExisting htm hrun
    exact h.timers n hn old hold hrunning

/-- A callback goes on. -/
theorem Timely.setTimer (h : s.Timely lag) {n : ℕ} {tm : TypingTimer} {phase : TimerPhase}
    {timers : TypingKey → Option ℕ} (htm : s.tracker.timer n = some tm) (hrun : TimerRunning tm) :
    ({ s with
      tracker := { s.tracker.setTimer n fun tm => { tm with phase := phase } with timers } } :
      Cadence).Timely lag := by
  refine ⟨h.lastKey_le, h.active, h.idle, h.frames, fun m hm tm' htm' hrun' => ?_⟩
  obtain ⟨old, hold, hrunning⟩ := running_setTimer htm hrun htm' hrun'
  exact h.timers m hm old hold hrunning

theorem Timely.wait (h : s.Timely lag) {d : ℕ} (hin : s.InTime lag (s.now + d)) :
    ({ s with now := s.now + d } : Cadence).Timely lag where
  lastKey_le := Nat.le_add_right_of_le h.lastKey_le
  active := h.active
  idle := hin.idle
  frames f hf := by
    have hold := h.frames f hf
    exact ⟨Nat.le_add_right_of_le hold.sent, hin.frames f hf, hold.idle, hold.start⟩
  timers n hn tm htm hrun := ⟨hin.timers n hn tm htm hrun, (h.timers n hn tm htm hrun).2⟩

theorem Timely.step (h : s.Timely lag) (hok : s.Punctual lag a)
    (hstep : step key me s a = some s') :
    s'.Timely lag := by
  cases step_move hstep with
  | wait d => exact h.wait hok
  | key => exact h.notifyTyping
  | stop => exact h.stopTyping
  | idle _ _ => exact h.stopTyping
  | vanish => exact ⟨h.lastKey_le, nofun, nofun, h.frames, h.timers⟩
  | drop hframes =>
    refine ⟨h.lastKey_le, h.active, h.idle, h.frames_of_subset ?_, h.timers⟩
    intro f hf
    rcases List.mem_append.mp hf with hhandling | hframe
    · exact List.mem_append_left _ hhandling
    · exact List.mem_append_right _ (hframes ▸ List.mem_cons_of_mem _ hframe)
  | call hfree hframes => exact h.call hfree hframes
  | announce _ =>
    exact ⟨h.lastKey_le, h.active, h.idle, h.frames_of_subset (List.subset_append_right _ _),
      h.timers⟩
  | fail _ =>
    exact ⟨h.lastKey_le, h.active, h.idle, h.frames_of_subset (List.subset_append_right _ _),
      h.timers⟩
  | expire _ htm hphase => exact h.setTimer htm (.inl hphase)
  | lock htm hphase => exact h.setTimer htm (.inr (.inl hphase))
  | onExpire htm hphase =>
    have hset := @Timely.setTimer _ _ h _ _ .done s.tracker.timers htm (.inr (.inr hphase))
    exact ⟨hset.lastKey_le, hset.active, hset.idle, hset.frames, hset.timers⟩
  | overhear _ => exact ⟨h.lastKey_le, h.active, h.idle, h.frames, h.timers⟩
  | remount => exact ⟨h.lastKey_le, h.active, h.idle, h.frames, h.timers⟩

/-! ## The list of the watching client -/

/-- The user of `key` is in the list. -/
def Seen (key : TypingKey) (s : Cadence) : Prop := key.userID ∈ s.typingUserIds

theorem seen_publish (hme : me ≠ some key.userID) {isTyping : Bool} :
    (s.publish key me isTyping).Seen key ↔ isTyping = true :=
  @mem_onUserTyping_self _ _ _ ⟨key.roomID, key.userID, isTyping⟩ rfl (Ne.symm hme)

theorem seen_overhear {event : UserTyping}
    (hother : ¬ (event.roomID = key.roomID ∧ event.userID = key.userID)) :
    key.userID ∈ onUserTyping key.roomID me s.typingUserIds event ↔ s.Seen key := by
  by_cases hroom : event.roomID = key.roomID
  · exact mem_onUserTyping_of_ne fun huser => hother ⟨hroom, huser⟩
  · rw [onUserTyping_of_room hroom]
    rfl

/-! ## The safety net of the server

As long as the user is in the list, a timer runs whose callback takes the user off it again, or
`typing.stop` is being handled. -/

/-- The callback of some timer is still to come, or under way. -/
def TimerRuns (s : Cadence) : Prop :=
  ∃ n < s.tracker.armed, ∃ tm, s.tracker.timer n = some tm ∧ TimerRunning tm

/-- The timer that the `typing.start` being handled armed. -/
def Armed (s : Cadence) (f : TypingFrame) : Prop :=
  ∃ n < s.tracker.armed, ∃ tm, s.tracker.timer n = some tm ∧ tm.phase = .pending ∧
    f.sentAt + typingTimeout ≤ s.due n

structure Netted (key : TypingKey) (s : Cadence) : Prop where
  seen : s.Seen key → s.TimerRuns ∨ ∃ f ∈ s.handling, f.isTyping = false
  starting : ∀ f ∈ s.handling, f.isTyping = true → s.Armed f

theorem netted_new : new.Netted key where
  seen := nofun
  starting := nofun

theorem Armed.runs {f : TypingFrame} (h : s.Armed f) : s.TimerRuns := by
  obtain ⟨n, hn, tm, htm, hphase, -⟩ := h
  exact ⟨n, hn, tm, htm, .inl hphase⟩

/-- A callback that has not called `onExpire` yet goes on. -/
theorem TimerRuns.setTimer (h : s.TimerRuns) {n : ℕ} {tm : TypingTimer} {phase : TimerPhase}
    {timers : TypingKey → Option ℕ} (htm : s.tracker.timer n = some tm)
    (hphase : TimerRunning { tm with phase := phase }) :
    ({ s with
      tracker := { s.tracker.setTimer n fun tm => { tm with phase := phase } with timers } } :
      Cadence).TimerRuns := by
  obtain ⟨m, hm, old, hold, hrun⟩ := h
  obtain ⟨tm', htm', hrun'⟩ := running_setTimer_of_ne_done htm hphase hold hrun
  exact ⟨m, hm, tm', htm', hrun'⟩

/-- While a `typing.start` is handled in time, no callback of its timer begins. -/
theorem Armed.setTimer {f : TypingFrame} (h : s.Armed f) {n : ℕ} {tm : TypingTimer}
    {phase : TimerPhase} {timers : TypingKey → Option ℕ} (htm : s.tracker.timer n = some tm)
    (hbegun : tm.phase ≠ .pending ∨ s.due n < f.sentAt + typingTimeout) :
    ({ s with
      tracker := { s.tracker.setTimer n fun tm => { tm with phase := phase } with timers } } :
      Cadence).Armed f := by
  obtain ⟨m, hm, old, hold, hpending, hdue⟩ := h
  have hmn : m ≠ n := by
    rintro rfl
    rw [htm] at hold
    cases hold
    rcases hbegun with hphase | hlt
    · exact hphase hpending
    · omega
  refine ⟨m, hm, old, ?_, hpending, hdue⟩
  show (s.tracker.setTimer n _).timer m = some old
  rw [TypingTracker.setTimer_timer _ htm, if_neg hmn]
  exact hold

theorem netted_handle (htimely : s.Timely lag) {f : TypingFrame} {frames : List TypingFrame}
    (hframes : s.frames = f :: frames) : ({ s with frames }.handle key f).Netted key := by
  have hf : f.Timely lag s.now s.lastKey := by
    apply htimely.frames
    rw [pipeline, hframes]
    exact List.mem_append_right _ List.mem_cons_self
  unfold handle
  split_ifs with hstart
  · have harmed : ({ s with
        frames, handling := some f, tracker := s.tracker.start key,
        due := Function.update s.due s.tracker.armed (s.now + typingTimeout) } : Cadence).Armed
          f := by
      refine ⟨s.tracker.armed, Nat.lt_succ_self _, ⟨key, .pending, false⟩, ?_, rfl, ?_⟩
      · exact (timer_start ..).trans (if_pos rfl)
      · show f.sentAt + typingTimeout ≤ Function.update s.due s.tracker.armed
          (s.now + typingTimeout) _
        rw [Function.update_self]
        exact Nat.add_le_add_right hf.sent _
    refine ⟨fun _ => .inl harmed.runs, fun f' hf' _ => ?_⟩
    cases hf'
    exact harmed
  · refine ⟨fun _ => .inr ⟨f, rfl, by simpa using hstart⟩, fun f' hf' hstart' => ?_⟩
    cases hf'
    exact absurd hstart' hstart

theorem Netted.step (hlag : lag < typingTimeout) (hme : me ≠ some key.userID) (h : s.Netted key)
    (htimely : s.Timely lag) (hok : s.Unheard lag a) (hstep : step key me s a = some s') :
    s'.Netted key := by
  cases step_move hstep with
  | wait d => exact ⟨h.seen, h.starting⟩
  | key => exact ⟨h.seen, h.starting⟩
  | stop => exact ⟨h.seen, h.starting⟩
  | idle _ _ => exact ⟨h.seen, h.starting⟩
  | vanish => exact ⟨h.seen, h.starting⟩
  | drop _ => exact ⟨h.seen, h.starting⟩
  | call _ hframes => exact netted_handle htimely hframes
  | announce hf =>
    rename_i f
    refine ⟨fun hseen => .inl ?_, nofun⟩
    have hstart := (seen_publish hme).mp hseen
    exact (h.starting f hf hstart).runs
  | fail hf =>
    rename_i f
    have hstart := hok.2 rfl f hf
    exact ⟨fun _ => .inl (h.starting f hf hstart).runs, nofun⟩
  | expire hdue htm hphase =>
    refine ⟨fun hseen => ?_, fun f hf hstart => ?_⟩
    · exact (h.seen hseen).imp_left fun hruns => hruns.setTimer htm (.inr (.inl rfl))
    · have hinTime := (htimely.frames f (List.mem_append_left _ (Option.mem_toList.mpr hf))).inTime
      exact (h.starting f hf hstart).setTimer htm (.inr (by omega))
  | lock htm hphase =>
    refine ⟨fun hseen => ?_, fun f hf hstart => ?_⟩
    · exact (h.seen hseen).imp_left fun hruns => hruns.setTimer htm (.inr (.inr rfl))
    · exact (h.starting f hf hstart).setTimer htm (.inl (by simp [hphase]))
  | onExpire htm hphase =>
    refine ⟨fun hseen => ?_, fun f hf hstart => ?_⟩
    · have hfalse := (seen_publish hme).mp hseen
      cases hfalse
    · exact (h.starting f hf hstart).setTimer htm (.inl (by simp [hphase]))
  | overhear hother => exact ⟨fun hseen => h.seen ((seen_overhear hother).mp hseen), h.starting⟩
  | remount => exact ⟨nofun, h.starting⟩

/-- What the last word on its way will leave: whether the user is in the list at the end. -/
def lastWord (key : TypingKey) (s : Cadence) : Prop :=
  match s.pipeline.getLast? with
  | some f => f.isTyping = true
  | none => s.Seen key

/-- A composer that went idle has said so. -/
def Told (key : TypingKey) (s : Cadence) : Prop :=
  s.composer.activeRef = false → ¬ s.lastWord key

theorem told_stopTyping (h : s.Told key) : (s.compose (s.composer.stopTyping s.now)).Told key := by
  intro _
  cases hactive : s.composer.activeRef with
  | true =>
    have hlast : (s.compose (s.composer.stopTyping s.now)).pipeline = s.pipeline ++
        [⟨false, s.now⟩] := by
      simp [compose, pipeline, Composer.stopTyping, hactive]
    simp [lastWord, hlast]
  | false =>
    have hsame : (s.compose (s.composer.stopTyping s.now)).pipeline = s.pipeline := by
      simp [compose, pipeline, Composer.stopTyping, hactive]
    have hword := h hactive
    unfold lastWord at hword ⊢
    rwa [hsame]

theorem active_notifyTyping : (s.composer.notifyTyping s.now).1.activeRef = true := by
  unfold Composer.notifyTyping
  split_ifs with hsend
  · rfl
  · rw [not_or] at hsend
    simpa using hsend.1

/-- The list changes while nothing is said by the composer. -/
theorem Told.of_seen (h : s.Told key) (hactive : s'.composer.activeRef = s.composer.activeRef)
    (hpipeline : s'.pipeline = s.pipeline) (hseen : s'.Seen key → s.Seen key) : s'.Told key := by
  intro hidle
  have hword := h (hactive ▸ hidle)
  unfold lastWord at hword ⊢
  rw [hpipeline]
  cases hlast : s.pipeline.getLast? with
  | none =>
    rw [hlast] at hword
    exact fun hnow => hword (hseen hnow)
  | some f =>
    rw [hlast] at hword
    exact hword

theorem Told.announce (hme : me ≠ some key.userID) (h : s.Told key) {f : TypingFrame}
    (hf : s.handling = some f) :
    ({ s with handling := none }.publish key me f.isTyping).Told key := by
  intro hidle
  have hword := h hidle
  unfold lastWord at hword ⊢
  have hpipeline : s.pipeline = f :: s.frames := by
    rw [pipeline, hf]
    rfl
  have hafter : ({ s with handling := none }.publish key me f.isTyping).pipeline = s.frames := rfl
  rw [hpipeline] at hword
  rw [hafter]
  cases hlast : s.frames.getLast? with
  | none =>
    rw [List.getLast?_eq_none_iff] at hlast
    rw [hlast] at hword
    exact fun hseen => hword ((seen_publish hme).mp hseen)
  | some last =>
    rw [List.getLast?_cons, hlast] at hword
    exact hword

theorem Told.step (hme : me ≠ some key.userID) (h : s.Told key) (hok : s.Reliable lag a)
    (hstep : step key me s a = some s') : s'.Told key := by
  cases step_move hstep with
  | wait d => exact h
  | key =>
    intro hidle
    change (s.composer.notifyTyping s.now).1.activeRef = false at hidle
    rw [active_notifyTyping] at hidle
    cases hidle
  | stop => exact told_stopTyping h
  | idle _ _ => exact told_stopTyping h
  | vanish => exact absurd rfl hok.2.1
  | drop _ => exact absurd rfl hok.2.2.1
  | call hfree hframes =>
    rename_i f frames
    refine h.of_seen ?_ ?_ ?_
    · unfold handle
      split_ifs <;> rfl
    · rw [pipeline_handle, pipeline, hfree, hframes]
      rfl
    · unfold handle
      split_ifs <;> exact id
  | announce hf => exact h.announce hme hf
  | fail _ => exact absurd rfl hok.2.2.2
  | expire _ _ _ => exact h.of_seen rfl rfl id
  | lock _ _ => exact h.of_seen rfl rfl id
  | onExpire _ _ =>
    refine h.of_seen rfl rfl fun hseen => ?_
    have hfalse := (seen_publish hme).mp hseen
    cases hfalse
  | overhear hother => exact h.of_seen rfl rfl (seen_overhear hother).mp
  | remount => exact h.of_seen rfl rfl nofun

/-- When nothing is lost, a user who is in the list has pressed a key within the idle time. -/
theorem typing_ends (hme : me ≠ some key.userID) (hrun : Reach (step key me) (Reliable lag) new s)
    (hseen : key.userID ∈ s.typingUserIds) : s.now ≤ s.lastKey + TYPING_IDLE_MS + 2 * lag := by
  have hinv : s.Timely lag ∧ s.Told key := by
    refine hrun.invariant (fun s => s.Timely lag ∧ s.Told key) ?_ ⟨timely_new, fun _ => nofun⟩
    intro s a s' hinv hok hstep
    exact ⟨hinv.1.step hok.1 hstep, hinv.2.step hme hok hstep⟩
  obtain ⟨htimely, htold⟩ := hinv
  cases hactive : s.composer.activeRef with
  | true =>
    have hnow := htimely.now_le hactive
    omega
  | false =>
    have hword := htold hactive
    unfold lastWord at hword
    cases hlast : s.pipeline.getLast? with
    | none =>
      rw [hlast] at hword
      exact absurd hseen hword
    | some f =>
      -- its `typing.stop` is on its way
      have hframe := htimely.frames f (List.mem_of_getLast? hlast)
      have hidle := hframe.idle
      have hnow := hframe.inTime
      omega

/-- The user types one key and waits. -/
def paused : List CadenceAction := [.key, .wait 50, .call, .wait 50, .announce, .wait 2900]

theorem typing_ends_paused :
    TypingTracker.typist.userID ∈ (run new paused).typingUserIds ∧ (run new paused).now = 3000 ∧
      (run new paused).now ≤ (run new paused).lastKey + TYPING_IDLE_MS + 2 * 100 := by
  have hseen : TypingTracker.typist.userID ∈ (run new paused).typingUserIds := by decide
  refine ⟨hseen, rfl, ?_⟩
  exact @typing_ends TypingTracker.typist (some 3) _ 100 (by decide)
    (reach_run (fun _ _ => of_decide_eq_true) (by decide) (by decide)) hseen

/-! ## One timer at a time -/

/-- The timers are those of `key`. -/
structure Tracked (key : TypingKey) (t : TypingTracker) : Prop where
  coherent : t.Coherent
  keyed : ∀ n tm, t.timer n = some tm → tm.key = key

theorem keyed_stopExisting {t : TypingTracker} {key' : TypingKey}
    (h : ∀ n tm, t.timer n = some tm → tm.key = key) {n : ℕ} {tm : TypingTimer}
    (htm : (t.stopExisting key').timer n = some tm) : tm.key = key := by
  rw [TypingTracker.stopExisting_timer] at htm
  obtain ⟨old, hold, rfl⟩ := Option.map_eq_some_iff.mp htm
  have hkey := h n old hold
  simp only [TypingTimer.overtake, TypingTimer.stop]
  split_ifs <;> exact hkey

theorem Tracked.handle (h : Tracked key s.tracker) (f : TypingFrame) :
    Tracked key (s.handle key f).tracker := by
  unfold Cadence.handle
  split_ifs
  · refine ⟨h.coherent.start key, fun n tm htm => ?_⟩
    change (s.tracker.start key).timer n = some tm at htm
    rw [timer_start] at htm
    split_ifs at htm
    · cases htm
      rfl
    · exact keyed_stopExisting h.keyed htm
  · exact ⟨h.coherent.stop key, fun n tm htm => keyed_stopExisting h.keyed htm⟩

theorem keyed_setTimer {t : TypingTracker} (h : ∀ n tm, t.timer n = some tm → tm.key = key)
    {n m : ℕ} {phase : TimerPhase} {tm tm' : TypingTimer} (htm : t.timer n = some tm)
    (htm' : (t.setTimer n fun tm => { tm with phase := phase }).timer m = some tm') :
    tm'.key = key := by
  rw [TypingTracker.setTimer_timer _ htm] at htm'
  split_ifs at htm'
  · cases htm'
    exact h n tm htm
  · exact h m tm' htm'

theorem step_tracker {a : TypingAction} (h : step key me s (.timer a) = some s') :
    s.tracker.step a = some s'.tracker := by
  cases a with
  | start _ => cases h
  | stop _ => cases h
  | expire n =>
    simp only [step] at h
    split_ifs at h
    obtain ⟨t, ht, rfl⟩ := Option.map_eq_some_iff.mp h
    exact ht
  | lock n =>
    obtain ⟨t, ht, rfl⟩ := Option.map_eq_some_iff.mp h
    exact ht
  | onExpire n =>
    obtain ⟨t, ht, rfl⟩ := Option.map_eq_some_iff.mp h
    exact ht

theorem Tracked.step (h : Tracked key s.tracker) (hok : s.OwnTimer a)
    (hstep : step key me s a = some s') : Tracked key s'.tracker := by
  cases step_move hstep with
  | call _ _ =>
    rename_i f frames _ _
    exact Tracked.handle (s := { s with frames }) h f
  | expire _ htm _ =>
    exact ⟨h.coherent.step (a := .expire _) hok (step_tracker hstep),
      fun _ _ => keyed_setTimer h.keyed htm⟩
  | lock htm _ =>
    exact ⟨h.coherent.step (a := .lock _) hok (step_tracker hstep),
      fun _ _ => keyed_setTimer h.keyed htm⟩
  | onExpire htm _ =>
    exact ⟨h.coherent.step (a := .onExpire _) hok (step_tracker hstep),
      fun _ _ => keyed_setTimer h.keyed htm⟩
  | _ => exact h

/-- The timer `n` is pending under `key` and no other runs. -/
structure Sole (key : TypingKey) (t : TypingTracker) (n : ℕ) : Prop where
  held : t.timers key = some n
  pending : ∃ tm, t.timer n = some tm ∧ tm.key = key ∧ tm.phase = .pending
  sole : ∀ m tm, t.timer m = some tm → TimerRunning tm → m = n

/-- `Start` replaces it. -/
theorem Sole.start {t : TypingTracker} {n : ℕ} (h : Sole key t n) :
    Sole key (t.start key) t.armed where
  held := Function.update_self ..
  pending := ⟨_, (timer_start ..).trans (if_pos rfl), rfl, rfl⟩
  sole m tm htm hrun := by
    by_contra hm
    rw [timer_start, if_neg hm] at htm
    obtain ⟨old, hold, hrunning⟩ := running_stopExisting htm hrun
    have hmn := h.sole m old hold hrunning
    subst hmn
    obtain ⟨pend, hpend, hkey, hphase⟩ := h.pending
    rw [TypingTracker.stopExisting_timer, hpend, Option.map_some, if_pos h.held] at htm
    cases htm
    simp [TypingTimer.overtake, TypingTimer.stop, hkey, hphase, TimerRunning] at hrun

/-! ## Typing on -/

/-- From the `typing.start` last handled, sent at `served`, each one comes soon after the one
    before; the last of them is the composer's. -/
def Paced (g : ℕ) : ℕ → List TypingFrame → ℕ → Prop
  | served, [], last => served = last
  | served, f :: frames, last => f.sentAt ≤ served + TYPING_IDLE_MS + g ∧
    Paced g f.sentAt frames last

theorem Paced.concat {served last now : ℕ} {frames : List TypingFrame}
    (h : Paced g served frames last)
    (hnow : now ≤ last + TYPING_IDLE_MS + g) : Paced g served (frames ++ [⟨true, now⟩]) now := by
  induction frames generalizing served with
  | nil =>
    have hserved : served = last := h
    exact ⟨by dsimp only; omega, rfl⟩
  | cons f frames ih => exact ⟨h.1, ih h.2⟩

/-- The state of a burst of keystrokes. -/
structure Burst (key : TypingKey) (g : ℕ) (s : Cadence) : Prop where
  active : s.composer.activeRef = true
  seen : s.Seen key
  typed : ∀ f ∈ s.pipeline, f.isTyping = true
  lastKey_le : s.lastKey ≤ s.composer.lastStartSentRef + TYPING_IDLE_MS
  now_le : s.now ≤ s.lastKey + g
  timer : ∃ n served, Sole key s.tracker n ∧ served + typingTimeout ≤ s.due n ∧
    Paced g served s.frames s.composer.lastStartSentRef

/-- A burst begins: the handler of the composer's newest frame, a `typing.start`, has called the
    tracker and publishes next, and no callback of an earlier timer is under way. -/
structure Begins (g : ℕ) (s : Cadence) : Prop where
  handling : s.handling = some ⟨true, s.composer.lastStartSentRef⟩
  alone : s.frames = []
  active : s.composer.activeRef = true
  typing : s.now ≤ s.lastKey + g
  settled : ∀ n tm, s.tracker.timer n = some tm → TimerRunning tm → tm.phase = .pending

theorem Begins.burst (hg : TYPING_IDLE_MS + g + lag < typingTimeout) (hme : me ≠ some key.userID)
    (h : s.Begins g) (htimely : s.Timely lag) (hnetted : s.Netted key)
    (htracked : Tracked key s.tracker) (hstep : step key me s .announce = some s') :
    s'.Burst key g := by
  cases step_move hstep with
  | announce hf =>
    rename_i f
    rw [h.handling] at hf
    cases hf
    have hmem : (⟨true, s.composer.lastStartSentRef⟩ : TypingFrame) ∈ s.pipeline := by
      rw [pipeline, h.handling]
      exact List.mem_cons_self
    have hframe := htimely.frames _ hmem
    obtain ⟨n, hn, tm, htm, hphase, hdue⟩ := hnetted.starting _ h.handling rfl
    have hkey := htracked.keyed n tm htm
    have hlisted := htracked.coherent.listed n tm htm (htracked.coherent.pending_live htm hphase)
    rw [hkey] at hlisted
    have hsole : Sole key s.tracker n := by
      refine ⟨hlisted, ⟨tm, htm, hkey, hphase⟩, fun m tm' htm' hrun' => ?_⟩
      have hphase' := h.settled m tm' htm' hrun'
      have hlisted' := htracked.coherent.listed m tm' htm'
        (htracked.coherent.pending_live htm' hphase')
      rw [htracked.keyed m tm' htm', hlisted] at hlisted'
      exact (Option.some.inj hlisted').symm
    refine ⟨h.active, (seen_publish hme).mpr rfl, ?_, ?_, h.typing, n, _, hsole, hdue, ?_⟩
    · intro f hf
      change f ∈ s.frames at hf
      rw [h.alone] at hf
      cases hf
    · have hinTime := hframe.inTime
      have hnow := htimely.lastKey_le
      show s.lastKey ≤ s.composer.lastStartSentRef + TYPING_IDLE_MS
      simp only [TYPING_IDLE_MS, typingTimeout] at hg ⊢
      dsimp only at hinTime
      omega
    · show Paced g _ s.frames _
      rw [h.alone]
      rfl

/-- The next `typing.start` comes before the timer is due. -/
theorem Burst.now_lt (hg : TYPING_IDLE_MS + g + lag < typingTimeout) (h : s.Burst key g)
    (htimely : s.Timely lag) {n served : ℕ} (hdue : served + typingTimeout ≤ s.due n)
    (hpaced : Paced g served s.frames s.composer.lastStartSentRef) : s.now < s.due n := by
  cases hframes : s.frames with
  | nil =>
    rw [hframes] at hpaced
    have hserved : served = s.composer.lastStartSentRef := hpaced
    have hkey := h.lastKey_le
    have hnow := h.now_le
    omega
  | cons f frames =>
    rw [hframes] at hpaced
    have hsent := hpaced.1
    have hmem : f ∈ s.pipeline := by
      rw [pipeline, hframes]
      exact List.mem_append_right _ List.mem_cons_self
    have hnow := (htimely.frames f hmem).inTime
    omega

theorem Burst.notifyTyping (h : s.Burst key g) :
    ({ s.compose (s.composer.notifyTyping s.now) with lastKey := s.now } : Cadence).Burst key
      g := by
  obtain ⟨n, served, hsole, hdue, hpaced⟩ := h.timer
  have hkey := h.lastKey_le
  have hnow := h.now_le
  by_cases hsend : s.now - s.composer.lastStartSentRef > TYPING_IDLE_MS
  · have hout : s.composer.notifyTyping s.now =
        (⟨true, s.now, some (s.now + TYPING_IDLE_MS)⟩, [⟨true, s.now⟩]) := if_pos (.inr hsend)
    rw [hout]
    refine ⟨rfl, h.seen, fun f hf => ?_, Nat.le_add_right _ _, Nat.le_add_right _ _, n,
      served, hsole, hdue, hpaced.concat (by omega)⟩
    change f ∈ (s.compose _).pipeline at hf
    rcases mem_pipeline_compose.mp hf with hold | hnew
    · exact h.typed f hold
    · rw [List.mem_singleton] at hnew
      rw [hnew]
  · have hout : s.composer.notifyTyping s.now =
        ({ s.composer with idleTimerRef := some (s.now + TYPING_IDLE_MS) }, []) :=
      if_neg (by simp [h.active, Nat.not_lt.mp hsend])
    rw [hout]
    have hframes : s.frames ++ [] = s.frames := List.append_nil _
    refine ⟨h.active, h.seen, fun f hf => ?_, ?_, Nat.le_add_right _ _, n, served, hsole, hdue, ?_⟩
    · change f ∈ (s.compose _).pipeline at hf
      rcases mem_pipeline_compose.mp hf with hold | hnew
      · exact h.typed f hold
      · cases hnew
    · show s.now ≤ s.composer.lastStartSentRef + TYPING_IDLE_MS
      omega
    · show Paced g served (s.frames ++ []) _
      rw [hframes]
      exact hpaced

theorem Burst.call (h : s.Burst key g) (htimely : s.Timely lag) {f : TypingFrame}
    {frames : List TypingFrame} (hframes : s.frames = f :: frames) :
    ({ s with frames }.handle key f).Burst key g := by
  obtain ⟨n, served, hsole, hdue, hpaced⟩ := h.timer
  have hmem : f ∈ s.pipeline := by
    rw [pipeline, hframes]
    exact List.mem_append_right _ List.mem_cons_self
  have hsent := (htimely.frames f hmem).sent
  have hstart := h.typed f hmem
  have htyped : ∀ f' ∈ ({ s with frames }.handle key f).pipeline, f'.isTyping = true := by
    intro f' hf'
    rw [pipeline_handle] at hf'
    apply h.typed f'
    rw [pipeline, hframes]
    exact List.mem_append_right _ hf'
  rw [hframes] at hpaced
  unfold handle at htyped ⊢
  rw [if_pos hstart] at htyped ⊢
  refine ⟨h.active, h.seen, htyped, h.lastKey_le, h.now_le, s.tracker.armed,
    f.sentAt, hsole.start, ?_, hpaced.2⟩
  show f.sentAt + typingTimeout ≤ Function.update s.due s.tracker.armed (s.now + typingTimeout) _
  rw [Function.update_self]
  exact Nat.add_le_add_right hsent _

theorem Burst.step (hg : TYPING_IDLE_MS + g + lag < typingTimeout) (hme : me ≠ some key.userID)
    (h : s.Burst key g) (htimely : s.Timely lag) (hok : s.Typing lag g a)
    (hstep : step key me s a = some s') : s'.Burst key g := by
  obtain ⟨hreliable, hstop, hremount, hpaces⟩ := hok
  obtain ⟨n, served, hsole, hdue, hpaced⟩ := h.timer
  have hlt := h.now_lt hg htimely hdue hpaced
  cases step_move hstep with
  | wait d => exact ⟨h.active, h.seen, h.typed, h.lastKey_le, hpaces, h.timer⟩
  | key => exact h.notifyTyping
  | stop => exact absurd rfl hstop
  | idle hidle hdue' =>
    -- the pauses are shorter than the idle time
    rw [htimely.active h.active, Option.some.injEq] at hidle
    have hnow := h.now_le
    simp only [TYPING_IDLE_MS, typingTimeout] at hidle hg
    omega
  | vanish => exact absurd rfl hreliable.2.1
  | drop _ => exact absurd rfl hreliable.2.2.1
  | call _ hframes => exact h.call htimely hframes
  | announce hf =>
    rename_i f
    have hstart := h.typed f (List.mem_append_left _ (Option.mem_toList.mpr hf))
    refine ⟨h.active, (seen_publish hme).mpr hstart, fun f' hf' => ?_, h.lastKey_le,
      h.now_le, h.timer⟩
    exact h.typed f' (List.mem_append_right _ hf')
  | fail _ => exact absurd rfl hreliable.2.2.2
  | expire hdue' htm hphase =>
    have hm := hsole.sole _ _ htm (.inl hphase)
    subst hm
    omega
  | lock htm hphase =>
    have hm := hsole.sole _ _ htm (.inr (.inl hphase))
    subst hm
    obtain ⟨tm, htm', -, hpending⟩ := hsole.pending
    rw [htm] at htm'
    cases htm'
    rw [hphase] at hpending
    cases hpending
  | onExpire htm hphase =>
    have hm := hsole.sole _ _ htm (.inr (.inr hphase))
    subst hm
    obtain ⟨tm, htm', -, hpending⟩ := hsole.pending
    rw [htm] at htm'
    cases htm'
    rw [hphase] at hpending
    cases hpending
  | overhear hother =>
    exact ⟨h.active, (seen_overhear hother).mpr h.seen, h.typed, h.lastKey_le, h.now_le, h.timer⟩
  | remount => exact absurd rfl hremount

/-- From the first announcement of a burst on, the user stays in the list, and no timer expires. -/
theorem typing_stays_seen (hg : TYPING_IDLE_MS + g + lag < typingTimeout)
    (hme : me ≠ some key.userID) {s₁ : Cadence} (hrun : Reach (step key me) (OnTime lag) new s)
    (hbegins : s.Begins g) (hannounce : step key me s .announce = some s₁)
    (hburst : Reach (step key me) (Typing lag g) s₁ s') :
    key.userID ∈ s'.typingUserIds ∧ ∀ n, step key me s' (.timer (.expire n)) = none := by
  have hbefore : s.Timely lag ∧ s.Netted key ∧ Tracked key s.tracker := by
    refine hrun.invariant (fun s => s.Timely lag ∧ s.Netted key ∧ Tracked key s.tracker) ?_
      ⟨timely_new, netted_new, TypingTracker.coherent_new, nofun⟩
    intro s a s' hinv hok hstep
    exact ⟨hinv.1.step hok.1.1 hstep, hinv.2.1.step (by omega) hme hinv.1 hok.1 hstep,
      hinv.2.2.step hok.2 hstep⟩
  obtain ⟨htimely, hnetted, htracked⟩ := hbefore
  have hafter : s'.Timely lag ∧ s'.Burst key g := by
    refine hburst.invariant (fun s => s.Timely lag ∧ s.Burst key g) ?_
      ⟨htimely.step (a := .announce) trivial hannounce,
        hbegins.burst hg hme htimely hnetted htracked hannounce⟩
    intro s a s' hinv hok hstep
    exact ⟨hinv.1.step hok.1.1 hstep, hinv.2.step hg hme hinv.1 hok hstep⟩
  obtain ⟨htimely', hburst'⟩ := hafter
  refine ⟨hburst'.seen, fun n => ?_⟩
  cases hexpire : step key me s' (.timer (.expire n)) with
  | none => rfl
  | some after =>
    obtain ⟨m, served, hsole, hdue, hpaced⟩ := hburst'.timer
    have hlt := hburst'.now_lt hg htimely' hdue hpaced
    cases step_move hexpire with
    | expire hdue' htm hphase =>
      have hm := hsole.sole _ _ htm (.inl hphase)
      subst hm
      omega

/-- The first key of a burst, up to the publication. -/
def firstKey : List CadenceAction := [.key, .wait 50, .call]

/-- The user types on for more than five seconds. -/
def typedOn : List CadenceAction :=
  [.wait 900, .key, .wait 900, .key, .wait 900, .key, .wait 900, .key, .wait 80, .call, .announce,
    .wait 800, .key, .wait 900]

theorem typing_stays_seen_on :
    (run (run new (firstKey ++ [.announce])) typedOn).now = 5430 ∧
      TypingTracker.typist.userID ∈
        (run (run new (firstKey ++ [.announce])) typedOn).typingUserIds ∧
      ∀ n, step TypingTracker.typist (some 3) (run (run new (firstKey ++ [.announce])) typedOn)
        (.timer (.expire n)) = none := by
  have hbegins : (run new firstKey).Begins 1000 := by
    refine ⟨rfl, rfl, rfl, by decide, fun n tm htm _ => ?_⟩
    match n, htm with
    | 0, htm =>
      cases htm
      rfl
    | n + 1, htm => cases htm
  refine ⟨rfl, ?_⟩
  exact @typing_stays_seen TypingTracker.typist (some 3) _ _ 100 1000 (by decide) (by decide) _
    (reach_run (onTime_of_check 100) (by decide) (by decide)) hbegins rfl
    (reach_run (fun _ _ => of_decide_eq_true) (by decide) (by decide))

/-- A key just before the refresh is due, then a pause that is shorter than the idle time. -/
def flickered : List CadenceAction :=
  [.key, .call, .announce, .wait 2900, .key, .wait 2100, .timer (.expire 0), .timer (.lock 0),
    .timer (.onExpire 0)]

/-- With pauses above `typingTimeout - TYPING_IDLE_MS`, the user is taken off the list while the
    composer is active, and comes back with the next key. -/
theorem typing_flickers :
    Reach (step TypingTracker.typist (some 3)) (Reliable 0) new (run new flickered) ∧
      (run new flickered).composer.activeRef = true ∧
      (run new flickered).now < (run new flickered).lastKey + TYPING_IDLE_MS ∧
      TypingTracker.typist.userID ∉ (run new flickered).typingUserIds ∧
      TypingTracker.typist.userID ∈
        (run (run new flickered) [.key, .call, .announce]).typingUserIds := by
  refine ⟨reach_run (fun _ _ => of_decide_eq_true) (by decide) (by decide), rfl,
    by decide, by decide, by decide⟩

end Cadence

end ConvoyChat.System
