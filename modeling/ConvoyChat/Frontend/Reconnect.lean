import ConvoyChat.Frontend.WebSocket
import ConvoyChat.Lib.Runs
import Mathlib.Logic.Function.Basic

/-!
# How a tab stays connected

The connection effect of `WebSocketProvider` (`frontend/hooks/useWebSocket.tsx` lines
387–508) with `reconnectNow` (lines 182–193): the token that it watches, its attempt to
connect, its sockets and its timers. `connect` asks for a new access token first when
the present one expires soon, and comes back after the answer; meanwhile the token may
change and the effect may run again.

A browser fires `error` and `close` of a socket in one task, so they are one step. A
socket counts as open until then, but `reconnectNow` may see that it is closing. Delays
are left out, apart from the number of attempts that they are computed from.

* `reconnects_iff`: along every run in which no token refresh of a connect attempt fails
  for the network while nothing else is under way, a socket, an attempt or a timer is
  there whenever the effect has run with the present token; and a step that breaks the
  condition leaves none.
* `wakes_offline`: a tab that wakes up before the network is back.
-/

namespace ConvoyChat.Frontend

open ConvoyChat.Lib

/-- A call of `connect` that waits for `refreshAccessToken`, or is about to go on with its
    token; `connectingRef` is set. -/
inductive ConnectAttempt
  | refreshing
  | refreshed (token : String)
deriving DecidableEq, Repr

structure Socket where
  id : ℕ
  isOpen : Bool
deriving DecidableEq, Repr

structure Connection where
  /-- `useAuthStore.getState().token` -/
  token : Option String
  /-- the token has changed since the effect ran -/
  due : Bool
  /-- the effect has a cleanup: it ran with a token -/
  active : Bool
  /-- `intentionalCloseRef` -/
  intentionalClose : Bool
  /-- `connectFnRef` is `connect` -/
  hasConnect : Bool
  attempt : Option ConnectAttempt
  /-- `wsRef` -/
  ws : Option Socket
  /-- superseded sockets, whose handlers are still set -/
  stale : List ℕ
  /-- the timers that are armed -/
  timers : List ℕ
  /-- `reconnectTimerRef` -/
  timerRef : Option ℕ
  reconnectAttempts : ℕ
  status : ConnStatus
  /-- ids of sockets and timers so far -/
  nextId : ℕ
deriving DecidableEq, Repr

/-- The steps; `expiring` is what `isAccessTokenExpiringSoon` says of the token, if there
    is one. -/
inductive ConnectionAction
  /-- the effect runs, after its cleanup -/
  | runEffect (expiring : Bool)
  | timer (id : ℕ) (expiring : Bool)
  /-- the refresh of the attempt succeeds: `setAuth` -/
  | refreshed (token : String)
  /-- `connect` goes on with the new token -/
  | resume
  /-- the server rejects the refresh token, or there is none: `clearAuth` -/
  | rejected
  /-- the refresh fails because the network is unreachable -/
  | unreachable
  | onopen (id : ℕ)
  /-- `close`, after `error` if there was one -/
  | onclose (id : ℕ)
  /-- `closing` if the current socket is not open any more -/
  | reconnectNow (closing expiring : Bool)
  /-- a login, a logout or the refresh of another request -/
  | setToken (token : Option String)
deriving DecidableEq, Repr

namespace Connection

/-- The provider is mounted, and its effect has not run yet. -/
def start (token : Option String) : Connection where
  token := token
  due := true
  active := false
  intentionalClose := false
  hasConnect := false
  attempt := none
  ws := none
  stale := []
  timers := []
  timerRef := none
  reconnectAttempts := 0
  status := .connecting
  nextId := 0

/-- The store holds another token; the effect runs again if it has changed. -/
def withToken (s : Connection) (token : Option String) : Connection :=
  { s with token, due := s.due || token ≠ s.token }

/-- Model of `scheduleReconnect` (lines 400–406). -/
def scheduleReconnect (s : Connection) : Connection :=
  { s with
    reconnectAttempts := s.reconnectAttempts + 1
    timers := s.timers ++ [s.nextId]
    timerRef := some s.nextId
    nextId := s.nextId + 1 }

/-- `new WebSocket` (lines 435–437). -/
def openSocket (s : Connection) : Connection :=
  { s with
    status := .connecting
    ws := some ⟨s.nextId, false⟩
    stale := s.stale ++ (s.ws.map (·.id)).toList
    nextId := s.nextId + 1 }

/-- Model of `isAccessTokenExpiringSoon`, given the answer for a token. -/
def isExpiring (s : Connection) (expiring : Bool) : Bool :=
  match s.token with
  | none => true
  | some token => token = "" || expiring

/-- Model of `connect` up to its `await` (lines 410–423), or to its end. -/
def connect (s : Connection) (expiring : Bool) : Connection :=
  if s.attempt.isSome then s
  else if s.isExpiring expiring then { s with attempt := some .refreshing }
  else s.openSocket

/-- `clearTimeout(reconnectTimerRef.current)`. -/
def clearTimer (s : Connection) : Connection :=
  match s.timerRef with
  | none => s
  | some id => { s with timers := s.timers.filter (· ≠ id), timerRef := none }

/-- The cleanup (lines 495–507): the handlers of the current socket are removed. -/
def cleanup (s : Connection) : Connection :=
  { s with intentionalClose := true, ws := none }.clearTimer

/-- The effect (lines 387–493), after the cleanup of its last run. -/
def runEffect (s : Connection) (expiring : Bool) : Connection :=
  let s := if s.active then s.cleanup else s
  match s.token with
  | none => { s with due := false, active := false, status := .closed }
  | some _ =>
    { s with due := false, active := true, intentionalClose := false, hasConnect := true }.connect
      expiring

/-- Model of `onclose` (lines 479–484). -/
def onclose (s : Connection) : Connection :=
  let s := { s with ws := none, status := .closed }
  if s.intentionalClose then s else s.scheduleReconnect

/-- Model of `reconnectNow`. -/
def reconnectNow (s : Connection) (closing expiring : Bool) : Connection :=
  if s.ws.isSome && !closing then s
  else
    let s := { s.clearTimer with reconnectAttempts := 0 }
    if s.hasConnect then s.connect expiring else s

def step (s : Connection) : ConnectionAction → Option Connection
  | .runEffect expiring => some (s.runEffect expiring)
  | .timer id expiring =>
    if id ∈ s.timers then some ({ s with timers := s.timers.filter (· ≠ id) }.connect expiring)
    else none
  | .refreshed token =>
    if s.attempt = some .refreshing then
      some { s.withToken (some token) with attempt := some (.refreshed token) }
    else none
  | .resume =>
    match s.attempt with
    | some (.refreshed _) => some { s with attempt := none }.openSocket
    | _ => none
  | .rejected =>
    if s.attempt = some .refreshing then some { s.withToken none with attempt := none } else none
  | .unreachable =>
    if s.attempt = some .refreshing then some { s with attempt := none } else none
  | .onopen id =>
    if s.ws = some ⟨id, false⟩ then
      some { s with ws := some ⟨id, true⟩, reconnectAttempts := 0, status := .open }
    else if id ∈ s.stale then some s else none
  | .onclose id =>
    if s.ws.map (·.id) = some id then some s.onclose
    else if id ∈ s.stale then some { s with stale := s.stale.filter (· ≠ id) } else none
  | .reconnectNow closing expiring => some (s.reconnectNow closing expiring)
  | .setToken token => some (s.withToken token)

end Connection

/-! ## What is under way -/

/-- A socket is connecting or open, an attempt waits for its refresh, or a timer is
    armed. -/
def Connection.UnderWay (s : Connection) : Prop :=
  s.ws ≠ none ∨ s.attempt ≠ none ∨ s.timers ≠ []

/-- While the effect has run with the present token, something is under way. -/
def Connection.Attended (s : Connection) : Prop :=
  s.token ≠ none → s.due = false → s.UnderWay

/-- A refresh that fails for the network leaves a socket or a timer, or the token has
    changed and the effect is to run again. -/
def KeepsTrying (s : Connection) : ConnectionAction → Prop
  | .unreachable => s.token = none ∨ s.due = true ∨ s.ws ≠ none ∨ s.timers ≠ []
  | _ => True

/-- The same, with what the handlers need to go on. -/
def Connection.Ready (s : Connection) : Prop :=
  s.token ≠ none → s.due = false → s.intentionalClose = false ∧ s.hasConnect = true ∧ s.UnderWay

section

variable {s s' : Connection} {a : ConnectionAction} {expiring : Bool}

/-- `connect` always leaves something under way. -/
theorem connect_underWay (s : Connection) (expiring : Bool) : (s.connect expiring).UnderWay := by
  unfold Connection.connect
  split_ifs with hattempt
  · exact .inr (.inl (Option.isSome_iff_ne_none.mp hattempt))
  · exact .inr (.inl (Option.some_ne_none _))
  · exact .inl (Option.some_ne_none _)

/-- The part of the state that `connect` and `clearTimeout` leave as it is. -/
def Connection.Same (s s' : Connection) : Prop :=
  s'.token = s.token ∧ s'.due = s.due ∧ s'.intentionalClose = s.intentionalClose ∧
    s'.hasConnect = s.hasConnect

theorem connect_same (s : Connection) (expiring : Bool) : s.Same (s.connect expiring) := by
  unfold Connection.connect
  split_ifs
  · exact ⟨rfl, rfl, rfl, rfl⟩
  · exact ⟨rfl, rfl, rfl, rfl⟩
  · exact ⟨rfl, rfl, rfl, rfl⟩

theorem clearTimer_same (s : Connection) : s.Same s.clearTimer := by
  unfold Connection.clearTimer
  split
  · exact ⟨rfl, rfl, rfl, rfl⟩
  · exact ⟨rfl, rfl, rfl, rfl⟩

theorem Connection.Ready.of_same (h : s.Ready) (hsame : s.Same s')
    (hunder : s.UnderWay → s'.UnderWay) :
    s'.Ready := by
  obtain ⟨htoken, hdue, hclose, hconnect⟩ := hsame
  intro ht hd
  rw [htoken] at ht
  rw [hdue] at hd
  rw [hclose, hconnect]
  exact ⟨(h ht hd).1, (h ht hd).2.1, hunder (h ht hd).2.2⟩

theorem runEffect_ready (s : Connection) (expiring : Bool) : (s.runEffect expiring).Ready := by
  unfold Connection.runEffect
  generalize (if s.active = true then s.cleanup else s) = s₁
  dsimp only
  split
  · rename_i hnone
    exact fun ht => absurd hnone ht
  · intro _ _
    obtain ⟨-, -, hclose, hconnect⟩ := connect_same
      { s₁ with
        due := false, active := true, intentionalClose := false, hasConnect := true } expiring
    exact ⟨hclose, hconnect, connect_underWay _ _⟩

theorem Connection.Ready.onclose (h : s.Ready) : s.onclose.Ready := by
  intro ht hd
  unfold Connection.onclose at ht hd ⊢
  dsimp only at ht hd ⊢
  by_cases hclose : s.intentionalClose = true
  · rw [if_pos hclose] at ht hd
    have hready := (h ht hd).1
    rw [hclose] at hready
    cases hready
  · rw [if_neg hclose] at ht hd ⊢
    refine ⟨(h ht hd).1, (h ht hd).2.1, .inr (.inr ?_)⟩
    exact List.append_ne_nil_of_right_ne_nil _ (List.cons_ne_nil _ _)

theorem Connection.Ready.reconnectNow (h : s.Ready) (closing expiring : Bool) :
    (s.reconnectNow closing expiring).Ready := by
  unfold Connection.reconnectNow
  dsimp only
  split_ifs with _ hconnect
  · exact h
  · obtain ⟨h₁, h₂, h₃, h₄⟩ := clearTimer_same s
    obtain ⟨h₁', h₂', h₃', h₄'⟩ :=
      connect_same { s.clearTimer with reconnectAttempts := 0 } expiring
    refine h.of_same ⟨h₁'.trans h₁, h₂'.trans h₂, h₃'.trans h₃, h₄'.trans h₄⟩ fun _ => ?_
    exact connect_underWay _ _
  · -- the effect has not run with a token yet
    obtain ⟨htoken, hdue, -, hset⟩ := clearTimer_same s
    intro ht hd
    have hready := (h (htoken ▸ ht) (hdue ▸ hd)).2.1
    exact absurd (hset.trans hready) hconnect

theorem Connection.Ready.step (h : s.Ready) (hok : KeepsTrying s a) (hs : s.step a = some s') :
    s'.Ready := by
  cases a with
  | runEffect expiring =>
    cases hs
    exact runEffect_ready s expiring
  | timer id expiring =>
    simp only [Connection.step] at hs
    split_ifs at hs
    cases hs
    obtain ⟨h₁, h₂, h₃, h₄⟩ := connect_same { s with timers := s.timers.filter (· ≠ id) } expiring
    exact h.of_same ⟨h₁, h₂, h₃, h₄⟩ fun _ => connect_underWay _ _
  | refreshed token =>
    simp only [Connection.step] at hs
    split_ifs at hs
    cases hs
    intro _ hd
    obtain ⟨hd, htoken⟩ := Bool.or_eq_false_iff.mp hd
    have hsame : some token = s.token := by simpa using htoken
    have hready := h (by rw [← hsame]; exact Option.some_ne_none _) hd
    exact ⟨hready.1, hready.2.1, .inr (.inl (Option.some_ne_none _))⟩
  | resume =>
    simp only [Connection.step] at hs
    split at hs
    · cases hs
      exact h.of_same ⟨rfl, rfl, rfl, rfl⟩ fun _ => .inl (Option.some_ne_none _)
    · cases hs
  | rejected =>
    simp only [Connection.step] at hs
    split_ifs at hs
    cases hs
    exact fun ht => absurd rfl ht
  | unreachable =>
    simp only [Connection.step] at hs
    split_ifs at hs
    cases hs
    intro ht hd
    refine ⟨(h ht hd).1, (h ht hd).2.1, ?_⟩
    rcases hok with htoken | hdue | hws | htimers
    · exact absurd htoken ht
    · cases hdue.symm.trans hd
    · exact .inl hws
    · exact .inr (.inr htimers)
  | onopen id =>
    simp only [Connection.step] at hs
    split_ifs at hs
    · cases hs
      exact h.of_same ⟨rfl, rfl, rfl, rfl⟩ fun _ => .inl (Option.some_ne_none _)
    · cases hs
      exact h
  | onclose id =>
    simp only [Connection.step] at hs
    split_ifs at hs
    · cases hs
      exact h.onclose
    · cases hs
      exact h.of_same ⟨rfl, rfl, rfl, rfl⟩ fun hunder => hunder
  | reconnectNow closing expiring =>
    cases hs
    exact h.reconnectNow closing expiring
  | setToken token =>
    cases hs
    intro ht hd
    obtain ⟨hd, htoken⟩ := Bool.or_eq_false_iff.mp hd
    have hsame : token = s.token := by simpa using htoken
    have ht : s.token ≠ none := hsame ▸ ht
    exact h ht hd

/-- Along every run that keeps trying, something is under way; a step that does not keep
    trying leaves nothing. -/
theorem reconnects_iff {token : Option String}
    (hrun : Reach Connection.step KeepsTrying (.start token) s) :
    s.Attended ∧ ∀ a s', s.step a = some s' → (s'.Attended ↔ KeepsTrying s a) := by
  have hready : s.Ready := hrun.invariant Connection.Ready (fun _ _ _ h hok hs => h.step hok hs)
    fun _ hd => by cases hd
  refine ⟨fun ht hd => (hready ht hd).2.2, fun a s' hs => ⟨fun hatt => ?_, fun hok ht hd => ?_⟩⟩
  · cases a with
    | unreachable =>
      by_contra hno
      simp only [KeepsTrying, not_or] at hno
      simp only [Connection.step] at hs
      split_ifs at hs
      cases hs
      rcases hatt hno.1 (Bool.not_eq_true _ |>.mp hno.2.1) with hws | hattempt | htimers
      · exact hno.2.2.1 hws
      · exact hattempt rfl
      · exact hno.2.2.2 htimers
    | _ => trivial
  · exact (hready.step hok hs ht hd).2.2

end

/-! ## A tab that wakes up -/

/-- The access token expires soon. -/
def wakesUp : List ConnectionAction :=
  [.runEffect false, .onopen 0, .onclose 0, .timer 1 true]

def connectionAfter (as : List ConnectionAction) : Connection :=
  (exec Connection.step (.start (some "token")) as).getD (.start none)

instance (s : Connection) : (a : ConnectionAction) → Decidable (KeepsTrying s a)
  | .unreachable => inferInstanceAs (Decidable (_ ∨ _ ∨ _ ∨ _))
  | .runEffect _ => .isTrue trivial
  | .timer _ _ => .isTrue trivial
  | .refreshed _ => .isTrue trivial
  | .resume => .isTrue trivial
  | .rejected => .isTrue trivial
  | .onopen _ => .isTrue trivial
  | .onclose _ => .isTrue trivial
  | .reconnectNow _ _ => .isTrue trivial
  | .setToken _ => .isTrue trivial

/-- The refresh succeeds, and `connect` opens a socket. -/
theorem reconnects_refreshed :
    (connectionAfter (wakesUp ++ [.refreshed "newer", .resume, .runEffect false])).Attended := by
  have hmeets : Meets Connection.step KeepsTrying (.start (some "token"))
      (wakesUp ++ [.refreshed "newer", .resume, .runEffect false]) :=
    meets_of_checks (fun _ _ h => of_decide_eq_true h) (by decide)
  exact (reconnects_iff (Reach.of_exec hmeets rfl)).1

/-- The refresh fails because the network is not back yet, and nothing is armed. -/
theorem wakes_offline :
    ¬ ∀ (token : Option String) (s : Connection),
      Reach Connection.step Unguarded (.start token) s → s.Attended := by
  intro h
  have hmeets : Meets Connection.step Unguarded (.start (some "token"))
      (wakesUp ++ [.unreachable]) :=
    meets_unguarded _ _ _
  have hatt :=
    h (some "token") (connectionAfter (wakesUp ++ [.unreachable])) (Reach.of_exec hmeets rfl)
  rcases hatt (by decide) (by decide) with hws | hattempt | htimers
  · exact hws (by decide)
  · exact hattempt (by decide)
  · exact htimers (by decide)

end ConvoyChat.Frontend
