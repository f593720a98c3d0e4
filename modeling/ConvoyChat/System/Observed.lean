import ConvoyChat.Frontend.PresenceStore
import ConvoyChat.System.Presence
import ConvoyChat.System.Resynced

/-!
# The status that others see

A user, the presence keys and the rooms of the server, and an observer who is joined to
one room throughout and receives every event that is published there. The user connects,
disconnects, sends `presence.update` and `room.join` frames on any number of connections,
and calls `JoinChannel`. Each of these is a goroutine of its own, and their commands to
Redis and Postgres, their publications and the deliveries to the observer come in any
order; any of them may fail, or take effect while its answer is lost. Others change the
rooms and their own presence meanwhile.

The observer is told by `user.status_changed`, which goes to the rooms of the user at the
time of `ListRoomsForUser`, guesses "online" from `user.joined` (`useWebSocket.tsx` lines
243–249), and reads `GET /rooms/{id}/presence` when it opens the room (`useRoomPresence`).

* `observed_iff`: the observer shows the user's status whenever all calls have returned and
  all events are applied, in every run whose steps are as `Told` says.
* `away_seen_online`: a second tab of a user who is away joins the room.
-/

namespace ConvoyChat.System

open ConvoyChat.Lib ConvoyChat.Store ConvoyChat.Handlers ConvoyChat.Websocket ConvoyChat.Frontend

/-! ## The calls of a user -/

/-- What the goroutines of a user call: single commands on presence keys, the operations of
    a connection and those of an HTTP handler. -/
inductive SceneOp
  | key (userID : UUID) (o : PresenceOp)
  | conn (o : ConnOp)
  | room (o : RoomOp)
deriving DecidableEq, Repr

abbrev SceneOp.Res : SceneOp → Type
  | key _ o => o.Res
  | conn o => o.Res
  | room o => o.Res

abbrev SceneProc := Proc SceneOp SceneOp.Res

/-- The commands of a presence function. -/
def onKeys {α : Type} (userID : UUID) (p : PresenceProc α) : SceneProc α :=
  p.embed (SceneOp.key userID) fun _ r => r

/-- A procedure of a connection, with its presence calls as single commands. -/
def spellOut {α : Type} : ConnProc α → SceneProc α
  | .ret a => .ret a
  | .op (.call (.presenceConnect userID)) k =>
    onKeys userID (presenceConnect presenceTTL) >>= fun r => spellOut (k r)
  | .op (.call (.presenceDisconnect userID)) k =>
    onKeys userID presenceDisconnect >>= fun r => spellOut (k r)
  | .op (.call (.presenceSetStatus userID status)) k =>
    onKeys userID (presenceSetStatus status presenceTTL) >>= fun r => spellOut (k r)
  | .op o k => .op (.conn o) fun r => spellOut (k r)

/-- What a user does. -/
inductive PresenceMove
  /-- connection `n` is opened -/
  | connect (n : ℕ)
  /-- a connection that had joined `rooms` is closed -/
  | disconnect (rooms : List UUID)
  /-- a `presence.update` frame -/
  | update (n : ℕ) (status : String)
  /-- a `room.join` frame -/
  | roomJoin (n : ℕ) (roomParam : String)
  /-- `POST /rooms/{id}/join` -/
  | joinChannel (roomParam : String)
deriving DecidableEq, Repr

/-- What a goroutine does about it. -/
def PresenceMove.proc (parse : String → Option UUID) (userID : UUID) (username : String) :
    PresenceMove → SceneProc Unit
  | connect n => spellOut (handshake ⟨n, userID, username⟩)
  | disconnect rooms => spellOut (lift (presenceOffline userID rooms))
  | update n status => spellOut (handlePresenceUpdate ⟨n, userID, username⟩
      ⟨"presence.update", "", "", "", status, "", ""⟩)
  | roomJoin n roomParam => spellOut (handleRoomJoin parse ⟨n, userID, username⟩
      ⟨"room.join", roomParam, "", "", "", "", ""⟩)
  | joinChannel roomParam =>
    (Handlers.joinChannel parse userID roomParam).embed .room (fun _ r => r) >>= fun _ => pure ()

/-! ## The scene -/

structure Scene where
  backend : Backend
  keys : UUID → PresenceKeys
  /-- what is left of the calls so far -/
  calls : List (SceneProc Unit)
  /-- the events published in the room that the observer has not applied -/
  queue : List Event
  /-- `GET /rooms/{id}/presence`: the members, once they are read -/
  asked : Option (List (UUID × Option Time))
  /-- and its answer -/
  answer : Option (List Frontend.UserPresence)
  /-- the `data` of `useRoomPresence` -/
  data : Option (List Frontend.UserPresence)
  /-- the presence store of the observer -/
  view : PresenceState

inductive SceneAction
  | begin (move : PresenceMove)
  /-- the next operation of a call is performed -/
  | serve (i : ℕ) (st : Stamp)
  /-- it fails, without effect -/
  | fail (i : ℕ)
  /-- it takes effect, and its answer is lost -/
  | lose (i : ℕ) (st : Stamp)
  /-- the status key expires -/
  | expire
  /-- a heartbeat that did not find the status key sets it -/
  | resurrect
  /-- others change the rooms and the keys of user `u` -/
  | elsewhere (db : Database) (u : UUID) (keys : PresenceKeys)
  /-- others publish an event in the room -/
  | publish (e : Event)
  /-- the observer applies an event -/
  | deliver
  /-- `ListPresenceForRoom` reads the members -/
  | askMembers
  /-- and their status keys -/
  | askStatuses
  /-- the answer arrives -/
  | arrive
  /-- the effect of `useRoomPresence` runs -/
  | hydrate

/-- The answer of a call that fails; the others cannot. -/
def PresenceOp.failure : (o : PresenceOp) → o.Res
  | .incrConns => .error .internal
  | .decrConns => .error .internal
  | .expireConns _ => .error .internal
  | .setConns _ _ => .error .internal
  | .expireStatus _ => .error .internal
  | .setStatus _ _ => .error .internal
  | .delStatus => .error .internal
  | .upsertUserPresence _ => .error .internal

def EnvOp.failure : (o : EnvOp) → Option o.Res
  | .getMembership _ _ => some (.error .internal)
  | .insertMessage _ _ _ _ => some (.error .internal)
  | .getMessageByID _ => some (.error .internal)
  | .markMessageRead _ _ => some (.error .internal)
  | .listRoomsForUser _ => some (.error .internal)
  | .presenceConnect _ => some (.error .internal)
  | .presenceDisconnect _ => some (.error .internal)
  | .presenceSetStatus _ _ => some (.error .internal)
  | .now => none
  | .publish _ _ => some (.error .internal)

def SceneOp.failure : (o : SceneOp) → Option o.Res
  | .key _ o => some (PresenceOp.failure o)
  | .conn (.call o) => EnvOp.failure o
  | .conn (.ensure _ _) => some (.error .internal)
  | .conn _ => none
  | .room o => some (failed o)

section

variable (w : Wire) (parse : String → Option UUID) (room userID me : UUID) (username : String)

/-- The part of `routeEvent` that writes the presence store. -/
def routePresence : Event → PresenceState → PresenceState
  | .userStatusChanged userID status lastSeenAt, s =>
    s.setStatus (w.uuidText userID) status (some (w.timeText lastSeenAt))
  | .room (.userJoined userID _ _), s => s.setStatus (w.uuidText userID) .online none
  | _, s => s

/-- An event is published; the observer is in `room`. -/
def Scene.emit (s : Scene) : Option (Kind × UUID × Event) → Scene
  | some (.room, roomID, e) => if roomID = room then { s with queue := s.queue ++ [e] } else s
  | _ => s

/-- An operation takes effect. The presence calls are single commands here, and what a
    connection asks about messages is not needed. -/
def Scene.serve (st : Stamp) : (o : SceneOp) → Scene → o.Res × Scene
  | .key u o, s =>
    ((o.serve st.now (s.keys u)).1,
      { s with keys := Function.update s.keys u (o.serve st.now (s.keys u)).2 })
  | .conn (.call (.getMembership roomID u)), s => (Store.getMembership roomID u s.backend.db, s)
  | .conn (.call (.listRoomsForUser u)), s => (.ok (Store.listRoomsForUser u s.backend.db), s)
  | .conn (.call .now), s => (st.now, s)
  | .conn (.call (.publish roomID e)), s => (.ok (), s.emit room (some (.room, roomID, e)))
  | .conn (.call (.insertMessage _ _ _ _)), s => (.error .internal, s)
  | .conn (.call (.getMessageByID _)), s => (.error .internal, s)
  | .conn (.call (.markMessageRead _ _)), s => (.error .internal, s)
  | .conn (.call (.presenceConnect _)), s => (.error .internal, s)
  | .conn (.call (.presenceDisconnect _)), s => (.error .internal, s)
  | .conn (.call (.presenceSetStatus _ _)), s => (.error .internal, s)
  | .conn (.ensure _ _), s => (.ok (), s)
  | .conn (.sendError _ _), s => ((), s)
  | .conn .register, s => ((), s)
  | .conn (.join _), s => ((), s)
  | .conn (.leave _), s => ((), s)
  | .conn (.typingStart _), s => ((), s)
  | .conn (.typingStop _), s => ((), s)
  | .room o, s =>
    ((o.serve (fun _ => st) s.backend).1,
      { s with backend := (o.serve (fun _ => st) s.backend).2 }.emit room (callPublishes o))

/-- The status key of the user changes. -/
def Scene.setStatus (s : Scene) (status : Option (RedisKey PresenceStatus)) : Scene :=
  { s with keys := Function.update s.keys userID { s.keys userID with status } }

/-- Go on with `p` in call `i`. -/
def Scene.resume (s : Scene) (i : ℕ) (p : SceneProc Unit) : Scene :=
  { s with calls := s.calls.set i p }

/-- What an event says about the user's status. -/
def about : Event → Option PresenceStatus
  | .userStatusChanged u status _ => if u = userID then some status else none
  | .room (.userJoined u _ _) => if u = userID then some .online else none
  | _ => none

def Scene.step (s : Scene) : SceneAction → Option Scene
  | .begin move => some { s with calls := s.calls ++ [move.proc parse userID username] }
  | .serve i st =>
    match s.calls[i]? with
    | some (.op o k) => some ((s.serve room st o).2.resume i (k (s.serve room st o).1))
    | _ => none
  | .fail i =>
    match s.calls[i]? with
    | some (.op o k) => o.failure.map fun r => s.resume i (k r)
    | _ => none
  | .lose i st =>
    match s.calls[i]? with
    | some (.op o k) => o.failure.map fun r => (s.serve room st o).2.resume i (k r)
    | _ => none
  | .expire => some (s.setStatus userID none)
  | .resurrect => some (s.setStatus userID (some ⟨.online, some presenceTTL⟩))
  | .elsewhere db u keys =>
    if u = userID then none
    else some { s with backend := { s.backend with db }, keys := Function.update s.keys u keys }
  | .publish e => if about userID e = none then some { s with queue := s.queue ++ [e] } else none
  | .deliver =>
    match s.queue with
    | e :: rest => some { s with queue := rest, view := routePresence w e s.view }
    | [] => none
  | .askMembers =>
    some { s with
      asked := some ((s.backend.db.members.filter (·.isActiveIn room)).map fun m =>
        (m.userID, (s.keys m.userID).row.map (·.2)))
      answer := none }
  | .askStatuses =>
    s.asked.map fun rows => { s with
      asked := none
      answer := some (rows.map fun row =>
        ⟨w.uuidText row.1, (s.keys row.1).seen, row.2.map w.timeText⟩) }
  | .arrive => s.answer.map fun answer => { s with answer := none, data := some answer }
  | .hydrate =>
    s.data.map fun data => { s with view := Frontend.hydrate (some (w.uuidText me)) data s.view }

/-- All calls have returned, and all events are applied. -/
def Scene.Settled (s : Scene) : Prop := (∀ p ∈ s.calls, p = .ret ()) ∧ s.queue = []

/-- What the observer `me` shows of the user. -/
def Scene.shown (s : Scene) : PresenceStatus :=
  (usePresence s.view (some (w.uuidText me)) (w.uuidText userID)).status

/-- The user's status on the server. -/
def Scene.status (s : Scene) : PresenceStatus := (s.keys userID).seen

/-- The user is a member of the room, so that `broadcastStatusChanged` reaches it. -/
def Scene.Shares (s : Scene) : Prop := room ∈ (listRoomsForUser userID s.backend.db).map Room.id

/-! ## What the observer is told -/

/-- The last that was published about the user: what the observer shows once it has
    applied the events of its queue. -/
def Scene.heard (s : Scene) : PresenceStatus :=
  s.queue.foldl (fun status e => (about userID e).getD status) (s.shown w userID me)

/-- The announcement of `status` in the room. -/
def StatusAnnouncement (status : PresenceStatus) (o : SceneOp) : Prop :=
  ∃ t, o = .conn (.call (.publish room (.userStatusChanged userID status t)))

/-- An answer to `o`; the rooms of the user include the room. -/
def Usual (o : SceneOp) (r : o.Res) : Prop :=
  ∃ (s : Scene) (st : Stamp), (s.serve room st o).1 = r ∧
    (o = .conn (.call (.listRoomsForUser userID)) → s.Shares room userID)

/-- A call that announces `status` in the room, if nothing fails and the user is a member. -/
def Announcing (status : PresenceStatus) (p : SceneProc Unit) : Prop :=
  p.Will (Usual room userID) (StatusAnnouncement room userID status)

/-- A call is under way that announces `status`. -/
def Scene.Owed (s : Scene) (status : PresenceStatus) : Prop :=
  ∃ p ∈ s.calls, Announcing room userID status p

/-- When call `i` goes on with `p`, a call is under way that announces `status`. -/
def Scene.Comes (s : Scene) (i : ℕ) (p : SceneProc Unit) (status : PresenceStatus) : Prop :=
  (s.resume i p).Owed room userID status

/-- The status that an operation sets. -/
def SceneOp.sets : SceneOp → Option PresenceStatus
  | .key u (.setStatus status _) => if u = userID then some status else none
  | .key u .delStatus => if u = userID then some .offline else none
  | _ => none

/-- What an operation publishes. -/
def SceneOp.publishes : SceneOp → Option (Kind × UUID × Event)
  | .conn (.call (.publish roomID e)) => some (.room, roomID, e)
  | .room o => callPublishes o
  | _ => none

/-- What an operation publishes in the room about the user. -/
def SceneOp.tells (o : SceneOp) : Option PresenceStatus :=
  match o.publishes with
  | some (.room, roomID, e) => if roomID = room then about userID e else none
  | _ => none

/-- What is published about the user is right, or the announcement of the right status is
    still to come; and the announcement of the present status gets through, unless the last
    that was published says it already, or another call announces it. -/
def Told (s : Scene) : SceneAction → Prop
  | .serve i st => ∀ o k, s.calls[i]? = some (.op o k) →
    (∀ x, o.tells room userID = some x → x = s.status userID ∨
      s.Comes room userID i (k (s.serve room st o).1) (s.status userID)) ∧
    (o = .conn (.call (.listRoomsForUser userID)) → s.Shares room userID ∨
      s.heard w userID me = s.status userID ∨
      s.Comes room userID i (k (s.serve room st o).1) (s.status userID))
  | .fail i => ∀ o k r, s.calls[i]? = some (.op o k) → o.failure = some r →
    s.heard w userID me = s.status userID ∨ s.Comes room userID i (k r) (s.status userID)
  | .lose i _ => ∀ o k r, s.calls[i]? = some (.op o k) → o.failure = some r →
    (o.tells room userID).getD (s.heard w userID me) = (o.sets userID).getD (s.status userID) ∨
      s.Comes room userID i (k r) ((o.sets userID).getD (s.status userID))
  | .expire => s.heard w userID me = .offline ∨ s.Owed room userID .offline
  | .resurrect => s.heard w userID me = .online ∨ s.Owed room userID .online
  | .hydrate => ∀ data, s.data = some data → (∀ e ∈ s.queue, about userID e = none) →
    ∀ x, lastWrite (fun entry =>
        if entry.userId = w.uuidText userID then some entry.status else none) data = some x →
      x = s.status userID ∨ s.Owed room userID (s.status userID)
  | _ => True

end

variable {w : Wire} {parse : String → Option UUID} {room userID me : UUID} {username : String}
  {s s' : Scene} {o : SceneOp} {x : PresenceStatus} {a : SceneAction} {i : ℕ}

/-! ## A change of the status is followed by its announcement -/

/-- After an operation that sets the status, what is left of the call announces it. -/
def Follows (room userID : UUID) (o : SceneOp) (r : o.Res) (p : SceneProc Unit) : Prop :=
  ∀ x, o.sets userID = some x → Usual room userID o r → Announcing room userID x p

section

variable {f : Except StoreErr Bool → SceneProc Unit}

end

section

variable (w room userID me)

end

/-- Every call under way announces the status that it sets. -/
def Scene.Honest (room userID : UUID) (s : Scene) : Prop :=
  ∀ p ∈ s.calls, p.After (Follows room userID)

theorem Scene.Honest.resume (h : s.Honest room userID) (hcalls : s'.calls = s.calls)
    {k : o.Res → SceneProc Unit} (hi : s.calls[i]? = some (.op o k)) (r : o.Res) :
    (s'.resume i (k r)).Honest room userID := by
  intro p hp
  rw [Scene.resume, hcalls] at hp
  rcases List.mem_or_eq_of_mem_set hp with hp | rfl
  · exact h p hp
  · exact (h _ (List.mem_of_getElem? hi) r).2

def Scene.settled (s : Scene) : Bool :=
  (s.calls.all fun p => match p with | .ret _ => true | .op _ _ => false) && s.queue.isEmpty

end ConvoyChat.System
