import ConvoyChat.Lib.Proc
import ConvoyChat.Handlers.Rooms

/-!
# Frames of a connection

Models of `internal/websocket/handlers.go` and `presence.go`, and of the part of
`Server.Handler` that follows the upgrade (`server.go` lines 131–165). The
goroutine of one connection is a procedure over what it asks of the store and of
Redis (`EnvOp`) and of the Hub, the Broker and its own send queue (`ConnOp`).

`parse` is `uuid.Parse`. A frame is `none` when `json.Unmarshal` rejects it.
-/

namespace ConvoyChat.Websocket

open ConvoyChat.Lib ConvoyChat.Store ConvoyChat.Handlers

/-! ## Events -/

/-- `messageNewPayload` (`events.go` lines 72–80). -/
structure MessageNewPayload where
  id : UUID
  roomID : UUID
  user : UserSummary
  content : Option String
  createdAt : Time
  readBy : List UUID
  clientID : String
deriving DecidableEq, Repr

/-- What the server sends to a client. The REST handlers publish `user.joined` and
    `user.left` in the shape of `userJoinedEvent` and `userLeftEvent`, so both
    layers use `RoomEvent` for them. -/
inductive Event
  | error (code message : String)
  | messageNew (message : MessageNewPayload)
  | userTyping (userID roomID : UUID) (isTyping : Bool)
  | userStatusChanged (userID : UUID) (status : PresenceStatus) (lastSeenAt : Time)
  | messageReadBy (messageID readByUserID : UUID)
  | room (event : RoomEvent)
deriving DecidableEq, Repr

/-- `inboundEnvelope` (`events.go` lines 40–48). -/
structure InboundEnvelope where
  type : String
  roomID : String
  content : String
  messageType : String
  status : String
  messageID : String
  clientID : String
deriving DecidableEq, Repr

/-- A `*Client`: its identity and the fields that never change. -/
structure Client where
  id : ℕ
  userID : UUID
  username : String
deriving DecidableEq, Repr

/-- The two kinds of Redis channels, `room:{id}` and `user:{id}`. -/
inductive Kind
  | room
  | user
deriving DecidableEq, Repr

structure TypingKey where
  roomID : UUID
  userID : UUID
deriving DecidableEq, Repr

/-! ## Operations -/

/-- The calls of a connection that leave the process. -/
inductive EnvOp
  | getMembership (roomID userID : UUID)
  | insertMessage (roomID userID : UUID) (content : String) (messageType : MessageType)
  | getMessageByID (id : UUID)
  | markMessageRead (messageID userID : UUID)
  | listRoomsForUser (userID : UUID)
  | presenceConnect (userID : UUID)
  | presenceDisconnect (userID : UUID)
  | presenceSetStatus (userID : UUID) (status : PresenceStatus)
  | now
  | publish (roomID : UUID) (event : Event)
deriving DecidableEq, Repr

abbrev EnvOp.Res : EnvOp → Type
  | getMembership _ _ => Except StoreErr RoomMember
  | insertMessage _ _ _ _ => Except StoreErr MessageWithAuthor
  | getMessageByID _ => Except StoreErr Message
  | markMessageRead _ _ => Except StoreErr Bool
  | listRoomsForUser _ => Except StoreErr (List Room)
  | presenceConnect _ => Except StoreErr Bool
  | presenceDisconnect _ => Except StoreErr Bool
  | presenceSetStatus _ _ => Except StoreErr Unit
  | now => Time
  | publish _ _ => Except StoreErr Unit

/-- What the goroutine of a connection does; `ensure` is `EnsureSubscribed` or
    `EnsureUserSubscribed`. -/
inductive ConnOp
  | call (o : EnvOp)
  | sendError (code message : String)
  | register
  | join (roomID : UUID)
  | leave (roomID : UUID)
  | ensure (k : Kind) (id : UUID)
  | typingStart (key : TypingKey)
  | typingStop (key : TypingKey)
deriving DecidableEq, Repr

abbrev ConnOp.Res : ConnOp → Type
  | call o => o.Res
  | sendError _ _ => Unit
  | register => Unit
  | join _ => Unit
  | leave _ => Unit
  | ensure _ _ => Except StoreErr Unit
  | typingStart _ => Unit
  | typingStop _ => Unit

abbrev EnvProc := Proc EnvOp EnvOp.Res

abbrev ConnProc := Proc ConnOp ConnOp.Res

/-- A procedure that only calls out, in the goroutine of a connection. -/
def lift {α : Type} : EnvProc α → ConnProc α
  | .ret a => .ret a
  | .op o k => .op (.call o) fun r => lift (k r)

abbrev call (o : EnvOp) : ConnProc o.Res := .perform (ConnOp.call o)

/-- Model of `Client.sendError` (`client.go` lines 133–135). -/
abbrev sendError (code message : String) : ConnProc Unit := .perform (ConnOp.sendError code message)

/-! ## Presence -/

/-- Model of `Server.publish` (`handlers.go` lines 304–313); a failure is logged. -/
def publish (roomID : UUID) (event : Event) : EnvProc Unit := do
  let _ ← Proc.perform (EnvOp.publish roomID event)
  return ()

/-- The loop of `publish` calls over `rooms`. -/
def publishAll (event : UUID → Event) : List UUID → EnvProc Unit
  | [] => return ()
  | roomID :: rest => do
    publish roomID (event roomID)
    publishAll event rest

/-- Model of `broadcastStatusChanged` (`presence.go` lines 125–140). -/
def broadcastStatusChanged (userID : UUID) (status : PresenceStatus) : EnvProc Unit := do
  match ← Proc.perform (EnvOp.listRoomsForUser userID) with
  | .error _ => return ()
  | .ok rooms =>
    let lastSeenAt ← Proc.perform EnvOp.now
    publishAll (fun _ => .userStatusChanged userID status lastSeenAt) (rooms.map Room.id)

/-- Model of `presenceOnline` (`presence.go` lines 72–81). -/
def presenceOnline (userID : UUID) : EnvProc Unit := do
  match ← Proc.perform (EnvOp.presenceConnect userID) with
  | .error _ => return ()
  | .ok wentOnline =>
    if wentOnline then broadcastStatusChanged userID .online else return ()

/-- Model of `presenceOffline` (`presence.go` lines 88–101). -/
def presenceOffline (userID : UUID) (rooms : List UUID) : EnvProc Unit := do
  publishAll (fun roomID => .room (.userLeft userID roomID)) rooms
  match ← Proc.perform (EnvOp.presenceDisconnect userID) with
  | .error _ => return ()
  | .ok wentOffline =>
    if wentOffline then broadcastStatusChanged userID .offline else return ()

/-- Model of `presenceUpdate` (`presence.go` lines 114–120). -/
def presenceUpdate (userID : UUID) (status : PresenceStatus) : EnvProc Unit := do
  match ← Proc.perform (EnvOp.presenceSetStatus userID status) with
  | .error _ => return ()
  | .ok () => broadcastStatusChanged userID status

/-! ## Handlers -/

def maxMessageContentLen : ℕ := 10000

/-- What `Server.Handler` does once the connection is upgraded, up to the start of
    `readPump` (`server.go` lines 131–165). -/
def handshake (c : Client) : ConnProc Unit := do
  Proc.perform ConnOp.register
  let _ ← Proc.perform (ConnOp.ensure .user c.userID)
  lift (presenceOnline c.userID)

section

variable (parse : String → Option UUID)

/-- Model of `handleRoomJoin` (`handlers.go` lines 54–90). -/
def handleRoomJoin (c : Client) (env : InboundEnvelope) : ConnProc Unit := do
  match parse env.roomID with
  | none => sendError "invalid_input" "room_id must be a valid UUID"
  | some roomID =>
    match ← call (.getMembership roomID c.userID) with
    | .error .notFound => sendError "forbidden" "not a member of this room"
    | .error _ => sendError "internal_error" "failed to verify membership"
    | .ok _ =>
      match ← Proc.perform (ConnOp.ensure .room roomID) with
      | .error _ => sendError "internal_error" "failed to join room"
      | .ok () =>
        Proc.perform (ConnOp.join roomID)
        lift (publish roomID (.room (.userJoined c.userID c.username roomID)))

/-- Model of `handleRoomLeave` (lines 94–110). -/
def handleRoomLeave (c : Client) (env : InboundEnvelope) : ConnProc Unit := do
  match parse env.roomID with
  | none => sendError "invalid_input" "room_id must be a valid UUID"
  | some roomID =>
    Proc.perform (ConnOp.leave roomID)
    lift (publish roomID (.room (.userLeft c.userID roomID)))

/-- The `message_type` of `message.send`, which defaults to `text`; `none` when it
    is not one that a client may send. -/
def sendableType (messageType : String) : Option MessageType :=
  if messageType = "" || messageType = "text" then some .text
  else if messageType = "image" then some .image
  else if messageType = "file" then some .file
  else none

/-- Model of `handleMessageSend` (lines 115–171). -/
def handleMessageSend (c : Client) (env : InboundEnvelope) : ConnProc Unit := do
  match parse env.roomID with
  | none => sendError "invalid_input" "room_id must be a valid UUID"
  | some roomID =>
    let content := trimSpace env.content
    if content = "" || maxMessageContentLen < content.utf8ByteSize then
      sendError "invalid_input" "content is required and must be 1-10000 characters"
    else
      match sendableType env.messageType with
      | none => sendError "invalid_input" "message_type must be \"text\", \"image\", or \"file\""
      | some messageType =>
        match ← call (.getMembership roomID c.userID) with
        | .error .notFound => sendError "forbidden" "not a member of this room"
        | .error _ => sendError "internal_error" "failed to verify membership"
        | .ok _ =>
          match ← call (.insertMessage roomID c.userID content messageType) with
          | .error _ => sendError "internal_error" "failed to send message"
          | .ok message =>
            lift (publish roomID (.messageNew ⟨message.id, message.roomID, message.user,
              message.content, message.createdAt, [], env.clientID⟩))

/-- Model of `handleTypingStart` (lines 178–206). -/
def handleTypingStart (c : Client) (env : InboundEnvelope) : ConnProc Unit := do
  match parse env.roomID with
  | none => sendError "invalid_input" "room_id must be a valid UUID"
  | some roomID =>
    match ← call (.getMembership roomID c.userID) with
    | .error .notFound => sendError "forbidden" "not a member of this room"
    | .error _ => sendError "internal_error" "failed to verify membership"
    | .ok _ =>
      Proc.perform (ConnOp.typingStart ⟨roomID, c.userID⟩)
      lift (publish roomID (.userTyping c.userID roomID true))

/-- Model of `handleTypingStop` (lines 211–223). -/
def handleTypingStop (c : Client) (env : InboundEnvelope) : ConnProc Unit := do
  match parse env.roomID with
  | none => sendError "invalid_input" "room_id must be a valid UUID"
  | some roomID =>
    Proc.perform (ConnOp.typingStop ⟨roomID, c.userID⟩)
    lift (publish roomID (.userTyping c.userID roomID false))

def parseStatus (status : String) : Option PresenceStatus :=
  if status = "online" then some .online
  else if status = "away" then some .away
  else if status = "offline" then some .offline
  else none

/-- Model of `handlePresenceUpdate` (lines 228–240). -/
def handlePresenceUpdate (c : Client) (env : InboundEnvelope) : ConnProc Unit := do
  match parseStatus env.status with
  | none => sendError "invalid_input" "status must be \"online\", \"away\", or \"offline\""
  | some status => lift (presenceUpdate c.userID status)

/-- Model of `handleMessageRead` (lines 248–298). -/
def handleMessageRead (c : Client) (env : InboundEnvelope) : ConnProc Unit := do
  match parse env.messageID with
  | none => sendError "invalid_input" "message_id must be a valid UUID"
  | some messageID =>
    match ← call (.getMessageByID messageID) with
    | .error .notFound => sendError "not_found" "message not found"
    | .error _ => sendError "internal_error" "failed to look up message"
    | .ok message =>
      if message.deletedAt ≠ none then sendError "not_found" "message not found"
      else
        match ← call (.getMembership message.roomID c.userID) with
        | .error .notFound => sendError "forbidden" "not a member of this room"
        | .error _ => sendError "internal_error" "failed to verify membership"
        | .ok _ =>
          match ← call (.markMessageRead messageID c.userID) with
          | .error _ => sendError "internal_error" "failed to mark message read"
          | .ok alreadyRead =>
            if alreadyRead then return ()
            else lift (publish message.roomID (.messageReadBy messageID c.userID))

/-- Model of `Server.dispatch` (lines 22–49). -/
def dispatch (c : Client) (data : Option InboundEnvelope) : ConnProc Unit :=
  match data with
  | none => sendError "invalid_input" "message must be a JSON object with a type field"
  | some env =>
    if env.type = "room.join" then handleRoomJoin parse c env
    else if env.type = "room.leave" then handleRoomLeave parse c env
    else if env.type = "message.send" then handleMessageSend parse c env
    else if env.type = "typing.start" then handleTypingStart parse c env
    else if env.type = "typing.stop" then handleTypingStop parse c env
    else if env.type = "presence.update" then handlePresenceUpdate c env
    else if env.type = "message.read" then handleMessageRead parse c env
    else if env.type = "" then sendError "invalid_input" "missing event type"
    else sendError "unsupported" ("event type not supported yet: " ++ env.type)

end

/-! ## What a frame can lead to

Only `room.join` and `room.leave` reach the Hub and the Broker; the other frames
end in an answer of the store, an error reply or a publication. -/

/-- The operations that every frame may perform. -/
def ConnOp.Passive : ConnOp → Prop
  | .call _ => True
  | .sendError _ _ => True
  | .typingStart _ => True
  | .typingStop _ => True
  | _ => False

theorem passive_ne {o' : ConnOp} (h : ¬ o'.Passive) : ∀ o : ConnOp, o.Passive → ¬ o = o' := by
  rintro o ho rfl
  exact h ho

section

variable {allow : (o : ConnOp) → o.Res → Prop} {P : ConnOp → Prop} {parse : String → Option UUID}
  {c : Client} {env : InboundEnvelope}

theorem lift_never {α : Type} (hP : ∀ o, o.Passive → ¬ P o) (p : EnvProc α) :
    (lift p).Never allow P := by
  induction p with
  | ret a => exact Proc.Never.ret a
  | op o k ih =>
    rintro (h | ⟨a, -, h⟩)
    · exact hP (.call o) trivial h
    · exact ih a h

theorem sendError_never (hP : ∀ o, o.Passive → ¬ P o) (code message : String) :
    (sendError code message).Never allow P := by
  rintro (h | ⟨a, -, h⟩)
  · exact hP (.sendError code message) trivial h
  · exact h

/-- `handleRoomJoin` calls `EnsureSubscribed` after a successful membership check,
    and `Hub.Join` after both. -/
theorem handleRoomJoin_never (hP : ∀ o, o.Passive → ¬ P o) (hensure : ∀ r, ¬ P (.ensure .room r))
    (hjoin : ∀ r, parse env.roomID = some r → P (.join r) →
      ∀ m, allow (.call (.getMembership r c.userID)) (.ok m) → ¬ allow (.ensure .room r) (.ok ())) :
    (handleRoomJoin parse c env).Never allow P := by
  unfold handleRoomJoin
  split
  · exact sendError_never hP _ _
  · rename_i r hr
    refine .perform (hP _ trivial) fun res hres => ?_
    split
    · exact sendError_never hP _ _
    · exact sendError_never hP _ _
    · rename_i m
      refine .perform (hensure r) fun res' hres' => ?_
      split
      · exact sendError_never hP _ _
      · exact .perform (fun h => hjoin r hr h m hres hres') fun _ _ => lift_never hP _

theorem handleRoomLeave_never (hP : ∀ o, o.Passive → ¬ P o)
    (hleave : ∀ r, parse env.roomID = some r → ¬ P (.leave r)) :
    (handleRoomLeave parse c env).Never allow P := by
  unfold handleRoomLeave
  split
  · exact sendError_never hP _ _
  · rename_i r hr
    exact .perform (hleave r hr) fun _ _ => lift_never hP _

theorem handleMessageSend_never (hP : ∀ o, o.Passive → ¬ P o) :
    (handleMessageSend parse c env).Never allow P := by
  unfold handleMessageSend
  split
  · exact sendError_never hP _ _
  · dsimp only
    split
    · exact sendError_never hP _ _
    · split
      · exact sendError_never hP _ _
      · refine .perform (hP _ trivial) fun _ _ => ?_
        split
        · exact sendError_never hP _ _
        · exact sendError_never hP _ _
        · refine .perform (hP _ trivial) fun _ _ => ?_
          split
          · exact sendError_never hP _ _
          · exact lift_never hP _

theorem handleTypingStart_never (hP : ∀ o, o.Passive → ¬ P o) :
    (handleTypingStart parse c env).Never allow P := by
  unfold handleTypingStart
  split
  · exact sendError_never hP _ _
  · refine .perform (hP _ trivial) fun _ _ => ?_
    split
    · exact sendError_never hP _ _
    · exact sendError_never hP _ _
    · exact .perform (hP _ trivial) fun _ _ => lift_never hP _

theorem handleTypingStop_never (hP : ∀ o, o.Passive → ¬ P o) :
    (handleTypingStop parse c env).Never allow P := by
  unfold handleTypingStop
  split
  · exact sendError_never hP _ _
  · exact .perform (hP _ trivial) fun _ _ => lift_never hP _

theorem handlePresenceUpdate_never (hP : ∀ o, o.Passive → ¬ P o) :
    (handlePresenceUpdate c env).Never allow P := by
  unfold handlePresenceUpdate
  split
  · exact sendError_never hP _ _
  · exact lift_never hP _

theorem handleMessageRead_never (hP : ∀ o, o.Passive → ¬ P o) :
    (handleMessageRead parse c env).Never allow P := by
  unfold handleMessageRead
  split
  · exact sendError_never hP _ _
  · refine .perform (hP _ trivial) fun _ _ => ?_
    split
    · exact sendError_never hP _ _
    · exact sendError_never hP _ _
    · split
      · exact sendError_never hP _ _
      · refine .perform (hP _ trivial) fun _ _ => ?_
        split
        · exact sendError_never hP _ _
        · exact sendError_never hP _ _
        · refine .perform (hP _ trivial) fun _ _ => ?_
          split
          · exact sendError_never hP _ _
          · split
            · exact .ret _
            · exact lift_never hP _

theorem dispatch_never {data : Option InboundEnvelope} (hP : ∀ o, o.Passive → ¬ P o)
    (hjoin : ∀ env, data = some env → env.type = "room.join" →
      (handleRoomJoin parse c env).Never allow P)
    (hleave : ∀ env, data = some env → env.type = "room.leave" →
      (handleRoomLeave parse c env).Never allow P) :
    (dispatch parse c data).Never allow P := by
  unfold dispatch
  split
  · exact sendError_never hP _ _
  · rename_i env
    split
    · exact hjoin env rfl ‹_›
    split
    · exact hleave env rfl ‹_›
    split
    · exact handleMessageSend_never hP
    split
    · exact handleTypingStart_never hP
    split
    · exact handleTypingStop_never hP
    split
    · exact handlePresenceUpdate_never hP
    split
    · exact handleMessageRead_never hP
    split
    · exact sendError_never hP _ _
    · exact sendError_never hP _ _

end

end ConvoyChat.Websocket
