import ConvoyChat.Handlers.Messages
import ConvoyChat.Store.Directory

/-!
# Changing a message over REST

Models of `DeleteMessage`, `EditMessage` (`internal/handlers/messages.go` lines
183–377), `ToggleReaction` (`reactions.go` lines 53–128) and `MarkRoomRead`
(`rooms.go` lines 654–674).

Each handler has its own gate: the author, an admin of the room or a system admin may
delete, the author alone may edit, an active member may react.

* `deleteMessage_outsider`, `editMessage_outsider`, `toggleReaction_outsider`: what the
  handlers do not write for a caller who is neither an active member of the room nor a
  system admin.
* `sendMessage_outsider`, `dispatch_outsider`: the same for the two ways to send a
  message and for `message.read`.
-/

namespace ConvoyChat.Handlers

open ConvoyChat.Lib ConvoyChat.Store ConvoyChat.Websocket

/-- `messageEditedEvent`, `messageDeletedEvent` and `reactionEvent`. -/
inductive MessageEvent
  | edited (id roomID : UUID) (content : String) (editedAt : Time)
  | deleted (id roomID : UUID) (deletedAt : Time)
  | reaction (messageID userID : UUID) (emoji action : String)
deriving DecidableEq, Repr

/-- The store calls of the three handlers. -/
inductive ChangeOp
  | getMessageByID (id : UUID)
  | getMembership (roomID userID : UUID)
  | getUserByID (userID : UUID)
  | softDeleteMessage (id : UUID)
  | editMessage (id : UUID) (content : String)
  | toggleReaction (messageID userID : UUID) (emoji : String)
  | publishRoomEvent (roomID : UUID) (event : MessageEvent)
deriving DecidableEq, Repr

abbrev ChangeOp.Res : ChangeOp → Type
  | getMessageByID _ => Except StoreErr Message
  | getMembership _ _ => Except StoreErr RoomMember
  | getUserByID _ => Except StoreErr Account
  | softDeleteMessage _ => Except StoreErr Time
  | editMessage _ _ => Except StoreErr Time
  | toggleReaction _ _ _ => Except StoreErr Bool
  | publishRoomEvent _ _ => Except StoreErr Unit

abbrev ChangeProc := Proc ChangeOp ChangeOp.Res

/-- `editMessageResponse`. -/
structure EditMessageResponse where
  id : UUID
  roomID : UUID
  content : String
  editedAt : Time
deriving DecidableEq, Repr

def maxEmojiLen : ℕ := 10

/-- Model of `validateEmoji` (`reactions.go` lines 22–27); `len` counts bytes. -/
def validateEmoji (emoji : String) : Except String Unit :=
  if emoji = "" || maxEmojiLen < emoji.utf8ByteSize then
    .error "emoji is required and must be at most 10 characters"
  else .ok ()

/-- Model of `validateMessageContent` (`messages.go` lines 62–67). -/
def validateMessageContent (content : String) : Except String Unit :=
  if content = "" || maxMessageContentLen < content.utf8ByteSize then
    .error "content is required and must be 1-10000 characters"
  else .ok ()

/-- The second half of the gate of `DeleteMessage` (lines 221–231): `none` for a
    system admin. -/
def requireSystemAdmin (userID : UUID) : ChangeProc (Option Response) := do
  match ← Proc.perform (ChangeOp.getUserByID userID) with
  | .error _ => return some (internalError "failed to check admin status")
  | .ok caller =>
    if caller.isSystemAdmin then return none
    else
      return some
        (forbidden "only the author, a room admin, or a system admin can delete this message")

/-- The gate of `DeleteMessage` (lines 208–232): `none` when the caller may delete
    `message`. -/
def requireDeleter (message : Message) (userID : UUID) : ChangeProc (Option Response) := do
  if message.userID = userID then return none
  else
    match ← Proc.perform (ChangeOp.getMembership message.roomID userID) with
    | .ok membership =>
      if membership.role = .admin then return none else requireSystemAdmin userID
    | .error .notFound => requireSystemAdmin userID
    | .error _ => return some (internalError "failed to check membership")

/-- What `DeleteMessage` does for a caller who may (lines 234–258); a failed
    publication is logged. -/
def deleteAndPublish (messageID roomID : UUID) : ChangeProc Response := do
  match ← Proc.perform (ChangeOp.softDeleteMessage messageID) with
  | .error .notFound => return notFound "message not found"
  | .error _ => return internalError "failed to delete message"
  | .ok deletedAt =>
    let _ ← Proc.perform (ChangeOp.publishRoomEvent roomID (.deleted messageID roomID deletedAt))
    return .fields 200 [("status", "deleted")]

/-- What `EditMessage` does for the author (lines 341–375). -/
def editAndPublish (messageID roomID : UUID) (content : String) :
    ChangeProc (Except Response EditMessageResponse) := do
  match ← Proc.perform (ChangeOp.editMessage messageID content) with
  | .error .notFound => return .error (notFound "message not found")
  | .error _ => return .error (internalError "failed to edit message")
  | .ok editedAt =>
    let event := MessageEvent.edited messageID roomID content editedAt
    let _ ← Proc.perform (ChangeOp.publishRoomEvent roomID event)
    return .ok ⟨messageID, roomID, content, editedAt⟩

/-- What `ToggleReaction` does for a member (lines 96–126). -/
def toggleAndPublish (messageID roomID userID : UUID) (emoji : String) : ChangeProc Response := do
  match ← Proc.perform (ChangeOp.toggleReaction messageID userID emoji) with
  | .error _ => return internalError "failed to toggle reaction"
  | .ok added =>
    let action := if added then "added" else "removed"
    let status := if added then 201 else 200
    let event := MessageEvent.reaction messageID userID emoji action
    let _ ← Proc.perform (ChangeOp.publishRoomEvent roomID event)
    return .fields status [("status", action), ("emoji", emoji)]

section

variable (parse : String → Option UUID)

/-- Model of `DeleteMessage`. -/
def deleteMessage (userID : UUID) (messageParam : String) : ChangeProc Response := do
  match parse messageParam with
  | none => return badRequest "message_id must be a valid UUID"
  | some messageID =>
    match ← Proc.perform (ChangeOp.getMessageByID messageID) with
    | .error .notFound => return notFound "message not found"
    | .error _ => return internalError "failed to look up message"
    | .ok message =>
      match ← requireDeleter message userID with
      | some response => return response
      | none => deleteAndPublish messageID message.roomID

/-- Model of `EditMessage`; `body` is the `content` of the request. -/
def editMessage (userID : UUID) (messageParam : String) (body : Option String) :
    ChangeProc (Except Response EditMessageResponse) := do
  match parse messageParam with
  | none => return .error (badRequest "message_id must be a valid UUID")
  | some messageID =>
    match body with
    | none => return .error (badRequest "request body must be valid JSON")
    | some raw =>
      let content := trimSpace raw
      match validateMessageContent content with
      | .error message => return .error (badRequest message)
      | .ok () =>
        match ← Proc.perform (ChangeOp.getMessageByID messageID) with
        | .error .notFound => return .error (notFound "message not found")
        | .error _ => return .error (internalError "failed to look up message")
        | .ok message =>
          if message.deletedAt ≠ none then return .error (notFound "message not found")
          else if message.userID ≠ userID then
            return .error (forbidden "only the author can edit this message")
          else editAndPublish messageID message.roomID content

/-- Model of `ToggleReaction`; `body` is the `emoji` of the request. -/
def toggleReaction (userID : UUID) (messageParam : String) (body : Option String) :
    ChangeProc Response := do
  match parse messageParam with
  | none => return badRequest "message_id must be a valid UUID"
  | some messageID =>
    match body with
    | none => return badRequest "request body must be valid JSON"
    | some raw =>
      let emoji := trimSpace raw
      match validateEmoji emoji with
      | .error message => return badRequest message
      | .ok () =>
        match ← Proc.perform (ChangeOp.getMessageByID messageID) with
        | .error .notFound => return notFound "message not found"
        | .error _ => return internalError "failed to look up message"
        | .ok message =>
          if message.deletedAt ≠ none then return notFound "message not found"
          else
            match ← Proc.perform (ChangeOp.getMembership message.roomID userID) with
            | .error .notFound => return forbidden "you are not a member of this room"
            | .error _ => return internalError "failed to check membership"
            | .ok _ => toggleAndPublish messageID message.roomID userID emoji

/-- The store calls of `MarkRoomRead`. -/
inductive CursorOp
  | room (o : RoomOp)
  | advanceLastRead (roomID userID : UUID)
deriving DecidableEq, Repr

abbrev CursorOp.Res : CursorOp → Type
  | room o => o.Res
  | advanceLastRead _ _ => Except StoreErr Unit

/-- Model of `MarkRoomRead`. -/
def markRoomRead (userID : UUID) (roomParam : String) : Proc CursorOp CursorOp.Res Response := do
  let membership ← (requireActiveMembership parse roomParam userID).embed CursorOp.room
    fun _ res => res
  match membership with
  | .error response => return response
  | .ok (roomID, _) =>
    match ← Proc.perform (CursorOp.advanceLastRead roomID userID) with
    | .error .notFound => return notFound "you are not a member of this room"
    | .error _ => return internalError "failed to mark room read"
    | .ok () => return .fields 200 [("status", "read")]

end

/-! ## What the gates let through -/

/-- The rooms and the authors of the messages. -/
structure Origins where
  roomOf : UUID → UUID
  authorOf : UUID → UUID

section

variable (g : Origins) (r u : UUID)

/-- The call writes to the messages or reactions of `r`, and not to a message of `u`. -/
def ChangeOp.Trespasses : ChangeOp → Prop
  | .softDeleteMessage id => g.roomOf id = r ∧ g.authorOf id ≠ u
  | .editMessage id _ => g.roomOf id = r ∧ g.authorOf id ≠ u
  | .toggleReaction id _ _ => g.roomOf id = r
  | _ => False

/-- What the store may answer while `u` is neither an active member of `r` nor a system
    admin. -/
def ChangeOp.TellsOutsider : (o : ChangeOp) → o.Res → Prop
  | .getMessageByID id, res => ∀ m, res = .ok m → g.roomOf id = m.roomID ∧ g.authorOf id = m.userID
  | .getMembership r' u', res => r' = r → u' = u → ∀ m, res ≠ .ok m
  | .getUserByID u', res => u' = u → ∀ a, res = .ok a → a.isSystemAdmin = false
  | _, _ => True

def SendOp.Trespasses : SendOp → Prop
  | .insertMessage r' _ _ _ => r' = r
  | _ => False

def SendOp.TellsOutsider : (o : SendOp) → o.Res → Prop
  | .getMembership r' u', res => r' = r → u' = u → ∀ m, res ≠ .ok m
  | _, _ => True

/-- The call of a frame writes to the messages or receipts of `r`. -/
def FrameTrespasses : ConnOp → Prop
  | .call (.insertMessage r' _ _ _) => r' = r
  | .call (.markMessageRead id _) => g.roomOf id = r
  | _ => False

def FrameTellsOutsider : (o : ConnOp) → o.Res → Prop
  | .call (.getMessageByID id), res => ∀ m, res = .ok m → g.roomOf id = m.roomID
  | .call (.getMembership r' u'), res => r' = r → u' = u → ∀ m, res ≠ .ok m
  | _, _ => True

variable {g r u} {parse : String → Option UUID}

theorem requireSystemAdmin_never :
    (requireSystemAdmin u).Never (ChangeOp.TellsOutsider g r u) (ChangeOp.Trespasses g r u) := by
  refine .perform id fun res _ => ?_
  split
  · exact .ret _
  · split_ifs
    · exact .ret _
    · exact .ret _

theorem requireSystemAdmin_returns :
    (requireSystemAdmin u).Returns (ChangeOp.TellsOutsider g r u) (· ≠ none) := by
  refine .perform fun res hres => ?_
  split
  · exact Option.some_ne_none _
  · rename_i caller
    have hadmin : caller.isSystemAdmin = false := hres rfl caller rfl
    rw [hadmin]
    exact Option.some_ne_none _

/-- The gate of `DeleteMessage` itself writes nothing. -/
theorem requireDeleter_never (message : Message) :
    (requireDeleter message u).Never (ChangeOp.TellsOutsider g r u)
      (ChangeOp.Trespasses g r u) := by
  unfold requireDeleter
  split_ifs
  · exact .ret _
  · refine .perform id fun res _ => ?_
    split
    · split_ifs
      · exact .ret _
      · exact requireSystemAdmin_never
    · exact requireSystemAdmin_never
    · exact .ret _

/-- It stops whoever is no author, no member and no system admin. -/
theorem requireDeleter_returns {message : Message} (hroom : message.roomID = r) :
    (requireDeleter message u).Returns (ChangeOp.TellsOutsider g r u)
      fun response => response = none → message.userID = u := by
  unfold requireDeleter
  split_ifs with hown
  · exact fun _ => hown
  · refine .perform fun res hres => ?_
    split
    · rename_i membership
      exact absurd rfl (hres hroom rfl membership)
    · exact requireSystemAdmin_returns.mono fun _ hne heq => absurd heq hne
    · exact fun h => absurd h (Option.some_ne_none _)

theorem deleteMessage_outsider (messageParam : String) :
    (deleteMessage parse u messageParam).Never (ChangeOp.TellsOutsider g r u)
      (ChangeOp.Trespasses g r u) := by
  unfold deleteMessage
  split
  · exact .ret _
  · rename_i messageID _
    refine .perform id fun res hres => ?_
    split
    · exact .ret _
    · exact .ret _
    · rename_i message
      obtain ⟨hroom, hauthor⟩ := hres message rfl
      have hdelete : (g.roomOf messageID = r → g.authorOf messageID = u) →
          (deleteAndPublish messageID message.roomID).Never (ChangeOp.TellsOutsider g r u)
            (ChangeOp.Trespasses g r u) := by
        intro hown
        refine .perform (fun h => h.2 (hown h.1)) fun res _ => ?_
        split
        · exact .ret _
        · exact .ret _
        · exact .perform id fun _ _ => .ret _
      by_cases hin : message.roomID = r
      · refine (requireDeleter_never message).bind_of_returns (requireDeleter_returns hin) ?_
        intro response hresponse
        split
        · exact .ret _
        · exact hdelete fun _ => hauthor.trans (hresponse rfl)
      · refine (requireDeleter_never message).bind fun response => ?_
        split
        · exact .ret _
        · exact hdelete fun h => absurd (hroom.symm.trans h) hin

theorem editMessage_outsider (messageParam : String) (body : Option String) :
    (editMessage parse u messageParam body).Never (ChangeOp.TellsOutsider g r u)
      (ChangeOp.Trespasses g r u) := by
  unfold editMessage
  split
  · exact .ret _
  split
  · exact .ret _
  dsimp only
  split
  · exact .ret _
  refine .perform id fun res hres => ?_
  split
  · exact .ret _
  · exact .ret _
  · rename_i message
    split_ifs with _ hown
    · exact .ret _
    · exact .ret _
    · -- the caller is the author
      have hauthor := (hres message rfl).2.trans (not_not.mp hown)
      refine .perform (fun h => h.2 hauthor) fun res _ => ?_
      split
      · exact .ret _
      · exact .ret _
      · exact .perform id fun _ _ => .ret _

theorem toggleReaction_outsider (messageParam : String) (body : Option String) :
    (toggleReaction parse u messageParam body).Never (ChangeOp.TellsOutsider g r u)
      (ChangeOp.Trespasses g r u) := by
  unfold toggleReaction
  split
  · exact .ret _
  split
  · exact .ret _
  dsimp only
  split
  · exact .ret _
  refine .perform id fun res hres => ?_
  split
  · exact .ret _
  · exact .ret _
  · rename_i message
    split_ifs
    · exact .ret _
    · refine .perform id fun res' hres' => ?_
      split
      · exact .ret _
      · exact .ret _
      · rename_i membership
        -- the message is in another room
        have hroom : g.roomOf _ ≠ r := fun h =>
          hres' ((hres message rfl).1.symm.trans h) rfl membership rfl
        refine .perform hroom fun res _ => ?_
        split
        · exact .ret _
        · exact .perform id fun _ _ => .ret _

theorem sendMessage_outsider (roomParam : String) (body : Option SendMessageRequest)
    (key : String) :
    (sendMessage parse u roomParam body key).Never (SendOp.TellsOutsider r u)
      (SendOp.Trespasses r) := by
  unfold sendMessage
  split
  · exact .ret _
  rename_i roomID _
  refine .perform id fun res hres => ?_
  split
  · exact .ret _
  · exact .ret _
  · rename_i membership
    have hroom : roomID ≠ r := fun h => hres h rfl membership rfl
    have hinsert : ∀ content messageType, (insertAndRespond roomID u content messageType key).Never
        (SendOp.TellsOutsider r u) (SendOp.Trespasses r) := by
      intro content messageType
      refine .perform hroom fun res _ => ?_
      split
      · exact .ret _
      · split_ifs
        · exact .perform id fun _ _ => .ret _
        · exact .ret _
    split
    · exact .ret _
    dsimp only
    split
    · exact .ret _
    split
    · exact .ret _
    · rw [reserveAndInsert]
      split_ifs
      · refine .perform id fun res _ => ?_
        split
        · exact .ret _
        · exact .ret _
        · exact hinsert _ _
      · exact hinsert _ _

/-! ## Frames -/

/-- A call that neither inserts a message nor marks one read. -/
def ConnOp.Unwritten : ConnOp → Prop
  | .call (.insertMessage _ _ _ _) => False
  | .call (.markMessageRead _ _) => False
  | _ => True

section

variable {allow : (o : ConnOp) → o.Res → Prop} {P : ConnOp → Prop} {c : Client}
  {env : InboundEnvelope}

theorem error_unwritten (hP : ∀ o, ConnOp.Unwritten o → ¬ P o) (code message : String) :
    (sendError code message).Never allow P := by
  rintro (h | ⟨_, -, h⟩)
  · exact hP (.sendError code message) trivial h
  · exact h

theorem publish_unwritten (hP : ∀ o, ConnOp.Unwritten o → ¬ P o) (roomID : UUID) (event : Event) :
    (lift (publish roomID event)).Never allow P := by
  rintro (h | ⟨_, -, h⟩)
  · exact hP (.call (.publish roomID event)) trivial h
  · exact h

theorem publishAll_unwritten (hP : ∀ o, ConnOp.Unwritten o → ¬ P o) (event : UUID → Event)
    (rooms : List UUID) : (lift (publishAll event rooms)).Never allow P := by
  induction rooms with
  | nil => exact .ret _
  | cons roomID rest ih =>
    rintro (h | ⟨_, -, h⟩)
    · exact hP (.call (.publish roomID (event roomID))) trivial h
    · exact ih h

theorem presenceUpdate_unwritten (hP : ∀ o, ConnOp.Unwritten o → ¬ P o) (userID : UUID)
    (status : PresenceStatus) : (lift (presenceUpdate userID status)).Never allow P := by
  rintro (h | ⟨res, -, h⟩)
  · exact hP (.call (.presenceSetStatus userID status)) trivial h
  cases res with
  | error e => exact h
  | ok _ =>
    rcases h with h | ⟨res, -, h⟩
    · exact hP (.call (.listRoomsForUser userID)) trivial h
    cases res with
    | error e => exact h
    | ok rooms =>
      rcases h with h | ⟨now, -, h⟩
      · exact hP (.call .now) trivial h
      · exact publishAll_unwritten hP _ _ h

theorem handleRoomJoin_unwritten (hP : ∀ o, ConnOp.Unwritten o → ¬ P o) :
    (handleRoomJoin parse c env).Never allow P := by
  unfold handleRoomJoin
  split
  · exact error_unwritten hP _ _
  refine .perform (hP _ trivial) fun res _ => ?_
  split
  · exact error_unwritten hP _ _
  · exact error_unwritten hP _ _
  · refine .perform (hP _ trivial) fun res _ => ?_
    split
    · exact error_unwritten hP _ _
    · exact .perform (hP _ trivial) fun _ _ => publish_unwritten hP _ _

theorem handleRoomLeave_unwritten (hP : ∀ o, ConnOp.Unwritten o → ¬ P o) :
    (handleRoomLeave parse c env).Never allow P := by
  unfold handleRoomLeave
  split
  · exact error_unwritten hP _ _
  · exact .perform (hP _ trivial) fun _ _ => publish_unwritten hP _ _

theorem handleTypingStart_unwritten (hP : ∀ o, ConnOp.Unwritten o → ¬ P o) :
    (handleTypingStart parse c env).Never allow P := by
  unfold handleTypingStart
  split
  · exact error_unwritten hP _ _
  refine .perform (hP _ trivial) fun res _ => ?_
  split
  · exact error_unwritten hP _ _
  · exact error_unwritten hP _ _
  · exact .perform (hP _ trivial) fun _ _ => publish_unwritten hP _ _

theorem handleTypingStop_unwritten (hP : ∀ o, ConnOp.Unwritten o → ¬ P o) :
    (handleTypingStop parse c env).Never allow P := by
  unfold handleTypingStop
  split
  · exact error_unwritten hP _ _
  · exact .perform (hP _ trivial) fun _ _ => publish_unwritten hP _ _

theorem handlePresenceUpdate_unwritten (hP : ∀ o, ConnOp.Unwritten o → ¬ P o) :
    (handlePresenceUpdate c env).Never allow P := by
  unfold handlePresenceUpdate
  split
  · exact error_unwritten hP _ _
  · exact presenceUpdate_unwritten hP _ _

end

theorem not_frameTrespasses {o : ConnOp} (h : ConnOp.Unwritten o) : ¬ FrameTrespasses g r o := by
  intro hP
  cases o with
  | call o =>
    cases o with
    | insertMessage => exact h
    | markMessageRead => exact h
    | _ => exact hP
  | _ => exact hP

theorem handleMessageSend_outsider {c : Client} (env : InboundEnvelope) :
    (handleMessageSend parse c env).Never (FrameTellsOutsider g r c.userID)
      (FrameTrespasses g r) := by
  have hP : ∀ o, ConnOp.Unwritten o → ¬ FrameTrespasses g r o := fun _ => not_frameTrespasses
  unfold handleMessageSend
  split
  · exact error_unwritten hP _ _
  rename_i roomID _
  dsimp only
  split
  · exact error_unwritten hP _ _
  split
  · exact error_unwritten hP _ _
  refine .perform id fun res hres => ?_
  split
  · exact error_unwritten hP _ _
  · exact error_unwritten hP _ _
  · rename_i membership
    have hroom : roomID ≠ r := fun h => hres h rfl membership rfl
    refine .perform hroom fun res _ => ?_
    split
    · exact error_unwritten hP _ _
    · exact publish_unwritten hP _ _

theorem handleMessageRead_outsider {c : Client} (env : InboundEnvelope) :
    (handleMessageRead parse c env).Never (FrameTellsOutsider g r c.userID)
      (FrameTrespasses g r) := by
  have hP : ∀ o, ConnOp.Unwritten o → ¬ FrameTrespasses g r o := fun _ => not_frameTrespasses
  unfold handleMessageRead
  split
  · exact error_unwritten hP _ _
  refine .perform id fun res hres => ?_
  split
  · exact error_unwritten hP _ _
  · exact error_unwritten hP _ _
  · rename_i message
    split_ifs
    · exact error_unwritten hP _ _
    · refine .perform id fun res' hres' => ?_
      split
      · exact error_unwritten hP _ _
      · exact error_unwritten hP _ _
      · rename_i membership
        have hroom : g.roomOf _ ≠ r := fun h =>
          hres' ((hres message rfl).symm.trans h) rfl membership rfl
        refine .perform hroom fun res _ => ?_
        split
        · exact error_unwritten hP _ _
        · split_ifs
          · exact .ret _
          · exact publish_unwritten hP _ _

theorem dispatch_outsider (c : Client) (data : Option InboundEnvelope) :
    (dispatch parse c data).Never (FrameTellsOutsider g r c.userID) (FrameTrespasses g r) := by
  have hP : ∀ o, ConnOp.Unwritten o → ¬ FrameTrespasses g r o := fun _ => not_frameTrespasses
  unfold dispatch
  split
  · exact error_unwritten hP _ _
  · split
    · exact handleRoomJoin_unwritten hP
    split
    · exact handleRoomLeave_unwritten hP
    split
    · exact handleMessageSend_outsider _
    split
    · exact handleTypingStart_unwritten hP
    split
    · exact handleTypingStop_unwritten hP
    split
    · exact handlePresenceUpdate_unwritten hP
    split
    · exact handleMessageRead_outsider _
    split
    · exact error_unwritten hP _ _
    · exact error_unwritten hP _ _

end

end ConvoyChat.Handlers
