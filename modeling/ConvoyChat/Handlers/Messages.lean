import ConvoyChat.Handlers.Rooms
import ConvoyChat.Websocket.Handlers

/-!
# Sending over REST

Model of `SendMessage` (`internal/handlers/messages.go` lines 126–177), the fallback
for `message.send` of `handleMessageSend`. It reserves the `Idempotency-Key` before
the insert and releases it when the insert fails; `handleMessageSend` has no such
step.

* `sendMessage_reserves`: without a reservation it neither inserts nor releases.
* `sendMessage_after`: what it still does after an insert and after a release.
* `handleMessageSend_after`: the same for `handleMessageSend`.
-/

namespace ConvoyChat.Handlers

open ConvoyChat.Lib ConvoyChat.Store ConvoyChat.Websocket

/-- The store calls of `SendMessage`. -/
inductive SendOp
  | getMembership (roomID userID : UUID)
  | reserveMessageIdempotencyKey (roomID userID : UUID) (key : String)
  | insertMessage (roomID userID : UUID) (content : String) (messageType : MessageType)
  | releaseMessageIdempotencyKey (roomID userID : UUID) (key : String)
deriving DecidableEq, Repr

abbrev SendOp.Res : SendOp → Type
  | getMembership _ _ => Except StoreErr RoomMember
  | reserveMessageIdempotencyKey _ _ _ => Except StoreErr Bool
  | insertMessage _ _ _ _ => Except StoreErr MessageWithAuthor
  | releaseMessageIdempotencyKey _ _ _ => Except StoreErr Unit

abbrev SendProc := Proc SendOp SendOp.Res

/-- An error response, or `201` with the message. -/
abbrev SendResponse := Except Response MessageWithAuthor

/-- `sendMessageRequest`. -/
structure SendMessageRequest where
  content : String
  messageType : String
deriving DecidableEq, Repr

/-- The insert and what follows it (lines 166–175). -/
def insertAndRespond (roomID userID : UUID) (content : String) (messageType : MessageType)
    (key : String) : SendProc SendResponse := do
  match ← Proc.perform (SendOp.insertMessage roomID userID content messageType) with
  | .ok message => return .ok message
  | .error _ =>
    if key ≠ "" then
      let _ ← Proc.perform (SendOp.releaseMessageIdempotencyKey roomID userID key)
      return .error (internalError "failed to send message")
    else return .error (internalError "failed to send message")

/-- The reservation of the key, if there is one, and the insert (lines 153–175). -/
def reserveAndInsert (roomID userID : UUID) (content : String) (messageType : MessageType)
    (key : String) : SendProc SendResponse := do
  if key ≠ "" then
    match ← Proc.perform (SendOp.reserveMessageIdempotencyKey roomID userID key) with
    | .error _ => return .error (internalError "failed to check idempotency key")
    | .ok false => return .error (conflict "duplicate request: idempotency key already used")
    | .ok true => insertAndRespond roomID userID content messageType key
  else insertAndRespond roomID userID content messageType key

/-- Model of `SendMessage`; `key` is the `Idempotency-Key`, empty when there is none. -/
def sendMessage (parse : String → Option UUID) (userID : UUID) (roomParam : String)
    (body : Option SendMessageRequest) (key : String) : SendProc SendResponse := do
  match parse roomParam with
  | none => return .error (badRequest "room_id must be a valid UUID")
  | some roomID =>
    match ← Proc.perform (SendOp.getMembership roomID userID) with
    | .error .notFound => return .error (forbidden "you are not a member of this room")
    | .error _ => return .error (internalError "failed to check membership")
    | .ok _ =>
      match body with
      | none => return .error (badRequest "request body must be valid JSON")
      | some req =>
        let content := trimSpace req.content
        if content = "" || maxMessageContentLen < content.utf8ByteSize then
          return .error (badRequest "content is required and must be 1-10000 characters")
        else
          match sendableType req.messageType with
          | none =>
            return .error (badRequest "message_type must be \"text\", \"image\", or \"file\"")
          | some messageType => reserveAndInsert roomID userID content messageType key

/-! ## What the handlers write -/

def SendOp.Inserts : SendOp → Prop
  | .insertMessage _ _ _ _ => True
  | _ => False

/-- The calls that a handler may only make after its reservation. -/
def SendOp.Writes : SendOp → Prop
  | .insertMessage _ _ _ _ => True
  | .releaseMessageIdempotencyKey _ _ _ => True
  | _ => False

/-- The call reserves or releases something else than `key`. -/
def SendOp.OtherKey (key : UUID × UUID × String) : SendOp → Prop
  | .reserveMessageIdempotencyKey r u k => (r, u, k) ≠ key
  | .releaseMessageIdempotencyKey r u k => (r, u, k) ≠ key
  | _ => False

/-- The handler is not told that it has reserved the key. -/
def NotReserved : (o : SendOp) → o.Res → Prop
  | .reserveMessageIdempotencyKey _ _ _, res => res ≠ .ok true
  | _, _ => True

/-- A successful insert ends the handler, a failed one is not repeated, and nothing
    is written after a release. -/
def InsertsOnce : (o : SendOp) → o.Res → SendProc SendResponse → Prop
  | .insertMessage _ _ _ _, .ok _, p => p.Never Proc.Always SendOp.Writes
  | .insertMessage _ _ _ _, .error _, p => p.Never Proc.Always SendOp.Inserts
  | .releaseMessageIdempotencyKey _ _ _, _, p => p.Never Proc.Always SendOp.Writes
  | _, _, _ => True

/-- The frame inserts a message. -/
def InsertsFrame : ConnOp → Prop
  | .call (.insertMessage _ _ _ _) => True
  | _ => False

/-- Nothing is inserted after an insert. -/
def FrameInsertsOnce (o : ConnOp) (_ : o.Res) (p : ConnProc Unit) : Prop :=
  InsertsFrame o → p.Never Proc.Always InsertsFrame

section

variable {parse : String → Option UUID} {roomID userID : UUID} {content key roomParam : String}
  {messageType : MessageType} {body : Option SendMessageRequest}

theorem insertAndRespond_after :
    (insertAndRespond roomID userID content messageType key).After InsertsOnce := by
  unfold insertAndRespond
  refine .perform (fun res => ?_) fun res => ?_
  · cases res with
    | ok message => exact .ret _
    | error e =>
      show Proc.Never _ _ _
      dsimp only
      split_ifs
      · exact .perform id fun _ _ => .ret _
      · exact .ret _
  · cases res with
    | ok message => exact .ret _
    | error e =>
      dsimp only
      split_ifs
      · exact .perform (fun _ => .ret _) fun _ => .ret _
      · exact .ret _

theorem insertAndRespond_key :
    (insertAndRespond roomID userID content messageType key).Never Proc.Always
      (SendOp.OtherKey (roomID, userID, key)) := by
  unfold insertAndRespond
  refine .perform id fun res _ => ?_
  cases res with
  | ok message => exact .ret _
  | error e =>
    dsimp only
    split_ifs
    · exact .perform (fun h => h rfl) fun _ _ => .ret _
    · exact .ret _

/-- What holds of every refusal, and of the handler from the reservation on, holds of
    the whole handler. -/
theorem sendMessage_rule {C : SendProc SendResponse → Prop} (hret : ∀ w, C (pure (.error w)))
    (hmember : ∀ r u f, (∀ res, C (f res)) → C (Proc.perform (SendOp.getMembership r u) >>= f))
    (hinsert : ∀ roomID content messageType, parse roomParam = some roomID →
      C (reserveAndInsert roomID userID content messageType key)) :
    C (sendMessage parse userID roomParam body key) := by
  unfold sendMessage
  cases hparse : parse roomParam with
  | none => exact hret _
  | some roomID =>
    refine hmember _ _ _ fun res => ?_
    split
    · exact hret _
    · exact hret _
    · cases body with
      | none => exact hret _
      | some req =>
        dsimp only
        split_ifs
        · exact hret _
        · cases sendableType req.messageType with
          | none => exact hret _
          | some messageType => exact hinsert _ _ _ hparse

/-- Without a reservation `SendMessage` neither inserts nor releases. -/
theorem sendMessage_reserves (hkey : key ≠ "") :
    (sendMessage parse userID roomParam body key).Never NotReserved SendOp.Writes := by
  refine sendMessage_rule (fun _ => .ret _) (fun _ _ f hf => .perform id fun res _ => hf res) ?_
  intro roomID content messageType _
  rw [reserveAndInsert, if_pos hkey]
  refine .perform id fun res hres => ?_
  split
  · exact .ret _
  · exact .ret _
  · exact absurd rfl hres

theorem sendMessage_after :
    (sendMessage parse userID roomParam body key).After InsertsOnce := by
  refine sendMessage_rule (fun _ => .ret _) (fun _ _ f hf => .perform (fun _ => trivial) hf) ?_
  intro roomID content messageType _
  rw [reserveAndInsert]
  split_ifs
  · refine .perform (fun _ => trivial) fun res => ?_
    split
    · exact .ret _
    · exact .ret _
    · exact insertAndRespond_after
  · exact insertAndRespond_after

/-- `SendMessage` reserves and releases one key. -/
theorem sendMessage_key :
    (sendMessage parse userID roomParam body key).Never Proc.Always
      (SendOp.OtherKey ((parse roomParam).getD 0, userID, key)) := by
  refine sendMessage_rule (fun _ => .ret _) (fun _ _ f hf => .perform id fun res _ => hf res) ?_
  intro roomID content messageType hroom
  rw [hroom, Option.getD_some, reserveAndInsert]
  split_ifs
  · refine .perform (fun h => h rfl) fun res _ => ?_
    split
    · exact .ret _
    · exact .ret _
    · exact insertAndRespond_key
  · exact insertAndRespond_key

theorem handleMessageSend_after (c : Client) (env : InboundEnvelope) :
    (handleMessageSend parse c env).After FrameInsertsOnce := by
  have herror : ∀ code message, (sendError code message).After FrameInsertsOnce := by
    intro code message
    exact fun _ => ⟨False.elim, trivial⟩
  unfold handleMessageSend
  split
  · exact herror _ _
  · dsimp only
    split_ifs
    · exact herror _ _
    · split
      · exact herror _ _
      · refine .perform (fun _ => False.elim) fun res => ?_
        split
        · exact herror _ _
        · exact herror _ _
        · refine .perform (fun res _ => ?_) fun res => ?_
          · split
            · exact .perform id fun _ _ => .ret _
            · exact .perform id fun _ _ => .ret _
          · split
            · exact herror _ _
            · exact fun _ => ⟨False.elim, trivial⟩

end

end ConvoyChat.Handlers
