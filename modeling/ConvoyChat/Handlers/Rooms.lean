import ConvoyChat.Lib.Proc
import ConvoyChat.Store.Rooms

/-!
# The room handlers

Models of `internal/handlers/rooms.go` and of `RequireRoomAdmin`
(`internal/handlers/middleware.go`). A handler is a procedure over the store
calls it makes, each of which is one statement or one transaction; what other
requests do between two calls is up to the environment. `serve` is the serial
environment.

`parse` is `uuid.Parse`. A request body is `none` when it is not valid JSON.
-/

namespace ConvoyChat.Handlers

open ConvoyChat.Lib ConvoyChat.Store

/-- The events that the room handlers publish. -/
inductive RoomEvent
  | userJoined (userID : UUID) (username : String) (roomID : UUID)
  | userLeft (userID roomID : UUID)
  | memberRoleChanged (roomID userID : UUID) (role : MemberRole)
  | roomInvited (roomID : UUID)
deriving DecidableEq, Repr

/-- The store calls of the room handlers. -/
inductive RoomOp
  | getUserByID (userID : UUID)
  | getRoomByID (roomID : UUID)
  | getMembership (roomID userID : UUID)
  | isBanned (roomID userID : UUID)
  | createChannel (creatorID : UUID) (name : String) (description : Option String)
      (isPublic : Bool)
  | createGroup (creatorID : UUID) (name : String) (description : Option String)
      (memberIDs : List UUID)
  | getOrCreateDirectRoom (userA userB : UUID)
  | addMember (roomID userID : UUID) (role : MemberRole)
  | removeMember (roomID userID : UUID)
  | banMember (roomID userID : UUID)
  | changeMemberRole (roomID userID : UUID) (newRole : MemberRole)
  | promoteOldestIfNoAdmins (roomID : UUID)
  | publishRoomEvent (roomID : UUID) (event : RoomEvent)
  | publishUserEvent (userID : UUID) (event : RoomEvent)
deriving DecidableEq, Repr

/-- What each call returns; a publication only tells whether it failed. -/
abbrev RoomOp.Res : RoomOp → Type
  | getUserByID _ => Except StoreErr User
  | getRoomByID _ => Except StoreErr Room
  | getMembership _ _ => Except StoreErr RoomMember
  | isBanned _ _ => Except StoreErr Bool
  | createChannel _ _ _ _ => Except StoreErr Room
  | createGroup _ _ _ _ => Except StoreErr Room
  | getOrCreateDirectRoom _ _ => Except StoreErr (Room × Bool × Bool)
  | addMember _ _ _ => Except StoreErr RoomMember
  | removeMember _ _ => Except StoreErr Unit
  | banMember _ _ => Except StoreErr Unit
  | changeMemberRole _ _ _ => Except StoreErr Bool
  | promoteOldestIfNoAdmins _ => Except StoreErr (Option RoomMember)
  | publishRoomEvent _ _ => Except StoreErr Unit
  | publishUserEvent _ _ => Except StoreErr Unit

abbrev RoomProc := Proc RoomOp RoomOp.Res

namespace DB

/-! The calls of the handlers on their `*store.Store`. -/

abbrev getUserByID (u : UUID) : RoomProc (Except StoreErr User) := .perform (RoomOp.getUserByID u)

abbrev getRoomByID (r : UUID) : RoomProc (Except StoreErr Room) := .perform (RoomOp.getRoomByID r)

abbrev getMembership (r u : UUID) : RoomProc (Except StoreErr RoomMember) :=
  .perform (RoomOp.getMembership r u)

abbrev isBanned (r u : UUID) : RoomProc (Except StoreErr Bool) := .perform (RoomOp.isBanned r u)

abbrev createChannel (u : UUID) (name : String) (description : Option String) (isPublic : Bool) :
    RoomProc (Except StoreErr Room) := .perform (RoomOp.createChannel u name description isPublic)

abbrev createGroup (u : UUID) (name : String) (description : Option String)
    (memberIDs : List UUID) : RoomProc (Except StoreErr Room) :=
  .perform (RoomOp.createGroup u name description memberIDs)

abbrev getOrCreateDirectRoom (a b : UUID) : RoomProc (Except StoreErr (Room × Bool × Bool)) :=
  .perform (RoomOp.getOrCreateDirectRoom a b)

abbrev addMember (r u : UUID) (role : MemberRole) : RoomProc (Except StoreErr RoomMember) :=
  .perform (RoomOp.addMember r u role)

abbrev removeMember (r u : UUID) : RoomProc (Except StoreErr Unit) :=
  .perform (RoomOp.removeMember r u)

abbrev banMember (r u : UUID) : RoomProc (Except StoreErr Unit) := .perform (RoomOp.banMember r u)

abbrev changeMemberRole (r u : UUID) (newRole : MemberRole) : RoomProc (Except StoreErr Bool) :=
  .perform (RoomOp.changeMemberRole r u newRole)

abbrev promoteOldestIfNoAdmins (r : UUID) : RoomProc (Except StoreErr (Option RoomMember)) :=
  .perform (RoomOp.promoteOldestIfNoAdmins r)

abbrev publishRoomEvent (r : UUID) (e : RoomEvent) : RoomProc (Except StoreErr Unit) :=
  .perform (RoomOp.publishRoomEvent r e)

abbrev publishUserEvent (u : UUID) (e : RoomEvent) : RoomProc (Except StoreErr Unit) :=
  .perform (RoomOp.publishUserEvent u e)

end DB

/-- An HTTP response: `httpx.WriteError`, or `httpx.WriteJSON` of a room, of a
    member row or of a map of strings. -/
inductive Response
  | error (status : ℕ) (code message : String)
  | room (status : ℕ) (room : Room)
  | member (status : ℕ) (member : RoomMember)
  | fields (status : ℕ) (body : List (String × String))
deriving DecidableEq, Repr

/-- `400 invalid_input`. -/
def badRequest (message : String) : Response := .error 400 "invalid_input" message

/-- `403 forbidden`. -/
def forbidden (message : String) : Response := .error 403 "forbidden" message

/-- `404 not_found`. -/
def notFound (message : String) : Response := .error 404 "not_found" message

/-- `409 conflict`. -/
def conflict (message : String) : Response := .error 409 "conflict" message

/-- `500 internal_error`. -/
def internalError (message : String) : Response := .error 500 "internal_error" message

/-! ## Validation -/

def maxRoomNameLen : ℕ := 255

def minGroupMembers : ℕ := 2

/-- Go's `unicode.IsSpace`. -/
def isSpace (c : Char) : Bool :=
  c ∈ ['\t', '\n', '\x0b', '\x0c', '\r', ' ', '\u0085', '\u00a0', '\u1680', '\u2028', '\u2029',
    '\u202f', '\u205f', '\u3000'] || ('\u2000' ≤ c && c ≤ '\u200a')

/-- Go's `strings.TrimSpace`. -/
def trimSpace (s : String) : String :=
  String.ofList (((s.toList.dropWhile isSpace).reverse.dropWhile isSpace).reverse)

/-- Model of `validateRoomName` (`rooms.go` lines 36–41); `len` counts bytes. -/
def validateRoomName (name : String) : Except String Unit :=
  if name = "" || maxRoomNameLen < name.utf8ByteSize then
    .error "name is required and must be 1-255 characters"
  else .ok ()

variable (parse : String → Option UUID)

/-- Model of `validatePeerUserID` (lines 45–54). -/
def validatePeerUserID (raw : String) (callerID : UUID) : Except String UUID :=
  match parse raw with
  | none => .error "peer_user_id must be a valid UUID"
  | some peerID =>
    if peerID = callerID then .error "cannot create a direct room with yourself" else .ok peerID

/-- The loop of `validateGroupMemberIDs` with its accumulator `ids`; `seen` holds
    the same ids. -/
def collectMemberIDs (creatorID : UUID) : List String → List UUID → Except String (List UUID)
  | [], ids => .ok ids
  | r :: raw, ids =>
    match parse r with
    | none => .error "member_ids must be valid UUIDs"
    | some id =>
      if id = creatorID then .error "member_ids must not include yourself"
      else if id ∈ ids then collectMemberIDs creatorID raw ids
      else collectMemberIDs creatorID raw (ids ++ [id])

/-- Model of `validateGroupMemberIDs` (lines 77–99). -/
def validateGroupMemberIDs (raw : List String) (creatorID : UUID) : Except String (List UUID) :=
  match collectMemberIDs parse creatorID raw [] with
  | .error e => .error e
  | .ok ids =>
    if ids.length < minGroupMembers then
      .error "member_ids must include at least 2 other user(s)"
    else .ok ids

/-! ## Handlers -/

/-- Model of `requireActiveMembership` (lines 109–127). -/
def requireActiveMembership (roomParam : String) (userID : UUID) :
    RoomProc (Except Response (UUID × RoomMember)) := do
  match parse roomParam with
  | none => return .error (badRequest "room_id must be a valid UUID")
  | some roomID =>
    match ← DB.getMembership roomID userID with
    | .error .notFound => return .error (forbidden "you are not a member of this room")
    | .error _ => return .error (internalError "failed to check membership")
    | .ok membership => return .ok (roomID, membership)

/-- Model of `RequireRoomAdmin` (`middleware.go` lines 31–60) around `next`. -/
def requireRoomAdmin (roomParam : String) (userID : UUID) (next : RoomProc Response) :
    RoomProc Response := do
  match parse roomParam with
  | none => return badRequest "room_id must be a valid UUID"
  | some roomID =>
    match ← DB.getMembership roomID userID with
    | .error .notFound => return forbidden "you are not an admin of this room"
    | .error _ => return internalError "failed to check membership"
    | .ok membership =>
      if membership.role ≠ .admin then return forbidden "you are not an admin of this room"
      else next

/-- The body of `POST /rooms` (`createRoomRequest`, lines 56–69). -/
structure CreateRoomRequest where
  type : String
  name : String
  description : Option String
  peerUserID : String
  isPublic : Option Bool
  memberIDs : List String

/-- The `channel` branch of `CreateRoom` (lines 206–224). -/
def createRoomChannel (userID : UUID) (req : CreateRoomRequest) : RoomProc Response := do
  let name := trimSpace req.name
  match validateRoomName name with
  | .error e => return badRequest e
  | .ok () =>
    match ← DB.createChannel userID name req.description (req.isPublic.getD true) with
    | .error _ => return internalError "failed to create room"
    | .ok room => return .room 201 room

/-- The `direct` branch of `CreateRoom` (lines 226–262). -/
def createRoomDirect (userID : UUID) (req : CreateRoomRequest) : RoomProc Response := do
  match validatePeerUserID parse req.peerUserID userID with
  | .error e => return badRequest e
  | .ok peerID =>
    match ← DB.getUserByID peerID with
    | .error .notFound => return notFound "peer user not found"
    | .error _ => return internalError "failed to look up peer user"
    | .ok _ =>
      match ← DB.getOrCreateDirectRoom userID peerID with
      | .error _ => return internalError "failed to create direct room"
      | .ok (room, created, peerReactivated) =>
        if created || peerReactivated then
          let _ ← DB.publishUserEvent peerID (.roomInvited room.id)
          return .room (if created then 201 else 200) room
        else return .room 200 room

/-- The lookups of the `group` branch, in order; the first failure answers. -/
def lookUpMembers : List UUID → RoomProc (Option Response)
  | [] => return none
  | memberID :: rest => do
    match ← DB.getUserByID memberID with
    | .error .notFound => return some (notFound "one or more member_ids not found")
    | .error _ => return some (internalError "failed to look up member")
    | .ok _ => lookUpMembers rest

/-- `publishRoomInvitedEvent` (lines 181–190) for each member of a new group. -/
def publishInvitations (roomID : UUID) : List UUID → RoomProc Unit
  | [] => return ()
  | memberID :: rest => do
    let _ ← DB.publishUserEvent memberID (.roomInvited roomID)
    publishInvitations roomID rest

/-- The `group` branch of `CreateRoom` (lines 264–298). -/
def createRoomGroup (userID : UUID) (req : CreateRoomRequest) : RoomProc Response := do
  let name := trimSpace req.name
  match validateRoomName name with
  | .error e => return badRequest e
  | .ok () =>
    match validateGroupMemberIDs parse req.memberIDs userID with
    | .error e => return badRequest e
    | .ok memberIDs =>
      match ← lookUpMembers memberIDs with
      | some w => return w
      | none =>
        match ← DB.createGroup userID name req.description memberIDs with
        | .error _ => return internalError "failed to create room"
        | .ok room =>
          publishInvitations room.id memberIDs
          return .room 201 room

/-- Model of `CreateRoom` (lines 195–304). -/
def createRoom (userID : UUID) (body : Option CreateRoomRequest) : RoomProc Response :=
  match body with
  | none => return badRequest "request body must be valid JSON"
  | some req =>
    if req.type = "channel" then createRoomChannel userID req
    else if req.type = "direct" then createRoomDirect parse userID req
    else if req.type = "group" then createRoomGroup parse userID req
    else return badRequest "type must be \"channel\", \"direct\", or \"group\""

/-- Model of `InviteMember` (lines 403–451); the body is its `user_id`. -/
def inviteMember (userID : UUID) (roomParam : String) (body : Option String) :
    RoomProc Response := do
  match ← requireActiveMembership parse roomParam userID with
  | .error w => return w
  | .ok (roomID, membership) =>
    if membership.role ≠ .admin then return forbidden "only room admins can invite members"
    else
      match body with
      | none => return badRequest "request body must be valid JSON"
      | some rawUserID =>
        match parse rawUserID with
        | none => return badRequest "user_id must be a valid UUID"
        | some inviteeID =>
          match ← DB.getUserByID inviteeID with
          | .error .notFound => return notFound "user not found"
          | .error _ => return internalError "failed to look up user"
          | .ok _ =>
            match ← DB.addMember roomID inviteeID .member with
            | .error .alreadyMember => return conflict "user is already a member of this room"
            | .error _ => return internalError "failed to add member"
            | .ok member =>
              let _ ← DB.publishUserEvent inviteeID (.roomInvited roomID)
              return .member 201 member

/-- `room.Type != channel || !room.IsPublic || room.IsArchived`, negated. -/
def joinable (room : Room) : Bool :=
  room.type = .channel && room.isPublic && !room.isArchived

/-- Model of `JoinChannel` (lines 492–558). -/
def joinChannel (userID : UUID) (roomParam : String) : RoomProc Response := do
  match parse roomParam with
  | none => return badRequest "room_id must be a valid UUID"
  | some roomID =>
    match ← DB.getRoomByID roomID with
    | .error .notFound => return forbidden "this room isn't a joinable public channel"
    | .error _ => return internalError "failed to look up room"
    | .ok room =>
      if !joinable room then return forbidden "this room isn't a joinable public channel"
      else
        match ← DB.isBanned roomID userID with
        | .error _ => return internalError "failed to check membership"
        | .ok true =>
          return forbidden "you have been removed from this channel and can't rejoin"
        | .ok false =>
          match ← DB.addMember roomID userID .member with
          | .error .alreadyMember => return conflict "you are already a member of this room"
          | .error _ => return internalError "failed to join room"
          | .ok member =>
            match ← DB.getUserByID userID with
            | .error _ => return .member 201 member
            | .ok joiner =>
              let _ ← DB.publishRoomEvent roomID (.userJoined joiner.id joiner.username roomID)
              return .member 201 member

/-- Model of `LeaveRoom` (lines 615–648). -/
def leaveRoom (userID : UUID) (roomParam : String) : RoomProc Response := do
  match parse roomParam with
  | none => return badRequest "room_id must be a valid UUID"
  | some roomID =>
    match ← DB.removeMember roomID userID with
    | .error .notFound => return notFound "you are not a member of this room"
    | .error _ => return internalError "failed to leave room"
    | .ok () =>
      let _ ← DB.publishRoomEvent roomID (.userLeft userID roomID)
      match ← DB.promoteOldestIfNoAdmins roomID with
      | .ok (some promoted) =>
        let _ ← DB.publishRoomEvent roomID
          (.memberRoleChanged roomID promoted.userID promoted.role)
        return .fields 200 [("status", "left")]
      | _ => return .fields 200 [("status", "left")]

/-- The role that `ChangeMemberRole` reads from its body. -/
def parseRole (role : String) : Option MemberRole :=
  if role = "admin" then some .admin else if role = "member" then some .member else none

/-- `string(newRole)`. -/
def roleString : MemberRole → String
  | .admin => "admin"
  | .member => "member"
  | .guest => "guest"

/-- Model of `ChangeMemberRole` (lines 689–738) behind `RequireRoomAdmin`. -/
def changeMemberRole (callerID : UUID) (roomParam userParam : String) (body : Option String) :
    RoomProc Response :=
  requireRoomAdmin parse roomParam callerID do
    match parse roomParam with
    | none => return badRequest "room_id must be a valid UUID"
    | some roomID =>
      match parse userParam with
      | none => return badRequest "user_id must be a valid UUID"
      | some targetID =>
        match body with
        | none => return badRequest "request body must be valid JSON"
        | some role =>
          match parseRole role with
          | none => return badRequest "role must be \"admin\" or \"member\""
          | some newRole =>
            match ← DB.changeMemberRole roomID targetID newRole with
            | .error .notFound => return notFound "user is not an active member of this room"
            | .error .lastAdmin =>
              return conflict "cannot demote the room's last remaining admin"
            | .error _ => return internalError "failed to change member role"
            | .ok changed =>
              if changed then
                let _ ← DB.publishRoomEvent roomID
                  (.memberRoleChanged roomID targetID newRole)
                return .fields 200 [("status", "changed"), ("role", roleString newRole)]
              else return .fields 200 [("status", "changed"), ("role", roleString newRole)]

/-- Model of `RemoveMember` (lines 747–781) behind `RequireRoomAdmin`. -/
def removeMember (callerID : UUID) (roomParam userParam : String) : RoomProc Response :=
  requireRoomAdmin parse roomParam callerID do
    match parse roomParam with
    | none => return badRequest "room_id must be a valid UUID"
    | some roomID =>
      match parse userParam with
      | none => return badRequest "user_id must be a valid UUID"
      | some targetID =>
        if targetID = callerID then
          return badRequest "use POST .../leave to remove yourself"
        else
          match ← DB.banMember roomID targetID with
          | .error .notFound => return notFound "user is not an active member of this room"
          | .error _ => return internalError "failed to remove member"
          | .ok () =>
            let _ ← DB.publishRoomEvent roomID (.userLeft targetID roomID)
            return .fields 200 [("status", "removed")]

/-! ## Serial service -/

/-- `NOW()` of a store call and the values of its `uuid.New()`. -/
structure Stamp where
  now : Time
  uuid : ℕ → UUID

/-- What a handler published, and on which channel. -/
inductive Publication
  | room (roomID : UUID) (event : RoomEvent)
  | user (userID : UUID) (event : RoomEvent)
deriving DecidableEq, Repr

/-- The tables, the number of store calls served and the publications so far. -/
structure Backend where
  db : Database
  calls : ℕ
  published : List Publication
deriving DecidableEq, Repr

/-- A call that reads the tables. -/
def Backend.read {α : Type} (s : Backend) (res : α) : α × Backend :=
  (res, { s with calls := s.calls + 1 })

/-- A call that returns a result and the tables after it. -/
def Backend.write {α : Type} (s : Backend) (out : α × Database) : α × Backend :=
  (out.1, { s with db := out.2, calls := s.calls + 1 })

/-- A publication. -/
def Backend.publish (s : Backend) (p : Publication) : Except StoreErr Unit × Backend :=
  (.ok (), { s with calls := s.calls + 1, published := s.published ++ [p] })

/-- Serve one store call; `stamps n` stamps the `n`-th call of the run. -/
def RoomOp.serve (stamps : ℕ → Stamp) : (o : RoomOp) → Backend → o.Res × Backend
  | .getUserByID u, s => s.read (Store.getUserByID u s.db)
  | .getRoomByID r, s => s.read (Store.getRoomByID r s.db)
  | .getMembership r u, s => s.read (Store.getMembership r u s.db)
  | .isBanned r u, s => s.read (.ok (Store.isBanned r u s.db))
  | .createChannel u name description isPublic, s =>
    let st := stamps s.calls
    s.write (Store.createChannel st.now st.uuid u name description isPublic s.db)
  | .createGroup u name description memberIDs, s =>
    let st := stamps s.calls
    s.write (Store.createGroup st.now st.uuid u name description memberIDs s.db)
  | .getOrCreateDirectRoom a b, s =>
    let st := stamps s.calls
    s.write (Store.getOrCreateDirectRoom st.now st.uuid a b s.db)
  | .addMember r u role, s =>
    let st := stamps s.calls
    s.write (Store.addMember st.now st.uuid r u role s.db)
  | .removeMember r u, s => s.write (Store.removeMember (stamps s.calls).now r u s.db)
  | .banMember r u, s => s.write (Store.banMember (stamps s.calls).now r u s.db)
  | .changeMemberRole r u role, s => s.write (Store.changeMemberRole r u role s.db)
  | .promoteOldestIfNoAdmins r, s => s.write (Store.promoteOldestIfNoAdmins r s.db)
  | .publishRoomEvent r e, s => s.publish (.room r e)
  | .publishUserEvent u e, s => s.publish (.user u e)

/-- The six requests that change rooms and memberships. -/
inductive RoomRequest
  | createRoom (userID : UUID) (body : Option CreateRoomRequest)
  | inviteMember (userID : UUID) (roomParam : String) (body : Option String)
  | joinChannel (userID : UUID) (roomParam : String)
  | leaveRoom (userID : UUID) (roomParam : String)
  | changeMemberRole (callerID : UUID) (roomParam userParam : String) (body : Option String)
  | removeMember (callerID : UUID) (roomParam userParam : String)

def RoomRequest.handler : RoomRequest → RoomProc Response
  | .createRoom u body => Handlers.createRoom parse u body
  | .inviteMember u room body => Handlers.inviteMember parse u room body
  | .joinChannel u room => Handlers.joinChannel parse u room
  | .leaveRoom u room => Handlers.leaveRoom parse u room
  | .changeMemberRole u room target body => Handlers.changeMemberRole parse u room target body
  | .removeMember u room target => Handlers.removeMember parse u room target

/-- Serve a whole request with nothing in between. -/
def serve (stamps : ℕ → Stamp) (req : RoomRequest) (s : Backend) : Response × Backend :=
  (req.handler parse).run (RoomOp.serve stamps) s

end ConvoyChat.Handlers
