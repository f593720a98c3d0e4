import ConvoyChat.Lib.Rows
import ConvoyChat.Models
import Mathlib.Data.List.MinMax
import Mathlib.Data.List.Sort
import Mathlib.Data.Prod.Lex

/-!
# Rooms and their members

Models of `internal/store/rooms.go` on the tables `users`, `rooms` and
`room_members`. A function returns its Go result and the tables after it; every
statement of a failed transaction is rolled back.

The keys and references of `migrations/001_init_schema.up.sql` are checked by
the inserts: `rooms.id` and `room_members.id` are primary keys,
`(room_id, user_id)` is `UNIQUE`, and a member row references a room and a user.
`NOW()` is the argument `now`, and `uuid n` is the value of the `n`-th
`uuid.New()` of the call.
-/

namespace ConvoyChat.Store

open ConvoyChat.Lib

/-- The columns of `users` that the room handlers read. -/
structure User where
  id : UUID
  username : String
deriving DecidableEq, Repr

/-- A row of `rooms` (`internal/models/room.go`). -/
structure Room where
  id : UUID
  name : Option String
  type : RoomType
  creatorID : UUID
  description : Option String
  avatarURL : Option String
  isArchived : Bool
  isPublic : Bool
  createdAt : Time
  updatedAt : Time
deriving DecidableEq, Repr

/-- A row of `room_members`, with the columns of migrations 008 and 009. -/
structure RoomMember where
  id : UUID
  roomID : UUID
  userID : UUID
  role : MemberRole
  joinedAt : Time
  leftAt : Option Time
  bannedAt : Option Time
  lastReadAt : Option Time
deriving DecidableEq, Repr

structure Database where
  users : List User
  rooms : List Room
  members : List RoomMember
deriving DecidableEq, Repr

/-- `room_id = $1 AND user_id = $2`. -/
def RoomMember.isRow (roomID userID : UUID) (m : RoomMember) : Bool :=
  m.roomID = roomID && m.userID = userID

/-- `room_id = $1 AND user_id = $2 AND left_at IS NULL`. -/
def RoomMember.isActiveRow (roomID userID : UUID) (m : RoomMember) : Bool :=
  m.isRow roomID userID && m.leftAt.isNone

/-- `room_id = $1 AND left_at IS NULL`. -/
def RoomMember.isActiveIn (roomID : UUID) (m : RoomMember) : Bool :=
  m.roomID = roomID && m.leftAt.isNone

/-- `room_id = $1 AND role = 'admin' AND left_at IS NULL`. -/
def RoomMember.isAdminIn (roomID : UUID) (m : RoomMember) : Bool :=
  m.isActiveIn roomID && m.role = .admin

/-- Commit the outcome of a transaction, or roll back to `db`. -/
def transact {α : Type} (db : Database) : Except StoreErr (α × Database) →
    Except StoreErr α × Database
  | .error e => (.error e, db)
  | .ok (a, db') => (.ok a, db')

/-- `INSERT INTO rooms …`. -/
def insertRoom (row : Room) (db : Database) : Except StoreErr Database :=
  if db.rooms.any (fun r => r.id = row.id) || !db.users.any (fun u => u.id = row.creatorID) then
    .error .internal
  else .ok { db with rooms := db.rooms ++ [row] }

/-- Model of `insertMember` (`rooms.go` lines 43–50). -/
def insertMember (now : Time) (id roomID userID : UUID) (role : MemberRole) (db : Database) :
    Except StoreErr Database :=
  if db.members.any (fun m => m.id = id || m.isRow roomID userID) ||
      !db.rooms.any (fun r => r.id = roomID) || !db.users.any (fun u => u.id = userID) then
    .error .internal
  else .ok { db with members := db.members ++ [⟨id, roomID, userID, role, now, none, none, none⟩] }

/-- Model of `CreateChannel` (lines 57–92). -/
def createChannel (now : Time) (uuid : ℕ → UUID) (creatorID : UUID) (name : String)
    (description : Option String) (isPublic : Bool) (db : Database) :
    Except StoreErr Room × Database :=
  transact db do
    let room : Room :=
      ⟨uuid 0, some name, .channel, creatorID, description, none, false, isPublic, now, now⟩
    let db₁ ← insertRoom room db
    let db₂ ← insertMember now (uuid 1) room.id creatorID .admin db₁
    return (room, db₂)

/-- The loop of `CreateGroup` over `memberIDs`; `uuid n` serves its first insert. -/
def insertMembers (now : Time) (uuid : ℕ → UUID) (roomID : UUID) :
    ℕ → List UUID → Database → Except StoreErr Database
  | _, [], db => .ok db
  | n, memberID :: rest, db => do
    let db₁ ← insertMember now (uuid n) roomID memberID .member db
    insertMembers now uuid roomID (n + 1) rest db₁

/-- Model of `CreateGroup` (lines 101–140). -/
def createGroup (now : Time) (uuid : ℕ → UUID) (creatorID : UUID) (name : String)
    (description : Option String) (memberIDs : List UUID) (db : Database) :
    Except StoreErr Room × Database :=
  transact db do
    let room : Room :=
      ⟨uuid 0, some name, .group, creatorID, description, none, false, false, now, now⟩
    let db₁ ← insertRoom room db
    let db₂ ← insertMember now (uuid 1) room.id creatorID .admin db₁
    let db₃ ← insertMembers now uuid room.id 2 memberIDs db₂
    return (room, db₃)

/-- `SELECT COUNT(*) … role = 'admin' AND left_at IS NULL`. -/
def countAdmins (roomID : UUID) (db : Database) : ℕ := db.members.countP (·.isAdminIn roomID)

/-- Model of `ChangeMemberRole` (lines 153–202) as one transaction. -/
def changeMemberRole (roomID userID : UUID) (newRole : MemberRole) (db : Database) :
    Except StoreErr Bool × Database :=
  match db.members.find? (·.isActiveRow roomID userID) with
  | none => (.error .notFound, db)
  | some m =>
    if m.role = newRole then (.ok false, db)
    else if m.role = .admin && newRole ≠ .admin && countAdmins roomID db ≤ 1 then
      (.error .lastAdmin, db)
    else
      (.ok true, { db with
        members := updateWhere (·.isActiveRow roomID userID) ({ · with role := newRole })
          db.members })

/-- The `candidate` of `PromoteOldestIfNoAdmins`: the active member least by
    `(joined_at, id)` of a channel or group without an active admin. -/
def promotionCandidate (roomID : UUID) (db : Database) : Option RoomMember :=
  if db.members.any (·.isAdminIn roomID) then none
  else if !db.rooms.any (fun r => r.id = roomID && (r.type = .channel || r.type = .group)) then none
  else (db.members.filter (·.isActiveIn roomID)).argmin fun m => toLex (m.joinedAt, m.id)

/-- Model of `PromoteOldestIfNoAdmins` (lines 222–254), one statement. -/
def promoteOldestIfNoAdmins (roomID : UUID) (db : Database) :
    Except StoreErr (Option RoomMember) × Database :=
  match promotionCandidate roomID db with
  | none => (.ok none, db)
  | some c =>
    (.ok (some { c with role := .admin }), { db with
      members := updateWhere (fun m => m.id = c.id) ({ · with role := .admin }) db.members })

/-- The `findStmt` of `GetOrCreateDirectRoom`: the oldest direct room in which
    both users have a row, active or not. -/
def findDirectRoom (userA userB : UUID) (db : Database) : Option Room :=
  (db.rooms.filter fun r => r.type = .direct && db.members.any (·.isRow r.id userA) &&
    db.members.any (·.isRow r.id userB)).argmin (·.createdAt)

/-- The rows that `reactivateStmt` updates. -/
def departedPair (roomID userA userB : UUID) (m : RoomMember) : Bool :=
  m.roomID = roomID && (m.userID = userA || m.userID = userB) && m.leftAt.isSome

/-- Model of `GetOrCreateDirectRoom` (lines 324–409): the room, `created` and
    `peerReactivated`. The advisory lock has no effect on a transaction that runs
    alone. -/
def getOrCreateDirectRoom (now : Time) (uuid : ℕ → UUID) (userA userB : UUID) (db : Database) :
    Except StoreErr (Room × Bool × Bool) × Database :=
  match findDirectRoom userA userB db with
  | some room =>
    let reactivatedB :=
      db.members.any fun m => departedPair room.id userA userB m && m.userID = userB
    (.ok (room, false, reactivatedB), { db with
      members := updateWhere (departedPair room.id userA userB)
        ({ · with leftAt := none, joinedAt := now }) db.members })
  | none =>
    transact db do
      let room : Room := ⟨uuid 0, none, .direct, userA, none, none, false, true, now, now⟩
      let db₁ ← insertRoom room db
      let db₂ ← insertMember now (uuid 1) room.id userA .member db₁
      let db₃ ← insertMember now (uuid 2) room.id userB .member db₂
      return ((room, true, false), db₃)

/-- Model of `GetUserByID` (`users.go`). -/
def getUserByID (userID : UUID) (db : Database) : Except StoreErr User :=
  match db.users.find? fun u => u.id = userID with
  | some u => .ok u
  | none => .error .notFound

/-- Model of `GetRoomByID` (lines 411–414). -/
def getRoomByID (roomID : UUID) (db : Database) : Except StoreErr Room :=
  match db.rooms.find? fun r => r.id = roomID with
  | some r => .ok r
  | none => .error .notFound

/-- Model of `ListRoomsForUser` (lines 422–454), without its `unread_count`; rows
    with the same `joined_at` keep the order of the table. -/
def listRoomsForUser (userID : UUID) (db : Database) : List Room :=
  ((db.members.filter fun m => m.userID = userID && m.leftAt.isNone).insertionSort
    fun m m' => m'.joinedAt ≤ m.joinedAt).filterMap fun m => db.rooms.find? fun r => r.id = m.roomID

/-- Model of `GetMembership` (lines 478–494). -/
def getMembership (roomID userID : UUID) (db : Database) : Except StoreErr RoomMember :=
  match db.members.find? (·.isActiveRow roomID userID) with
  | some m => .ok m
  | none => .error .notFound

/-- What the `DO UPDATE` of `AddMember` sets. -/
def reactivate (now : Time) (role : MemberRole) (m : RoomMember) : RoomMember :=
  { m with role := role, joinedAt := now, leftAt := none, bannedAt := none }

/-- Model of `AddMember` (lines 534–554): insert, or reactivate the row of a
    member who left; no row comes back when the member is active. -/
def addMember (now : Time) (uuid : ℕ → UUID) (roomID userID : UUID) (role : MemberRole)
    (db : Database) : Except StoreErr RoomMember × Database :=
  match db.members.find? (·.isRow roomID userID) with
  | some m =>
    if m.leftAt.isSome then
      (.ok (reactivate now role m), { db with
        members := updateWhere (fun x => x.isRow roomID userID && x.leftAt.isSome)
          (reactivate now role) db.members })
    else (.error .alreadyMember, db)
  | none =>
    transact db do
      let db₁ ← insertMember now (uuid 0) roomID userID role db
      return (⟨uuid 0, roomID, userID, role, now, none, none, none⟩, db₁)

/-- `UPDATE room_members SET f WHERE room_id = $1 AND user_id = $2 AND left_at IS
    NULL`, with `ErrNotFound` when no row was affected. -/
def updateActive (f : RoomMember → RoomMember) (roomID userID : UUID) (db : Database) :
    Except StoreErr Unit × Database :=
  if db.members.any (·.isActiveRow roomID userID) then
    (.ok (), { db with members := updateWhere (·.isActiveRow roomID userID) f db.members })
  else (.error .notFound, db)

/-- Model of `RemoveMember` (lines 559–573). -/
def removeMember (now : Time) : UUID → UUID → Database → Except StoreErr Unit × Database :=
  updateActive ({ · with leftAt := some now })

/-- Model of `BanMember` (lines 580–594). -/
def banMember (now : Time) : UUID → UUID → Database → Except StoreErr Unit × Database :=
  updateActive ({ · with leftAt := some now, bannedAt := some now })

/-- Model of `AdvanceLastRead` (lines 460–474). -/
def advanceLastRead (now : Time) : UUID → UUID → Database → Except StoreErr Unit × Database :=
  updateActive ({ · with lastReadAt := some now })

/-- Model of `IsBanned` (lines 598–609). -/
def isBanned (roomID userID : UUID) (db : Database) : Bool :=
  db.members.any fun m => m.isRow roomID userID && m.bannedAt.isSome

end ConvoyChat.Store
