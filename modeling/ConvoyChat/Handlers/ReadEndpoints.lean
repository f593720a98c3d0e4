import ConvoyChat.Handlers.Rooms
import ConvoyChat.Store.Directory
import Mathlib.Data.String.Basic

/-!
# The read endpoints

Models of the handlers of `GET /rooms`, `/rooms/public`, `/rooms/{id}`,
`/rooms/{id}/members`, `/rooms/{id}/presence` (`internal/handlers/rooms.go`),
`/rooms/{id}/messages` (`messages.go`), `/users/{id}` and `/users/search` (`users.go`),
each on one snapshot of the tables.

The room endpoints answer a caller who is not a member as if the room did not exist.
`SearchUsers` does not ask whether the caller may know the room: it leaves out the
members of any `room_id`.

* `answers_alike_iff`: a caller without a row in a room that is not public gets the same
  answer whatever that room holds, if and only if the request is not a search that shows
  a difference of its members.
* `search_shows_members`: a search with the id of a private channel tells who is in it.
-/

namespace ConvoyChat.Handlers

open ConvoyChat.Lib ConvoyChat.Store

def userSearchLimit : ℕ := 20

def maxUserSearchQueryLen : ℕ := 64

def defaultMessageLimit : ℕ := 50

def maxMessageLimit : ℕ := 100

/-- `models.User` as JSON: without the password hash. -/
structure Profile where
  id : UUID
  username : String
  email : String
  avatarURL : Option String
  bio : Option String
  isSystemAdmin : Bool
  createdAt : Time
  updatedAt : Time
deriving DecidableEq, Repr

def profile (a : Account) : Profile :=
  ⟨a.id, a.username, a.email, a.avatarURL, a.bio, a.isSystemAdmin, a.createdAt, a.updatedAt⟩

/-- The body of a `200`. -/
inductive ReadBody
  | rooms (rooms : List (Room × ℕ))
  | channels (channels : List PublicChannel)
  | roomDetail (room : Room) (members : List RoomMemberWithUser)
  | members (members : List RoomMemberWithUser)
  | presence (entries : List UserPresence)
  | messages (messages : List HistoryMessage)
  | user (user : Profile)
  | users (users : List UserSummary)
deriving DecidableEq, Repr

abbrev ReadResponse := Except Response ReadBody

/-- A read request with its path and query parameters; an absent parameter is empty. -/
inductive ReadRequest
  | listRooms
  | listPublicChannels
  | getRoom (roomParam : String)
  | listRoomMembers (roomParam : String)
  | roomPresence (roomParam : String)
  | listMessages (roomParam limit before : String)
  | getUser (userParam : String)
  | searchUsers (q roomID : String)
deriving DecidableEq, Repr

/-- Go's `strconv.Atoi`; what does not fit into an `int` is out of range for every caller
    here. -/
def atoi (raw : String) : Option ℤ :=
  let digits (cs : List Char) : Option ℕ :=
    if cs ≠ [] ∧ cs.all Char.isDigit then some (Nat.ofDigitChars 10 cs 0) else none
  match raw.toList with
  | '-' :: cs => (digits cs).map fun n => -(n : ℤ)
  | '+' :: cs => (digits cs).map fun n => (n : ℤ)
  | cs => (digits cs).map fun n => (n : ℤ)

/-- Model of `parseMessageLimit` (`messages.go` lines 36–45). -/
def parseMessageLimit (raw : String) : Except String ℕ :=
  if raw = "" then .ok defaultMessageLimit
  else
    match atoi raw with
    | none => .error "limit must be an integer between 1 and 100"
    | some n =>
      if n < 1 ∨ (maxMessageLimit : ℤ) < n then .error "limit must be an integer between 1 and 100"
      else .ok n.toNat

section

variable (parse : String → Option UUID) (parseTime : String → Option Time) (locale : Store.Locale)

/-- Model of `parseMessageBefore` (lines 49–58); `parseTime` is `time.Parse` with
    `time.RFC3339Nano`. -/
def parseMessageBefore (raw : String) : Except String (Option Time) :=
  if raw = "" then .ok none
  else
    match parseTime raw with
    | none => .error "before must be an RFC3339 timestamp"
    | some t => .ok (some t)

variable (db : Snapshot) (userID : UUID)

/-- `requireActiveMembership` (`rooms.go` lines 109–127) on a snapshot. -/
def activeRoom (roomParam : String) : Except Response UUID :=
  match parse roomParam with
  | none => .error (badRequest "room_id must be a valid UUID")
  | some roomID =>
    match db.getMembership roomID userID with
    | none => .error (forbidden "you are not a member of this room")
    | some _ => .ok roomID

/-- Model of `requireMemberOrSystemAdmin` (lines 136–161). -/
def requireMemberOrSystemAdmin (roomParam : String) : Except Response UUID :=
  match parse roomParam with
  | none => .error (badRequest "room_id must be a valid UUID")
  | some roomID =>
    match db.getMembership roomID userID with
    | some _ => .ok roomID
    | none =>
      match db.getUserByID userID with
      | none => .error (internalError "failed to check admin status")
      | some caller =>
        if caller.isSystemAdmin then .ok roomID
        else .error (forbidden "you are not a member of this room")

/-- Model of `GetRoom` (lines 326–349). -/
def getRoom (roomParam : String) : ReadResponse := do
  let roomID ← requireMemberOrSystemAdmin parse db userID roomParam
  match db.getRoomByID roomID with
  | none => .error (internalError "failed to look up room")
  | some room => .ok (.roomDetail room (db.listMembers roomID))

/-- Model of `ListRoomMembers` (lines 353–370). -/
def listRoomMembers (roomParam : String) : ReadResponse := do
  let roomID ← requireMemberOrSystemAdmin parse db userID roomParam
  .ok (.members (db.listMembers roomID))

/-- Model of `RoomPresence` (lines 377–394). -/
def roomPresence (roomParam : String) : ReadResponse := do
  let roomID ← requireMemberOrSystemAdmin parse db userID roomParam
  .ok (.presence (db.listPresenceForRoom roomID))

/-- Model of `ListMessages` (`messages.go` lines 87–116). -/
def listMessages (roomParam limit before : String) : ReadResponse := do
  let roomID ← activeRoom parse db userID roomParam
  match parseMessageLimit limit with
  | .error message => .error (badRequest message)
  | .ok limit =>
    match parseMessageBefore parseTime before with
    | .error message => .error (badRequest message)
    | .ok before => .ok (.messages (listRoomMessages db.history roomID limit before))

/-- Model of `GetUser` (`users.go` lines 30–50). -/
def getUser (userParam : String) : ReadResponse :=
  match parse userParam with
  | none => .error (badRequest "user_id must be a valid UUID")
  | some id =>
    match db.getUserByID id with
    | none => .error (notFound "user not found")
    | some a => .ok (.user (profile a))

/-- The `room_id` of a search: absent, malformed, or a room whose members to leave
    out. -/
def excludedRoom (raw : String) : Except Response (Option UUID) :=
  if trimSpace raw = "" then .ok none
  else
    match parse (trimSpace raw) with
    | none => .error (badRequest "room_id must be a valid UUID")
    | some roomID => .ok (some roomID)

/-- Model of `SearchUsers` (lines 59–91). -/
def searchUsers (q roomID : String) : ReadResponse :=
  let query := trimSpace q
  if query = "" then .ok (.users [])
  else if maxUserSearchQueryLen < query.utf8ByteSize then
    .error (badRequest "search query is too long")
  else do
    let excludeRoomID ← excludedRoom parse roomID
    .ok (.users (db.searchUsers locale query userID excludeRoomID userSearchLimit))

def serveRead : ReadRequest → ReadResponse
  | .listRooms => .ok (.rooms (db.listRoomsForUser userID))
  | .listPublicChannels => .ok (.channels (db.listPublicChannels userID))
  | .getRoom roomParam => getRoom parse db userID roomParam
  | .listRoomMembers roomParam => listRoomMembers parse db userID roomParam
  | .roomPresence roomParam => roomPresence parse db userID roomParam
  | .listMessages roomParam limit before =>
    listMessages parse parseTime db userID roomParam limit before
  | .getUser userParam => getUser parse db userParam
  | .searchUsers q roomID => searchUsers parse locale db userID q roomID

variable (r : UUID) (db' : Snapshot)

/-- The request is no search with `room_id` `r`, or every user it matches whose
    membership of `r` differs is behind `userSearchLimit` matching users who are in the
    room in neither snapshot. -/
def ShowsNoDifference : ReadRequest → Prop
  | .searchUsers q roomID =>
    trimSpace q ≠ "" → (trimSpace q).utf8ByteSize ≤ maxUserSearchQueryLen →
      trimSpace roomID ≠ "" → parse (trimSpace roomID) = some r →
      ∀ before u after, db.candidates locale (trimSpace q) userID = before ++ u :: after →
        db.isActiveMember r u ≠ db'.isActiveMember r u →
        userSearchLimit ≤ before.countP fun x => !db.isActiveMember r x && !db'.isActiveMember r x
  | _ => True

end

/-- The setting of a caller who may not know about room `r`. -/
structure Outside (r userID : UUID) (db db' : Snapshot) : Prop where
  differs : DiffersOnlyIn r db db'
  row : db.NoRow r userID
  row' : db'.NoRow r userID
  hidden : db.NotPublic r
  hidden' : db'.NotPublic r
  admin : ∀ a ∈ db.accounts, a.id = userID → a.isSystemAdmin = false

section

variable {parse : String → Option UUID} {parseTime : String → Option Time} {locale : Store.Locale}
  {r userID : UUID} {db db' : Snapshot}

/-- `r` is turned down in both snapshots, and another room is admitted in both or in
    neither. -/
theorem activeRoom_alike (h : Outside r userID db db') (roomParam : String) :
    activeRoom parse db userID roomParam = activeRoom parse db' userID roomParam ∧
      activeRoom parse db userID roomParam ≠ .ok r := by
  unfold activeRoom
  cases parse roomParam with
  | none => exact ⟨rfl, nofun⟩
  | some roomID =>
    dsimp only
    by_cases hroom : roomID = r
    · subst hroom
      rw [h.row.getMembership, h.row'.getMembership]
      exact ⟨rfl, nofun⟩
    · rw [← h.differs.getMembership hroom]
      refine ⟨rfl, ?_⟩
      cases db.getMembership roomID userID with
      | none => exact nofun
      | some m =>
        intro heq
        exact hroom (Except.ok.inj heq)

theorem requireMemberOrSystemAdmin_alike (h : Outside r userID db db') (roomParam : String) :
    requireMemberOrSystemAdmin parse db userID roomParam =
        requireMemberOrSystemAdmin parse db' userID roomParam ∧
      requireMemberOrSystemAdmin parse db userID roomParam ≠ .ok r := by
  unfold requireMemberOrSystemAdmin
  cases parse roomParam with
  | none => exact ⟨rfl, nofun⟩
  | some roomID =>
    dsimp only
    rw [← h.differs.getUserByID]
    by_cases hroom : roomID = r
    · subst hroom
      rw [h.row.getMembership, h.row'.getMembership]
      refine ⟨rfl, ?_⟩
      cases hcaller : db.getUserByID userID with
      | none => exact nofun
      | some caller =>
        have hid : caller.id = userID := by simpa using List.find?_some hcaller
        dsimp only
        rw [h.admin caller (List.mem_of_find?_eq_some hcaller) hid]
        exact nofun
    · rw [← h.differs.getMembership hroom]
      refine ⟨rfl, fun heq => hroom ?_⟩
      cases hmember : db.getMembership roomID userID with
      | some m =>
        rw [hmember] at heq
        exact Except.ok.inj heq
      | none =>
        rw [hmember] at heq
        cases hcaller : db.getUserByID userID with
        | none => simp [hcaller] at heq
        | some caller =>
          simp only [hcaller] at heq
          split_ifs at heq
          exact Except.ok.inj heq

/-- A handler that goes on with the admitted room answers alike, if it does for every
    room other than `r`. -/
theorem bind_alike {x x' : Except Response UUID} (hx : x = x' ∧ x ≠ .ok r)
    {f f' : UUID → ReadResponse} (hf : ∀ roomID, roomID ≠ r → f roomID = f' roomID) :
    (x >>= f) = (x' >>= f') := by
  obtain ⟨rfl, hne⟩ := hx
  cases x with
  | error e => rfl
  | ok roomID => exact hf roomID fun heq => hne (congrArg Except.ok heq)

theorem searchUsers_alike_iff (h : Outside r userID db db') (q roomID : String) :
    searchUsers parse locale db userID q roomID = searchUsers parse locale db' userID q roomID ↔
      ShowsNoDifference parse locale db userID r db' (.searchUsers q roomID) := by
  unfold searchUsers ShowsNoDifference
  dsimp only
  by_cases hempty : trimSpace q = ""
  · rw [if_pos hempty, if_pos hempty]
    exact ⟨fun _ hne => absurd hempty hne, fun _ => rfl⟩
  rw [if_neg hempty, if_neg hempty]
  by_cases hlong : maxUserSearchQueryLen < (trimSpace q).utf8ByteSize
  · rw [if_pos hlong, if_pos hlong]
    exact ⟨fun _ _ hle => absurd hlong (Nat.not_lt.mpr hle), fun _ => rfl⟩
  rw [if_neg hlong, if_neg hlong]
  cases hroom : excludedRoom parse roomID with
  | error e =>
    -- a malformed `room_id` is not `r`
    have hanswer : ∀ f : Option UUID → ReadResponse,
        ((Except.error e : Except Response (Option UUID)) >>= f) = .error e := fun _ => rfl
    rw [hanswer, hanswer]
    refine ⟨fun _ _ _ hraw hparse => ?_, fun _ => rfl⟩
    simp [excludedRoom, hraw, hparse] at hroom
  | ok excluded =>
    have hanswer :
      ∀ d : Snapshot, ((Except.ok excluded : Except Response (Option UUID)) >>= fun room =>
        (.ok (.users (d.searchUsers locale (trimSpace q) userID room userSearchLimit)) :
          ReadResponse)) =
        .ok (.users (d.searchUsers locale (trimSpace q) userID excluded userSearchLimit)) :=
      fun _ => rfl
    rw [hanswer, hanswer, Except.ok.injEq, ReadBody.users.injEq]
    by_cases hr : excluded = some r
    · subst hr
      rw [h.differs.searchUsers_iff]
      have hraw : trimSpace roomID ≠ "" ∧ parse (trimSpace roomID) = some r := by
        unfold excludedRoom at hroom
        split_ifs at hroom with hraw
        · cases hroom
        · cases hparse : parse (trimSpace roomID) with
          | none => simp [hparse] at hroom
          | some id =>
            simp only [hparse, Except.ok.injEq] at hroom
            exact ⟨hraw, hroom⟩
      exact ⟨fun hall _ _ _ _ => hall, fun hall => hall hempty (Nat.not_lt.mp hlong) hraw.1 hraw.2⟩
    · refine ⟨fun _ _ _ hraw hparse => ?_, fun _ => h.differs.searchUsers locale _ userID hr _⟩
      simp only [excludedRoom, if_neg hraw, hparse, Except.ok.injEq] at hroom
      exact absurd hroom.symm hr

/-- Two snapshots that differ only in a room `r` that is not public, in the memberships of
    others and in its messages: a caller who has no row in `r` and is no system admin gets
    the same answer from both, if and only if the request shows no difference between the
    members of `r`. -/
theorem answers_alike_iff (parse : String → Option UUID) (parseTime : String → Option Time)
    (locale : Store.Locale) {r userID : UUID} {db db' : Snapshot} (h : Outside r userID db db')
    (req : ReadRequest) :
    serveRead parse parseTime locale db userID req = serveRead parse parseTime
      locale db' userID req ↔
      ShowsNoDifference parse locale db userID r db' req := by
  cases req with
  | listRooms =>
    refine iff_of_true ?_ trivial
    exact congrArg (fun rooms => Except.ok (ReadBody.rooms rooms))
      (h.differs.listRoomsForUser h.row h.row')
  | listPublicChannels =>
    refine iff_of_true ?_ trivial
    exact congrArg (fun channels => Except.ok (ReadBody.channels channels))
      (h.differs.listPublicChannels h.hidden h.hidden' userID)
  | getRoom roomParam =>
    refine iff_of_true (bind_alike (requireMemberOrSystemAdmin_alike h roomParam) ?_) trivial
    intro roomID hroom
    rw [h.differs.getRoomByID hroom, h.differs.listMembers hroom]
  | listRoomMembers roomParam =>
    refine iff_of_true (bind_alike (requireMemberOrSystemAdmin_alike h roomParam) ?_) trivial
    intro roomID hroom
    rw [h.differs.listMembers hroom]
  | roomPresence roomParam =>
    refine iff_of_true (bind_alike (requireMemberOrSystemAdmin_alike h roomParam) ?_) trivial
    intro roomID hroom
    rw [h.differs.listPresenceForRoom hroom]
  | listMessages roomParam limit before =>
    refine iff_of_true (bind_alike (activeRoom_alike h roomParam) ?_) trivial
    intro roomID hroom
    cases parseMessageLimit limit with
    | error message => rfl
    | ok limit =>
      cases parseMessageBefore parseTime before with
      | error message => rfl
      | ok before =>
        dsimp only
        rw [h.differs.listRoomMessages hroom]
  | getUser userParam =>
    refine iff_of_true ?_ trivial
    show getUser parse db userParam = getUser parse db' userParam
    unfold getUser
    cases parse userParam with
    | none => rfl
    | some id =>
      dsimp only
      rw [h.differs.getUserByID]
  | searchUsers q roomID => exact searchUsers_alike_iff h q roomID

end

/-! ## A private channel -/

/-- A locale that folds ASCII and orders by code points. -/
def asciiLocale : Store.Locale where
  lower := Char.toLower
  le a b := decide (a ≤ b)
  le_total a b := by simpa using le_total a b
  le_trans a b c hab hbc := by
    rw [decide_eq_true_eq] at *
    exact hab.trans hbc
  le_antisymm a b hab hba := by
    rw [decide_eq_true_eq] at *
    exact le_antisymm hab hba

def alice : Account := ⟨1, "alice", "alice@example.org", "", none, none, false, 0, 0⟩

def bob : Account := ⟨2, "bob", "bob@example.org", "", none, none, false, 0, 0⟩

/-- Alice and Bob, and the given rooms and members. -/
def directory (rooms : List Room) (members : List RoomMember) : Snapshot where
  accounts := [alice, bob]
  rooms := rooms
  members := members
  history := ⟨[], [alice.summary, bob.summary], [], [], List.nodup_nil, by simp⟩
  presence := []
  status := fun _ => none
  account_id := by decide
  username := by decide
  history_users := rfl

def privateChannel : Room := ⟨7, some "plans", .channel, 2, none, none, false, false, 0, 0⟩

/-- Bob's private channel. -/
def withChannel : Snapshot := directory [privateChannel] [⟨9, 7, 2, .admin, 0, none, none, none⟩]

/-- No channel. -/
def withoutChannel : Snapshot := directory [] []

theorem outside_privateChannel : Outside 7 1 withChannel withoutChannel where
  differs := ⟨rfl, rfl, rfl, by decide, by decide, rfl, rfl, rfl⟩
  row := by decide
  row' := by decide
  hidden := by decide
  hidden' := by decide
  admin := by decide

/-- The text of the channel's id. -/
def channelParam : String := "00000000-0000-0000-0000-000000000007"

def parseSeven (raw : String) : Option UUID := if raw = channelParam then some 7 else none

theorem answers_alike_iff_masked :
    Outside 7 1 withChannel withoutChannel ∧
      serveRead parseSeven (fun _ => none) asciiLocale withChannel 1 (.getRoom channelParam) =
        .error (forbidden "you are not a member of this room") ∧
      serveRead parseSeven (fun _ => none) asciiLocale withoutChannel 1 (.getRoom channelParam) =
        .error (forbidden "you are not a member of this room") := by
  have halike := (answers_alike_iff parseSeven (fun _ => none) asciiLocale outside_privateChannel
    (.getRoom channelParam)).mpr trivial
  have hanswer :
    serveRead parseSeven (fun _ => none) asciiLocale withChannel 1 (.getRoom channelParam) =
      .error (forbidden "you are not a member of this room") := by rfl
  exact ⟨outside_privateChannel, hanswer, halike ▸ hanswer⟩

/-- Alice searches for `b` with the id of the channel: Bob is left out exactly when he is
    in it. -/
theorem search_shows_members :
    ¬ ∀ (parse : String → Option UUID) (parseTime : String → Option Time) (locale : Store.Locale)
      (r userID : UUID) (db db' : Snapshot), Outside r userID db db' → ∀ req : ReadRequest,
        serveRead parse parseTime locale db userID req =
          serveRead parse parseTime locale db' userID req := by
  intro h
  have halike := h parseSeven (fun _ => none) asciiLocale 7 1 withChannel withoutChannel
    outside_privateChannel (.searchUsers "b" channelParam)
  have hwith : serveRead parseSeven (fun _ => none) asciiLocale withChannel 1
      (.searchUsers "b" channelParam) = .ok (.users []) := by rfl
  have hwithout : serveRead parseSeven (fun _ => none) asciiLocale withoutChannel 1
      (.searchUsers "b" channelParam) = .ok (.users [bob.summary]) := by rfl
  rw [hwith, hwithout] at halike
  cases halike

end ConvoyChat.Handlers
