import ConvoyChat.Store.Messages
import ConvoyChat.Store.Rooms

/-!
# What the read endpoints read

The tables (and the presence keys of Redis) behind the `GET` endpoints, and models of
the queries that serve them: `ListRoomsForUser`, `ListPublicChannels`, `ListMembers`
(`internal/store/rooms.go`), `ListPresenceForRoom` (`presence.go`) and `SearchUsers`
(`users.go`).

`DiffersOnlyIn r`: two snapshots that are the same apart from the room `r`, its
memberships and its messages. Every query that is not about `r` gives the same on both;
the lemmas `DiffersOnlyIn.…` say so, one for each query.
-/

namespace ConvoyChat.Store

open ConvoyChat.Lib

/-- A row of `users` (`models.User`). -/
structure Account where
  id : UUID
  username : String
  email : String
  passwordHash : String
  avatarURL : Option String
  bio : Option String
  isSystemAdmin : Bool
  createdAt : Time
  updatedAt : Time
deriving DecidableEq, Repr

def Account.summary (a : Account) : UserSummary := ⟨a.id, a.username, a.avatarURL⟩

/-- A row of `user_presence`, with the column that is read. -/
structure PresenceRow where
  userID : UUID
  lastSeenAt : Option Time
deriving DecidableEq, Repr

/-- The tables, and the status that Redis holds for a user. -/
structure Snapshot where
  accounts : List Account
  rooms : List Room
  members : List RoomMember
  history : MessageTables
  presence : List PresenceRow
  status : UUID → Option String
  account_id : (accounts.map (·.id)).Nodup
  username : (accounts.map (·.username)).Nodup
  history_users : history.users = accounts.map Account.summary

/-- The database's locale: how `ILIKE` folds case, and the collation of `ORDER BY`. -/
structure Locale where
  lower : Char → Char
  le : String → String → Bool
  le_total : ∀ a b, le a b || le b a
  le_trans : ∀ a b c, le a b → le b c → le a c
  le_antisymm : ∀ a b, le a b → le b a → a = b

/-- `models.PublicChannel`. -/
structure PublicChannel where
  id : UUID
  name : Option String
  description : Option String
  avatarURL : Option String
  createdAt : Time
  memberCount : ℕ
deriving DecidableEq, Repr

/-- `models.RoomMemberWithUser`. -/
structure RoomMemberWithUser where
  user : UserSummary
  role : MemberRole
  joinedAt : Time
deriving DecidableEq, Repr

/-- `models.UserPresence`. -/
structure UserPresence where
  userID : UUID
  status : String
  lastSeenAt : Option Time
deriving DecidableEq, Repr

namespace Snapshot

variable (db : Snapshot)

/-- The user's messages of room `m.roomID` that `m` has not read (lines 425–429). -/
def unreadCount (m : RoomMember) : ℕ :=
  db.history.messages.countP fun msg =>
    msg.roomID = m.roomID && msg.deletedAt.isNone && msg.userID ≠ m.userID &&
      m.lastReadAt.getD m.joinedAt < msg.createdAt

/-- Model of `GetUserByID` (`users.go` lines 69–72). -/
def getUserByID (id : UUID) : Option Account := db.accounts.find? fun a => a.id = id

/-- Model of `GetRoomByID` (lines 411–414). -/
def getRoomByID (id : UUID) : Option Room := db.rooms.find? fun r => r.id = id

/-- Model of `GetMembership` (lines 478–494). -/
def getMembership (roomID userID : UUID) : Option RoomMember :=
  db.members.find? (·.isActiveRow roomID userID)

/-- Model of `ListRoomsForUser` (lines 422–454): the rooms with their `unread_count`. -/
def listRoomsForUser (userID : UUID) : List (Room × ℕ) :=
  (((db.members.filter fun m => m.userID = userID && m.leftAt.isNone).insertionSort
    fun a b => b.joinedAt ≤ a.joinedAt).filterMap fun m =>
      (db.getRoomByID m.roomID).map fun r => (r, db.unreadCount m))

/-- `WHERE` of `ListPublicChannels` (lines 621–629). -/
def isBrowsable (userID : UUID) (r : Room) : Bool :=
  r.type = .channel && r.isPublic && !r.isArchived &&
    !db.members.any (·.isActiveRow r.id userID) &&
    !db.members.any fun b => b.isRow r.id userID && b.bannedAt.isSome

/-- Model of `ListPublicChannels` (lines 615–652). -/
def listPublicChannels (userID : UUID) : List PublicChannel :=
  ((db.rooms.filter (db.isBrowsable userID)).insertionSort fun a b => b.createdAt ≤ a.createdAt).map
    fun r => ⟨r.id, r.name, r.description, r.avatarURL, r.createdAt,
      db.members.countP (·.isActiveIn r.id)⟩

/-- Model of `ListMembers` (lines 498–526). -/
def listMembers (roomID : UUID) : List RoomMemberWithUser :=
  ((db.members.filter (·.isActiveIn roomID)).insertionSort fun a b => a.joinedAt ≤
    b.joinedAt).filterMap
    fun m => (db.getUserByID m.userID).map fun a => ⟨a.summary, m.role, m.joinedAt⟩

/-- Model of `ListPresenceForRoom` (`presence.go` lines 195–241); an empty status counts
    as none. -/
def listPresenceForRoom (roomID : UUID) : List UserPresence :=
  (db.members.filter (·.isActiveIn roomID)).map fun m =>
    ⟨m.userID, ((db.status m.userID).filter fun s => s ≠ "").getD "offline",
      (db.presence.find? fun p => p.userID = m.userID).bind (·.lastSeenAt)⟩

end Snapshot

/-- `likeEscaper.Replace` (`users.go` line 109). -/
def likeEscape : List Char → List Char
  | [] => []
  | c :: query => if c = '\\' || c = '%' || c = '_' then '\\' :: c :: likeEscape query
      else c :: likeEscape query

/-- `text ILIKE pattern`. -/
def ilike (lower : Char → Char) : List Char → List Char → Bool
  | [], text => text.isEmpty
  | '%' :: pattern, text => text.tails.any (ilike lower pattern)
  | '_' :: pattern, text =>
    match text with
    | [] => false
    | _ :: text => ilike lower pattern text
  | '\\' :: c :: pattern, text =>
    match text with
    | [] => false
    | x :: text => lower c = lower x && ilike lower pattern text
  | c :: pattern, text =>
    match text with
    | [] => false
    | x :: text => lower c = lower x && ilike lower pattern text

/-- Who is searched for: `u.username ILIKE $1 AND u.id <> $2`. -/
def isMatch (locale : Locale) (query : String) (userID : UUID) (u : UserSummary) : Bool :=
  ilike locale.lower (likeEscape query.toList ++ ['%']) u.username.toList && u.id ≠ userID

/-- Model of `SearchUsers` (`users.go` lines 117–150). -/
def Snapshot.searchUsers (db : Snapshot) (locale : Locale) (query : String) (excludeUserID : UUID)
    (excludeRoomID : Option UUID) (limit : ℕ) : List UserSummary :=
  (((db.accounts.map Account.summary).filter fun u =>
      isMatch locale query excludeUserID u &&
        match excludeRoomID with
        | none => true
        | some roomID => !db.members.any (·.isActiveRow roomID u.id)).insertionSort
    fun a b => locale.le a.username b.username).take limit

/-! ## Snapshots that differ in one room -/

/-- `id` is not the id of a message of room `r`. -/
def MessageTables.isElsewhere (t : MessageTables) (r id : UUID) : Bool :=
  !t.messages.any fun m => m.id = id && m.roomID = r

/-- The snapshots differ at most in the room `r`, in its memberships, and in its messages
    with their readers and reactions. -/
structure DiffersOnlyIn (r : UUID) (db db' : Snapshot) : Prop where
  accounts : db.accounts = db'.accounts
  presence : db.presence = db'.presence
  status : db.status = db'.status
  rooms : db.rooms.filter (·.id ≠ r) = db'.rooms.filter (·.id ≠ r)
  members : db.members.filter (·.roomID ≠ r) = db'.members.filter (·.roomID ≠ r)
  messages : db.history.messages.filter (·.roomID ≠ r) = db'.history.messages.filter (·.roomID ≠ r)
  reads : db.history.reads.filter (fun x => db.history.isElsewhere r x.messageID) =
    db'.history.reads.filter fun x => db'.history.isElsewhere r x.messageID
  reactions : db.history.reactions.filter (fun x => db.history.isElsewhere r x.messageID) =
    db'.history.reactions.filter fun x => db'.history.isElsewhere r x.messageID

/-- `userID` has no row in `room_members` for room `r`. -/
def Snapshot.NoRow (db : Snapshot) (r userID : UUID) : Prop :=
  ∀ m ∈ db.members, m.isRow r userID = false

/-- Room `r`, if it exists, is not a public channel. -/
def Snapshot.NotPublic (db : Snapshot) (r : UUID) : Prop :=
  ∀ x ∈ db.rooms, x.id = r → ¬ (x.type = .channel ∧ x.isPublic = true)

instance (db : Snapshot) (r userID : UUID) : Decidable (db.NoRow r userID) :=
  inferInstanceAs (Decidable (∀ m ∈ db.members, m.isRow r userID = false))

instance (db : Snapshot) (r : UUID) : Decidable (db.NotPublic r) :=
  inferInstanceAs (Decidable (∀ x ∈ db.rooms, x.id = r → ¬ (x.type = .channel ∧ x.isPublic = true)))

section

variable {r userID roomID : UUID} {db db' : Snapshot}

theorem isRow_iff {m : RoomMember} :
    m.isRow roomID userID = true ↔ m.roomID = roomID ∧ m.userID = userID := by
  simp [RoomMember.isRow]

theorem isActiveRow_iff {m : RoomMember} :
    m.isActiveRow roomID userID = true ↔ (m.roomID = roomID ∧ m.userID = userID) ∧
    m.leftAt = none := by
  simp [RoomMember.isActiveRow, RoomMember.isRow]

theorem isActiveIn_iff {m : RoomMember} :
    m.isActiveIn roomID = true ↔ m.roomID = roomID ∧ m.leftAt = none := by
  simp [RoomMember.isActiveIn]

theorem Snapshot.NoRow.getMembership (h : db.NoRow r userID) :
    db.getMembership r userID = none := by
  rw [Snapshot.getMembership, List.find?_eq_none]
  intro m hm
  simp [RoomMember.isActiveRow, h m hm]

namespace DiffersOnlyIn

variable (h : DiffersOnlyIn r db db')
include h

theorem getUserByID (id : UUID) : db.getUserByID id = db'.getUserByID id := by
  rw [Snapshot.getUserByID, Snapshot.getUserByID, h.accounts]

theorem getRoomByID (hroom : roomID ≠ r) : db.getRoomByID roomID = db'.getRoomByID roomID := by
  have hother : ∀ x : Room, decide (x.id = roomID) = true → decide (x.id ≠ r) = true := by
    intro x hx
    rw [decide_eq_true_eq] at hx ⊢
    rw [hx]
    exact hroom
  exact find?_agree h.rooms (fun x _ => hother x) fun x _ => hother x

theorem getMembership (hroom : roomID ≠ r) (userID : UUID) :
    db.getMembership roomID userID = db'.getMembership roomID userID := by
  have hother : ∀ m : RoomMember, m.isActiveRow roomID userID = true →
      decide (m.roomID ≠ r) = true := by
    intro m hm
    rw [decide_eq_true_eq, (isActiveRow_iff.mp hm).1.1]
    exact hroom
  exact find?_agree h.members (fun m _ => hother m) fun m _ => hother m

theorem filter_isActiveIn (hroom : roomID ≠ r) :
    db.members.filter (·.isActiveIn roomID) = db'.members.filter (·.isActiveIn roomID) := by
  have hother : ∀ m : RoomMember, m.isActiveIn roomID = true → decide (m.roomID ≠ r) = true := by
    intro m hm
    rw [decide_eq_true_eq, (isActiveIn_iff.mp hm).1]
    exact hroom
  exact filter_agree h.members (fun m _ => hother m) fun m _ => hother m

theorem listMembers (hroom : roomID ≠ r) : db.listMembers roomID = db'.listMembers roomID := by
  rw [Snapshot.listMembers, Snapshot.listMembers, h.filter_isActiveIn hroom]
  refine List.filterMap_congr fun m _ => ?_
  rw [h.getUserByID]

theorem listPresenceForRoom (hroom : roomID ≠ r) :
    db.listPresenceForRoom roomID = db'.listPresenceForRoom roomID := by
  rw [Snapshot.listPresenceForRoom, Snapshot.listPresenceForRoom, h.filter_isActiveIn hroom,
    h.status, h.presence]

theorem unreadCount {m : RoomMember} (hroom : m.roomID ≠ r) :
    db.unreadCount m = db'.unreadCount m := by
  have hother : ∀ msg : Message, (msg.roomID = m.roomID && msg.deletedAt.isNone &&
      msg.userID ≠ m.userID && m.lastReadAt.getD m.joinedAt < msg.createdAt) = true →
      decide (msg.roomID ≠ r) = true := by
    intro msg hmsg
    simp only [Bool.and_eq_true, decide_eq_true_eq] at hmsg
    rw [decide_eq_true_eq, hmsg.1.1.1]
    exact hroom
  exact countP_agree h.messages (fun msg _ => hother msg) fun msg _ => hother msg

theorem listRoomsForUser (hrow : db.NoRow r userID) (hrow' : db'.NoRow r userID) :
    db.listRoomsForUser userID = db'.listRoomsForUser userID := by
  have hother : ∀ {d : Snapshot}, d.NoRow r userID → ∀ m ∈ d.members,
      (m.userID = userID && m.leftAt.isNone) = true → decide (m.roomID ≠ r) = true := by
    intro d hd m hm hmine
    simp only [Bool.and_eq_true, decide_eq_true_eq] at hmine
    rw [decide_eq_true_eq]
    rintro rfl
    have hno := hd m hm
    simp [RoomMember.isRow, hmine.1] at hno
  have hmembers := filter_agree h.members (hother hrow) (hother hrow')
  rw [Snapshot.listRoomsForUser, Snapshot.listRoomsForUser, hmembers]
  refine List.filterMap_congr fun m hm => ?_
  have hroom : m.roomID ≠ r := by
    have hmem := (List.mem_insertionSort _).mp hm
    simpa using hother hrow' m (List.mem_filter.mp hmem).1 (List.mem_filter.mp hmem).2
  rw [h.getRoomByID hroom, h.unreadCount hroom]

theorem listPublicChannels (hpublic : db.NotPublic r) (hpublic' : db'.NotPublic r) (userID : UUID) :
    db.listPublicChannels userID = db'.listPublicChannels userID := by
  have hbrowse : ∀ x : Room, x.id ≠ r → db.isBrowsable userID x = db'.isBrowsable userID x := by
    intro x hx
    have hactive : db.members.any (·.isActiveRow x.id userID) =
        db'.members.any (·.isActiveRow x.id userID) := by
      have hother : ∀ m : RoomMember, m.isActiveRow x.id userID = true →
          decide (m.roomID ≠ r) = true := by
        intro m hm
        rw [decide_eq_true_eq, (isActiveRow_iff.mp hm).1.1]
        exact hx
      exact any_agree h.members (fun m _ => hother m) fun m _ => hother m
    have hbanned : (db.members.any fun b => b.isRow x.id userID && b.bannedAt.isSome) =
        db'.members.any fun b => b.isRow x.id userID && b.bannedAt.isSome := by
      have hother : ∀ m : RoomMember, (m.isRow x.id userID && m.bannedAt.isSome) = true →
          decide (m.roomID ≠ r) = true := by
        intro m hm
        rw [decide_eq_true_eq, (isRow_iff.mp (Bool.and_eq_true_iff.mp hm).1).1]
        exact hx
      exact any_agree h.members (fun m _ => hother m) fun m _ => hother m
    rw [Snapshot.isBrowsable, Snapshot.isBrowsable, hactive, hbanned]
  have hother : ∀ {d : Snapshot}, d.NotPublic r → ∀ x ∈ d.rooms, d.isBrowsable userID x = true →
      x.id ≠ r := by
    intro d hd x hx hbrowsable heq
    simp only [Snapshot.isBrowsable, Bool.and_eq_true, decide_eq_true_eq] at hbrowsable
    exact hd x hx heq ⟨hbrowsable.1.1.1.1, hbrowsable.1.1.1.2⟩
  have hrooms :
      db.rooms.filter (db.isBrowsable userID) = db'.rooms.filter (db'.isBrowsable userID) := by
    have hfirst : db.rooms.filter (db.isBrowsable userID) =
        (db.rooms.filter (·.id ≠ r)).filter (db.isBrowsable userID) := by
      rw [List.filter_filter]
      refine List.filter_congr fun x hx => ?_
      cases hb : db.isBrowsable userID x with
      | false => rfl
      | true => simp [hother hpublic x hx hb]
    have hsecond : db'.rooms.filter (db'.isBrowsable userID) =
        (db'.rooms.filter (·.id ≠ r)).filter (db'.isBrowsable userID) := by
      rw [List.filter_filter]
      refine List.filter_congr fun x hx => ?_
      cases hb : db'.isBrowsable userID x with
      | false => rfl
      | true => simp [hother hpublic' x hx hb]
    rw [hfirst, hsecond, h.rooms]
    refine List.filter_congr fun x hx => hbrowse x ?_
    simpa using (List.mem_filter.mp hx).2
  rw [Snapshot.listPublicChannels, Snapshot.listPublicChannels, hrooms]
  refine List.map_congr_left fun x hx => ?_
  have hmem := List.mem_filter.mp ((List.mem_insertionSort _).mp hx)
  have hid : x.id ≠ r := hother hpublic' x hmem.1 hmem.2
  rw [List.countP_eq_length_filter, List.countP_eq_length_filter, h.filter_isActiveIn hid]

theorem queryRoomMessages (hroom : roomID ≠ r) (limit : ℕ) (before : Option Time) :
    Store.queryRoomMessages db.history roomID limit before =
      Store.queryRoomMessages db'.history roomID limit before := by
  have husers : db.history.users = db'.history.users := by
    rw [db.history_users, db'.history_users, h.accounts]
  have hother : ∀ m : Message, (m.roomID = roomID && isBefore before m.createdAt) = true →
      decide (m.roomID ≠ r) = true := by
    intro m hm
    simp only [Bool.and_eq_true, decide_eq_true_eq] at hm
    rw [decide_eq_true_eq, hm.1]
    exact hroom
  have hmessages := filter_agree h.messages (fun m _ => hother m) fun m _ => hother m
  rw [Store.queryRoomMessages, Store.queryRoomMessages, hmessages, husers]

omit h in
/-- A message on a page of another room is not one of `r`. -/
theorem isElsewhere_page (hroom : roomID ≠ r) {limit : ℕ} {before : Option Time} {id : UUID}
    (hid : ((Store.queryRoomMessages db.history roomID limit before).map (·.id)).contains id =
      true) :
    db.history.isElsewhere r id = true := by
  obtain ⟨row, hrow, rfl⟩ := List.mem_map.mp (List.contains_iff_mem.mp hid)
  obtain ⟨m, hm, hmroom, u, rfl⟩ := mem_queryRoomMessages hrow
  rw [MessageTables.isElsewhere, Bool.not_eq_true', List.any_eq_false]
  intro m' hm' hboth
  simp only [Bool.and_eq_true, decide_eq_true_eq] at hboth
  obtain rfl : m' = m := List.inj_on_of_nodup_map db.history.message_id hm' hm hboth.1
  exact hroom (hmroom.symm.trans hboth.2)

theorem listRoomMessages (hroom : roomID ≠ r) (limit : ℕ) (before : Option Time) :
    Store.listRoomMessages db.history roomID limit before =
      Store.listRoomMessages db'.history roomID limit before := by
  have hquery := h.queryRoomMessages hroom limit before
  have hpage : ∀ id, ((Store.queryRoomMessages db.history roomID limit before).map
      (·.id)).contains id = true → db.history.isElsewhere r id = true :=
    fun _ => isElsewhere_page hroom
  have hpage' : ∀ id, ((Store.queryRoomMessages db'.history roomID limit before).map
      (·.id)).contains id = true → db'.history.isElsewhere r id = true :=
    fun _ => isElsewhere_page hroom
  rw [← hquery] at hpage'
  have hreads := filter_agree (p := fun x => ((Store.queryRoomMessages db.history roomID limit
    before).map (·.id)).contains x.messageID) h.reads (fun x _ => hpage x.messageID)
    fun x _ => hpage' x.messageID
  have hreactions := filter_agree (p := fun x => ((Store.queryRoomMessages db.history roomID limit
    before).map (·.id)).contains x.messageID) h.reactions (fun x _ => hpage x.messageID)
    fun x _ => hpage' x.messageID
  simp only [Store.listRoomMessages, listReadByForMessages, listReactionsForMessages,
    ← hquery, hreads, hreactions]

end DiffersOnlyIn

/-! ## The search -/

/-- The users that match a search, other than the caller, in the order of their names. -/
def Snapshot.candidates (db : Snapshot) (locale : Locale) (query : String) (userID : UUID) :
    List UserSummary :=
  ((db.accounts.map Account.summary).filter (isMatch locale query userID)).insertionSort
    fun a b => locale.le a.username b.username

/-- The user is an active member of the room. -/
def Snapshot.isActiveMember (db : Snapshot) (roomID : UUID) (u : UserSummary) : Bool :=
  db.members.any (·.isActiveRow roomID u.id)

theorem candidates_nodup (locale : Locale) (query : String) (userID : UUID) :
    (db.candidates locale query userID).Nodup := by
  rw [Snapshot.candidates, (List.perm_insertionSort _ _).nodup_iff]
  refine List.Nodup.filter _ (List.Nodup.of_map (·.id) ?_)
  rw [List.map_map]
  exact db.account_id

/-- The search takes the first candidates that are not in the room. -/
theorem searchUsers_eq (locale : Locale) (query : String) (userID roomID : UUID) (limit : ℕ) :
    db.searchUsers locale query userID (some roomID) limit =
      ((db.candidates locale query userID).filter fun u => !db.isActiveMember roomID u).take
        limit := by
  have htotal : Std.Total fun a b : UserSummary => locale.le a.username b.username = true :=
    ⟨fun a b => by simpa using locale.le_total a.username b.username⟩
  have htrans : IsTrans UserSummary fun a b => locale.le a.username b.username = true :=
    ⟨fun a b c => locale.le_trans a.username b.username c.username⟩
  rw [Snapshot.searchUsers, Snapshot.candidates]
  congr 1
  have hsplit : ((db.accounts.map Account.summary).filter fun u => isMatch locale query userID u &&
      !db.members.any (·.isActiveRow roomID u.id)) =
      ((db.accounts.map Account.summary).filter (isMatch locale query userID)).filter
        fun u => !db.isActiveMember roomID u := by
    rw [List.filter_filter]
    refine List.filter_congr fun u _ => Bool.and_comm _ _
  refine List.Perm.eq_of_pairwise ?_ (List.pairwise_insertionSort
    (fun a b : UserSummary => locale.le a.username b.username = true) _) ?_ ?_
  · -- user names are unique
    intro a b ha hb hab hba
    have ha : a ∈ db.accounts.map Account.summary :=
      (List.mem_filter.mp ((List.mem_insertionSort _).mp ha)).1
    have hb : b ∈ db.accounts.map Account.summary :=
      (List.mem_filter.mp ((List.mem_insertionSort _).mp (List.mem_filter.mp hb).1)).1
    have hnames : ((db.accounts.map Account.summary).map (·.username)).Nodup := by
      rw [List.map_map]
      exact db.username
    exact List.inj_on_of_nodup_map hnames ha hb (locale.le_antisymm _ _ hab hba)
  · exact (List.pairwise_insertionSort _ _).sublist List.filter_sublist
  · refine (List.perm_insertionSort _ _).trans ?_
    rw [hsplit]
    exact ((List.perm_insertionSort _ _).filter _).symm

namespace DiffersOnlyIn

variable (h : DiffersOnlyIn r db db')
include h

theorem candidates (locale : Locale) (query : String) (userID : UUID) :
    db.candidates locale query userID = db'.candidates locale query userID := by
  rw [Snapshot.candidates, Snapshot.candidates, h.accounts]

theorem isActiveMember (hroom : roomID ≠ r) (u : UserSummary) :
    db.isActiveMember roomID u = db'.isActiveMember roomID u := by
  have hother : ∀ m : RoomMember, m.isActiveRow roomID u.id = true →
      decide (m.roomID ≠ r) = true := by
    intro m hm
    rw [decide_eq_true_eq, (isActiveRow_iff.mp hm).1.1]
    exact hroom
  exact any_agree h.members (fun m _ => hother m) fun m _ => hother m

theorem searchUsers (locale : Locale) (query : String) (userID : UUID) {room : Option UUID}
    (hroom : room ≠ some r) (limit : ℕ) :
    db.searchUsers locale query userID room limit = db'.searchUsers locale query
      userID room limit := by
  cases room with
  | none => rw [Snapshot.searchUsers, Snapshot.searchUsers, h.accounts]
  | some roomID =>
    have hne : roomID ≠ r := fun heq => hroom (congrArg some heq)
    rw [searchUsers_eq, searchUsers_eq, h.candidates]
    congr 1
    refine List.filter_congr fun u _ => ?_
    rw [h.isActiveMember hne]

/-- A search that excludes the members of `r` gives the same exactly when every candidate
    whose membership differs comes after `limit` candidates who are not in the room in
    either snapshot. -/
theorem searchUsers_iff (locale : Locale) (query : String) (userID : UUID) (limit : ℕ) :
    db.searchUsers locale query userID (some r) limit = db'.searchUsers locale query
      userID (some r) limit ↔
      ∀ before u after, db.candidates locale query userID = before ++ u :: after →
        db.isActiveMember r u ≠ db'.isActiveMember r u →
        limit ≤ before.countP fun x => !db.isActiveMember r x && !db'.isActiveMember r x := by
  rw [searchUsers_eq, searchUsers_eq, ← h.candidates,
    take_filter_eq_iff (candidates_nodup locale query userID)]
  refine forall_congr' fun before => forall_congr' fun u => forall_congr' fun after =>
    forall_congr' fun _ => ?_
  have hnot : ∀ a b : Bool, ((!a) ≠ !b) ↔ a ≠ b := by decide
  rw [hnot]

end DiffersOnlyIn

end

end ConvoyChat.Store
