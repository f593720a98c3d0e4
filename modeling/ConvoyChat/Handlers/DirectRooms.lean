import ConvoyChat.Handlers.Rooms
import ConvoyChat.Store.RoomLemmas

/-!
# What a request can do to a direct room

Uniqueness and shape of direct rooms are not constraints of the schema. They rest on
what the handlers check: an invite, a role change and a kick need an admin of the
room, joining needs a public channel, and `PromoteOldestIfNoAdmins` needs a channel
or a group. In a direct room nobody is an admin.

* `handler_shut`: a handler to which room `r` shows no admin and no joinable channel
  never adds, bans or promotes anybody there.
* `handler_distinct`: no handler asks for a direct room of a user with themselves.
* `serve_calm`: every other store call keeps the direct rooms and the id, the user,
  the role and the ban of each of their rows.
-/

namespace ConvoyChat.Handlers

open ConvoyChat.Lib ConvoyChat.Store

/-- Room `r` exists and is a channel or a group. -/
def NonDirect (db : Database) (r : UUID) : Prop :=
  ∃ room ∈ db.rooms, room.id = r ∧ room.type ≠ .direct

/-- The call adds a member to room `r`, bans one or changes a role there. -/
def Alters (r : UUID) : RoomOp → Prop
  | .addMember r' _ _ => r' = r
  | .banMember r' _ => r' = r
  | .changeMemberRole r' _ _ => r' = r
  | _ => False

/-- The answers of a store in which room `r` has no admin and is no joinable
    channel. -/
def Shut (r : UUID) : (o : RoomOp) → o.Res → Prop
  | .getMembership r' _, res => r' = r → ∀ m, res = .ok m → m.role ≠ .admin
  | .getRoomByID r', res => r' = r → ∀ room, res = .ok room → joinable room = false
  | _, _ => True

/-- The call asks for a direct room of a user with themselves. -/
def SelfDirect : RoomOp → Prop
  | .getOrCreateDirectRoom a b => a = b
  | _ => False

section

variable {parse : String → Option UUID} {allow : (o : RoomOp) → o.Res → Prop} {P : RoomOp → Prop}

/-- A call that is in neither of the two sets above. -/
def Harmless : RoomOp → Prop
  | .addMember _ _ _ => False
  | .banMember _ _ => False
  | .changeMemberRole _ _ _ => False
  | .getOrCreateDirectRoom _ _ => False
  | _ => True

theorem createRoomChannel_never (hP : ∀ o, Harmless o → ¬ P o) (u : UUID)
    (req : CreateRoomRequest) :
    (createRoomChannel u req).Never allow P := by
  unfold createRoomChannel
  dsimp only
  split
  · exact .ret _
  · refine .perform (hP _ trivial) fun _ _ => ?_
    split <;> exact .ret _

theorem lookUpMembers_never {f : Option Response → RoomProc Response} (hP : ∀ o, Harmless o → ¬ P o)
    (hf : ∀ w, (f w).Never allow P) (ids : List UUID) :
    (lookUpMembers ids >>= f).Never allow P := by
  induction ids with
  | nil => exact hf none
  | cons id ids ih =>
    refine .perform (hP _ trivial) fun res _ => ?_
    cases res with
    | ok u => exact ih
    | error e => cases e <;> exact hf _

theorem publishInvitations_never {f : Unit → RoomProc Response} (hP : ∀ o, Harmless o → ¬ P o)
    (hf : (f ()).Never allow P) (r : UUID) (ids : List UUID) :
    (publishInvitations r ids >>= f).Never allow P := by
  induction ids with
  | nil => exact hf
  | cons id ids ih => exact .perform (hP _ trivial) fun _ _ => ih

theorem createRoomGroup_never (hP : ∀ o, Harmless o → ¬ P o) (u : UUID) (req : CreateRoomRequest) :
    (createRoomGroup parse u req).Never allow P := by
  unfold createRoomGroup
  dsimp only
  split
  · exact .ret _
  · split
    · exact .ret _
    · refine lookUpMembers_never hP (fun w => ?_) _
      cases w with
      | some w => exact .ret _
      | none =>
        refine .perform (hP _ trivial) fun res _ => ?_
        cases res with
        | error e => exact .ret _
        | ok room => exact publishInvitations_never hP (.ret _) _ _

/-- `CreateRoom` does nothing but create rooms; for a direct room it names two
    users. -/
theorem createRoom_never (hP : ∀ o, Harmless o → ¬ P o)
    (hdirect : ∀ a b, a ≠ b → ¬ P (.getOrCreateDirectRoom a b)) (u : UUID)
    (body : Option CreateRoomRequest) : (createRoom parse u body).Never allow P := by
  unfold createRoom
  split
  · exact .ret _
  · split_ifs
    · exact createRoomChannel_never hP _ _
    · unfold createRoomDirect
      split
      · exact .ret _
      · rename_i peerID hpeer
        have hne : u ≠ peerID := by
          unfold validatePeerUserID at hpeer
          split at hpeer
          · cases hpeer
          · split_ifs at hpeer with hself
            cases hpeer
            exact fun h => hself h.symm
        refine .perform (hP _ trivial) fun _ _ => ?_
        split
        · exact .ret _
        · exact .ret _
        · refine .perform (hdirect u peerID hne) fun _ _ => ?_
          split
          · exact .ret _
          · split
            · exact .perform (hP _ trivial) fun _ _ => .ret _
            · exact .ret _
    · exact createRoomGroup_never hP _ _
    · exact .ret _

theorem inviteMember_never (hP : ∀ o, Harmless o → ¬ P o)
    (hadd : ∀ r u m, allow (.getMembership r u) (.ok m) → m.role = .admin →
      ∀ invitee, ¬ P (.addMember r invitee .member)) (u : UUID) (room : String)
    (body : Option String) : (inviteMember parse u room body).Never allow P := by
  unfold inviteMember requireActiveMembership
  cases hroom : parse room with
  | none => exact .ret _
  | some r =>
    refine .perform (hP _ trivial) fun res hres => ?_
    cases res with
    | error e => cases e <;> exact .ret _
    | ok m =>
      show Proc.Never _ _ (if m.role ≠ .admin then _ else _)
      split_ifs with hrole
      · exact .ret _
      · have hadd' := hadd r u m hres (by simpa using hrole)
        split
        · exact .ret _
        · split
          · exact .ret _
          · refine .perform (hP _ trivial) fun _ _ => ?_
            split
            · exact .ret _
            · exact .ret _
            · refine .perform (hadd' _) fun _ _ => ?_
              split
              · exact .ret _
              · exact .ret _
              · exact .perform (hP _ trivial) fun _ _ => .ret _

theorem joinChannel_never (hP : ∀ o, Harmless o → ¬ P o)
    (hadd : ∀ r room, allow (.getRoomByID r) (.ok room) → joinable room = true →
      ∀ u, ¬ P (.addMember r u .member)) (u : UUID) (room : String) :
    (joinChannel parse u room).Never allow P := by
  unfold joinChannel
  split
  · exact .ret _
  · refine .perform (hP _ trivial) fun res hres => ?_
    split
    · exact .ret _
    · exact .ret _
    · split_ifs with hjoin
      · exact .ret _
      · have hadd' := hadd _ _ hres (by simpa using hjoin)
        refine .perform (hP _ trivial) fun _ _ => ?_
        split
        · exact .ret _
        · exact .ret _
        · refine .perform (hadd' u) fun _ _ => ?_
          split
          · exact .ret _
          · exact .ret _
          · refine .perform (hP _ trivial) fun _ _ => ?_
            split
            · exact .ret _
            · exact .perform (hP _ trivial) fun _ _ => .ret _

theorem leaveRoom_never (hP : ∀ o, Harmless o → ¬ P o) (u : UUID) (room : String) :
    (leaveRoom parse u room).Never allow P := by
  unfold leaveRoom
  split
  · exact .ret _
  · refine .perform (hP _ trivial) fun _ _ => ?_
    split
    · exact .ret _
    · exact .ret _
    · refine .perform (hP _ trivial) fun _ _ => ?_
      refine .perform (hP _ trivial) fun _ _ => ?_
      split
      · exact .perform (hP _ trivial) fun _ _ => .ret _
      · exact .ret _

/-- What runs behind `RequireRoomAdmin` runs only for an admin of the room. -/
theorem requireRoomAdmin_never (hP : ∀ o, Harmless o → ¬ P o) {u : UUID} {room : String}
    {next : RoomProc Response}
    (hnext : ∀ r m, parse room = some r → allow (.getMembership r u) (.ok m) → m.role = .admin →
      next.Never allow P) : (requireRoomAdmin parse room u next).Never allow P := by
  unfold requireRoomAdmin
  split
  · exact .ret _
  · rename_i r hr
    refine .perform (hP _ trivial) fun res hres => ?_
    split
    · exact .ret _
    · exact .ret _
    · split_ifs with hrole
      · exact .ret _
      · exact hnext r _ hr hres (by simpa using hrole)

theorem changeMemberRole_never (hP : ∀ o, Harmless o → ¬ P o)
    (hrole : ∀ r u m, allow (.getMembership r u) (.ok m) → m.role = .admin →
      ∀ target role, ¬ P (.changeMemberRole r target role)) (u : UUID) (room target : String)
    (body : Option String) : (changeMemberRole parse u room target body).Never allow P := by
  unfold changeMemberRole
  refine requireRoomAdmin_never hP fun r m hr hm hadmin => ?_
  rw [hr]
  dsimp only
  split
  · exact .ret _
  · split
    · exact .ret _
    · split
      · exact .ret _
      · refine .perform (hrole r u m hm hadmin _ _) fun _ _ => ?_
        split
        · exact .ret _
        · exact .ret _
        · exact .ret _
        · split_ifs
          · exact .perform (hP _ trivial) fun _ _ => .ret _
          · exact .ret _

theorem removeMember_never (hP : ∀ o, Harmless o → ¬ P o)
    (hban : ∀ r u m, allow (.getMembership r u) (.ok m) → m.role = .admin →
      ∀ target, ¬ P (.banMember r target)) (u : UUID) (room target : String) :
    (removeMember parse u room target).Never allow P := by
  unfold removeMember
  refine requireRoomAdmin_never hP fun r m hr hm hadmin => ?_
  rw [hr]
  dsimp only
  split
  · exact .ret _
  · split_ifs
    · exact .ret _
    · refine .perform (hban r u m hm hadmin _) fun _ _ => ?_
      split
      · exact .ret _
      · exact .ret _
      · exact .perform (hP _ trivial) fun _ _ => .ret _

end

theorem not_alters_of_harmless {r : UUID} {o : RoomOp} (h : Harmless o) : ¬ Alters r o := by
  cases o <;> first | exact id | exact False.elim h

theorem not_selfDirect_of_harmless {o : RoomOp} (h : Harmless o) : ¬ SelfDirect o := by
  cases o <;> first | exact id | exact False.elim h

/-- A handler to which room `r` is shut does not alter it. -/
theorem handler_shut (parse : String → Option UUID) (req : RoomRequest) (r : UUID) :
    (req.handler parse).Never (Shut r) (Alters r) := by
  have hP : ∀ o, Harmless o → ¬ Alters r o := fun _ => not_alters_of_harmless
  have hadmin : ∀ r' u m, Shut r (.getMembership r' u) (.ok m) → m.role = .admin → r' ≠ r :=
    fun r' u m hm hrole heq => hm heq m rfl hrole
  cases req with
  | createRoom u body => exact createRoom_never hP (fun _ _ _ => id) u body
  | inviteMember u room body =>
    exact inviteMember_never hP (fun r' u m hm hrole _ => hadmin r' u m hm hrole) u room body
  | joinChannel u room =>
    refine joinChannel_never hP (fun r' x hx hjoin _ heq => ?_) u room
    rw [hx heq x rfl] at hjoin
    cases hjoin
  | leaveRoom u room => exact leaveRoom_never hP u room
  | changeMemberRole u room target body =>
    exact changeMemberRole_never hP (fun r' u m hm hrole _ _ => hadmin r' u m hm hrole)
      u room target
      body
  | removeMember u room target =>
    exact removeMember_never hP (fun r' u m hm hrole _ => hadmin r' u m hm hrole) u room target

/-- A direct room is asked for two different users. -/
theorem handler_distinct (parse : String → Option UUID) (req : RoomRequest) :
    (req.handler parse).Never Proc.Always SelfDirect := by
  have hP : ∀ o, Harmless o → ¬ SelfDirect o := fun _ => not_selfDirect_of_harmless
  cases req with
  | createRoom u body => exact createRoom_never hP (fun _ _ hne heq => hne heq) u body
  | inviteMember u room body => exact inviteMember_never hP (fun _ _ _ _ _ _ => id) u room body
  | joinChannel u room => exact joinChannel_never hP (fun _ _ _ _ _ => id) u room
  | leaveRoom u room => exact leaveRoom_never hP u room
  | changeMemberRole u room target body =>
    exact changeMemberRole_never hP (fun _ _ _ _ _ _ _ => id) u room target body
  | removeMember u room target => exact removeMember_never hP (fun _ _ _ _ _ _ => id) u room target

/-! ## The tables -/

/-- What never changes of a row of a direct room. -/
structure FixedPart where
  id : UUID
  userID : UUID
  role : MemberRole
  bannedAt : Option Time
deriving DecidableEq, Repr

def fixedPart (m : RoomMember) : FixedPart := ⟨m.id, m.userID, m.role, m.bannedAt⟩

/-- The membership rows of room `r`, less what may change. -/
def fixedRows (db : Database) (r : UUID) : List FixedPart :=
  (db.members.filter fun m => m.roomID = r).map fixedPart

/-- From `db` to `db'` no direct room was added or lost, and the rows of the direct
    rooms kept their fixed part. -/
structure Calm (db db' : Database) : Prop where
  keyed : db.Keyed → db'.Keyed
  referenced : db.Referenced → db'.Referenced
  kept : ∀ room ∈ db.rooms, room ∈ db'.rooms
  added : ∀ room ∈ db'.rooms, room ∈ db.rooms ∨ room.type ≠ .direct
  rows : ∀ room ∈ db.rooms, room.type = .direct → fixedRows db' room.id = fixedRows db room.id

/-- An update that writes neither the room nor the fixed part. -/
theorem fixedRows_updateWhere {p : RoomMember → Bool} {f : RoomMember → RoomMember}
    (hroom : ∀ m, (f m).roomID = m.roomID) (hfixed : ∀ m, fixedPart (f m) = fixedPart m)
    (db : Database) (r : UUID) :
    fixedRows { db with members := updateWhere p f db.members } r = fixedRows db r := by
  unfold fixedRows
  dsimp only
  induction db.members with
  | nil => rfl
  | cons m ms ih =>
    rw [updateWhere_cons, List.filter_cons, List.filter_cons]
    have hsame : (if p m = true then f m else m).roomID = m.roomID := by
      split_ifs
      · exact hroom m
      · rfl
    rw [hsame]
    split_ifs
    · rw [List.map_cons, List.map_cons, ih, hfixed]
    · rw [List.map_cons, List.map_cons, ih]
    · exact ih

theorem getRoomByID_ok {db : Database} {r : UUID} {room : Room}
    (h : Store.getRoomByID r db = .ok room) : room ∈ db.rooms ∧ room.id = r := by
  unfold Store.getRoomByID at h
  split at h
  · rename_i x hx
    cases h
    exact ⟨List.mem_of_find?_eq_some hx, by simpa using List.find?_some hx⟩
  · cases h

theorem Calm.refl (db : Database) : Calm db db :=
  ⟨id, id, fun _ h => h, fun _ h => .inl h, fun _ _ _ => rfl⟩

theorem NonDirect.calm {db db' : Database} {r : UUID} (hcalm : Calm db db') (h : NonDirect db r) :
    NonDirect db' r := by
  obtain ⟨room, hroom, hid, htype⟩ := h
  exact ⟨room, hcalm.kept room hroom, hid, htype⟩

/-- A change of the members of a channel or group. -/
theorem calm_of_touches {db db' : Database} {r : UUID} (hk : db.Keyed) (hr : NonDirect db r)
    (htouch : Touches r db db') (href : db.Referenced → db'.Referenced)
    (hrooms : db'.rooms = db.rooms) : Calm db db' where
  keyed := htouch.keyed
  referenced := href
  kept room hroom := by rw [hrooms]; exact hroom
  added room hroom := .inl (by rw [← hrooms]; exact hroom)
  rows room hroom hdirect := by
    obtain ⟨room', hroom', hid, htype⟩ := hr
    have hne : room.id ≠ r := by
      rintro rfl
      exact htype (hk.room_eq hroom' hroom hid ▸ hdirect)
    rw [fixedRows, fixedRows, htouch.others room.id hne]

/-- A new channel or group with its members. -/
theorem calm_of_created {db db' : Database} {room : Room} (htouch : Touches room.id db db')
    (href : db.Referenced → db'.Referenced) (hrooms : db'.rooms = db.rooms ++ [room])
    (hfresh : ∀ x ∈ db.rooms, x.id ≠ room.id) (htype : room.type ≠ .direct) : Calm db db' where
  keyed := htouch.keyed
  referenced := href
  kept x hx := by rw [hrooms]; exact List.mem_append_left _ hx
  added x hx := by
    rw [hrooms] at hx
    rcases List.mem_append.mp hx with hx | hx
    · exact .inl hx
    · rw [List.mem_singleton.mp hx]
      exact .inr htype
  rows x hx _ := by rw [fixedRows, fixedRows, htouch.others x.id (hfresh x hx)]

theorem createChannel_calm (now : Time) (uuid : ℕ → UUID) (u : UUID) (name : String)
    (description : Option String) (isPublic : Bool) (db : Database) :
    Calm db (createChannel now uuid u name description isPublic db).2 := by
  cases hout : createChannel now uuid u name description isPublic db with
  | mk res db' =>
    have hspec := hout
    rcases transact_cases hout with ⟨-, rfl⟩ | ⟨room, rfl, hx⟩
    · exact Calm.refl _
    · have href : db.Referenced →
          (createChannel now uuid u name description isPublic db).2.Referenced :=
        referenced_createChannel
      rw [hspec] at href
      obtain ⟨htouch, -⟩ := createChannel_ok hspec
      obtain ⟨db₁, h₁, hx⟩ := bind_eq_ok.mp hx
      obtain ⟨db₂, h₂, hx⟩ := bind_eq_ok.mp hx
      cases hx
      obtain ⟨rfl, hfresh⟩ := insertRoom_ok h₁
      refine calm_of_created htouch href ?_ hfresh (by simp)
      rw [(insertMember_ok h₂).1]

theorem createGroup_calm (now : Time) (uuid : ℕ → UUID) (u : UUID) (name : String)
    (description : Option String) (memberIDs : List UUID) (db : Database) :
    Calm db (createGroup now uuid u name description memberIDs db).2 := by
  cases hout : createGroup now uuid u name description memberIDs db with
  | mk res db' =>
    have hspec := hout
    rcases transact_cases hout with ⟨-, rfl⟩ | ⟨room, rfl, hx⟩
    · exact Calm.refl _
    · have href : db.Referenced →
          (createGroup now uuid u name description memberIDs db).2.Referenced :=
        referenced_createGroup
      rw [hspec] at href
      obtain ⟨htouch, -⟩ := createGroup_ok hspec
      obtain ⟨db₁, h₁, hx⟩ := bind_eq_ok.mp hx
      obtain ⟨db₂, h₂, hx⟩ := bind_eq_ok.mp hx
      obtain ⟨db₃, h₃, hx⟩ := bind_eq_ok.mp hx
      cases hx
      obtain ⟨rfl, hfresh⟩ := insertRoom_ok h₁
      refine calm_of_created htouch href ?_ hfresh (by simp)
      rw [(insertMembers_spec h₃).2.1, (insertMember_ok h₂).1]

theorem addMember_calm (now : Time) (uuid : ℕ → UUID) {r : UUID} (u : UUID) (role : MemberRole)
    {db : Database} (hk : db.Keyed) (hr : NonDirect db r) :
    Calm db (addMember now uuid r u role db).2 := by
  have href : db.Referenced → (addMember now uuid r u role db).2.Referenced := referenced_addMember
  cases hout : addMember now uuid r u role db with
  | mk res db' =>
    rw [hout] at href
    cases res with
    | error e =>
      rw [addMember_error hout]
      exact Calm.refl _
    | ok m => exact calm_of_touches hk hr (addMember_ok hout).1 href (addMember_rooms hout)

theorem banMember_calm (now : Time) {r : UUID} (u : UUID) {db : Database} (hk : db.Keyed)
    (hr : NonDirect db r) : Calm db (Store.banMember now r u db).2 := by
  have href : db.Referenced → (Store.banMember now r u db).2.Referenced :=
    referenced_updateActive fun _ => by rfl
  cases hout : Store.banMember now r u db with
  | mk res db' =>
    rw [hout] at href
    cases res with
    | error e =>
      rw [updateActive_error hout]
      exact Calm.refl _
    | ok m =>
      obtain ⟨htouch, hrooms, -⟩ := banMember_ok hout
      exact calm_of_touches hk hr htouch href hrooms

theorem changeMemberRole_calm {r : UUID} (u : UUID) (role : MemberRole) {db : Database}
    (hk : db.Keyed) (hr : NonDirect db r) : Calm db (Store.changeMemberRole r u role db).2 := by
  have href : db.Referenced → (Store.changeMemberRole r u role db).2.Referenced :=
    referenced_changeMemberRole
  cases hout : Store.changeMemberRole r u role db with
  | mk res db' =>
    rw [hout] at href
    cases res with
    | error e =>
      rw [changeMemberRole_error hout]
      exact Calm.refl _
    | ok changed =>
      obtain ⟨htouch, hrooms, -⟩ := changeMemberRole_ok hk hout
      exact calm_of_touches hk hr htouch href hrooms

/-- `room_check`: the members of a direct room are never promoted. -/
theorem promoteOldestIfNoAdmins_calm (r : UUID) {db : Database} (hk : db.Keyed) :
    Calm db (promoteOldestIfNoAdmins r db).2 := by
  have href : db.Referenced → (promoteOldestIfNoAdmins r db).2.Referenced :=
    referenced_promoteOldestIfNoAdmins
  cases hcand : promotionCandidate r db with
  | none =>
    have hsame : (promoteOldestIfNoAdmins r db).2 = db := by
      rw [promoteOldestIfNoAdmins, hcand]
    rw [hsame]
    exact Calm.refl _
  | some c =>
    have hr : NonDirect db r := by
      unfold promotionCandidate at hcand
      split_ifs at hcand with hadmin hcheck
      simp only [Bool.not_eq_true, Bool.not_eq_false', List.any_eq_true, Bool.and_eq_true,
        Bool.or_eq_true, decide_eq_true_eq] at hcheck
      obtain ⟨room, hroom, hid, htype⟩ := hcheck
      refine ⟨room, hroom, hid, ?_⟩
      rcases htype with htype | htype <;> simp [htype]
    cases hout : promoteOldestIfNoAdmins r db with
    | mk res db' =>
      rw [hout] at href
      obtain ⟨htouch, hrooms, -⟩ := promoteOldestIfNoAdmins_spec hk hout
      exact calm_of_touches hk hr htouch href hrooms

/-- Leaving a room, also a direct one, writes `left_at` only. -/
theorem removeMember_calm (now : Time) (r u : UUID) (db : Database) :
    Calm db (Store.removeMember now r u db).2 := by
  have href : db.Referenced → (Store.removeMember now r u db).2.Referenced :=
    referenced_updateActive fun _ => by rfl
  cases hout : Store.removeMember now r u db with
  | mk res db' =>
    rw [hout] at href
    cases res with
    | error e =>
      rw [updateActive_error hout]
      exact Calm.refl _
    | ok x =>
      obtain ⟨htouch, hrooms, -⟩ := removeMember_ok hout
      refine ⟨htouch.keyed, href, fun room h => hrooms ▸ h, fun room h => .inl (hrooms ▸ h), ?_⟩
      intro room _ _
      unfold Store.removeMember updateActive at hout
      split_ifs at hout
      · cases hout
        exact fixedRows_updateWhere (fun _ => by rfl) (fun _ => by rfl) db room.id
      · cases hout

/-- The calls other than `GetOrCreateDirectRoom` keep the direct rooms, if those that
    alter a room are for a channel or a group. -/
theorem serve_calm (stamps : ℕ → Stamp) {o : RoomOp} {s : Backend} (hk : s.db.Keyed)
    (hdirect : ∀ a b, o ≠ .getOrCreateDirectRoom a b)
    (halters : ∀ r, Alters r o → NonDirect s.db r) : Calm s.db (o.serve stamps s).2.db := by
  cases o with
  | getOrCreateDirectRoom a b => exact absurd rfl (hdirect a b)
  | createChannel u name description isPublic => exact createChannel_calm _ _ _ _ _ _ _
  | createGroup u name description memberIDs => exact createGroup_calm _ _ _ _ _ _ _
  | addMember r u role => exact addMember_calm _ _ _ _ hk (halters r rfl)
  | removeMember r u => exact removeMember_calm _ _ _ _
  | banMember r u => exact banMember_calm _ _ hk (halters r rfl)
  | changeMemberRole r u role => exact changeMemberRole_calm _ _ hk (halters r rfl)
  | promoteOldestIfNoAdmins r => exact promoteOldestIfNoAdmins_calm _ hk
  | _ => exact Calm.refl _

/-- In a store whose direct rooms hold plain members only, a room that is no channel
    and no group is shut. -/
theorem serve_shut (stamps : ℕ → Stamp) {s : Backend} {r : UUID} (href : s.db.Referenced)
    (hrows : ∀ room ∈ s.db.rooms, room.type = .direct → ∀ x ∈ fixedRows s.db room.id,
      x.role = .member) (hr : ¬ NonDirect s.db r) (o : RoomOp) : Shut r o (o.serve stamps s).1 := by
  cases o with
  | getMembership r' u =>
    rintro rfl m hm hrole
    obtain ⟨hmem, hact⟩ := getMembership_ok hm
    obtain ⟨hroomID, -, -⟩ := RoomMember.isActiveRow_iff.mp hact
    obtain ⟨room, hroom, hid⟩ := href m hmem
    have htype : room.type = .direct := by
      by_contra htype
      exact hr ⟨room, hroom, hid.trans hroomID, htype⟩
    have hx : fixedPart m ∈ fixedRows s.db room.id :=
      List.mem_map_of_mem (List.mem_filter.mpr ⟨hmem, by simp [hid]⟩)
    have := hrows room hroom htype _ hx
    rw [show (fixedPart m).role = m.role from rfl, hrole] at this
    cases this
  | getRoomByID r' =>
    rintro rfl room hroom
    obtain ⟨hmem, hid⟩ := getRoomByID_ok hroom
    have htype : room.type = .direct := by
      by_contra htype
      exact hr ⟨room, hmem, hid, htype⟩
    simp [joinable, htype]
  | _ => trivial

end ConvoyChat.Handlers
