import ConvoyChat.Store.Rooms
import Mathlib.Data.List.Nodup

/-!
# What the room functions do to the tables

`Touches r db db'` says that a call changed nothing outside room `r` and kept the
keys of the schema. For each store function of `ConvoyChat.Store.Rooms` there is
one lemma for its failure (the tables are as before) and one for its success.
-/

namespace ConvoyChat.Store

open ConvoyChat.Lib

/-! ## Keys -/

/-- The keys that the schema declares. -/
structure Database.Keyed (db : Database) : Prop where
  rooms : (db.rooms.map (·.id)).Nodup
  memberIDs : (db.members.map (·.id)).Nodup
  members : (db.members.map fun m => (m.roomID, m.userID)).Nodup

theorem RoomMember.isRow_iff {roomID userID : UUID} {m : RoomMember} :
    m.isRow roomID userID = true ↔ m.roomID = roomID ∧ m.userID = userID := by
  simp [RoomMember.isRow]

theorem RoomMember.isActiveRow_iff {roomID userID : UUID} {m : RoomMember} :
    m.isActiveRow roomID userID = true ↔
      m.roomID = roomID ∧ m.userID = userID ∧ m.leftAt = none := by
  simp [RoomMember.isActiveRow, RoomMember.isRow, and_assoc]

theorem RoomMember.isActiveIn_iff {roomID : UUID} {m : RoomMember} :
    m.isActiveIn roomID = true ↔ m.roomID = roomID ∧ m.leftAt = none := by
  simp [RoomMember.isActiveIn]

theorem RoomMember.isAdminIn_iff {roomID : UUID} {m : RoomMember} :
    m.isAdminIn roomID = true ↔ m.roomID = roomID ∧ m.leftAt = none ∧ m.role = .admin := by
  simp [RoomMember.isAdminIn, RoomMember.isActiveIn, and_assoc]

theorem Database.Keyed.room_eq {db : Database} (hk : db.Keyed) {a b : Room} (ha : a ∈ db.rooms)
    (hb : b ∈ db.rooms) (h : a.id = b.id) : a = b :=
  List.inj_on_of_nodup_map hk.rooms ha hb h

theorem Database.Keyed.member_eq {db : Database} (hk : db.Keyed) {a b : RoomMember}
    (ha : a ∈ db.members) (hb : b ∈ db.members) (hr : a.roomID = b.roomID)
    (hu : a.userID = b.userID) : a = b :=
  List.inj_on_of_nodup_map hk.members ha hb (by simp [hr, hu])

/-! ## What each function touches -/

/-- Of the rooms of `db` and their members, `db'` differs in room `r` only. -/
structure Touches (r : UUID) (db db' : Database) : Prop where
  users : db'.users = db.users
  rooms : ∀ room ∈ db'.rooms, room ∈ db.rooms ∨ room.id = r
  others : ∀ r', r' ≠ r →
    db'.members.filter (fun m => m.roomID = r') = db.members.filter fun m => m.roomID = r'
  keyed : db.Keyed → db'.Keyed

theorem Touches.refl (r : UUID) (db : Database) : Touches r db db :=
  ⟨rfl, fun _ h => .inl h, fun _ _ => rfl, id⟩

theorem Touches.trans {r : UUID} {db₁ db₂ db₃ : Database} (h₁ : Touches r db₁ db₂)
    (h₂ : Touches r db₂ db₃) : Touches r db₁ db₃ where
  users := h₂.users.trans h₁.users
  rooms := by
    intro room hroom
    rcases h₂.rooms room hroom with h | h
    · exact h₁.rooms room h
    · exact .inr h
  others r' hr' := (h₂.others r' hr').trans (h₁.others r' hr')
  keyed hk := h₂.keyed (h₁.keyed hk)

/-- A row of another room is in both tables or in neither. -/
theorem Touches.mem_members {r : UUID} {db db' : Database} (h : Touches r db db')
    {m : RoomMember} (hm : m.roomID ≠ r) : m ∈ db'.members ↔ m ∈ db.members := by
  have heq := h.others m.roomID hm
  have hiff := congrArg (m ∈ ·) heq
  simpa [List.mem_filter] using hiff

/-- An `UPDATE` of rows of room `r` that writes no key column. -/
theorem touches_updateWhere {r : UUID} (db : Database) {p : RoomMember → Bool}
    {f : RoomMember → RoomMember} (hp : ∀ m ∈ db.members, p m = true → m.roomID = r)
    (hid : ∀ m, (f m).id = m.id) (hroom : ∀ m, (f m).roomID = m.roomID)
    (huser : ∀ m, (f m).userID = m.userID) :
    Touches r db { db with members := updateWhere p f db.members } where
  users := rfl
  rooms _ h := .inl h
  others r' hr' := by
    apply filter_updateWhere
    intro m hmem hm
    simp only [hroom, hp m hmem hm, decide_eq_false_iff_not]
    exact ⟨hr'.symm, hr'.symm⟩
  keyed hk := by
    refine ⟨hk.rooms, ?_, ?_⟩
    · show ((updateWhere p f db.members).map (·.id)).Nodup
      rw [map_updateWhere hid]
      exact hk.memberIDs
    · show ((updateWhere p f db.members).map fun m => (m.roomID, m.userID)).Nodup
      rw [map_updateWhere (fun m => by rw [hroom, huser])]
      exact hk.members

theorem insertRoom_ok {row : Room} {db db' : Database} (h : insertRoom row db = .ok db') :
    db' = { db with rooms := db.rooms ++ [row] } ∧ ∀ r ∈ db.rooms, r.id ≠ row.id := by
  unfold insertRoom at h
  split_ifs at h with hdup
  cases h
  simp only [Bool.or_eq_true, List.any_eq_true, decide_eq_true_eq, not_or, not_exists,
    not_and] at hdup
  exact ⟨rfl, hdup.1⟩

theorem insertRoom_touches {row : Room} {db db' : Database} (h : insertRoom row db = .ok db') :
    Touches row.id db db' := by
  obtain ⟨rfl, hfresh⟩ := insertRoom_ok h
  refine ⟨rfl, ?_, fun _ _ => rfl, ?_⟩
  · intro room hroom
    rcases List.mem_append.mp hroom with hroom | hroom
    · exact .inl hroom
    · exact .inr (by rw [List.mem_singleton.mp hroom])
  · intro hk
    refine ⟨?_, hk.memberIDs, hk.members⟩
    exact nodup_map_append_singleton hk.rooms hfresh

theorem insertMember_ok {now : Time} {id roomID userID : UUID} {role : MemberRole}
    {db db' : Database} (h : insertMember now id roomID userID role db = .ok db') :
    db' = { db with members := db.members ++ [⟨id, roomID, userID, role, now, none, none, none⟩] } ∧
      (∀ m ∈ db.members, m.id ≠ id) ∧ ∀ m ∈ db.members, m.isRow roomID userID = false := by
  unfold insertMember at h
  split_ifs at h with hdup
  cases h
  simp only [Bool.or_eq_true, List.any_eq_true, decide_eq_true_eq, not_or, not_exists,
    not_and] at hdup
  exact ⟨rfl, fun m hm => (hdup.1.1 m hm).1, fun m hm => by simpa using (hdup.1.1 m hm).2⟩

theorem insertMember_touches {now : Time} {id roomID userID : UUID} {role : MemberRole}
    {db db' : Database} (h : insertMember now id roomID userID role db = .ok db') :
    Touches roomID db db' := by
  obtain ⟨rfl, hid, hfresh⟩ := insertMember_ok h
  refine ⟨rfl, fun _ h => .inl h, ?_, ?_⟩
  · intro r' hr'
    simp [List.filter_append, Ne.symm hr']
  · intro hk
    refine ⟨hk.rooms, nodup_map_append_singleton hk.memberIDs hid, ?_⟩
    refine nodup_map_append_singleton hk.members fun m hm heq => ?_
    have hrow : m.isRow roomID userID = true := RoomMember.isRow_iff.mpr (by simpa using heq)
    rw [hfresh m hm] at hrow
    cases hrow

theorem mem_insertMember {now : Time} {id roomID userID : UUID} {role : MemberRole}
    {db db' : Database} (h : insertMember now id roomID userID role db = .ok db')
    {m : RoomMember} (hm : m ∈ db.members) : m ∈ db'.members := by
  obtain ⟨rfl, -⟩ := insertMember_ok h
  exact List.mem_append_left _ hm

theorem insertMembers_spec {now : Time} {uuid : ℕ → UUID} {roomID : UUID} {ids : List UUID}
    {n : ℕ} {db db' : Database} (h : insertMembers now uuid roomID n ids db = .ok db') :
    Touches roomID db db' ∧ db'.rooms = db.rooms ∧ ∀ m ∈ db.members, m ∈ db'.members := by
  induction ids generalizing n db with
  | nil =>
    cases h
    exact ⟨Touches.refl _ _, rfl, fun _ hm => hm⟩
  | cons id ids ih =>
    obtain ⟨db₁, h₁, hrest⟩ := bind_eq_ok.mp h
    obtain ⟨htouch, hrooms, hkeep⟩ := ih hrest
    refine ⟨(insertMember_touches h₁).trans htouch, ?_,
      fun m hm => hkeep m (mem_insertMember h₁ hm)⟩
    rw [hrooms, (insertMember_ok h₁).1]

theorem transact_cases {α : Type} {db db' : Database} {x : Except StoreErr (α × Database)}
    {res : Except StoreErr α} (h : transact db x = (res, db')) :
    ((∃ e, res = .error e) ∧ db' = db) ∨ ∃ a, res = .ok a ∧ x = .ok (a, db') := by
  cases x with
  | error e =>
    cases h
    exact .inl ⟨⟨e, rfl⟩, rfl⟩
  | ok p =>
    cases h
    exact .inr ⟨p.1, rfl, rfl⟩

theorem getMembership_ok {r u : UUID} {db : Database} {m : RoomMember}
    (h : getMembership r u db = .ok m) : m ∈ db.members ∧ m.isActiveRow r u = true := by
  unfold getMembership at h
  split at h
  · rename_i x hx
    cases h
    exact ⟨List.mem_of_find?_eq_some hx, List.find?_some hx⟩
  · cases h

theorem isAdminIn_of_getMembership {r u : UUID} {db : Database} {m : RoomMember}
    (h : getMembership r u db = .ok m) (hrole : m.role = .admin) :
    m ∈ db.members ∧ m.isAdminIn r = true ∧ m.userID = u := by
  obtain ⟨hm, hrow⟩ := getMembership_ok h
  obtain ⟨hr, hu, hleft⟩ := RoomMember.isActiveRow_iff.mp hrow
  exact ⟨hm, RoomMember.isAdminIn_iff.mpr ⟨hr, hleft, hrole⟩, hu⟩

/-- A failed transaction leaves the tables as they were. -/
theorem transact_error {α : Type} {db db' : Database} {x : Except StoreErr (α × Database)}
    {e : StoreErr} (h : transact db x = (.error e, db')) : db' = db := by
  rcases transact_cases h with ⟨-, h⟩ | ⟨a, h, -⟩
  · exact h
  · cases h

theorem addMember_error {now : Time} {uuid : ℕ → UUID} {r u : UUID} {role : MemberRole}
    {db db' : Database} {e : StoreErr}
    (h : addMember now uuid r u role db = (.error e, db')) : db' = db := by
  unfold addMember at h
  split at h
  · split_ifs at h <;> cases h
    rfl
  · exact transact_error h

theorem updateActive_error {f : RoomMember → RoomMember} {r u : UUID} {db db' : Database}
    {e : StoreErr} (h : updateActive f r u db = (.error e, db')) : db' = db := by
  unfold updateActive at h
  split_ifs at h <;> cases h
  rfl

theorem changeMemberRole_error {r u : UUID} {role : MemberRole} {db db' : Database}
    {e : StoreErr} (h : changeMemberRole r u role db = (.error e, db')) : db' = db := by
  unfold changeMemberRole at h
  split at h
  · cases h
    rfl
  · split_ifs at h <;> cases h
    rfl

theorem getOrCreateDirectRoom_error {now : Time} {uuid : ℕ → UUID} {a b : UUID}
    {db db' : Database} {e : StoreErr}
    (h : getOrCreateDirectRoom now uuid a b db = (.error e, db')) : db' = db := by
  unfold getOrCreateDirectRoom at h
  split at h
  · cases h
  · exact transact_error h

/-! ## What a successful call does -/

theorem createChannel_ok {now : Time} {uuid : ℕ → UUID} {u : UUID} {name : String}
    {description : Option String} {isPublic : Bool} {room : Room} {db db' : Database}
    (h : createChannel now uuid u name description isPublic db = (.ok room, db')) :
    Touches room.id db db' ∧ ∃ m ∈ db'.members, m.isAdminIn room.id = true := by
  rcases transact_cases h with ⟨⟨e, he⟩, -⟩ | ⟨a, ha, hx⟩
  · cases he
  · cases ha
    obtain ⟨db₁, h₁, hx⟩ := bind_eq_ok.mp hx
    obtain ⟨db₂, h₂, hx⟩ := bind_eq_ok.mp hx
    cases hx
    refine ⟨(insertRoom_touches h₁).trans (insertMember_touches h₂), ?_⟩
    obtain ⟨rfl, -⟩ := insertMember_ok h₂
    exact ⟨_, List.mem_append_right _ (List.mem_singleton.mpr rfl),
      RoomMember.isAdminIn_iff.mpr ⟨rfl, rfl, rfl⟩⟩

theorem createGroup_ok {now : Time} {uuid : ℕ → UUID} {u : UUID} {name : String}
    {description : Option String} {memberIDs : List UUID} {room : Room} {db db' : Database}
    (h : createGroup now uuid u name description memberIDs db = (.ok room, db')) :
    Touches room.id db db' ∧ ∃ m ∈ db'.members, m.isAdminIn room.id = true := by
  rcases transact_cases h with ⟨⟨e, he⟩, -⟩ | ⟨a, ha, hx⟩
  · cases he
  · cases ha
    obtain ⟨db₁, h₁, hx⟩ := bind_eq_ok.mp hx
    obtain ⟨db₂, h₂, hx⟩ := bind_eq_ok.mp hx
    obtain ⟨db₃, h₃, hx⟩ := bind_eq_ok.mp hx
    cases hx
    obtain ⟨htouch, -, hkeep⟩ := insertMembers_spec h₃
    refine ⟨((insertRoom_touches h₁).trans (insertMember_touches h₂)).trans htouch, ?_⟩
    obtain ⟨rfl, -⟩ := insertMember_ok h₂
    exact ⟨_, hkeep _ (List.mem_append_right _ (List.mem_singleton.mpr rfl)),
      RoomMember.isAdminIn_iff.mpr ⟨rfl, rfl, rfl⟩⟩

/-- A direct room that is created or found is the only room with its id. -/
theorem getOrCreateDirectRoom_ok {now : Time} {uuid : ℕ → UUID} {a b : UUID}
    {out : Room × Bool × Bool} {db db' : Database} (hk : db.Keyed)
    (h : getOrCreateDirectRoom now uuid a b db = (.ok out, db')) :
    Touches out.1.id db db' ∧ ∀ room ∈ db'.rooms, room.id = out.1.id → room.type = .direct := by
  unfold getOrCreateDirectRoom at h
  split at h
  · rename_i room hfind
    cases h
    have hroom := List.mem_filter.mp (List.argmin_mem hfind)
    refine ⟨touches_updateWhere db ?_ (fun _ => rfl) (fun _ => rfl) (fun _ => rfl), ?_⟩
    · intro m _ hm
      simp only [departedPair, Bool.and_eq_true, decide_eq_true_eq] at hm
      exact hm.1.1
    · intro x hx hid
      rw [hk.room_eq hx hroom.1 hid]
      simpa using (Bool.and_eq_true_iff.mp (Bool.and_eq_true_iff.mp hroom.2).1).1
  · rcases transact_cases h with ⟨⟨e, he⟩, -⟩ | ⟨out', hout, hx⟩
    · cases he
    · cases hout
      obtain ⟨db₁, h₁, hx⟩ := bind_eq_ok.mp hx
      obtain ⟨db₂, h₂, hx⟩ := bind_eq_ok.mp hx
      obtain ⟨db₃, h₃, hx⟩ := bind_eq_ok.mp hx
      cases hx
      refine ⟨((insertRoom_touches h₁).trans (insertMember_touches h₂)).trans
        (insertMember_touches h₃), ?_⟩
      obtain ⟨rfl, -⟩ := insertMember_ok h₃
      obtain ⟨rfl, -⟩ := insertMember_ok h₂
      obtain ⟨rfl, hfresh⟩ := insertRoom_ok h₁
      intro x hx hid
      rcases List.mem_append.mp hx with hx | hx
      · exact absurd hid (hfresh x hx)
      · rw [List.mem_singleton.mp hx]

theorem getOrCreateDirectRoom_kept (now : Time) (uuid : ℕ → UUID) (a b : UUID) {db : Database}
    {room : Room} (h : room ∈ db.rooms) :
    room ∈ (getOrCreateDirectRoom now uuid a b db).2.rooms := by
  cases hout : getOrCreateDirectRoom now uuid a b db with
  | mk res db' =>
    unfold getOrCreateDirectRoom at hout
    split at hout
    · cases hout
      exact h
    · rcases transact_cases hout with ⟨-, rfl⟩ | ⟨out, -, hx⟩
      · exact h
      · obtain ⟨db₁, h₁, hx⟩ := bind_eq_ok.mp hx
        obtain ⟨db₂, h₂, hx⟩ := bind_eq_ok.mp hx
        obtain ⟨db₃, h₃, hx⟩ := bind_eq_ok.mp hx
        cases hx
        rw [(insertMember_ok h₃).1, (insertMember_ok h₂).1, (insertRoom_ok h₁).1]
        exact List.mem_append_left _ h

/-- `AddMember` leaves active members alone. -/
theorem addMember_ok {now : Time} {uuid : ℕ → UUID} {r u : UUID} {role : MemberRole}
    {member : RoomMember} {db db' : Database}
    (h : addMember now uuid r u role db = (.ok member, db')) :
    Touches r db db' ∧ ∀ m ∈ db.members, m.leftAt = none → m ∈ db'.members := by
  unfold addMember at h
  split at h
  · split_ifs at h <;> cases h
    refine ⟨touches_updateWhere db ?_ (fun _ => rfl) (fun _ => rfl) (fun _ => rfl), ?_⟩
    · intro m _ hm
      exact (RoomMember.isRow_iff.mp (Bool.and_eq_true_iff.mp hm).1).1
    · intro m hm hleft
      exact mem_updateWhere_of_not hm (by simp [hleft])
  · rcases transact_cases h with ⟨⟨e, he⟩, -⟩ | ⟨a, ha, hx⟩
    · cases he
    · obtain ⟨db₁, h₁, hx⟩ := bind_eq_ok.mp hx
      cases hx
      exact ⟨insertMember_touches h₁, fun m hm _ => mem_insertMember h₁ hm⟩

theorem addMember_rooms {now : Time} {uuid : ℕ → UUID} {r u : UUID} {role : MemberRole}
    {member : RoomMember} {db db' : Database}
    (h : addMember now uuid r u role db = (.ok member, db')) : db'.rooms = db.rooms := by
  unfold addMember at h
  split at h
  · split_ifs at h <;> cases h
    rfl
  · rcases transact_cases h with ⟨⟨e, he⟩, -⟩ | ⟨a, ha, hx⟩
    · cases he
    · obtain ⟨db₁, h₁, hx⟩ := bind_eq_ok.mp hx
      cases hx
      rw [(insertMember_ok h₁).1]

/-- `RemoveMember` and `BanMember` touch the rows of one user only. -/
theorem updateActive_ok {f : RoomMember → RoomMember} {r u : UUID} {db db' : Database}
    (hid : ∀ m, (f m).id = m.id) (hroom : ∀ m, (f m).roomID = m.roomID)
    (huser : ∀ m, (f m).userID = m.userID) (h : updateActive f r u db = (.ok (), db')) :
    Touches r db db' ∧ db'.rooms = db.rooms ∧ ∀ m ∈ db.members, m.userID ≠ u → m ∈ db'.members := by
  unfold updateActive at h
  split_ifs at h <;> cases h
  refine ⟨touches_updateWhere db ?_ hid hroom huser, rfl, ?_⟩
  · intro m _ hm
    exact (RoomMember.isActiveRow_iff.mp hm).1
  · intro m hm hne
    refine mem_updateWhere_of_not hm ?_
    rw [Bool.eq_false_iff]
    intro hrow
    exact hne (RoomMember.isActiveRow_iff.mp hrow).2.1

theorem removeMember_ok {now : Time} {r u : UUID} {db db' : Database}
    (h : removeMember now r u db = (.ok (), db')) :
    Touches r db db' ∧ db'.rooms = db.rooms ∧ ∀ m ∈ db.members, m.userID ≠ u → m ∈ db'.members := by
  unfold removeMember at h
  exact updateActive_ok (fun _ => by rfl) (fun _ => by rfl) (fun _ => by rfl) h

theorem banMember_ok {now : Time} {r u : UUID} {db db' : Database}
    (h : banMember now r u db = (.ok (), db')) :
    Touches r db db' ∧ db'.rooms = db.rooms ∧ ∀ m ∈ db.members, m.userID ≠ u → m ∈ db'.members := by
  unfold banMember at h
  exact updateActive_ok (fun _ => by rfl) (fun _ => by rfl) (fun _ => by rfl) h

/-- After `PromoteOldestIfNoAdmins` a channel or group with an active member has
    an active admin. -/
theorem promoteOldestIfNoAdmins_spec {r : UUID} {db db' : Database} (hk : db.Keyed)
    {promoted : Except StoreErr (Option RoomMember)}
    (h : promoteOldestIfNoAdmins r db = (promoted, db')) :
    Touches r db db' ∧ db'.rooms = db.rooms ∧
      ((∃ room ∈ db.rooms, room.id = r ∧ room.type ≠ .direct) →
        (∃ m ∈ db'.members, m.isActiveIn r = true) → ∃ m ∈ db'.members, m.isAdminIn r = true) := by
  unfold promoteOldestIfNoAdmins at h
  split at h
  · rename_i hnone
    cases h
    refine ⟨Touches.refl r db, rfl, ?_⟩
    rintro ⟨room, hroom, hid, htype⟩ ⟨m, hm, hactive⟩
    unfold promotionCandidate at hnone
    split_ifs at hnone with hadmin hcheck
    · simpa using hadmin
    · -- the room is a channel or a group, so `room_check` finds it
      exfalso
      have hkind : room.type = .channel ∨ room.type = .group := by
        cases hty : room.type <;> simp_all
      have : db.rooms.any (fun x => x.id = r && (x.type = .channel || x.type = .group)) = true :=
        List.any_eq_true.mpr ⟨room, hroom, by simpa [hid] using hkind⟩
      rw [this] at hcheck
      cases hcheck
    · rw [List.argmin_eq_none] at hnone
      have := List.mem_filter.mpr ⟨hm, hactive⟩
      rw [hnone] at this
      cases this
  · rename_i c hsome
    cases h
    unfold promotionCandidate at hsome
    split_ifs at hsome
    obtain ⟨hc, hactive⟩ := List.mem_filter.mp (List.argmin_mem hsome)
    obtain ⟨hroom, hleft⟩ := RoomMember.isActiveIn_iff.mp hactive
    refine ⟨touches_updateWhere db ?_ (fun _ => rfl) (fun _ => rfl) (fun _ => rfl), rfl, ?_⟩
    · intro m hmem hm
      rw [List.inj_on_of_nodup_map hk.memberIDs hmem hc (by simpa using hm)]
      exact hroom
    · intro _ _
      refine ⟨{ c with role := .admin }, mem_updateWhere_of hc (by simp), ?_⟩
      exact RoomMember.isAdminIn_iff.mpr ⟨hroom, hleft, rfl⟩

/-- With two active admins, one of them is not `u`. -/
theorem other_admin {r : UUID} {db : Database} (hk : db.Keyed) (h : 1 < countAdmins r db)
    (u : UUID) : ∃ m ∈ db.members, m.isAdminIn r = true ∧ m.userID ≠ u := by
  by_contra hnone
  have hrow : ∀ m ∈ db.members, m.isAdminIn r = true →
      decide ((m.roomID, m.userID) = (r, u)) = true := by
    intro m hm hadmin
    have hu : m.userID = u := by
      by_contra hne
      exact hnone ⟨m, hm, hadmin, hne⟩
    simp [(RoomMember.isAdminIn_iff.mp hadmin).1, hu]
  have hle : countAdmins r db ≤ (db.members.map fun m => (m.roomID, m.userID)).count (r, u) := by
    rw [List.count_eq_countP, List.countP_map]
    exact List.countP_mono_left fun m hm hadmin => by simpa using hrow m hm hadmin
  have hone := List.nodup_iff_count_le_one.mp hk.members (r, u)
  omega

/-- `ChangeMemberRole` on a room with an active admin leaves it one. -/
theorem changeMemberRole_ok {r u : UUID} {newRole : MemberRole} {changed : Bool}
    {db db' : Database} (hk : db.Keyed)
    (h : changeMemberRole r u newRole db = (.ok changed, db')) :
    Touches r db db' ∧ db'.rooms = db.rooms ∧
      (∀ m' ∈ db'.members, m'.isActiveIn r = true → ∃ m ∈ db.members, m.isActiveIn r = true) ∧
      ((∃ m ∈ db.members, m.isAdminIn r = true) → ∃ m ∈ db'.members, m.isAdminIn r = true) := by
  unfold changeMemberRole at h
  split at h
  · cases h
  · rename_i m hfind
    have hm := List.mem_of_find?_eq_some hfind
    have hrow := RoomMember.isActiveRow_iff.mp (List.find?_some hfind)
    split_ifs at h with hsame hlast
    · cases h
      exact ⟨Touches.refl r db, rfl, fun x hx ha => ⟨x, hx, ha⟩, id⟩
    · cases h
    · cases h
      refine ⟨touches_updateWhere db (fun x _ hx => (RoomMember.isActiveRow_iff.mp hx).1)
        (fun _ => rfl) (fun _ => rfl) (fun _ => rfl), rfl, ?_, ?_⟩
      · intro x' hx' hactive
        obtain ⟨x, hx, rfl⟩ := mem_updateWhere.mp hx'
        refine ⟨x, hx, ?_⟩
        split_ifs at hactive
        · exact hactive
        · exact hactive
      · rintro ⟨x, hx, hadmin⟩
        obtain ⟨hxr, hxl, hxa⟩ := RoomMember.isAdminIn_iff.mp hadmin
        -- an admin who is not the target stays; so does the target unless it is demoted
        have hkeep : ∀ y ∈ db.members, y.isAdminIn r = true → y.userID ≠ u →
            ∃ y' ∈ updateWhere (·.isActiveRow r u) ({ · with role := newRole }) db.members,
              y'.isAdminIn r = true := by
          intro y hy hya hyu
          refine ⟨y, mem_updateWhere_of_not hy ?_, hya⟩
          rw [Bool.eq_false_iff]
          intro hyrow
          exact hyu (RoomMember.isActiveRow_iff.mp hyrow).2.1
        by_cases hxu : x.userID = u
        · have hxm : x = m := hk.member_eq hx hm (hxr.trans hrow.1.symm) (hxu.trans hrow.2.1.symm)
          subst hxm
          have htwo : 1 < countAdmins r db := by
            simp only [hxa, Bool.and_eq_true, decide_eq_true_eq, true_and, not_and, not_le] at hlast
            exact hlast (by simpa [hxa] using Ne.symm hsame)
          obtain ⟨y, hy, hya, hyu⟩ := other_admin hk htwo u
          exact hkeep y hy hya hyu
        · exact hkeep x hx hadmin hxu

/-- `AddMember` finds a departed row, or can insert one. -/
def Admits (uuid : ℕ → UUID) (r u : UUID) (db : Database) : Prop :=
  (∃ m ∈ db.members, m.isRow r u = true) ∨
    ((∃ x ∈ db.users, x.id = u) ∧ ∀ m ∈ db.members, m.id ≠ uuid 0)

/-- In an empty room, the member that `AddMember` admits is the only active one. -/
theorem addMember_empty (now : Time) (uuid : ℕ → UUID) {r : UUID} (u : UUID) (role : MemberRole)
    {db : Database} (hroom : ∃ room ∈ db.rooms, room.id = r)
    (hempty : ∀ m ∈ db.members, m.isActiveIn r = false) :
    ((∃ member db', addMember now uuid r u role db = (.ok member, db')) ↔ Admits uuid r u db) ∧
      ∀ member db', addMember now uuid r u role db = (.ok member, db') →
        (∃ m ∈ db'.members, m.isActiveIn r = true) ∧
          ∀ m ∈ db'.members, m.isActiveIn r = true → m.role = role := by
  unfold addMember
  split
  · rename_i m hfind
    have hm := List.mem_of_find?_eq_some hfind
    have hrow := RoomMember.isRow_iff.mp (List.find?_some hfind)
    have hleft : m.leftAt.isSome = true := by
      cases hl : m.leftAt with
      | some t => rfl
      | none =>
        have := RoomMember.isActiveIn_iff.mpr ⟨hrow.1, hl⟩
        rw [hempty m hm] at this
        cases this
    rw [if_pos hleft]
    refine ⟨⟨fun _ => .inl ⟨m, hm, RoomMember.isRow_iff.mpr hrow⟩, fun _ => ⟨_, _, rfl⟩⟩, ?_⟩
    intro member db' h
    cases h
    refine ⟨⟨reactivate now role m, ?_, RoomMember.isActiveIn_iff.mpr ⟨hrow.1, rfl⟩⟩, ?_⟩
    · exact mem_updateWhere_of hm (by simp [hleft, RoomMember.isRow_iff.mpr hrow])
    · intro x' hx' hactive
      obtain ⟨x, hx, rfl⟩ := mem_updateWhere.mp hx'
      split_ifs at hactive with hupd
      · rw [if_pos hupd]
        rfl
      · rw [hempty x hx] at hactive
        cases hactive
  · rename_i hfind
    have hnew : ∀ m ∈ db.members, m.isRow r u = false := by
      intro m hm
      simpa using List.find?_eq_none.mp hfind m hm
    have hadmits : Admits uuid r u db ↔
        (∃ x ∈ db.users, x.id = u) ∧ ∀ m ∈ db.members, m.id ≠ uuid 0 := by
      unfold Admits
      constructor
      · rintro (⟨m, hm, hrow⟩ | h)
        · rw [hnew m hm] at hrow
          cases hrow
        · exact h
      · exact .inr
    rw [hadmits]
    unfold insertMember
    split_ifs with hdup
    · refine ⟨⟨?_, ?_⟩, ?_⟩
      · rintro ⟨member, db', h⟩
        cases h
      · rintro ⟨⟨x, hx, hxu⟩, hid⟩
        exfalso
        obtain ⟨room, hmem, hrid⟩ := hroom
        simp only [Bool.or_eq_true, List.any_eq_true, Bool.not_eq_true', List.any_eq_false,
          decide_eq_true_eq] at hdup
        rcases hdup with (⟨m, hm, h | h⟩ | h) | h
        · exact hid m hm h
        · rw [hnew m hm] at h
          cases h
        · exact h room hmem hrid
        · exact h x hx hxu
      · intro member db' h
        cases h
    · simp only [Bool.or_eq_true, List.any_eq_true, Bool.not_eq_true', List.any_eq_false,
        decide_eq_true_eq, not_or, not_exists, not_and, not_forall, not_not] at hdup
      refine ⟨⟨?_, fun _ => ⟨_, _, rfl⟩⟩, ?_⟩
      · intro _
        obtain ⟨x, hx, hxu⟩ := hdup.2
        exact ⟨⟨x, hx, hxu⟩, fun m hm => (hdup.1.1 m hm).1⟩
      · intro member db' h
        cases h
        refine ⟨⟨_, List.mem_append_right _ (List.mem_singleton.mpr rfl),
          RoomMember.isActiveIn_iff.mpr ⟨rfl, rfl⟩⟩, ?_⟩
        intro m hm hactive
        rcases List.mem_append.mp hm with hm | hm
        · rw [hempty m hm] at hactive
          cases hactive
        · rw [List.mem_singleton.mp hm]

/-! ## References -/

/-- Every member row references a room. -/
def Database.Referenced (db : Database) : Prop :=
  ∀ m ∈ db.members, ∃ room ∈ db.rooms, room.id = m.roomID

theorem referenced_updateWhere {db : Database} {p : RoomMember → Bool}
    {f : RoomMember → RoomMember} (hroom : ∀ m, (f m).roomID = m.roomID) (h : db.Referenced) :
    Database.Referenced { db with members := updateWhere p f db.members } := by
  intro m hm
  obtain ⟨m₀, hm₀, rfl⟩ := mem_updateWhere.mp hm
  obtain ⟨room, hmem, hid⟩ := h m₀ hm₀
  refine ⟨room, hmem, ?_⟩
  split
  · rw [hid, hroom]
  · exact hid

theorem referenced_insertRoom {row : Room} {db db' : Database} (h : insertRoom row db = .ok db')
    (href : db.Referenced) : db'.Referenced := by
  obtain ⟨rfl, -⟩ := insertRoom_ok h
  intro m hm
  obtain ⟨room, hmem, hid⟩ := href m hm
  exact ⟨room, List.mem_append_left _ hmem, hid⟩

theorem referenced_insertMember {now : Time} {id roomID userID : UUID} {role : MemberRole}
    {db db' : Database} (h : insertMember now id roomID userID role db = .ok db')
    (href : db.Referenced) : db'.Referenced := by
  unfold insertMember at h
  split_ifs at h with hdup
  cases h
  simp only [Bool.or_eq_true, Bool.not_eq_true', not_or, Bool.not_eq_false, List.any_eq_true,
    decide_eq_true_eq] at hdup
  intro m hm
  rcases List.mem_append.mp hm with hm | hm
  · exact href m hm
  · cases List.mem_singleton.mp hm
    exact hdup.1.2

theorem referenced_insertMembers {now : Time} {uuid : ℕ → UUID} {roomID : UUID} {ids : List UUID}
    {n : ℕ} {db db' : Database} (h : insertMembers now uuid roomID n ids db = .ok db')
    (href : db.Referenced) : db'.Referenced := by
  induction ids generalizing n db with
  | nil =>
    cases h
    exact href
  | cons id ids ih =>
    obtain ⟨db₁, h₁, hrest⟩ := bind_eq_ok.mp h
    exact ih hrest (referenced_insertMember h₁ href)

/-- A transaction that keeps the references keeps them whether it commits or not. -/
theorem referenced_transact {α : Type} {db : Database} {x : Except StoreErr (α × Database)}
    (href : db.Referenced) (h : ∀ a db', x = .ok (a, db') → db'.Referenced) :
    (transact db x).2.Referenced := by
  rcases transact_cases (Prod.mk.eta (p := transact db x)).symm with ⟨-, heq⟩ | ⟨a, -, hx⟩
  · rw [heq]
    exact href
  · exact h a _ hx

theorem referenced_createChannel {now : Time} {uuid : ℕ → UUID} {u : UUID} {name : String}
    {description : Option String} {isPublic : Bool} {db : Database} (href : db.Referenced) :
    (createChannel now uuid u name description isPublic db).2.Referenced := by
  refine referenced_transact href fun room db' h => ?_
  obtain ⟨db₁, h₁, h⟩ := bind_eq_ok.mp h
  obtain ⟨db₂, h₂, h⟩ := bind_eq_ok.mp h
  cases h
  exact referenced_insertMember h₂ (referenced_insertRoom h₁ href)

theorem referenced_createGroup {now : Time} {uuid : ℕ → UUID} {u : UUID} {name : String}
    {description : Option String} {memberIDs : List UUID} {db : Database} (href : db.Referenced) :
    (createGroup now uuid u name description memberIDs db).2.Referenced := by
  refine referenced_transact href fun room db' h => ?_
  obtain ⟨db₁, h₁, h⟩ := bind_eq_ok.mp h
  obtain ⟨db₂, h₂, h⟩ := bind_eq_ok.mp h
  obtain ⟨db₃, h₃, h⟩ := bind_eq_ok.mp h
  cases h
  exact referenced_insertMembers h₃ (referenced_insertMember h₂ (referenced_insertRoom h₁ href))

theorem referenced_getOrCreateDirectRoom {now : Time} {uuid : ℕ → UUID} {a b : UUID}
    {db : Database} (href : db.Referenced) :
    (getOrCreateDirectRoom now uuid a b db).2.Referenced := by
  unfold getOrCreateDirectRoom
  split
  · exact referenced_updateWhere (fun _ => rfl) href
  · refine referenced_transact href fun out db' h => ?_
    obtain ⟨db₁, h₁, h⟩ := bind_eq_ok.mp h
    obtain ⟨db₂, h₂, h⟩ := bind_eq_ok.mp h
    obtain ⟨db₃, h₃, h⟩ := bind_eq_ok.mp h
    cases h
    exact referenced_insertMember h₃ (referenced_insertMember h₂ (referenced_insertRoom h₁ href))

theorem referenced_addMember {now : Time} {uuid : ℕ → UUID} {r u : UUID} {role : MemberRole}
    {db : Database} (href : db.Referenced) : (addMember now uuid r u role db).2.Referenced := by
  unfold addMember
  split
  · split
    · exact referenced_updateWhere (fun _ => rfl) href
    · exact href
  · refine referenced_transact href fun member db' h => ?_
    obtain ⟨db₁, h₁, h⟩ := bind_eq_ok.mp h
    cases h
    exact referenced_insertMember h₁ href

theorem referenced_updateActive {f : RoomMember → RoomMember} {r u : UUID} {db : Database}
    (hroom : ∀ m, (f m).roomID = m.roomID) (href : db.Referenced) :
    (updateActive f r u db).2.Referenced := by
  unfold updateActive
  split
  · exact referenced_updateWhere hroom href
  · exact href

theorem referenced_changeMemberRole {r u : UUID} {newRole : MemberRole} {db : Database}
    (href : db.Referenced) : (changeMemberRole r u newRole db).2.Referenced := by
  unfold changeMemberRole
  split
  · exact href
  · split
    · exact href
    split
    · exact href
    · exact referenced_updateWhere (fun _ => rfl) href

theorem referenced_promoteOldestIfNoAdmins {r : UUID} {db : Database} (href : db.Referenced) :
    (promoteOldestIfNoAdmins r db).2.Referenced := by
  unfold promoteOldestIfNoAdmins
  split
  · exact href
  · exact referenced_updateWhere (fun _ => rfl) href

/-- `GET /rooms` lists every room with an active row of the user. -/
theorem mem_listRoomsForUser {r u : UUID} {db : Database} (href : db.Referenced)
    {m : RoomMember} (hm : m ∈ db.members) (hact : m.isActiveRow r u = true) :
    r ∈ (listRoomsForUser u db).map Room.id := by
  obtain ⟨rfl, rfl, hleft⟩ := RoomMember.isActiveRow_iff.mp hact
  obtain ⟨room₀, hroom₀, hid₀⟩ := href m hm
  have hfind : ∃ room, db.rooms.find? (fun r => r.id = m.roomID) = some room := by
    rw [← Option.isSome_iff_exists, List.find?_isSome]
    exact ⟨room₀, hroom₀, by simpa using hid₀⟩
  obtain ⟨room, hroom⟩ := hfind
  refine List.mem_map.mpr ⟨room, ?_, by simpa using List.find?_some hroom⟩
  refine List.mem_filterMap.mpr ⟨m, ?_, hroom⟩
  rw [List.mem_insertionSort, List.mem_filter]
  exact ⟨hm, by simp [hleft]⟩

end ConvoyChat.Store
