import ConvoyChat.Handlers.Rooms
import ConvoyChat.Lib.Sorting
import ConvoyChat.Store.RoomLemmas
import Mathlib.Data.List.Induction

/-!
# The members of a new group

`validateGroupMemberIDs` (`internal/handlers/rooms.go` lines 77–99) reads the ids of a new
group, and `CreateGroup` (`internal/store/rooms.go` lines 101–140) inserts one row for each,
trusting that none is repeated and none is the creator.

* `validateGroupMemberIDs_ok_iff`: when the ids are accepted.
* `validateGroupMemberIDs_spec`: what they are then.
* `createGroup_ok_iff`: when the group is created, for ids that were accepted.
* `group_members`: the two together.
-/

namespace ConvoyChat.Handlers

open ConvoyChat.Lib ConvoyChat.Store

/-! ## Reading the ids -/

section

variable {parse : String → Option UUID} {creatorID id : UUID} {raw done : List String}
  {r : String} {acc ids : List UUID}

/-- The ids of `raw`, each once, in the order in which they first occur. -/
structure FirstOccurrences (parse : String → Option UUID) (raw : List String) (ids : List UUID) :
    Prop where
  nodup : ids.Nodup
  mem : ∀ id, id ∈ ids ↔ some id ∈ raw.map parse
  order : ids.Pairwise fun a b => (raw.map parse).idxOf (some a) < (raw.map parse).idxOf (some b)

variable (parse) in
theorem firstOccurrences_nil : FirstOccurrences parse [] [] :=
  ⟨List.nodup_nil, by simp, List.Pairwise.nil⟩

/-- An id that was seen before. -/
theorem FirstOccurrences.seen (h : FirstOccurrences parse done acc) (hparse : parse r = some id)
    (hmem : id ∈ acc) : FirstOccurrences parse (done ++ [r]) acc where
  nodup := h.nodup
  mem x := by
    rw [List.map_append, List.mem_append, h.mem x, List.map_singleton, List.mem_singleton, hparse,
      Option.some.injEq]
    constructor
    · exact .inl
    · rintro (hx | rfl)
      · exact hx
      · exact (h.mem x).mp hmem
  order := by
    refine h.order.imp_of_mem fun {a b} ha hb hab => ?_
    rw [List.map_append, List.idxOf_append_of_mem ((h.mem a).mp ha),
      List.idxOf_append_of_mem ((h.mem b).mp hb)]
    exact hab

/-- A new id goes to the end. -/
theorem FirstOccurrences.add (h : FirstOccurrences parse done acc) (hparse : parse r = some id)
    (hnew : id ∉ acc) : FirstOccurrences parse (done ++ [r]) (acc ++ [id]) where
  nodup := by
    rw [List.nodup_append]
    refine ⟨h.nodup, List.nodup_singleton id, fun a ha b hb => ?_⟩
    rw [List.mem_singleton.mp hb]
    rintro rfl
    exact hnew ha
  mem x := by
    rw [List.map_append, List.mem_append, List.mem_append, h.mem x, List.map_singleton,
      List.mem_singleton, List.mem_singleton, hparse, Option.some.injEq]
  order := by
    have hlast : some id ∉ done.map parse := fun hmem => hnew ((h.mem id).mpr hmem)
    rw [List.pairwise_append]
    refine ⟨?_, List.pairwise_singleton _ _, fun a ha b hb => ?_⟩
    · refine h.order.imp_of_mem fun {a b} ha hb hab => ?_
      rw [List.map_append, List.idxOf_append_of_mem ((h.mem a).mp ha),
        List.idxOf_append_of_mem ((h.mem b).mp hb)]
      exact hab
    · rw [List.mem_singleton.mp hb, List.map_append, List.idxOf_append_of_mem ((h.mem a).mp ha),
        List.idxOf_append_of_notMem hlast]
      have hlt := List.idxOf_lt_length_of_mem ((h.mem a).mp ha)
      omega

/-- Every entry is an id, and none is the creator. -/
def AllOthers (parse : String → Option UUID) (creatorID : UUID) (raw : List String) : Prop :=
  ∀ r ∈ raw, ∃ id, parse r = some id ∧ id ≠ creatorID

theorem collectMemberIDs_ok (h : AllOthers parse creatorID raw)
    (hacc : FirstOccurrences parse done acc) :
    ∃ ids, collectMemberIDs parse creatorID raw acc = .ok ids ∧
      FirstOccurrences parse (done ++ raw) ids := by
  induction raw generalizing done acc with
  | nil => exact ⟨acc, rfl, by rwa [List.append_nil]⟩
  | cons r raw ih =>
    obtain ⟨id, hparse, hne⟩ := h r (by simp)
    have hrest : AllOthers parse creatorID raw := fun x hx => h x (by simp [hx])
    have hsplit : done ++ r :: raw = (done ++ [r]) ++ raw := by simp
    rw [collectMemberIDs, hparse, hsplit]
    dsimp only
    rw [if_neg hne]
    split_ifs with hmem
    · exact ih hrest (hacc.seen hparse hmem)
    · exact ih hrest (hacc.add hparse hmem)

theorem collectMemberIDs_error (h : ¬ AllOthers parse creatorID raw) :
    ∃ e, collectMemberIDs parse creatorID raw acc = .error e := by
  induction raw generalizing acc with
  | nil => exact absurd (fun r hr => absurd hr List.not_mem_nil) h
  | cons r raw ih =>
    rw [collectMemberIDs]
    cases hparse : parse r with
    | none => exact ⟨_, rfl⟩
    | some id =>
      dsimp only
      split_ifs with hself hmem
      · exact ⟨_, rfl⟩
      · exact ih fun hrest => h (List.forall_mem_cons.mpr ⟨⟨id, hparse, hself⟩, hrest⟩)
      · exact ih fun hrest => h (List.forall_mem_cons.mpr ⟨⟨id, hparse, hself⟩, hrest⟩)

theorem two_le_length_iff (h : ids.Nodup) : 2 ≤ ids.length ↔ ∃ a ∈ ids, ∃ b ∈ ids, a ≠ b := by
  match ids, h with
  | [], _ => simp
  | [a], _ => simp
  | a :: b :: ids, h =>
    have hne : a ≠ b := fun heq => (List.nodup_cons.mp h).1 (by simp [heq])
    simp only [List.length_cons]
    exact ⟨fun _ => ⟨a, by simp, b, by simp, hne⟩, fun _ => by omega⟩

/-- The order leaves no choice. -/
theorem FirstOccurrences.unique {ids' : List UUID} (h : FirstOccurrences parse raw ids)
    (h' : FirstOccurrences parse raw ids') : ids = ids' := by
  refine eq_of_pairwise_of_mem_iff (fun a _ b _ hab => ?_) h.order h'.order fun id => ?_
  · omega
  · rw [h.mem, h'.mem]

theorem FirstOccurrences.two_le_length_iff (h : FirstOccurrences parse raw ids) :
    2 ≤ ids.length ↔ ∃ a b, some a ∈ raw.map parse ∧ some b ∈ raw.map parse ∧ a ≠ b := by
  rw [Handlers.two_le_length_iff h.nodup]
  simp only [h.mem]
  constructor
  · rintro ⟨a, ha, b, hb, hne⟩
    exact ⟨a, b, ha, hb, hne⟩
  · rintro ⟨a, b, ha, hb, hne⟩
    exact ⟨a, ha, b, hb, hne⟩

/-- The ids are accepted exactly when every entry is an id, none is the creator, and two of
    them differ; they are then listed in the order in which they first occur. -/
theorem validateGroupMemberIDs_ok_iff :
    validateGroupMemberIDs parse raw creatorID = .ok ids ↔
      AllOthers parse creatorID raw ∧ FirstOccurrences parse raw ids ∧
        ∃ a b, some a ∈ raw.map parse ∧ some b ∈ raw.map parse ∧ a ≠ b := by
  unfold validateGroupMemberIDs
  by_cases hothers : AllOthers parse creatorID raw
  · obtain ⟨collected, hcollect, hfirst⟩ :=
      collectMemberIDs_ok hothers (firstOccurrences_nil parse)
    rw [List.nil_append] at hfirst
    rw [hcollect]
    dsimp only
    constructor
    · intro h
      split_ifs at h with hfew
      cases h
      exact ⟨hothers, hfirst, hfirst.two_le_length_iff.mp (not_lt.mp hfew)⟩
    · rintro ⟨-, hids, htwo⟩
      obtain rfl := hfirst.unique hids
      exact if_neg (not_lt.mpr (hfirst.two_le_length_iff.mpr htwo))
  · obtain ⟨e, herror⟩ : ∃ e, collectMemberIDs parse creatorID raw [] = .error e :=
      collectMemberIDs_error hothers
    rw [herror]
    constructor
    · intro h
      cases h
    · rintro ⟨h, -⟩
      exact absurd h hothers

end

/-! ## Inserting the rows -/

section

variable {now : Time} {uuid : ℕ → UUID} {roomID creatorID : UUID} {name : String}
  {description : Option String} {ids : List UUID} {n : ℕ} {row : RoomMember}
  {rows members : List RoomMember} {users : List User} {db db' : Database}

/-- The rows of the members; `uuid n` serves the first of them. -/
def memberRows (now : Time) (uuid : ℕ → UUID) (roomID : UUID) (n : ℕ) (ids : List UUID) :
    List RoomMember :=
  (ids.zipIdx n).map fun x => ⟨uuid x.2, roomID, x.1, .member, now, none, none, none⟩

/-- The rows of a new group: the creator's as admin, then the members'. -/
def groupRows (now : Time) (uuid : ℕ → UUID) (roomID creatorID : UUID) (ids : List UUID) :
    List RoomMember :=
  ⟨uuid 1, roomID, creatorID, .admin, now, none, none, none⟩ :: memberRows now uuid roomID 2 ids

/-- The row can be inserted: its id is free, the user has no row in the room, and exists. -/
structure RowFits (users : List User) (members : List RoomMember) (row : RoomMember) : Prop where
  fresh : ∀ m ∈ members, m.id ≠ row.id
  unique : ∀ m ∈ members, m.isRow row.roomID row.userID = false
  user : ∃ u ∈ users, u.id = row.userID

/-- The rows can be inserted one after another. -/
def RowsFit (users : List User) : List RoomMember → List RoomMember → Prop
  | _, [] => True
  | members, row :: rows => RowFits users members row ∧ RowsFit users (members ++ [row]) rows

theorem insertMember_ok_iff {id userID : UUID} {role : MemberRole}
    (hroom : ∃ r ∈ db.rooms, r.id = roomID) :
    insertMember now id roomID userID role db = .ok db' ↔
      RowFits db.users db.members ⟨id, roomID, userID, role, now, none, none, none⟩ ∧
        { db with members := db.members ++ [⟨id, roomID, userID, role, now, none, none, none⟩] } =
          db' := by
  have hany : db.rooms.any (fun r => r.id = roomID) = true := by simpa using hroom
  unfold insertMember
  split_ifs with hrefused
  · simp only [hany, Bool.not_true, Bool.or_false, Bool.or_eq_true, List.any_eq_true,
      decide_eq_true_eq, Bool.not_eq_true', List.any_eq_false] at hrefused
    constructor
    · intro h
      cases h
    · rintro ⟨⟨hfresh, hunique, u, hu, huser⟩, -⟩
      rcases hrefused with ⟨m, hm, hid | hrow⟩ | hnone
      · exact absurd hid (hfresh m hm)
      · rw [hunique m hm] at hrow
        cases hrow
      · exact absurd huser (hnone u hu)
  · simp only [hany, Bool.not_true, Bool.or_false, Bool.or_eq_true, List.any_eq_true,
      decide_eq_true_eq, Bool.not_eq_true', not_or, not_exists, not_and] at hrefused
    have hfits : RowFits db.users db.members ⟨id, roomID, userID, role, now, none, none, none⟩ := by
      refine ⟨fun m hm => (hrefused.1 m hm).1, fun m hm => by simpa using (hrefused.1 m hm).2, ?_⟩
      simpa using hrefused.2
    constructor
    · intro h
      cases h
      exact ⟨hfits, rfl⟩
    · rintro ⟨-, rfl⟩
      rfl

theorem insertMembers_ok_iff (hroom : ∃ r ∈ db.rooms, r.id = roomID) :
    insertMembers now uuid roomID n ids db = .ok db' ↔
      RowsFit db.users db.members (memberRows now uuid roomID n ids) ∧
        { db with members := db.members ++ memberRows now uuid roomID n ids } = db' := by
  induction ids generalizing n db with
  | nil => simp [insertMembers, memberRows, RowsFit]
  | cons id ids ih =>
    have hrows : memberRows now uuid roomID n (id :: ids) =
        ⟨uuid n, roomID, id, .member, now, none, none, none⟩ ::
          memberRows now uuid roomID (n + 1) ids :=
      rfl
    rw [insertMembers, bind_eq_ok, hrows, RowsFit]
    constructor
    · rintro ⟨db₁, h₁, hrest⟩
      obtain ⟨hfits, rfl⟩ := (insertMember_ok_iff hroom).mp h₁
      obtain ⟨hfit, rfl⟩ := (ih (by exact hroom)).mp hrest
      exact ⟨⟨hfits, hfit⟩, by simp⟩
    · rintro ⟨⟨hfits, hfit⟩, rfl⟩
      refine ⟨_, (insertMember_ok_iff hroom).mpr ⟨hfits, rfl⟩, ?_⟩
      exact (ih (by exact hroom)).mpr ⟨hfit, by simp⟩

/-- Rows of users that differ, in a room without rows, fit if their ids are new and their users
    exist. -/
theorem rowsFit_iff (hroom : ∀ row ∈ rows, row.roomID = roomID)
    (husers : (rows.map (·.userID)).Nodup)
    (hunique : ∀ row ∈ rows, ∀ m ∈ members, m.isRow roomID row.userID = false) :
    RowsFit users members rows ↔ (rows.map (·.id)).Nodup ∧
      (∀ row ∈ rows, ∀ m ∈ members, m.id ≠ row.id) ∧
      ∀ row ∈ rows, ∃ u ∈ users, u.id = row.userID := by
  induction rows generalizing members with
  | nil => simp [RowsFit]
  | cons row rows ih =>
    rw [List.map_cons, List.nodup_cons] at husers
    have hother : ∀ x ∈ rows, x.userID ≠ row.userID :=
      fun x hx heq => husers.1 (List.mem_map.mpr ⟨x, hx, heq⟩)
    -- the row before is in the room, but of another user
    have hunique' : ∀ x ∈ rows, ∀ m ∈ members ++ [row], m.isRow roomID x.userID = false := by
      intro x hx m hm
      rcases List.mem_append.mp hm with hm | hm
      · exact hunique x (by simp [hx]) m hm
      · rw [List.mem_singleton.mp hm]
        simp [RoomMember.isRow, Ne.symm (hother x hx)]
    rw [RowsFit, ih (fun x hx => hroom x (by simp [hx])) husers.2 hunique', List.map_cons,
      List.nodup_cons, List.forall_mem_cons, List.forall_mem_cons]
    constructor
    · rintro ⟨hfits, hids, hfresh, hexist⟩
      have hid : row.id ∉ rows.map (·.id) := by
        intro hmem
        obtain ⟨x, hx, heq⟩ := List.mem_map.mp hmem
        exact hfresh x hx row (by simp) heq.symm
      exact ⟨⟨hid, hids⟩, ⟨hfits.fresh, fun x hx m hm => hfresh x hx m (List.mem_append_left _ hm)⟩,
        hfits.user, hexist⟩
    · rintro ⟨⟨hid, hids⟩, ⟨hfirst, hfresh⟩, huser, hexist⟩
      refine ⟨⟨hfirst, ?_, huser⟩, hids, fun x hx m hm => ?_, hexist⟩
      · rw [hroom row (by simp)]
        exact hunique row (by simp)
      · rcases List.mem_append.mp hm with hm | hm
        · exact hfresh x hx m hm
        · rw [List.mem_singleton.mp hm]
          exact fun heq => hid (List.mem_map.mpr ⟨x, hx, heq.symm⟩)

theorem map_userID_memberRows :
    (memberRows now uuid roomID n ids).map (·.userID) = ids := by
  induction ids generalizing n with
  | nil => rfl
  | cons id ids ih => exact congrArg (id :: ·) ih

theorem roomID_of_mem_groupRows (h : row ∈ groupRows now uuid roomID creatorID ids) :
    row.roomID = roomID := by
  rcases List.mem_cons.mp h with rfl | h
  · rfl
  · obtain ⟨x, -, rfl⟩ := List.mem_map.mp h
    rfl

/-- What `CreateGroup` needs: the room's id and the ids of its rows are new, and the users
    exist. -/
structure GroupFits (now : Time) (uuid : ℕ → UUID) (creatorID : UUID) (ids : List UUID)
    (db : Database) : Prop where
  room : ∀ r ∈ db.rooms, r.id ≠ uuid 0
  distinct : ((groupRows now uuid (uuid 0) creatorID ids).map (·.id)).Nodup
  fresh : ∀ row ∈ groupRows now uuid (uuid 0) creatorID ids, ∀ m ∈ db.members, m.id ≠ row.id
  users : ∀ id ∈ creatorID :: ids, ∃ u ∈ db.users, u.id = id

/-- The room that `CreateGroup` inserts. -/
def groupRoom (now : Time) (uuid : ℕ → UUID) (creatorID : UUID) (name : String)
    (description : Option String) : Room :=
  ⟨uuid 0, some name, .group, creatorID, description, none, false, false, now, now⟩

theorem transact_ok_iff {α : Type} {x : Except StoreErr (α × Database)} {a : α} :
    transact db x = (.ok a, db') ↔ x = .ok (a, db') := by
  cases x with
  | error e => simp [transact]
  | ok out => simp [transact, Prod.ext_iff]

theorem insertRoom_ok_iff {row : Room} :
    insertRoom row db = .ok db' ↔ (∀ r ∈ db.rooms, r.id ≠ row.id) ∧
      (∃ u ∈ db.users, u.id = row.creatorID) ∧ { db with rooms := db.rooms ++ [row] } = db' := by
  unfold insertRoom
  split_ifs with hrefused
  · simp only [Bool.or_eq_true, List.any_eq_true, decide_eq_true_eq, Bool.not_eq_true',
      List.any_eq_false] at hrefused
    constructor
    · intro h
      cases h
    · rintro ⟨hfresh, ⟨u, hu, huser⟩, -⟩
      rcases hrefused with ⟨r, hr, hid⟩ | hnone
      · exact absurd hid (hfresh r hr)
      · exact absurd huser (hnone u hu)
  · simp only [Bool.or_eq_true, List.any_eq_true, decide_eq_true_eq, Bool.not_eq_true', not_or,
      not_exists, not_and] at hrefused
    constructor
    · intro h
      cases h
      exact ⟨hrefused.1, by simpa using hrefused.2, rfl⟩
    · rintro ⟨-, -, rfl⟩
      rfl

/-- The rows of a new group fit into a database without that room. -/
theorem rowsFit_groupRows (href : db.Referenced) (hids : ids.Nodup) (hself : creatorID ∉ ids)
    (hroom : ∀ r ∈ db.rooms, r.id ≠ uuid 0) :
    RowsFit db.users db.members (groupRows now uuid (uuid 0) creatorID ids) ↔
      GroupFits now uuid creatorID ids db := by
  have husers : (groupRows now uuid (uuid 0) creatorID ids).map (·.userID) = creatorID :: ids :=
    congrArg (creatorID :: ·) map_userID_memberRows
  have hexist :
    (∀ row ∈ groupRows now uuid (uuid 0) creatorID ids, ∃ u ∈ db.users, u.id = row.userID) ↔
      ∀ id ∈ creatorID :: ids, ∃ u ∈ db.users, u.id = id := by
    rw [← husers, List.forall_mem_map]
  -- a row of the new room would refer to a room with its id
  have hunique : ∀ row ∈ groupRows now uuid (uuid 0) creatorID ids, ∀ m ∈ db.members,
      m.isRow (uuid 0) row.userID = false := by
    intro row _ m hm
    obtain ⟨r, hr, hid⟩ := href m hm
    have hne : m.roomID ≠ uuid 0 := hid ▸ hroom r hr
    simp [RoomMember.isRow, hne]
  rw [rowsFit_iff (fun row => roomID_of_mem_groupRows)
    (by rw [husers]; exact List.nodup_cons.mpr ⟨hself, hids⟩) hunique, hexist]
  exact ⟨fun h => ⟨hroom, h.1, h.2.1, h.2.2⟩, fun h => ⟨h.distinct, h.fresh, h.users⟩⟩

/-- For ids without repetition that are not the creator's, the unique key of
    `room_members` refuses no row. -/
theorem createGroup_ok_iff (href : db.Referenced) (hids : ids.Nodup) (hself : creatorID ∉ ids)
    {room : Room} :
    createGroup now uuid creatorID name description ids db = (.ok room, db') ↔
      GroupFits now uuid creatorID ids db ∧
        room = groupRoom now uuid creatorID name description ∧
        db' = { db with
          rooms := db.rooms ++ [room]
          members := db.members ++ groupRows now uuid (uuid 0) creatorID ids } := by
  have hnew : ∃ r ∈ db.rooms ++ [groupRoom now uuid creatorID name description], r.id = uuid 0 :=
    ⟨_, List.mem_append_right _ (List.mem_singleton_self _), rfl⟩
  rw [createGroup, transact_ok_iff]
  constructor
  · intro h
    obtain ⟨db₁, h₁, h⟩ := bind_eq_ok.mp h
    obtain ⟨db₂, h₂, h⟩ := bind_eq_ok.mp h
    obtain ⟨db₃, h₃, h⟩ := bind_eq_ok.mp h
    cases h
    obtain ⟨hroom, -, rfl⟩ := insertRoom_ok_iff.mp h₁
    obtain ⟨hcreator, rfl⟩ := (insertMember_ok_iff hnew).mp h₂
    obtain ⟨hmembers, rfl⟩ := (insertMembers_ok_iff hnew).mp h₃
    refine ⟨(rowsFit_groupRows href hids hself hroom).mp ⟨hcreator, hmembers⟩, rfl, ?_⟩
    simp [groupRows]
  · rintro ⟨hfits, rfl, rfl⟩
    obtain ⟨hcreator, hmembers⟩ := (rowsFit_groupRows href hids hself hfits.room).mpr hfits
    refine bind_eq_ok.mpr
      ⟨_, insertRoom_ok_iff.mpr ⟨hfits.room, hfits.users creatorID (by simp), rfl⟩, ?_⟩
    refine bind_eq_ok.mpr ⟨_, (insertMember_ok_iff hnew).mpr ⟨hcreator, rfl⟩, ?_⟩
    refine bind_eq_ok.mpr ⟨_, (insertMembers_ok_iff hnew).mpr ⟨hmembers, rfl⟩, ?_⟩
    simp [groupRows]
    rfl

theorem createGroup_error {e : StoreErr}
    (h : createGroup now uuid creatorID name description ids db = (.error e, db')) : db' = db := by
  rcases transact_cases h with ⟨-, heq⟩ | ⟨a, ha, -⟩
  · exact heq
  · cases ha

theorem map_groupRows :
    (groupRows now uuid roomID creatorID ids).map (fun m => (m.roomID, m.userID, m.role)) =
      (roomID, creatorID, .admin) :: ids.map fun id => (roomID, id, .member) := by
  have hmembers :
      ∀ n, (memberRows now uuid roomID n ids).map (fun m => (m.roomID, m.userID, m.role)) =
        ids.map fun id => (roomID, id, .member) := by
    induction ids with
    | nil => exact fun _ => rfl
    | cons id ids ih =>
      exact fun n => congrArg (List.cons (roomID, id, MemberRole.member)) (ih (n + 1))
  exact congrArg ((roomID, creatorID, .admin) :: ·) (hmembers 2)

end

/-- The ids of a new group are accepted exactly when all are ids of others and two differ. The
    accepted ids are listed in the order in which they first occur, and with them `CreateGroup`
    inserts the creator as admin and each of them once as member, if the new ids are free and
    the users exist, whatever the unique key of `room_members`; otherwise it changes nothing. -/
theorem group_members (parse : String → Option UUID) (raw : List String) (creatorID : UUID) :
    ((∃ ids, validateGroupMemberIDs parse raw creatorID = .ok ids) ↔
      AllOthers parse creatorID raw ∧
        ∃ a b, some a ∈ raw.map parse ∧ some b ∈ raw.map parse ∧ a ≠ b) ∧
      ∀ ids, validateGroupMemberIDs parse raw creatorID = .ok ids →
        FirstOccurrences parse raw ids ∧ creatorID ∉ ids ∧
        ∀ now uuid name description db db', db.Referenced →
          (∀ room, createGroup now uuid creatorID name description ids db = (.ok room, db') ↔
            GroupFits now uuid creatorID ids db ∧
              room = groupRoom now uuid creatorID name description ∧
              db' = { db with
                rooms := db.rooms ++ [room]
                members := db.members ++ groupRows now uuid (uuid 0) creatorID ids }) ∧
          (groupRows now uuid (uuid 0) creatorID ids).map (fun m => (m.roomID, m.userID, m.role)) =
            (uuid 0, creatorID, .admin) :: ids.map (fun id => (uuid 0, id, .member)) ∧
          (∀ room, createGroup now uuid creatorID name description ids db = (.ok room, db') →
            db.Keyed → db'.Keyed) ∧
          ∀ e, createGroup now uuid creatorID name description ids db = (.error e, db') →
          db' = db := by
  constructor
  · constructor
    · rintro ⟨ids, h⟩
      obtain ⟨hothers, -, htwo⟩ := validateGroupMemberIDs_ok_iff.mp h
      exact ⟨hothers, htwo⟩
    · rintro ⟨hothers, htwo⟩
      obtain ⟨ids, -, hfirst⟩ := collectMemberIDs_ok hothers (firstOccurrences_nil parse)
      exact ⟨ids, validateGroupMemberIDs_ok_iff.mpr ⟨hothers, hfirst, htwo⟩⟩
  · intro ids h
    obtain ⟨hothers, hfirst, -⟩ := validateGroupMemberIDs_ok_iff.mp h
    have hself : creatorID ∉ ids := by
      intro hmem
      obtain ⟨r, hr, hparse⟩ := List.mem_map.mp ((hfirst.mem creatorID).mp hmem)
      obtain ⟨id, hid, hne⟩ := hothers r hr
      rw [hparse, Option.some.injEq] at hid
      exact hne hid.symm
    refine ⟨hfirst, hself,
      fun now uuid name description db db' href => ⟨fun room => ?_, ?_, ?_, ?_⟩⟩
    · exact createGroup_ok_iff href hfirst.nodup hself
    · exact map_groupRows
    · exact fun room hok => (createGroup_ok hok).1.keyed
    · exact fun e => createGroup_error

/-- `uuid.Parse` on the texts below. -/
def parseSample (raw : String) : Option UUID :=
  if raw = "6ba7b810-9dad-11d1-80b4-00c04fd430c8" then some 2
  else if raw = "6BA7B810-9DAD-11D1-80B4-00C04FD430C8" then some 2
  else if raw = "6ba7b811-9dad-11d1-80b4-00c04fd430c8" then some 3
  else none

/-- One id in two spellings, and another one. -/
def rawMembers : List String :=
  ["6ba7b810-9dad-11d1-80b4-00c04fd430c8", "6BA7B810-9DAD-11D1-80B4-00C04FD430C8",
    "6ba7b811-9dad-11d1-80b4-00c04fd430c8"]

/-- Three users and no room. -/
def threeUsers : Database := ⟨[⟨1, "ada"⟩, ⟨2, "bob"⟩, ⟨3, "carl"⟩], [], []⟩

/-- Ada's group gets Bob once. -/
theorem group_members_spellings :
    FirstOccurrences parseSample rawMembers [2, 3] ∧
      ∃ room db', createGroup 5 (10 + ·) 1 "team" none [2, 3] threeUsers = (.ok room, db') ∧
        db'.Keyed ∧ db'.members.map (fun m => (m.userID, m.role)) =
          [(1, .admin), (2, .member), (3, .member)] := by
  obtain ⟨hfirst, -, hcreate⟩ := (group_members parseSample rawMembers 1).2 [2, 3] rfl
  have href : threeUsers.Referenced := fun _ hm => absurd hm List.not_mem_nil
  have hkeyed : threeUsers.Keyed := ⟨List.nodup_nil, List.nodup_nil, List.nodup_nil⟩
  obtain ⟨hiff, -, hkeeps, -⟩ := hcreate 5 (10 + ·) "team" none threeUsers _ href
  have hfits : GroupFits 5 (10 + ·) 1 [2, 3] threeUsers :=
    ⟨fun _ hr => absurd hr List.not_mem_nil, by decide, fun _ _ _ hm => absurd hm List.not_mem_nil,
      by decide⟩
  have hok := (hiff _).mpr ⟨hfits, rfl, rfl⟩
  exact ⟨hfirst, _, _, hok, hkeeps _ hok hkeyed, rfl⟩

end ConvoyChat.Handlers
