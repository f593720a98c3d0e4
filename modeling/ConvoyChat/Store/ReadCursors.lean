import ConvoyChat.Handlers.Rooms
import ConvoyChat.Store.RoomLemmas

/-!
# The read cursor of a membership

`unread_count` counts from `COALESCE(last_read_at, joined_at)`. What the store calls of
the room handlers do to the two columns: a membership that goes on keeps both, one that
starts gets `joined_at = NOW()` and keeps the `last_read_at` of an earlier membership in
the same room.

* `serve_carries`: this holds of every store call.
* `cursor_of_start`: the cursor that a membership starts with.
-/

namespace ConvoyChat.Store

open ConvoyChat.Lib ConvoyChat.Handlers

/-- `COALESCE(m.last_read_at, m.joined_at)`. -/
def RoomMember.cursor (m : RoomMember) : Time := m.lastReadAt.getD m.joinedAt

/-- There was no row of this room and user, and the row is as `INSERT` makes it. -/
def RoomMember.IsNew (now : Time) (db : Database) (m' : RoomMember) : Prop :=
  (∀ m ∈ db.members, m.isRow m'.roomID m'.userID = false) ∧ m'.lastReadAt = none ∧ m'.joinedAt = now

/-- `m'` is the row `m` at a later time: a membership that starts again has the `joined_at`
    of its new start. -/
structure RoomMember.Continues (now : Time) (m m' : RoomMember) : Prop where
  roomID : m'.roomID = m.roomID
  userID : m'.userID = m.userID
  lastReadAt : m'.lastReadAt = m.lastReadAt
  joinedAt : m'.leftAt = none → m'.joinedAt = if m.leftAt = none then m.joinedAt else now

/-- Every row of `db'` is new or continues one of `db`. -/
def Carries (now : Time) (db db' : Database) : Prop :=
  ∀ m' ∈ db'.members, m'.IsNew now db ∨ ∃ m ∈ db.members, m.Continues now m'

section

variable {now : Time} {db db' : Database}

theorem RoomMember.Continues.refl (now : Time) (m : RoomMember) : m.Continues now m :=
  ⟨rfl, rfl, rfl, fun hleft => (if_pos hleft).symm⟩

theorem Carries.refl (now : Time) (db : Database) : Carries now db db :=
  fun m hm => .inr ⟨m, hm, .refl now m⟩

theorem carries_update {p : RoomMember → Bool} {f : RoomMember → RoomMember}
    (hf : ∀ m ∈ db.members, p m = true → m.Continues now (f m)) :
    Carries now db { db with members := updateWhere p f db.members } := by
  intro m' hm'
  obtain ⟨m, hm, rfl⟩ := mem_updateWhere.mp hm'
  refine .inr ⟨m, hm, ?_⟩
  split_ifs with hp
  · exact hf m hm hp
  · exact .refl now m

/-- Rows are added, and none is changed. -/
structure Adds (now : Time) (db db' : Database) : Prop where
  kept : ∀ m ∈ db.members, m ∈ db'.members
  added : ∀ m' ∈ db'.members, m' ∈ db.members ∨ m'.IsNew now db

theorem Adds.refl (now : Time) (db : Database) : Adds now db db :=
  ⟨fun _ hm => hm, fun _ hm => .inl hm⟩

theorem Adds.trans {db₁ : Database} (h₁ : Adds now db db₁) (h₂ : Adds now db₁ db') :
    Adds now db db' := by
  refine ⟨fun m hm => h₂.kept m (h₁.kept m hm), fun m' hm' => ?_⟩
  rcases h₂.added m' hm' with hold | ⟨hnew, hread, hjoined⟩
  · exact h₁.added m' hold
  · exact .inr ⟨fun m hm => hnew m (h₁.kept m hm), hread, hjoined⟩

theorem Adds.carries (h : Adds now db db') : Carries now db db' := by
  intro m' hm'
  rcases h.added m' hm' with hold | hnew
  · exact .inr ⟨m', hold, .refl now m'⟩
  · exact .inl hnew

theorem adds_insertRoom {row : Room} (h : insertRoom row db = .ok db') : Adds now db db' := by
  obtain ⟨rfl, -⟩ := insertRoom_ok h
  exact ⟨fun _ hm => hm, fun _ hm => .inl hm⟩

theorem adds_insertMember {id roomID userID : UUID} {role : MemberRole}
    (h : insertMember now id roomID userID role db = .ok db') : Adds now db db' := by
  obtain ⟨rfl, -, hnew⟩ := insertMember_ok h
  refine ⟨fun _ hm => List.mem_append_left _ hm, fun m' hm' => ?_⟩
  rcases List.mem_append.mp hm' with hold | hrow
  · exact .inl hold
  · rw [List.mem_singleton.mp hrow]
    exact .inr ⟨hnew, rfl, rfl⟩

theorem adds_insertMembers {uuid : ℕ → UUID} {roomID : UUID} {n : ℕ} {ids : List UUID}
    (h : insertMembers now uuid roomID n ids db = .ok db') : Adds now db db' := by
  induction ids generalizing n db with
  | nil =>
    cases h
    exact .refl _ _
  | cons id ids ih =>
    obtain ⟨db₁, h₁, hrest⟩ := bind_eq_ok.mp h
    exact (adds_insertMember h₁).trans (ih hrest)

/-- A transaction that adds rows, or fails. -/
theorem adds_transact {α : Type} {x : Except StoreErr (α × Database)}
    (hx : ∀ a db', x = .ok (a, db') → Adds now db db') : Adds now db (transact db x).2 := by
  cases x with
  | error e => exact .refl now db
  | ok out => exact hx out.1 out.2 rfl

end

/-! ## The store calls -/

section

variable {now : Time} {uuid : ℕ → UUID} {r u v : UUID} {db : Database}

theorem carries_createChannel {name : String} {description : Option String} {isPublic : Bool} :
    Carries now db (createChannel now uuid u name description isPublic db).2 := by
  refine (adds_transact fun a db' h => ?_).carries
  obtain ⟨db₁, h₁, h⟩ := bind_eq_ok.mp h
  obtain ⟨db₂, h₂, h⟩ := bind_eq_ok.mp h
  cases h
  exact (adds_insertRoom h₁).trans (adds_insertMember h₂)

theorem carries_createGroup {name : String} {description : Option String} {memberIDs : List UUID} :
    Carries now db (createGroup now uuid u name description memberIDs db).2 := by
  refine (adds_transact fun a db' h => ?_).carries
  obtain ⟨db₁, h₁, h⟩ := bind_eq_ok.mp h
  obtain ⟨db₂, h₂, h⟩ := bind_eq_ok.mp h
  obtain ⟨db₃, h₃, h⟩ := bind_eq_ok.mp h
  cases h
  exact ((adds_insertRoom h₁).trans (adds_insertMember h₂)).trans (adds_insertMembers h₃)

/-- The reactivation sets `joined_at`, and leaves `last_read_at` as it was. -/
theorem carries_getOrCreateDirectRoom :
    Carries now db (getOrCreateDirectRoom now uuid u v db).2 := by
  unfold getOrCreateDirectRoom
  split
  · rename_i room _
    refine carries_update fun m _ hdeparted => ⟨rfl, rfl, rfl, fun _ => ?_⟩
    have hleft : m.leftAt.isSome = true := by
      simp only [departedPair, Bool.and_eq_true] at hdeparted
      exact hdeparted.2
    rw [if_neg (Option.isSome_iff_ne_none.mp hleft)]
  · refine (adds_transact fun a db' h => ?_).carries
    obtain ⟨db₁, h₁, h⟩ := bind_eq_ok.mp h
    obtain ⟨db₂, h₂, h⟩ := bind_eq_ok.mp h
    obtain ⟨db₃, h₃, h⟩ := bind_eq_ok.mp h
    cases h
    exact ((adds_insertRoom h₁).trans (adds_insertMember h₂)).trans (adds_insertMember h₃)

theorem carries_addMember {role : MemberRole} :
    Carries now db (addMember now uuid r u role db).2 := by
  unfold addMember
  split
  · split_ifs
    · refine carries_update fun m _ hleft => ⟨rfl, rfl, rfl, fun _ => ?_⟩
      have hleft : m.leftAt.isSome = true := (Bool.and_eq_true_iff.mp hleft).2
      rw [if_neg (Option.isSome_iff_ne_none.mp hleft)]
      rfl
    · exact .refl now db
  · refine (adds_transact fun a db' h => ?_).carries
    obtain ⟨db₁, h₁, h⟩ := bind_eq_ok.mp h
    cases h
    exact adds_insertMember h₁

theorem carries_updateActive {f : RoomMember → RoomMember}
    (hf : ∀ m : RoomMember, m.Continues now (f m)) :
    Carries now db (updateActive f r u db).2 := by
  unfold updateActive
  split_ifs
  · exact carries_update fun m _ _ => hf m
  · exact .refl now db

theorem carries_changeMemberRole {role : MemberRole} :
    Carries now db (changeMemberRole r u role db).2 := by
  unfold changeMemberRole
  split
  · exact .refl now db
  · split_ifs
    · exact .refl now db
    · exact .refl now db
    · exact carries_update fun m _ _ => ⟨rfl, rfl, rfl, fun hleft => (if_pos hleft).symm⟩

theorem carries_promoteOldestIfNoAdmins : Carries now db (promoteOldestIfNoAdmins r db).2 := by
  unfold promoteOldestIfNoAdmins
  split
  · exact .refl now db
  · exact carries_update fun m _ _ => ⟨rfl, rfl, rfl, fun hleft => (if_pos hleft).symm⟩

/-- What every store call of the room handlers does to the cursors. -/
theorem serve_carries (stamps : ℕ → Stamp) (o : RoomOp) (b : Backend) :
    Carries (stamps b.calls).now b.db (o.serve stamps b).2.db := by
  cases o with
  | createChannel => exact carries_createChannel
  | createGroup => exact carries_createGroup
  | getOrCreateDirectRoom => exact carries_getOrCreateDirectRoom
  | addMember => exact carries_addMember
  | removeMember => exact carries_updateActive fun m => ⟨rfl, rfl, rfl, fun hleft => by cases hleft⟩
  | banMember => exact carries_updateActive fun m => ⟨rfl, rfl, rfl, fun hleft => by cases hleft⟩
  | changeMemberRole => exact carries_changeMemberRole
  | promoteOldestIfNoAdmins => exact carries_promoteOldestIfNoAdmins
  | _ => exact .refl _ _

end

/-! ## Where a membership starts -/

/-- The cursor of a membership of `u` in `r` that starts now. -/
def startCursor (now : Time) (db : Database) (r u : UUID) : Time :=
  ((db.members.find? (·.isRow r u)).bind (·.lastReadAt)).getD now

/-- An active row goes on with its cursor, or starts with `startCursor`. -/
theorem cursor_of_start {now : Time} {db db' : Database} (hk : db.Keyed) (h : Carries now db db')
    {m' : RoomMember} (hm' : m' ∈ db'.members) (hleft : m'.leftAt = none) :
    (∃ m ∈ db.members, m.isActiveRow m'.roomID m'.userID = true ∧ m'.cursor = m.cursor) ∨
      (∀ m ∈ db.members, m.isActiveRow m'.roomID m'.userID = false) ∧
        m'.cursor = startCursor now db m'.roomID m'.userID := by
  rcases h m' hm' with ⟨hnew, hread, hjoined⟩ | ⟨m, hm, hcont⟩
  · have hfind : db.members.find? (·.isRow m'.roomID m'.userID) = none :=
      List.find?_eq_none.mpr fun m hm => by simp [hnew m hm]
    refine .inr ⟨fun m hm => ?_, ?_⟩
    · rw [RoomMember.isActiveRow, hnew m hm]
      rfl
    · rw [RoomMember.cursor, hread, startCursor, hfind, hjoined]
      rfl
  · have hrow : m.isRow m'.roomID m'.userID = true :=
      RoomMember.isRow_iff.mpr ⟨hcont.roomID.symm, hcont.userID.symm⟩
    have honly : ∀ x ∈ db.members, x.isRow m'.roomID m'.userID = true → x = m := by
      intro x hx hxrow
      obtain ⟨hxroom, hxuser⟩ := RoomMember.isRow_iff.mp hxrow
      exact hk.member_eq hx hm (hxroom.trans hcont.roomID) (hxuser.trans hcont.userID)
    by_cases hactive : m.leftAt = none
    · refine .inl ⟨m, hm, ?_, ?_⟩
      · exact RoomMember.isActiveRow_iff.mpr ⟨hcont.roomID.symm, hcont.userID.symm, hactive⟩
      · rw [RoomMember.cursor, hcont.lastReadAt, hcont.joinedAt hleft, if_pos hactive]
        rfl
    · refine .inr ⟨fun x hx => ?_, ?_⟩
      · by_contra hne
        have hxact : x.isActiveRow m'.roomID m'.userID = true := by simpa using hne
        obtain ⟨hxroom, hxuser, hxleft⟩ := RoomMember.isActiveRow_iff.mp hxact
        rw [honly x hx (RoomMember.isRow_iff.mpr ⟨hxroom, hxuser⟩)] at hxleft
        exact hactive hxleft
      · have hfind : db.members.find? (·.isRow m'.roomID m'.userID) = some m := by
          obtain ⟨x, hx⟩ := Option.isSome_iff_exists.mp (List.find?_isSome.mpr ⟨m, hm, hrow⟩)
          have hxrow : x.isRow m'.roomID m'.userID = true := List.find?_some hx
          rw [hx, honly x (List.mem_of_find?_eq_some hx) hxrow]
        rw [RoomMember.cursor, hcont.lastReadAt, hcont.joinedAt hleft, if_neg hactive,
          startCursor, hfind]
        rfl

end ConvoyChat.Store
