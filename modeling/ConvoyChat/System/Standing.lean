import ConvoyChat.Handlers.ReadEndpoints
import ConvoyChat.Handlers.RoomAdmins
import ConvoyChat.Store.Directory
import ConvoyChat.System.DirectTx

/-!
# Who is shown a channel, and who may join it

`ListPublicChannels` (`internal/store/rooms.go` lines 615–652) leaves out the channels of
which the user is an active member, and those from which they are banned, with two
`NOT EXISTS`. `JoinChannel` (`internal/handlers/rooms.go` lines 492–559) looks the room up,
asks `IsBanned`, and leaves it to the upsert of `AddMember` to find an active member.
The two agree because no row is both active and banned: the upsert lifts the ban with
`left_at`, a kick sets both, and the rows of direct rooms, which come back to life with
their ban untouched, are never banned.

* `noActiveBan_step`: the invariant, over the statements of any number of requests.
* `joinChannel_status`: what a join is answered, by the tables it finds.
* `join_standing`: in every reachable state, a user is an active member of a public channel,
  or banned from it, or is shown it, and is answered 409, 403 or 201.
-/

namespace ConvoyChat.System

open ConvoyChat.Lib ConvoyChat.Store ConvoyChat.Handlers

/-- No membership row is both active and banned. -/
def NoActiveBan (db : Database) : Prop := ∀ m ∈ db.members, m.leftAt = none → m.bannedAt = none

def httpStatus : Response → ℕ
  | .error status _ _ => status
  | .room status _ => status
  | .member status _ => status
  | .fields status _ => status

/-- Room `r` is among the channels that `GET /rooms/public` shows to `u`, when the rooms
    and memberships are those of `db`. -/
def Listed (snap : Snapshot) (db : Database) (r u : UUID) : Prop :=
  ∃ c ∈ Snapshot.listPublicChannels { snap with rooms := db.rooms, members := db.members } u,
    c.id = r

/-- How a user stands to a public channel. -/
inductive Standing
  | member
  | banned
  | eligible
deriving DecidableEq, Repr

/-- The standing, in terms of the tables and of the browse list. -/
def Standing.Of (snap : Snapshot) (db : Database) (r u : UUID) : Standing → Prop
  | .member => Active db r u
  | .banned => Store.isBanned r u db = true ∧ ¬ Listed snap db r u
  | .eligible => Listed snap db r u

/-- What `JoinChannel` should answer. -/
def Standing.answer : Standing → ℕ
  | .member => 409
  | .banned => 403
  | .eligible => 201

/-- What `JoinChannel` answers. -/
def joinStatus (parse : String → Option UUID) (stamps : ℕ → Stamp) (s : DirectState) (u : UUID)
    (roomParam : String) : ℕ :=
  httpStatus (serve parse stamps (.joinChannel u roomParam) ⟨s.db, s.calls, []⟩).1

variable {parse : String → Option UUID} {hash : UUID → UUID → ℕ} {stamps : ℕ → Stamp}
  {s s' : DirectState} {db db' : Database} {r u : UUID} {n : ℕ} {snap : Snapshot}

/-! ## The store calls -/

theorem NoActiveBan.insertMember {now : Time} {id roomID userID : UUID} {role : MemberRole}
    (h : NoActiveBan db) (hdb : Store.insertMember now id roomID userID role db = .ok db') :
    NoActiveBan db' := by
  obtain ⟨rfl, -⟩ := insertMember_ok hdb
  intro m hm hleft
  rcases List.mem_append.mp hm with hm | hm
  · exact h m hm hleft
  · rw [List.mem_singleton.mp hm]

theorem NoActiveBan.insertRoom {row : Room} (h : NoActiveBan db)
    (hdb : Store.insertRoom row db = .ok db') : NoActiveBan db' := by
  obtain ⟨rfl, -⟩ := insertRoom_ok hdb
  exact h

theorem NoActiveBan.insertMembers {now : Time} {uuid : ℕ → UUID} {roomID : UUID} {ids : List UUID}
    {k : ℕ} (h : NoActiveBan db) (hdb : Store.insertMembers now uuid roomID k ids db = .ok db') :
    NoActiveBan db' := by
  induction ids generalizing k db with
  | nil =>
    cases hdb
    exact h
  | cons id ids ih =>
    obtain ⟨db₁, h₁, hdb⟩ := bind_eq_ok.mp hdb
    exact ih (h.insertMember h₁) hdb

/-- An `UPDATE` that leaves no row active that it has not found active, or that lifts the
    ban. -/
theorem NoActiveBan.updateWhere {p : RoomMember → Bool} {f : RoomMember → RoomMember}
    (h : NoActiveBan db)
    (hf : ∀ m, (f m).leftAt = none → (f m).bannedAt = none ∨
      (m.leftAt = none ∧ (f m).bannedAt = m.bannedAt)) :
    NoActiveBan { db with members := updateWhere p f db.members } := by
  intro m' hm' hleft
  obtain ⟨m, hm, rfl⟩ := mem_updateWhere.mp hm'
  split_ifs at hleft ⊢
  · rcases hf m hleft with hnone | ⟨hactive, hsame⟩
    · exact hnone
    · rw [hsame]
      exact h m hm hactive
  · exact h m hm hleft

theorem NoActiveBan.updateActive {f : RoomMember → RoomMember} (h : NoActiveBan db)
    (hf : ∀ m, (f m).leftAt ≠ none) (r u : UUID) : NoActiveBan (updateActive f r u db).2 := by
  unfold Store.updateActive
  split_ifs
  · exact h.updateWhere fun m hleft => absurd hleft (hf m)
  · exact h

theorem NoActiveBan.transact {α : Type} {x : Except StoreErr (α × Database)} (h : NoActiveBan db)
    (hx : ∀ a db', x = .ok (a, db') → NoActiveBan db') : NoActiveBan (transact db x).2 := by
  cases x with
  | error e => exact h
  | ok out => exact hx out.1 out.2 rfl

/-- The store calls other than `GetOrCreateDirectRoom`. -/
theorem serve_noActiveBan {o : RoomOp} {b : Backend}
    (hdirect : ∀ x y, o ≠ .getOrCreateDirectRoom x y)
    (h : NoActiveBan b.db) : NoActiveBan (o.serve stamps b).2.db := by
  cases o with
  | getOrCreateDirectRoom x y => exact absurd rfl (hdirect x y)
  | createChannel =>
    refine h.transact fun room db' hdb => ?_
    obtain ⟨db₁, h₁, hdb⟩ := bind_eq_ok.mp hdb
    obtain ⟨db₂, h₂, hdb⟩ := bind_eq_ok.mp hdb
    cases hdb
    exact (h.insertRoom h₁).insertMember h₂
  | createGroup =>
    refine h.transact fun room db' hdb => ?_
    obtain ⟨db₁, h₁, hdb⟩ := bind_eq_ok.mp hdb
    obtain ⟨db₂, h₂, hdb⟩ := bind_eq_ok.mp hdb
    obtain ⟨db₃, h₃, hdb⟩ := bind_eq_ok.mp hdb
    cases hdb
    exact ((h.insertRoom h₁).insertMember h₂).insertMembers h₃
  | addMember r' u' role =>
    show NoActiveBan (Store.addMember _ _ r' u' role b.db).2
    unfold Store.addMember
    split
    · split_ifs
      · -- the ban goes with `left_at`
        exact h.updateWhere fun m _ => .inl rfl
      · exact h
    · refine h.transact fun member db' hdb => ?_
      obtain ⟨db₁, h₁, hdb⟩ := bind_eq_ok.mp hdb
      cases hdb
      exact h.insertMember h₁
  | removeMember r' u' => exact h.updateActive (fun _ hleft => Option.some_ne_none _ hleft) r' u'
  | banMember r' u' => exact h.updateActive (fun _ hleft => Option.some_ne_none _ hleft) r' u'
  | changeMemberRole r' u' role =>
    show NoActiveBan (Store.changeMemberRole r' u' role b.db).2
    unfold Store.changeMemberRole
    split
    · exact h
    · split_ifs
      · exact h
      · exact h
      · exact h.updateWhere fun m hleft => .inr ⟨hleft, rfl⟩
  | promoteOldestIfNoAdmins r' =>
    show NoActiveBan (Store.promoteOldestIfNoAdmins r' b.db).2
    unfold Store.promoteOldestIfNoAdmins
    split
    · exact h
    · exact h.updateWhere fun m hleft => .inr ⟨hleft, rfl⟩
  | _ => exact h

/-! ## Runs -/

/-- What a step can do to the tables: nothing, a store call, or the commit of a
    `GetOrCreateDirectRoom`. -/
inductive DbMove (stamps : ℕ → Stamp) (s : DirectState) : Database → Prop
  | none : DbMove stamps s s.db
  | serve {o : RoomOp} : (∀ x y, o ≠ .getOrCreateDirectRoom x y) →
      DbMove stamps s (o.serve stamps ⟨s.db, s.calls, []⟩).2.db
  | reactivate {n : ℕ} {tx : DirectTx} {room : Room} {rows before : List RoomMember} :
      s.txs n = some tx → tx.point = .reactivated room rows before →
      DbMove stamps s { s.db with members := overlay rows s.db.members }
  | create {tx : DirectTx} {db : Database} : tx.inserts s.db = .ok db → DbMove stamps s db

theorem directNext_move {tx : DirectTx} {k : Except StoreErr (Room × Bool × Bool) →
    RoomProc Response}
    (htx : s.txs n = some tx) (h : directNext hash s n tx k = some s') : DbMove stamps s s'.db := by
  unfold directNext at h
  split at h
  · dsimp only at h
    split_ifs at h
    cases h
    exact .none
  · split at h <;> cases h <;> exact .none
  · dsimp only at h
    split_ifs at h
    cases h
    exact .none
  · rename_i room rows before hpoint
    cases h
    exact .reactivate htx hpoint
  · split at h <;> cases h <;> exact .none
  · split at h <;> cases h <;> exact .none
  · split at h <;> cases h <;> exact .none
  · split at h
    · cases h
      exact .none
    · rename_i hdb
      cases h
      exact .create hdb

theorem direct_move {act : DirectAction} (h : s.step parse hash stamps act = some s') :
    DbMove stamps s s'.db := by
  unfold DirectState.step at h
  cases act with
  | request n req =>
    dsimp only at h
    split at h <;> cases h
    exact .none
  | serve n =>
    dsimp only at h
    split at h
    · cases h
      exact .none
    · rename_i o k hdirect _ _
      split_ifs at h
      cases h
      refine .serve fun x y heq => ?_
      subst heq
      exact hdirect x y k rfl HEq.rfl
    · cases h
  | next n =>
    dsimp only at h
    split at h
    · rename_i tx _ _ k htx _
      exact directNext_move htx h
    · cases h
  | fail n =>
    dsimp only at h
    split at h <;> cases h <;> exact .none

/-- A row that `reactivateStmt` brings back is one of a direct room, and is not banned. -/
theorem NoActiveBan.reactivate (hinv : DirectInv hash s) (h : NoActiveBan s.db) {tx : DirectTx}
    {room : Room} {rows before : List RoomMember} (htx : s.txs n = some tx)
    (hpoint : tx.point = .reactivated room rows before) :
    NoActiveBan { s.db with members := overlay rows s.db.members } := by
  have hfinds : tx.Finds s.db := (hinv.txs n tx htx).finds
  unfold DirectTx.Finds at hfinds
  rw [hpoint] at hfinds
  obtain ⟨hpair, hversions, -⟩ := hfinds
  intro m' hm' hleft
  obtain ⟨m, hm, rfl⟩ := List.mem_map.mp hm'
  cases hfind : rows.find? fun v => v.isRow m.roomID m.userID with
  | none =>
    rw [hfind] at hleft
    exact h m hm hleft
  | some v =>
    obtain ⟨x, y, hrows, -, hx, hy⟩ := hinv.tables.rows room hpair.mem hpair.direct
    have hfixed := (hversions v (List.mem_of_find?_eq_some hfind)).2
    rw [hrows] at hfixed
    have hplain : Plain (fixedPart v) := by
      rcases List.mem_pair.mp hfixed with heq | heq
      · rw [heq]
        exact hx
      · rw [heq]
        exact hy
    exact hplain.2

theorem noActiveBan_step (hinv : DirectInv hash s) (h : NoActiveBan s.db)
    (hmove : DbMove stamps s db') : NoActiveBan db' := by
  cases hmove with
  | none => exact h
  | serve hdirect => exact serve_noActiveBan (b := ⟨s.db, s.calls, []⟩) hdirect h
  | reactivate htx hpoint => exact h.reactivate hinv htx hpoint
  | create hdb =>
    obtain ⟨db₁, h₁, hdb⟩ := bind_eq_ok.mp hdb
    obtain ⟨db₂, h₂, hdb⟩ := bind_eq_ok.mp hdb
    exact ((h.insertRoom h₁).insertMember h₂).insertMember hdb

theorem reach_noActiveBan {users : List User}
    (hrun : Reach (DirectState.step parse hash stamps) Unguarded (DirectState.start users) s) :
    s.db.Keyed ∧ NoActiveBan s.db := by
  have hboth : DirectInv hash s ∧ NoActiveBan s.db := by
    refine hrun.invariant (fun s => DirectInv hash s ∧ NoActiveBan s.db) ?_ ?_
    · intro s₁ act s₂ h _ hs
      exact ⟨direct_step h.1 hs, noActiveBan_step h.1 h.2 (direct_move hs)⟩
    · refine ⟨start_inv hash users, ?_⟩
      intro m hm
      cases hm
  exact ⟨hboth.1.tables.keyed, hboth.2⟩

/-! ## The browse list and the join -/

/-- A channel that can be joined, by its row. -/
def Joinable (db : Database) (r : UUID) : Prop :=
  ∃ room ∈ db.rooms, room.id = r ∧ joinable room = true

instance (db : Database) (r : UUID) : Decidable (Joinable db r) :=
  inferInstanceAs (Decidable (∃ room ∈ db.rooms, _))

theorem listed_iff :
    Listed snap db r u ↔ Joinable db r ∧ ¬ Active db r u ∧ Store.isBanned r u db = false := by
  have hbrowse : ∀ room : Room, room.id = r →
      (Snapshot.isBrowsable { snap with rooms := db.rooms, members := db.members } u room = true ↔
        joinable room = true ∧ ¬ Active db r u ∧ Store.isBanned r u db = false) := by
    rintro room rfl
    rw [Snapshot.isBrowsable, joinable, Active, Store.isBanned]
    simp only [Bool.and_eq_true, Bool.not_eq_true', List.any_eq_false, decide_eq_true_eq,
      not_exists, not_and, and_assoc]
  unfold Listed Snapshot.listPublicChannels Joinable
  constructor
  · rintro ⟨c, hc, hid⟩
    obtain ⟨room, hroom, rfl⟩ := List.mem_map.mp hc
    obtain ⟨hmem, hshown⟩ := List.mem_filter.mp ((List.mem_insertionSort _).mp hroom)
    obtain ⟨hjoin, hrest⟩ := (hbrowse room hid).mp hshown
    exact ⟨⟨room, hmem, hid, hjoin⟩, hrest⟩
  · rintro ⟨⟨room, hmem, hid, hjoin⟩, hrest⟩
    refine ⟨_, List.mem_map_of_mem ((List.mem_insertionSort _).mpr (List.mem_filter.mpr
      ⟨hmem, (hbrowse room hid).mpr ⟨hjoin, hrest⟩⟩)), hid⟩

/-- The status of a join whose `AddMember` returned `res`. -/
def addStatus : Except StoreErr RoomMember → ℕ
  | .ok _ => 201
  | .error .alreadyMember => 409
  | .error _ => 500

/-- A join is refused with 403, or is answered what `AddMember` says. -/
theorem joinChannel_status (stamps : ℕ → Stamp) {roomParam : String}
    (hparse : parse roomParam = some r) (u : UUID) (s : DirectState) :
    joinStatus parse stamps s u roomParam =
      match admission parse u roomParam s.db with
      | none => 403
      | some r => addStatus (Store.addMember (stamps (s.calls + 2)).now (stamps (s.calls + 2)).uuid
          r u .member s.db).1 := by
  show Proc.Ends (RoomOp.serve stamps) (joinChannel parse u roomParam) ⟨s.db, s.calls, []⟩
    fun w _ => httpStatus w = _
  unfold joinChannel admission
  rw [hparse]
  refine .perform fun res s₁ h₁ => ?_
  obtain ⟨rfl, rfl⟩ := Prod.mk.inj h₁
  dsimp only
  cases hroom : Store.getRoomByID r s.db with
  | error e =>
    have he : e = .notFound := by
      unfold Store.getRoomByID at hroom
      split at hroom
      · cases hroom
      · exact (Except.error.inj hroom).symm
    subst he
    exact .ret rfl
  | ok room =>
    dsimp only
    cases hjoin : joinable room with
    | false => exact .ret rfl
    | true =>
      refine .perform fun res s₂ h₂ => ?_
      obtain ⟨rfl, rfl⟩ := Prod.mk.inj h₂
      dsimp only
      cases hban : Store.isBanned r u s.db with
      | true => exact .ret rfl
      | false =>
        refine .perform fun res s₃ h₃ => ?_
        obtain ⟨rfl, rfl⟩ := Prod.mk.inj h₃
        show Proc.Ends _ _ _ fun w _ => httpStatus w = addStatus (Store.addMember
          (stamps (s.calls + 2)).now (stamps (s.calls + 2)).uuid r u .member s.db).1
        dsimp only
        cases hadd : (Store.addMember (stamps (s.calls + 2)).now (stamps (s.calls + 2)).uuid r u
          .member s.db).1 with
        | error e =>
          cases e <;> exact .ret rfl
        | ok member =>
          refine .perform fun res s₄ _ => ?_
          cases res with
          | error e => exact .ret rfl
          | ok joiner => exact .perform fun _ _ _ => .ret rfl

theorem mem_getRoomByID (hk : db.Keyed) {room : Room} (hroom : room ∈ db.rooms) :
    Store.getRoomByID room.id db = .ok room := by
  unfold Store.getRoomByID
  cases hfind : db.rooms.find? fun x => x.id = room.id with
  | none => exact absurd (decide_eq_true rfl) (List.find?_eq_none.mp hfind room hroom)
  | some x =>
    have hx : x = room :=
      hk.room_eq (List.mem_of_find?_eq_some hfind) hroom (by simpa using List.find?_some hfind)
    rw [hx]

/-- A join gets to its `AddMember` in a channel from which the user is not banned. -/
theorem admission_eq (hk : db.Keyed) {roomParam : String} (hparse : parse roomParam = some r)
    (u : UUID) :
    admission parse u roomParam db =
      if Joinable db r ∧ Store.isBanned r u db = false then some r else none := by
  unfold admission
  rw [hparse]
  dsimp only
  cases hroom : Store.getRoomByID r db with
  | error e =>
    have hnone : ¬ Joinable db r := by
      rintro ⟨room, hmem, rfl, -⟩
      rw [mem_getRoomByID hk hmem] at hroom
      cases hroom
    rw [if_neg fun h => hnone h.1]
  | ok room =>
    obtain ⟨hmem, hid⟩ := getRoomByID_ok hroom
    have hjoin : Joinable db r ↔ joinable room = true := by
      refine ⟨?_, fun h => ⟨room, hmem, hid, h⟩⟩
      rintro ⟨x, hx, hxid, h⟩
      rw [← hk.room_eq hx hmem (hxid.trans hid.symm)]
      exact h
    simp only [hjoin, Bool.and_eq_true, Bool.not_eq_true']

/-- `AddMember` refuses an active member. -/
theorem addMember_of_active (now : Time) (uuid : ℕ → UUID) (role : MemberRole) (hk : db.Keyed)
    (h : Active db r u) : (Store.addMember now uuid r u role db).1 = .error .alreadyMember := by
  obtain ⟨m, hm, hactive⟩ := h
  obtain ⟨hr, hu, hleft⟩ := RoomMember.isActiveRow_iff.mp hactive
  unfold Store.addMember
  split
  · rename_i x hfind
    obtain ⟨hxr, hxu⟩ := RoomMember.isRow_iff.mp (List.find?_some hfind)
    have hx : x = m :=
      hk.member_eq (List.mem_of_find?_eq_some hfind) hm (hxr.trans hr.symm) (hxu.trans hu.symm)
    rw [if_neg (by rw [hx, hleft]; exact Bool.false_ne_true)]
  · rename_i hfind
    exact absurd (RoomMember.isRow_iff.mpr ⟨hr, hu⟩) (List.find?_eq_none.mp hfind m hm)

/-- `AddMember` inserts a row, or brings back the row of a user who left. -/
theorem addMember_of_not_active (now : Time) {uuid : ℕ → UUID} (role : MemberRole)
    (h : ¬ Active db r u) (hroom : ∃ room ∈ db.rooms, room.id = r)
      (huser : ∃ x ∈ db.users, x.id = u)
    (hfresh : ∀ m ∈ db.members, m.id ≠ uuid 0) :
    ∃ member, (Store.addMember now uuid r u role db).1 = .ok member := by
  unfold Store.addMember
  split
  · rename_i m hfind
    obtain ⟨hr, hu⟩ := RoomMember.isRow_iff.mp (List.find?_some hfind)
    have hleft : m.leftAt.isSome = true := by
      by_contra hleft
      have hnone : m.leftAt = none := by simpa using hleft
      exact h ⟨m, List.mem_of_find?_eq_some hfind, RoomMember.isActiveRow_iff.mpr ⟨hr, hu, hnone⟩⟩
    rw [if_pos hleft]
    exact ⟨_, rfl⟩
  · rename_i hfind
    have hfree : ¬ (db.members.any (fun m => m.id = uuid 0 || m.isRow r u) ||
        !db.rooms.any (fun x => x.id = r) || !db.users.any (fun x => x.id = u)) = true := by
      simp only [Bool.or_eq_true, Bool.not_eq_true', List.any_eq_true, List.any_eq_false,
        decide_eq_true_eq]
      rintro ((⟨m, hm, hid | hrow⟩ | hmissing) | hmissing)
      · exact hfresh m hm hid
      · exact List.find?_eq_none.mp hfind m hm hrow
      · obtain ⟨room, hmem, hid⟩ := hroom
        exact hmissing room hmem hid
      · obtain ⟨x, hmem, hid⟩ := huser
        exact hmissing x hmem hid
    unfold Store.insertMember
    rw [if_neg hfree]
    exact ⟨_, rfl⟩

/-- A banned user is no active member. -/
theorem not_active_of_banned (hk : db.Keyed) (hno : NoActiveBan db)
    (h : Store.isBanned r u db = true) : ¬ Active db r u := by
  rintro ⟨m, hm, hactive⟩
  obtain ⟨hr, hu, hleft⟩ := RoomMember.isActiveRow_iff.mp hactive
  obtain ⟨x, hx, hbanned⟩ := List.any_eq_true.mp h
  obtain ⟨hrow, hsome⟩ := Bool.and_eq_true_iff.mp hbanned
  obtain ⟨hxr, hxu⟩ := RoomMember.isRow_iff.mp hrow
  rw [hk.member_eq hx hm (hxr.trans hr.symm) (hxu.trans hu.symm), hno m hm hleft] at hsome
  cases hsome

theorem standing_unique (hk : db.Keyed) (hno : NoActiveBan db) (hjoin : Joinable db r)
    (snap : Snapshot) (u : UUID) : ∃! st : Standing, st.Of snap db r u := by
  have hbanned := not_active_of_banned (r := r) (u := u) hk hno
  by_cases hactive : Active db r u
  · refine ⟨.member, hactive, fun st hst => ?_⟩
    cases st with
    | member => rfl
    | banned => exact absurd hactive (hbanned hst.1)
    | eligible => exact absurd hactive (listed_iff.mp hst).2.1
  · cases hban : Store.isBanned r u db with
    | true =>
      have hlisted : ¬ Listed snap db r u := by
        intro h
        rw [(listed_iff.mp h).2.2] at hban
        cases hban
      refine ⟨.banned, ⟨hban, hlisted⟩, fun st hst => ?_⟩
      cases st with
      | member => exact absurd hst hactive
      | banned => rfl
      | eligible => exact absurd hst hlisted
    | false =>
      refine ⟨.eligible, listed_iff.mpr ⟨hjoin, hactive, hban⟩, fun st hst => ?_⟩
      cases st with
      | member => exact absurd hst hactive
      | banned => exact absurd hst.1 (by rw [hban]; exact Bool.false_ne_true)
      | eligible => rfl

/-- The standing decides the answer. -/
theorem joinStatus_eq_answer {roomParam : String} (hparse : parse roomParam = some r)
    (hk : s.db.Keyed) (hno : NoActiveBan s.db) (hjoin : Joinable s.db r)
    (huser : ∃ x ∈ s.db.users, x.id = u)
    (hfresh : ∀ m ∈ s.db.members, m.id ≠ (stamps (s.calls + 2)).uuid 0) {st : Standing}
    (hst : st.Of snap s.db r u) : joinStatus parse stamps s u roomParam = st.answer := by
  rw [joinChannel_status stamps hparse u s, admission_eq hk hparse]
  cases st with
  | member =>
    have hban : Store.isBanned r u s.db = false := by
      rw [Bool.eq_false_iff]
      exact fun h => not_active_of_banned hk hno h hst
    rw [if_pos ⟨hjoin, hban⟩]
    show addStatus _ = 409
    rw [addMember_of_active _ _ _ hk hst]
    rfl
  | banned =>
    have hban : ¬ (Joinable s.db r ∧ Store.isBanned r u s.db = false) := by
      rw [hst.1]
      rintro ⟨-, h⟩
      cases h
    rw [if_neg hban]
    rfl
  | eligible =>
    obtain ⟨-, hactive, hban⟩ := listed_iff.mp hst
    have hroom : ∃ room ∈ s.db.rooms, room.id = r := by
      obtain ⟨room, hmem, hid, -⟩ := hjoin
      exact ⟨room, hmem, hid⟩
    obtain ⟨member, hadd⟩ :=
      addMember_of_not_active (stamps (s.calls + 2)).now .member hactive hroom huser hfresh
    rw [if_pos ⟨hjoin, hban⟩]
    show addStatus _ = 201
    rw [hadd]
    rfl

/-- In every reachable state no membership is both active and banned. A user and a public
    channel that is not archived stand to each other in exactly one way: the user is an
    active member, and a join is answered 409; the user is banned, does not see the channel,
    and is answered 403; or the user sees the channel, and is answered 201. No other room is
    seen, and joining one is answered 403. -/
theorem join_standing {users : List User}
    (hrun : Reach (DirectState.step parse hash stamps) Unguarded (DirectState.start users) s)
    (hfresh : ∀ m ∈ s.db.members, m.id ≠ (stamps (s.calls + 2)).uuid 0) (snap : Snapshot) :
    NoActiveBan s.db ∧
      ∀ r u roomParam, parse roomParam = some r → (∃ x ∈ s.db.users, x.id = u) →
        (Joinable s.db r →
          (∃! st : Standing, st.Of snap s.db r u) ∧
            ∀ st : Standing, st.Of snap s.db r u →
            joinStatus parse stamps s u roomParam = st.answer) ∧
        (¬ Joinable s.db r →
          ¬ Listed snap s.db r u ∧ joinStatus parse stamps s u roomParam = 403) := by
  obtain ⟨hk, hno⟩ := reach_noActiveBan hrun
  refine ⟨hno, fun r u roomParam hparse huser => ⟨fun hjoin => ?_, fun hjoin => ?_⟩⟩
  · exact ⟨standing_unique hk hno hjoin snap u,
      fun st hst => joinStatus_eq_answer hparse hk hno hjoin huser hfresh hst⟩
  · refine ⟨fun h => hjoin (listed_iff.mp h).1, ?_⟩
    rw [joinChannel_status stamps hparse u s, admission_eq hk hparse,
      if_neg fun h => hjoin h.1]

/-! ## A member, a banned user and a stranger -/

/-- Ada creates the channel, Bob joins it, and Ada kicks Bob; Carl has done nothing. -/
def bobKicked : List DirectAction :=
  [.request 0 (.createRoom 1 (some ⟨"channel", "five", none, "", none, []⟩)), .serve 0,
    .request 1 (.joinChannel 2 idFive), .serve 1, .serve 1, .serve 1,
    .request 2 (.removeMember 1 idFive idTwo), .serve 2, .serve 2]

def channelAfter (as : List DirectAction) : DirectState :=
  (exec (DirectState.step parseId (fun _ _ => 0) fiveStamps)
    (DirectState.start [⟨1, "ada"⟩, ⟨2, "bob"⟩, ⟨3, "carl"⟩]) as).getD (DirectState.start [])

/-- Ada is told that she is a member, Bob that he is banned, and Carl is let in. -/
theorem join_standing_of_three :
    joinStatus parseId fiveStamps (channelAfter bobKicked) 1 idFive = 409 ∧
      joinStatus parseId fiveStamps (channelAfter bobKicked) 2 idFive = 403 ∧
      joinStatus parseId fiveStamps (channelAfter bobKicked) 3 idFive = 201 := by
  have hexec : exec (DirectState.step parseId (fun _ _ => 0) fiveStamps)
      (DirectState.start [⟨1, "ada"⟩, ⟨2, "bob"⟩, ⟨3, "carl"⟩]) bobKicked =
        some (channelAfter bobKicked) := rfl
  have hrun := Reach.of_exec (meets_unguarded _ _ bobKicked) hexec
  have hjoin : Joinable (channelAfter bobKicked).db 5 := by decide
  have hanswer := fun u huser =>
    (((join_standing hrun (by decide) withoutChannel).2 5 u idFive rfl huser).1 hjoin).2
  have hactive : Active (channelAfter bobKicked).db 5 1 := by decide
  have hbanned : Store.isBanned 5 2 (channelAfter bobKicked).db = true := by decide
  have hstranger : ¬ Active (channelAfter bobKicked).db 5 3 ∧
      Store.isBanned 5 3 (channelAfter bobKicked).db = false := by decide
  refine ⟨hanswer 1 (by decide) .member hactive, hanswer 2 (by decide) .banned ⟨hbanned, ?_⟩,
    hanswer 3 (by decide) .eligible (listed_iff.mpr ⟨hjoin, hstranger⟩)⟩
  intro h
  rw [(listed_iff.mp h).2.2] at hbanned
  cases hbanned

end ConvoyChat.System
