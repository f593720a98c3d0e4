import ConvoyChat.Lib.Runs
import ConvoyChat.Store.RoomLemmas

/-!
# Concurrent departures

`LeaveRoom` (`internal/handlers/rooms.go` lines 615–648) ends a membership in one statement and
looks for a successor in a second one, `PromoteOldestIfNoAdmins` (`internal/store/rooms.go`
lines 204–254), which reads a snapshot and then writes the candidate's row. In between, other
members leave, join, are kicked or change roles; the candidate may be gone when its row is
written, since the recheck of the row is by its id. The comment there accepts that several
candidates are promoted and excludes that nobody is.

A `RemoveMember` whose answer is lost ends the request before it looks for a successor, and an
error of `PromoteOldestIfNoAdmins` is only logged; such a departure leaves the room to the others.

* `leaveStep_cases`: all that one statement can do.
* `Covered`: the invariant, an admin or a departure that still has to find one.
* `leaves_keep_admin`: once the departures are over, a room with members has an admin.
-/

namespace ConvoyChat.Store

open ConvoyChat.Lib

/-- Where a `LeaveRoom` request is. -/
inductive LeavePoint
  | called
  /-- `RemoveMember` has ended the membership -/
  | removed
  /-- the statement of `PromoteOldestIfNoAdmins` has read its snapshot -/
  | chosen (candidate : Option RoomMember)
  | done
deriving DecidableEq

/-- A `LeaveRoom` request. -/
structure Leave where
  roomID : UUID
  userID : UUID
  point : LeavePoint
deriving DecidableEq

/-- The tables and the requests, by number. -/
structure LeaveState where
  db : Database
  leaves : ℕ → Option Leave

inductive LeaveAction
  | request (t : ℕ) (roomID userID : UUID)
  /-- the `UPDATE` of `RemoveMember` -/
  | remove (t : ℕ) (now : Time)
  /-- `RemoveMember` returns an error and has done nothing: no active row, or the call fails -/
  | refuse (t : ℕ)
  /-- the `UPDATE` of `RemoveMember`, whose answer is lost -/
  | lose (t : ℕ) (now : Time)
  /-- the `WITH` part of `PromoteOldestIfNoAdmins` -/
  | choose (t : ℕ)
  /-- its `UPDATE` -/
  | promote (t : ℕ)
  /-- `PromoteOldestIfNoAdmins` fails -/
  | giveUp (t : ℕ)
  /-- `AddMember` of a `JoinChannel` or `InviteMember` request -/
  | join (now : Time) (uuid : ℕ → UUID) (roomID userID : UUID)
  /-- `BanMember` of a `RemoveMember` request by `caller` -/
  | kick (now : Time) (roomID caller target : UUID)
  /-- the commit of a `ChangeMemberRole` -/
  | change (roomID userID : UUID) (newRole : MemberRole)

def LeaveState.setPoint (s : LeaveState) (t : ℕ) (q : Leave) (p : LeavePoint) : LeaveState :=
  { s with leaves := Function.update s.leaves t (some { q with point := p }) }

/-- `UPDATE room_members SET role = 'admin' WHERE id IN (SELECT id FROM candidate)`: the row is
    locked and read again, and its id is still the one of the snapshot. -/
def promoteRow (candidate : Option RoomMember) (db : Database) : Database :=
  match candidate with
  | none => db
  | some c => { db with
      members := updateWhere (fun m => m.id = c.id) ({ · with role := .admin }) db.members }

/-- `UPDATE room_members SET role = $3 WHERE room_id = $1 AND user_id = $2 AND left_at IS NULL`. -/
def setRole (roomID userID : UUID) (newRole : MemberRole) (db : Database) : Database :=
  { db with
    members := updateWhere (·.isActiveRow roomID userID) ({ · with role := newRole }) db.members }

/-- The next statement of request `t`. -/
def leaveNext (s : LeaveState) (t : ℕ) (q : Leave) : LeaveAction → Option LeaveState
  | .remove _ now =>
    if q.point = .called then
      match removeMember now q.roomID q.userID s.db with
      | (.ok (), db) => some { s.setPoint t q .removed with db := db }
      | (.error _, _) => some (s.setPoint t q .done)
    else none
  | .refuse _ => if q.point = .called then some (s.setPoint t q .done) else none
  | .lose _ now =>
    if q.point = .called then
      some { s.setPoint t q .done with db := (removeMember now q.roomID q.userID s.db).2 }
    else none
  | .choose _ =>
    if q.point = .removed then
      some (s.setPoint t q (.chosen (promotionCandidate q.roomID s.db)))
    else none
  | .promote _ =>
    match q.point with
    | .chosen candidate => some { s.setPoint t q .done with db := promoteRow candidate s.db }
    | _ => none
  | .giveUp _ =>
    match q.point with
    | .removed | .chosen _ => some (s.setPoint t q .done)
    | _ => none
  | _ => none

def leaveStep (s : LeaveState) : LeaveAction → Option LeaveState
  | .request t roomID userID =>
    match s.leaves t with
    | some _ => none
    | none =>
      some { s with leaves := Function.update s.leaves t (some ⟨roomID, userID, .called⟩) }
  | .remove t now => (s.leaves t).bind fun q => leaveNext s t q (.remove t now)
  | .refuse t => (s.leaves t).bind fun q => leaveNext s t q (.refuse t)
  | .lose t now => (s.leaves t).bind fun q => leaveNext s t q (.lose t now)
  | .choose t => (s.leaves t).bind fun q => leaveNext s t q (.choose t)
  | .promote t => (s.leaves t).bind fun q => leaveNext s t q (.promote t)
  | .giveUp t => (s.leaves t).bind fun q => leaveNext s t q (.giveUp t)
  | .join now uuid roomID userID =>
    some { s with db := (addMember now uuid roomID userID .member s.db).2 }
  | .kick now roomID _ target => some { s with db := (banMember now roomID target s.db).2 }
  | .change roomID userID newRole => some { s with db := setRole roomID userID newRole s.db }

/-- The rooms of the tables and their members, of whom some are admins. -/
def HasMembers (r : UUID) (db : Database) : Prop := ∃ m ∈ db.members, m.isActiveIn r = true

def HasAdmins (r : UUID) (db : Database) : Prop := ∃ m ∈ db.members, m.isAdminIn r = true

/-- Conditions that the code does not check when the statement runs: nobody joins an empty room,
    whoever kicks is still an admin and kicks another one, a demotion leaves another admin, and
    no departure loses the answer of its `RemoveMember` or fails to look for a successor. -/
def LeaveOk (r : UUID) (s : LeaveState) : LeaveAction → Prop
  | .lose t _ | .giveUp t => ∀ q, s.leaves t = some q → q.roomID ≠ r
  | .join _ _ roomID _ => roomID = r → HasMembers r s.db
  | .kick _ roomID caller target => roomID = r →
      target ≠ caller ∧ ∃ m ∈ s.db.members, m.isAdminIn r = true ∧ m.userID = caller
  | .change roomID userID newRole => roomID = r →
      newRole = .admin ∨ ∃ m ∈ s.db.members, m.isAdminIn r = true ∧ m.userID ≠ userID
  | _ => True

/-! ## What a statement can do -/

/-- All that one action can do. -/
inductive LeaveMove (s : LeaveState) : LeaveAction → LeaveState → Prop
  | request {t roomID userID} : s.leaves t = none →
      LeaveMove s (.request t roomID userID)
        { s with leaves := Function.update s.leaves t (some ⟨roomID, userID, .called⟩) }
  | removed {t now q db} : s.leaves t = some q → q.point = .called →
      removeMember now q.roomID q.userID s.db = (.ok (), db) →
      LeaveMove s (.remove t now) { s.setPoint t q .removed with db := db }
  | refused {t a q} : s.leaves t = some q → q.point = .called →
      LeaveMove s a (s.setPoint t q .done)
  | lost {t now q} : s.leaves t = some q →
      LeaveMove s (.lose t now)
        { s.setPoint t q .done with db := (removeMember now q.roomID q.userID s.db).2 }
  | choose {t q} : s.leaves t = some q → q.point = .removed →
      LeaveMove s (.choose t) (s.setPoint t q (.chosen (promotionCandidate q.roomID s.db)))
  | promote {t q candidate} : s.leaves t = some q → q.point = .chosen candidate →
      LeaveMove s (.promote t) { s.setPoint t q .done with db := promoteRow candidate s.db }
  | gaveUp {t q} : s.leaves t = some q → LeaveMove s (.giveUp t) (s.setPoint t q .done)
  | join {now uuid roomID userID} :
      LeaveMove s (.join now uuid roomID userID)
        { s with db := (addMember now uuid roomID userID .member s.db).2 }
  | kick {now roomID caller target} :
      LeaveMove s (.kick now roomID caller target)
        { s with db := (banMember now roomID target s.db).2 }
  | change {roomID userID newRole} :
      LeaveMove s (.change roomID userID newRole)
        { s with db := setRole roomID userID newRole s.db }

section

variable {s s' : LeaveState} {a : LeaveAction} {r : UUID} {db db' : Database} {t : ℕ} {q : Leave}

theorem leaveStep_cases (h : leaveStep s a = some s') : LeaveMove s a s' := by
  cases a with
  | request t roomID userID =>
    simp only [leaveStep] at h
    split at h
    · cases h
    · rename_i hnone
      cases h
      exact .request hnone
  | remove t now =>
    obtain ⟨q, hq, h⟩ := Option.bind_eq_some_iff.mp h
    simp only [leaveNext] at h
    split_ifs at h with hpoint
    split at h
    · rename_i db hremove
      cases h
      exact .removed hq hpoint hremove
    · cases h
      exact .refused hq hpoint
  | refuse t =>
    obtain ⟨q, hq, h⟩ := Option.bind_eq_some_iff.mp h
    simp only [leaveNext] at h
    split_ifs at h with hpoint
    cases h
    exact .refused hq hpoint
  | lose t now =>
    obtain ⟨q, hq, h⟩ := Option.bind_eq_some_iff.mp h
    simp only [leaveNext] at h
    split_ifs at h
    cases h
    exact .lost hq
  | choose t =>
    obtain ⟨q, hq, h⟩ := Option.bind_eq_some_iff.mp h
    simp only [leaveNext] at h
    split_ifs at h with hpoint
    cases h
    exact .choose hq hpoint
  | promote t =>
    obtain ⟨q, hq, h⟩ := Option.bind_eq_some_iff.mp h
    simp only [leaveNext] at h
    split at h
    · rename_i candidate hpoint
      cases h
      exact .promote hq hpoint
    · cases h
  | giveUp t =>
    obtain ⟨q, hq, h⟩ := Option.bind_eq_some_iff.mp h
    simp only [leaveNext] at h
    split at h
    · cases h
      exact .gaveUp hq
    · cases h
      exact .gaveUp hq
    · cases h
  | join now uuid roomID userID =>
    cases h
    exact .join
  | kick now roomID caller target =>
    cases h
    exact .kick
  | change roomID userID newRole =>
    cases h
    exact .change

/-! ## Rows -/

/-- An active admin of another user stays one when a row of `u` is written. -/
theorem admin_of_updateActive {f : RoomMember → RoomMember} {roomID u : UUID} {m : RoomMember}
    (hm : m ∈ db.members) (hne : m.roomID = roomID → m.userID ≠ u) :
    m ∈ (updateActive f roomID u db).2.members := by
  unfold updateActive
  split_ifs
  · refine mem_updateWhere_of_not hm ?_
    rw [Bool.eq_false_iff]
    intro hrow
    obtain ⟨hroom, huser, -⟩ := RoomMember.isActiveRow_iff.mp hrow
    exact hne hroom huser
  · exact hm

theorem updateActive_rooms (f : RoomMember → RoomMember) (roomID u : UUID) (db : Database) :
    (updateActive f roomID u db).2.rooms = db.rooms := by
  unfold updateActive
  split_ifs <;> rfl

/-- `AddMember` leaves active members alone. -/
theorem mem_addMember {now : Time} {uuid : ℕ → UUID} {roomID u : UUID} {m : RoomMember}
    (hm : m ∈ db.members) (hactive : m.leftAt = none) :
    m ∈ (addMember now uuid roomID u .member db).2.members := by
  cases hadd : addMember now uuid roomID u .member db with
  | mk res db' =>
    cases res with
    | error e =>
      rw [addMember_error hadd]
      exact hm
    | ok member => exact (addMember_ok hadd).2 m hm hactive

theorem addMember_rooms_eq (now : Time) (uuid : ℕ → UUID) (roomID u : UUID) (db : Database) :
    (addMember now uuid roomID u .member db).2.rooms = db.rooms := by
  cases hadd : addMember now uuid roomID u .member db with
  | mk res db' =>
    cases res with
    | error e => rw [addMember_error hadd]
    | ok member => exact addMember_rooms hadd

/-- A row of `r` that is active after an update of another room was active before. -/
theorem members_of_touches {roomID : UUID} (htouch : Touches roomID db db') (hne : roomID ≠ r)
    {m : RoomMember} (hroom : m.roomID = r) : m ∈ db'.members ↔ m ∈ db.members :=
  htouch.mem_members (by rw [hroom]; exact hne.symm)

/-- A role that is raised leaves the row active. -/
theorem promoteRow_mem (candidate : Option RoomMember) {m : RoomMember} (hm : m ∈ db.members) :
    ∃ m' ∈ (promoteRow candidate db).members, m'.id = m.id ∧ m'.roomID = m.roomID ∧
    m'.leftAt = m.leftAt ∧
      (m'.role = m.role ∨ m'.role = .admin) := by
  cases candidate with
  | none => exact ⟨m, hm, rfl, rfl, rfl, .inl rfl⟩
  | some c =>
    by_cases hid : m.id = c.id
    · exact ⟨_, mem_updateWhere_of hm (by simp [hid]), rfl, rfl, rfl, .inr rfl⟩
    · exact ⟨m, mem_updateWhere_of_not hm (by simp [hid]), rfl, rfl, rfl, .inl rfl⟩

theorem hasAdmins_promoteRow {candidate : Option RoomMember} (h : HasAdmins r db) :
    HasAdmins r (promoteRow candidate db) := by
  obtain ⟨m, hm, hadmin⟩ := h
  obtain ⟨hroom, hleft, hrole⟩ := RoomMember.isAdminIn_iff.mp hadmin
  obtain ⟨m', hm', -, hroom', hleft', hrole'⟩ := promoteRow_mem candidate hm
  refine ⟨m', hm', RoomMember.isAdminIn_iff.mpr ⟨hroom'.trans hroom, hleft'.trans hleft, ?_⟩⟩
  rcases hrole' with h | h
  · exact h.trans hrole
  · exact h

/-- The candidate, if it is still active, is an admin afterwards. -/
theorem hasAdmins_of_chosen {c m : RoomMember} (hm : m ∈ db.members)
    (hactive : m.isActiveIn r = true)
    (hid : m.id = c.id) : HasAdmins r (promoteRow (some c) db) := by
  obtain ⟨hroom, hleft⟩ := RoomMember.isActiveIn_iff.mp hactive
  exact ⟨_, mem_updateWhere_of hm (by simp [hid]), RoomMember.isAdminIn_iff.mpr ⟨hroom, hleft, rfl⟩⟩

/-- The promotion finds somebody in a room with members and no admin. -/
theorem candidate_of_members (hroom : ∃ room ∈ db.rooms, room.id = r ∧ room.type ≠ .direct)
    (hmembers : HasMembers r db) (hadmins : ¬ HasAdmins r db) :
    ∃ c ∈ db.members, promotionCandidate r db = some c ∧ c.isActiveIn r = true := by
  obtain ⟨room, hmem, hid, htype⟩ := hroom
  obtain ⟨m, hm, hactive⟩ := hmembers
  have hkind :
      db.rooms.any (fun x => x.id = r && (x.type = .channel || x.type = .group)) = true := by
    refine List.any_eq_true.mpr ⟨room, hmem, ?_⟩
    cases hty : room.type with
    | direct => exact absurd hty htype
    | channel => simp [hid]
    | group => simp [hid]
  have hnone : db.members.any (·.isAdminIn r) = false := by
    rw [Bool.eq_false_iff]
    intro hany
    obtain ⟨x, hx, hadmin⟩ := List.any_eq_true.mp hany
    exact hadmins ⟨x, hx, hadmin⟩
  cases hcandidate : promotionCandidate r db with
  | none =>
    simp only [promotionCandidate, hnone, hkind, Bool.false_eq_true, if_false, Bool.not_true,
      List.argmin_eq_none] at hcandidate
    have hfilter := List.mem_filter.mpr ⟨hm, hactive⟩
    rw [hcandidate] at hfilter
    cases hfilter
  | some c =>
    have hargmin := hcandidate
    simp only [promotionCandidate, hnone, hkind, Bool.false_eq_true, if_false,
      Bool.not_true] at hargmin
    obtain ⟨hc, hcactive⟩ := List.mem_filter.mp (List.argmin_mem hargmin)
    exact ⟨c, hc, rfl, hcactive⟩

/-! ## The invariant -/

/-- `q` has yet to find an admin for room `r`, and will. -/
def Seeks (r : UUID) (db : Database) (q : Leave) : Prop :=
  q.roomID = r ∧ (q.point = .removed ∨
    ∃ c, q.point = .chosen (some c) ∧ ∃ m ∈ db.members, m.isActiveIn r = true ∧ m.id = c.id)

/-- A room with members has an admin, or a departure that will find one. -/
def Covered (r : UUID) (s : LeaveState) : Prop :=
  HasMembers r s.db → HasAdmins r s.db ∨ ∃ t q, s.leaves t = some q ∧ Seeks r s.db q

/-- A change of the tables after which `r` has no new members, and the admins and the active members
    that it had. -/
structure Keeps (r : UUID) (db db' : Database) : Prop where
  members : HasMembers r db' → HasMembers r db
  admins : HasAdmins r db → HasAdmins r db'
  active : ∀ m ∈ db.members, m.isActiveIn r = true → ∃ m' ∈ db'.members, m'.isActiveIn r = true ∧
    m'.id = m.id

theorem Keeps.of_touches {roomID : UUID} (htouch : Touches roomID db db') (hne : roomID ≠ r) :
    Keeps r db db' where
  members := by
    rintro ⟨m, hm, hactive⟩
    exact ⟨m, (members_of_touches htouch hne (RoomMember.isActiveIn_iff.mp hactive).1).mp hm,
      hactive⟩
  admins := by
    rintro ⟨m, hm, hadmin⟩
    exact ⟨m, (members_of_touches htouch hne (RoomMember.isAdminIn_iff.mp hadmin).1).mpr hm, hadmin⟩
  active m hm hactive :=
    ⟨m, (members_of_touches htouch hne (RoomMember.isActiveIn_iff.mp hactive).1).mpr hm,
      hactive, rfl⟩

theorem Seeks.keeps (h : Seeks r db q) (hkeeps : Keeps r db db') : Seeks r db' q := by
  obtain ⟨hroom, hpoint⟩ := h
  refine ⟨hroom, ?_⟩
  rcases hpoint with hremoved | ⟨c, hchosen, m, hm, hactive, hid⟩
  · exact .inl hremoved
  · obtain ⟨m', hm', hactive', hid'⟩ := hkeeps.active m hm hactive
    exact .inr ⟨c, hchosen, m', hm', hactive', hid'.trans hid⟩

/-- The departures that seek are the same. -/
theorem Covered.keeps (h : Covered r s) (hkeeps : Keeps r s.db s'.db)
    (hleaves : ∀ t q, s.leaves t = some q → Seeks r s.db q → s'.leaves t = some q) :
    Covered r s' := by
  intro hmembers
  rcases h (hkeeps.members hmembers) with hadmins | ⟨t, q, hq, hseeks⟩
  · exact .inl (hkeeps.admins hadmins)
  · exact .inr ⟨t, q, hleaves t q hq hseeks, hseeks.keeps hkeeps⟩

theorem Keeps.refl (r : UUID) (db : Database) : Keeps r db db :=
  ⟨id, id, fun m hm hactive => ⟨m, hm, hactive, rfl⟩⟩

/-- A membership of another room ends. -/
theorem keeps_updateActive {f : RoomMember → RoomMember} {roomID u : UUID}
    (hid : ∀ m, (f m).id = m.id) (hroom : ∀ m, (f m).roomID = m.roomID)
    (huser : ∀ m, (f m).userID = m.userID) (hne : roomID ≠ r) :
    Keeps r db (updateActive f roomID u db).2 := by
  cases hupdate : updateActive f roomID u db with
  | mk res db' =>
    cases res with
    | error e =>
      rw [updateActive_error hupdate]
      exact Keeps.refl r _
    | ok x => exact Keeps.of_touches (updateActive_ok hid hroom huser hupdate).1 hne

/-- Another request moves on. -/
theorem setPoint_seeks {p : LeavePoint} (hq : s.leaves t = some q)
    (hnot : ¬ Seeks r s.db q) {t' : ℕ}
    {q' : Leave} (hq' : s.leaves t' = some q') (hseeks : Seeks r s.db q') :
    (s.setPoint t q p).leaves t' = some q' := by
  have hne : t' ≠ t := by
    rintro rfl
    rw [hq] at hq'
    cases hq'
    exact hnot hseeks
  show Function.update s.leaves t _ t' = _
  rw [Function.update_of_ne hne]
  exact hq'

theorem keeps_promoteRow (r : UUID) (candidate : Option RoomMember) (db : Database) :
    Keeps r db (promoteRow candidate db) where
  members := by
    rintro ⟨m, hm, hactive⟩
    cases candidate with
    | none => exact ⟨m, hm, hactive⟩
    | some c =>
      obtain ⟨m₀, hm₀, rfl⟩ := mem_updateWhere.mp hm
      refine ⟨m₀, hm₀, ?_⟩
      split_ifs at hactive <;> exact hactive
  admins := hasAdmins_promoteRow
  active m hm hactive := by
    obtain ⟨m', hm', hid, hroom, hleft, -⟩ := promoteRow_mem candidate hm
    obtain ⟨hroom₀, hleft₀⟩ := RoomMember.isActiveIn_iff.mp hactive
    exact ⟨m', hm', RoomMember.isActiveIn_iff.mpr ⟨hroom.trans hroom₀, hleft.trans hleft₀⟩, hid⟩

theorem keeps_addMember {now : Time} {uuid : ℕ → UUID} {roomID u : UUID}
    (hok : roomID = r → HasMembers r db) :
    Keeps r db (addMember now uuid roomID u .member db).2 := by
  have hstays : ∀ m ∈ db.members, m.leftAt = none →
      m ∈ (addMember now uuid roomID u .member db).2.members :=
    fun m hm => mem_addMember hm
  refine ⟨?_, ?_, ?_⟩
  · intro hmembers
    by_cases hroom : roomID = r
    · exact hok hroom
    · cases hadd : addMember now uuid roomID u .member db with
      | mk res db' =>
        rw [hadd] at hmembers
        cases res with
        | error e =>
          rw [addMember_error hadd] at hmembers
          exact hmembers
        | ok member => exact (Keeps.of_touches (addMember_ok hadd).1 hroom).members hmembers
  · rintro ⟨m, hm, hadmin⟩
    exact ⟨m, hstays m hm (RoomMember.isAdminIn_iff.mp hadmin).2.1, hadmin⟩
  · intro m hm hactive
    exact ⟨m, hstays m hm (RoomMember.isActiveIn_iff.mp hactive).2, hactive, rfl⟩

theorem keeps_setRole {roomID u : UUID} {newRole : MemberRole}
    (hok : roomID = r → newRole = .admin ∨ ∃ m ∈ db.members, m.isAdminIn r = true ∧ m.userID ≠ u) :
    Keeps r db (setRole roomID u newRole db) where
  members := by
    rintro ⟨m, hm, hactive⟩
    obtain ⟨m₀, hm₀, rfl⟩ := mem_updateWhere.mp hm
    refine ⟨m₀, hm₀, ?_⟩
    split_ifs at hactive <;> exact hactive
  admins := by
    rintro ⟨m, hm, hadmin⟩
    by_cases hrow : m.isActiveRow roomID u = true
    · obtain ⟨hroom, huser, hleft⟩ := RoomMember.isActiveRow_iff.mp hrow
      have hr : roomID = r := hroom.symm.trans (RoomMember.isAdminIn_iff.mp hadmin).1
      rcases hok hr with rfl | ⟨m', hm', hadmin', hne⟩
      · exact ⟨_, mem_updateWhere_of hm hrow,
          RoomMember.isAdminIn_iff.mpr ⟨hroom.trans hr, hleft, rfl⟩⟩
      · refine ⟨m', mem_updateWhere_of_not hm' ?_, hadmin'⟩
        rw [Bool.eq_false_iff]
        intro hrow'
        exact hne (RoomMember.isActiveRow_iff.mp hrow').2.1
    · exact ⟨m, mem_updateWhere_of_not hm (Bool.eq_false_iff.mpr hrow), hadmin⟩
  active m hm hactive := by
    by_cases hrow : m.isActiveRow roomID u = true
    · exact ⟨_, mem_updateWhere_of hm hrow, hactive, rfl⟩
    · exact ⟨m, mem_updateWhere_of_not hm (Bool.eq_false_iff.mpr hrow), hactive, rfl⟩

/-- A kick by an active admin leaves that admin. -/
theorem hasAdmins_kick {now : Time} {roomID target caller : UUID} (hne : target ≠ caller)
    (h : ∃ m ∈ db.members, m.isAdminIn r = true ∧ m.userID = caller) :
    HasAdmins r (banMember now roomID target db).2 := by
  obtain ⟨m, hm, hadmin, rfl⟩ := h
  exact ⟨m, admin_of_updateActive hm fun _ => hne.symm, hadmin⟩

/-! ## Runs -/

/-- The room is a channel or a group, and covered. -/
structure LeaveInv (r : UUID) (s : LeaveState) : Prop where
  room : ∃ room ∈ s.db.rooms, room.id = r ∧ room.type ≠ .direct
  covered : Covered r s

theorem LeaveMove.rooms (h : LeaveMove s a s') : s'.db.rooms = s.db.rooms := by
  cases h with
  | request _ => rfl
  | removed _ _ hremove => exact (removeMember_ok hremove).2.1
  | refused _ _ => rfl
  | lost _ => exact updateActive_rooms _ _ _ _
  | choose _ _ => rfl
  | @promote t q candidate _ _ => cases candidate <;> rfl
  | gaveUp _ => rfl
  | join => exact addMember_rooms_eq _ _ _ _ _
  | kick => exact updateActive_rooms _ _ _ _
  | change => rfl

theorem LeaveMove.covered (hinv : LeaveInv r s) (hok : LeaveOk r s a) (h : LeaveMove s a s') :
    Covered r s' := by
  have hcovered := hinv.covered
  cases h with
  | @request t roomID userID hnone =>
    refine hcovered.keeps (Keeps.refl r _) fun t' q' hq' _ => ?_
    have hne : t' ≠ t := by
      rintro rfl
      rw [hnone] at hq'
      cases hq'
    show Function.update s.leaves t _ t' = _
    rw [Function.update_of_ne hne]
    exact hq'
  | @removed t now q db hq hpoint hremove =>
    by_cases hroom : q.roomID = r
    · -- the departure itself looks for a successor
      intro _
      refine .inr ⟨t, { q with point := .removed }, ?_, hroom, .inl rfl⟩
      exact Function.update_self ..
    · have hnot : ¬ Seeks r s.db q := fun hseeks => hroom hseeks.1
      exact hcovered.keeps (Keeps.of_touches (removeMember_ok hremove).1 hroom)
        fun t' q' hq' hseeks => setPoint_seeks hq hnot hq' hseeks
  | @refused t a q hq hpoint =>
    have hnot : ¬ Seeks r s.db q := by
      rintro ⟨-, h | ⟨c, h, -⟩⟩ <;> rw [hpoint] at h <;> cases h
    exact hcovered.keeps (Keeps.refl r _) fun t' q' hq' hseeks => setPoint_seeks hq hnot hq' hseeks
  | @lost t now q hq =>
    have hnot : ¬ Seeks r s.db q := fun hseeks => hok q hq hseeks.1
    refine hcovered.keeps ?_ fun t' q' hq' hseeks => setPoint_seeks hq hnot hq' hseeks
    exact keeps_updateActive (fun _ => rfl) (fun _ => rfl) (fun _ => rfl) (hok q hq)
  | @choose t q hq hpoint =>
    by_cases hroom : q.roomID = r
    · intro hmembers
      by_cases hadmins : HasAdmins r s.db
      · exact .inl hadmins
      · obtain ⟨c, hc, hcandidate, hactive⟩ := candidate_of_members hinv.room hmembers hadmins
        refine .inr ⟨t, { q with point := .chosen (promotionCandidate q.roomID s.db) }, ?_, hroom,
          .inr ⟨c, ?_, c, hc, hactive, rfl⟩⟩
        · exact Function.update_self ..
        · show LeavePoint.chosen _ = _
          rw [hroom, hcandidate]
    · have hnot : ¬ Seeks r s.db q := fun hseeks => hroom hseeks.1
      exact hcovered.keeps (Keeps.refl r _) fun t' q' hq' hseeks =>
        setPoint_seeks hq hnot hq' hseeks
  | @promote t q candidate hq hpoint =>
    have hkeeps := keeps_promoteRow r candidate s.db
    by_cases hseeks : Seeks r s.db q
    · -- its candidate is still active and becomes an admin
      obtain ⟨-, h | ⟨c, h, m, hm, hactive, hid⟩⟩ := hseeks
      · rw [hpoint] at h
        cases h
      · rw [hpoint] at h
        cases h
        exact fun _ => .inl (hasAdmins_of_chosen hm hactive hid)
    · exact hcovered.keeps hkeeps fun t' q' hq' hseeks' => setPoint_seeks hq hseeks hq' hseeks'
  | @gaveUp t q hq =>
    have hnot : ¬ Seeks r s.db q := fun hseeks => hok q hq hseeks.1
    exact hcovered.keeps (Keeps.refl r _) fun t' q' hq' hseeks => setPoint_seeks hq hnot hq' hseeks
  | join => exact hcovered.keeps (keeps_addMember hok) fun _ _ hq _ => hq
  | @kick now roomID caller target =>
    by_cases hroom : roomID = r
    · obtain ⟨hne, hcaller⟩ := hok hroom
      exact fun _ => .inl (hasAdmins_kick hne hcaller)
    · refine hcovered.keeps ?_ fun _ _ hq _ => hq
      exact keeps_updateActive (fun _ => rfl) (fun _ => rfl) (fun _ => rfl) hroom
  | change => exact hcovered.keeps (keeps_setRole hok) fun _ _ hq _ => hq

theorem LeaveInv.step (hinv : LeaveInv r s) (hok : LeaveOk r s a) (h : leaveStep s a = some s') :
    LeaveInv r s' := by
  have hmove := leaveStep_cases h
  refine ⟨?_, hmove.covered hinv hok⟩
  rw [hmove.rooms]
  exact hinv.room

/-- Any number of members leave a channel or group at once, in any order of their statements, while
    others join, are kicked and change roles under `LeaveOk`. Whenever no departure is between its
    two statements, a room with members has an admin, if it had one at the start. -/
theorem leaves_keep_admin (hroom : ∃ room ∈ db.rooms, room.id = r ∧ room.type ≠ .direct)
    (hstart : HasMembers r db → HasAdmins r db)
    (hrun : Reach leaveStep (LeaveOk r) ⟨db, fun _ => none⟩ s)
    (hrest : ∀ t q, s.leaves t = some q → q.roomID = r → q.point = .called ∨ q.point = .done)
    (hmembers : HasMembers r s.db) : HasAdmins r s.db := by
  have hinit : LeaveInv r ⟨db, fun _ => none⟩ := ⟨hroom, fun h => .inl (hstart h)⟩
  have hinv := hrun.invariant (LeaveInv r) (fun _ _ _ h hok hs => h.step hok hs) hinit
  rcases hinv.covered hmembers with hadmins | ⟨t, q, hq, hqr, hpoint⟩
  · exact hadmins
  · exfalso
    rcases hrest t q hq hqr with hcalled | hdone
    · rcases hpoint with h | ⟨c, h, -⟩ <;> rw [hcalled] at h <;> cases h
    · rcases hpoint with h | ⟨c, h, -⟩ <;> rw [hdone] at h <;> cases h

end

/-! ## Two departures at once -/

/-- A channel of Ada, who is its admin, Bob and Carl. -/
def threeMembers : Database where
  users := [⟨1, "ada"⟩, ⟨2, "bob"⟩, ⟨3, "carl"⟩]
  rooms := [⟨5, some "five", .channel, 1, none, none, false, true, 0, 0⟩]
  members := [⟨6, 5, 1, .admin, 0, none, none, none⟩, ⟨7, 5, 2, .member, 1, none, none, none⟩,
    ⟨8, 5, 3, .member, 2, none, none, none⟩]

/-- Ada's departure has chosen Bob when Bob leaves; Bob's own one chooses Carl. -/
def crossedDepartures : List LeaveAction :=
  [.request 0 5 1, .request 1 5 2, .remove 0 10, .choose 0, .remove 1 11, .promote 0,
    .choose 1, .promote 1]

def afterDepartures : LeaveState :=
  (exec leaveStep ⟨threeMembers, fun _ => none⟩ crossedDepartures).getD
    ⟨threeMembers, fun _ => none⟩

theorem leaves_keep_admin_crossed :
    (afterDepartures.db.members.map fun m => (m.userID, m.role, m.leftAt)) =
        [(1, .admin, some 10), (2, .admin, some 11), (3, .admin, none)] ∧
      HasAdmins 5 afterDepartures.db := by
  have hexec : exec leaveStep ⟨threeMembers, fun _ => none⟩ crossedDepartures =
      some afterDepartures := rfl
  have hmeets : Meets leaveStep (LeaveOk 5) ⟨threeMembers, fun _ => none⟩ crossedDepartures := by
    refine meets_of_forall (fun a ha s => ?_) _
    simp only [crossedDepartures, List.mem_cons, List.not_mem_nil, or_false] at ha
    obtain rfl | rfl | rfl | rfl | rfl | rfl | rfl | rfl := ha <;> trivial
  have hmember : ⟨8, 5, 3, .admin, 2, none, none, none⟩ ∈ afterDepartures.db.members := by decide
  refine ⟨by decide, leaves_keep_admin ⟨_, List.mem_singleton_self _, rfl, by decide⟩
    (fun _ => ⟨⟨6, 5, 1, .admin, 0, none, none, none⟩, by decide, by decide⟩)
    (Reach.of_exec hmeets hexec) ?_ ⟨_, hmember, by decide⟩⟩
  intro t q hq _
  match t with
  | 0 =>
    cases hq
    exact .inr rfl
  | 1 =>
    cases hq
    exact .inr rfl
  | t + 2 => cases hq

end ConvoyChat.Store
