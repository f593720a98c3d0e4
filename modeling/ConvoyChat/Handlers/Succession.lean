import ConvoyChat.Handlers.RoomAdmins

/-!
# Who follows the last admin

`LeaveRoom` ends a membership with one statement and looks for a successor with another,
`PromoteOldestIfNoAdmins` (`internal/store/rooms.go` lines 222–254). What the two do
together, in terms of the members who remain.

* `leaveRoom_succession`: the rows and the publications of a request to leave, when every
  call succeeds and nothing happens in between.
-/

namespace ConvoyChat.Handlers

open ConvoyChat.Lib ConvoyChat.Store

/-- The active members of room `r` other than `u`. -/
def remaining (r u : UUID) (db : Database) : List RoomMember :=
  db.members.filter fun m => m.isActiveIn r && decide (m.userID ≠ u)

/-- A row after `u` has left at `now`, and the member `promoted` was made an admin. -/
def afterLeave (now : Time) (r u : UUID) (promoted : Option RoomMember) (m : RoomMember) :
    RoomMember :=
  if m.isActiveRow r u then { m with leftAt := some now }
  else if promoted = some m then { m with role := .admin }
  else m

/-- When `u` leaves, nobody is promoted in a direct room, or if nobody or an admin
    remains; otherwise it is the first by `(joined_at, id)` of those who remain. -/
structure Succession (r u : UUID) (db : Database) (promoted : Option RoomMember) : Prop where
  kept : (∃ m ∈ remaining r u db, m.role = .admin) → promoted = none
  direct : (∀ room ∈ db.rooms, room.id = r → room.type = .direct) → promoted = none
  nobody : remaining r u db = [] → promoted = none
  oldest : (∃ room ∈ db.rooms, room.id = r ∧ room.type ≠ .direct) → remaining r u db ≠ [] →
    (∀ m ∈ remaining r u db, m.role ≠ .admin) →
    ∃ c ∈ remaining r u db, promoted = some c ∧
      ∀ m ∈ remaining r u db, toLex (c.joinedAt, c.id) ≤ toLex (m.joinedAt, m.id)

section

variable {r u : UUID} {db : Database} {now : Time} {promoted : Option RoomMember}

theorem mem_remaining {m : RoomMember} : m ∈ remaining r u db ↔
    m ∈ db.members ∧ m.isActiveIn r = true ∧ m.userID ≠ u := by
  rw [remaining, List.mem_filter, Bool.and_eq_true, decide_eq_true_eq]

/-- The active members after `RemoveMember`. -/
theorem active_afterRemove : ({ db with
      members := updateWhere (·.isActiveRow r u) ({ · with leftAt := some now }) db.members } :
        Database).members.filter (·.isActiveIn r) = remaining r u db := by
  unfold remaining
  dsimp only
  induction db.members with
  | nil => rfl
  | cons m members ih =>
    rw [updateWhere_cons]
    by_cases hrow : m.isActiveRow r u = true
    · obtain ⟨hroom, huser, -⟩ := RoomMember.isActiveRow_iff.mp hrow
      rw [if_pos hrow, List.filter_cons_of_neg (by simp [RoomMember.isActiveIn]),
        List.filter_cons_of_neg (by simp [huser])]
      exact ih
    · have hsame : (m.isActiveIn r && decide (m.userID ≠ u)) = m.isActiveIn r := by
        rw [Bool.and_eq_left_iff_imp, decide_eq_true_eq]
        intro hactive huser
        obtain ⟨hroom, hleft⟩ := RoomMember.isActiveIn_iff.mp hactive
        exact hrow (RoomMember.isActiveRow_iff.mpr ⟨hroom, huser, hleft⟩)
      rw [if_neg hrow, List.filter_cons, List.filter_cons, hsame, ih]

/-- `PromoteOldestIfNoAdmins` right after `RemoveMember`. -/
theorem candidate_afterRemove : Succession r u db (promotionCandidate r { db with
    members := updateWhere (·.isActiveRow r u) ({ · with leftAt := some now }) db.members }) := by
  have hadmins : ∀ members : List RoomMember, members.any (·.isAdminIn r) =
      (members.filter (·.isActiveIn r)).any fun m => m.role = .admin := by
    intro members
    rw [List.any_filter]
    rfl
  have hkind : ∀ room : Room, (decide (room.id = r) &&
      (decide (room.type = .channel) || decide (room.type = .group))) = true ↔
      room.id = r ∧ room.type ≠ .direct := by
    intro room
    cases hty : room.type <;> simp
  unfold promotionCandidate
  rw [hadmins, active_afterRemove]
  constructor
  · rintro ⟨m, hm, hrole⟩
    rw [if_pos (List.any_eq_true.mpr ⟨m, hm, decide_eq_true hrole⟩)]
  · intro hdirect
    split_ifs with hadmin hcheck
    · rfl
    · rfl
    · simp only [Bool.not_eq_true, Bool.not_eq_false', List.any_eq_true, hkind] at hcheck
      obtain ⟨room, hroom, hid, htype⟩ := hcheck
      exact absurd (hdirect room hroom hid) htype
  · intro hnil
    rw [hnil]
    split_ifs <;> rfl
  · rintro ⟨room, hroom, hid, htype⟩ hne hnone
    have hno : ¬ ((remaining r u db).any fun m => decide (m.role = .admin)) = true := by
      rw [List.any_eq_true]
      rintro ⟨m, hm, hrole⟩
      exact hnone m hm (of_decide_eq_true hrole)
    have hcheck : db.rooms.any (fun room => decide (room.id = r) &&
        (decide (room.type = .channel) || decide (room.type = .group))) = true :=
      List.any_eq_true.mpr ⟨room, hroom, (hkind room).mpr ⟨hid, htype⟩⟩
    rw [if_neg hno, hcheck, if_neg (by decide)]
    cases hc : (remaining r u db).argmin fun m => toLex (m.joinedAt, m.id) with
    | none => exact absurd (List.argmin_eq_none.mp hc) hne
    | some c => ?_
    refine ⟨c, List.argmin_mem hc, rfl, fun m hm => ?_⟩
    have hle := List.le_of_mem_argmin hm (Option.mem_def.mpr hc)
    exact hle

/-- The successor is a member who remains. -/
theorem candidate_mem {c : RoomMember} (h : promotionCandidate r { db with
      members :=
        updateWhere (·.isActiveRow r u) ({ · with leftAt := some now }) db.members } = some c) :
    c ∈ remaining r u db := by
  unfold promotionCandidate at h
  rw [active_afterRemove] at h
  split_ifs at h
  exact List.argmin_mem h

/-- The rows after both statements. -/
theorem promote_afterRemove (hk : db.Keyed) (hpromoted : promotionCandidate r { db with
      members :=
        updateWhere (·.isActiveRow r u) ({ · with leftAt := some now }) db.members } = promoted) :
    promoteOldestIfNoAdmins r { db with
        members := updateWhere (·.isActiveRow r u) ({ · with leftAt := some now }) db.members } =
      (.ok (promoted.map ({ · with role := .admin })),
        { db with members := db.members.map (afterLeave now r u promoted) }) := by
  unfold promoteOldestIfNoAdmins
  rw [hpromoted]
  cases promoted with
  | none =>
    have hrows : updateWhere (·.isActiveRow r u) ({ · with leftAt := some now }) db.members =
        db.members.map (afterLeave now r u none) := by
      refine List.map_congr_left fun m _ => ?_
      simp [afterLeave]
    rw [← hrows]
    rfl
  | some c =>
    obtain ⟨hc, -, huser⟩ := mem_remaining.mp (candidate_mem hpromoted)
    have hrows : updateWhere (fun m => m.id = c.id) ({ · with role := .admin })
        (updateWhere (·.isActiveRow r u) ({ · with leftAt := some now }) db.members) =
        db.members.map (afterLeave now r u (some c)) := by
      rw [updateWhere, updateWhere, List.map_map]
      refine List.map_congr_left fun m hm => ?_
      have hsame : m.id = c.id ↔ c = m :=
        ⟨fun hid => (List.inj_on_of_nodup_map hk.memberIDs hm hc hid).symm, fun heq => by rw [heq]⟩
      rw [Function.comp_apply, afterLeave]
      by_cases hrow : m.isActiveRow r u = true
      · -- the leaver is not the successor
        have hne : c ≠ m := by
          rintro rfl
          exact huser (RoomMember.isActiveRow_iff.mp hrow).2.1
        rw [if_pos hrow, if_pos hrow, if_neg (by simpa [hsame] using hne)]
      · rw [if_neg hrow, if_neg hrow]
        simp only [hsame, decide_eq_true_eq, Option.some.injEq]
    rw [← hrows]
    rfl

end

section

variable {parse : String → Option UUID} {stamps : ℕ → Stamp} {s : Backend}
  {r u : UUID} {param : String}

/-- A member leaves: the rows change for the leaver and at most one other member, who
    is promoted and announced; and where it matters there is an admin afterwards. -/
theorem leaveRoom_succession (hk : s.db.Keyed) (hparse : parse param = some r)
    (hactive : ∃ m ∈ s.db.members, m.isActiveRow r u = true) :
    ∃ promoted, Succession r u s.db promoted ∧
      (serve parse stamps (.leaveRoom u param) s).1 = .fields 200 [("status", "left")] ∧
      (serve parse stamps (.leaveRoom u param) s).2.db = { s.db with
        members := s.db.members.map (afterLeave (stamps s.calls).now r u promoted) } ∧
      (serve parse stamps (.leaveRoom u param) s).2.published = s.published ++
        .room r (.userLeft u r) ::
          (promoted.map fun c => Publication.room r (.memberRoleChanged r c.userID .admin)).toList ∧
      ((∃ room ∈ s.db.rooms, room.id = r ∧ room.type ≠ .direct) → remaining r u s.db ≠ [] →
        ∃ m ∈ (serve parse stamps (.leaveRoom u param) s).2.db.members, m.isAdminIn r = true) := by
  obtain ⟨promoted, hpromoted⟩ : ∃ promoted, promotionCandidate r { s.db with
      members := updateWhere (·.isActiveRow r u) ({ · with leftAt := some (stamps s.calls).now })
        s.db.members } = promoted := ⟨_, rfl⟩
  have hsuccession : Succession r u s.db promoted := hpromoted ▸ candidate_afterRemove
  have hremove : Store.removeMember (stamps s.calls).now r u s.db = (.ok (), { s.db with
      members := updateWhere (·.isActiveRow r u) ({ · with leftAt := some (stamps s.calls).now })
        s.db.members }) := by
    rw [Store.removeMember, updateActive, if_pos (List.any_eq_true.mpr hactive)]
  have hrun : Proc.Ends (RoomOp.serve stamps) (leaveRoom parse u param) s fun w s' =>
      w = .fields 200 [("status", "left")] ∧ s'.db = { s.db with
        members := s.db.members.map (afterLeave (stamps s.calls).now r u promoted) } ∧
      s'.published = s.published ++ .room r (.userLeft u r) ::
        (promoted.map fun c => Publication.room r
          (.memberRoleChanged r c.userID .admin)).toList := by
    unfold leaveRoom
    rw [hparse]
    refine .perform fun res s₁ h₁ => ?_
    cases h₁.symm.trans (congrArg s.write hremove)
    refine .perform fun _ s₂ h₂ => .perform fun res s₃ h₃ => ?_
    cases h₂
    cases h₃.symm.trans (congrArg (Backend.write _) (promote_afterRemove hk hpromoted))
    cases promoted with
    | none => exact .ret ⟨rfl, rfl, rfl⟩
    | some c =>
      refine .perform fun _ s₄ h₄ => ?_
      cases h₄
      refine .ret ⟨rfl, rfl, ?_⟩
      simp
  obtain ⟨hres, hdb, hpublished⟩ := hrun
  refine ⟨promoted, hsuccession, hres, hdb, hpublished, fun hroom hne => ?_⟩
  rw [show (serve parse stamps (.leaveRoom u param) s).2.db = _ from hdb]
  by_cases hadmin : ∃ m ∈ remaining r u s.db, m.role = .admin
  · obtain ⟨m, hm, hrole⟩ := hadmin
    obtain ⟨hmem, hin, huser⟩ := mem_remaining.mp hm
    obtain ⟨hmroom, hleft⟩ := RoomMember.isActiveIn_iff.mp hin
    have hnot : ¬ m.isActiveRow r u = true :=
      fun hrow => huser (RoomMember.isActiveRow_iff.mp hrow).2.1
    refine ⟨m, List.mem_map.mpr ⟨m, hmem, ?_⟩, RoomMember.isAdminIn_iff.mpr ⟨hmroom, hleft, hrole⟩⟩
    rw [afterLeave, if_neg hnot, hsuccession.kept ⟨m, hm, hrole⟩,
      if_neg (Option.some_ne_none m).symm]
  · obtain ⟨c, hc, hsome, -⟩ := hsuccession.oldest hroom hne fun m hm hrole => hadmin ⟨m, hm, hrole⟩
    obtain ⟨hmem, hin, huser⟩ := mem_remaining.mp hc
    obtain ⟨hcroom, hleft⟩ := RoomMember.isActiveIn_iff.mp hin
    have hnot : ¬ c.isActiveRow r u = true :=
      fun hrow => huser (RoomMember.isActiveRow_iff.mp hrow).2.1
    refine ⟨{ c with role := .admin }, List.mem_map.mpr ⟨c, hmem, ?_⟩,
      RoomMember.isAdminIn_iff.mpr ⟨hcroom, hleft, rfl⟩⟩
    rw [afterLeave, if_neg hnot, hsome, if_pos rfl]

end

/-! ## The only admin leaves -/

/-- Ada is the admin of channel 5; Carl joined before Bob. -/
def adaBobCarl : Backend where
  db := ⟨[⟨1, "ada"⟩, ⟨2, "bob"⟩, ⟨3, "carl"⟩],
    [⟨5, some "team", .channel, 1, none, none, false, true, 1, 1⟩],
    [⟨11, 5, 1, .admin, 1, none, none, none⟩, ⟨12, 5, 2, .member, 4, none, none, none⟩,
      ⟨13, 5, 3, .member, 3, none, none, none⟩]⟩
  calls := 0
  published := []

def teamStamps (n : ℕ) : Stamp := ⟨10 + n, fun k => 20 + k⟩

def adaLeaves : Response × Backend := serve parseId teamStamps (.leaveRoom 1 idFive) adaBobCarl

theorem carl_promoted :
    adaLeaves.2.published = [.room 5 (.userLeft 1 5), .room 5 (.memberRoleChanged 5 3 .admin)] ∧
      ∃ m ∈ adaLeaves.2.db.members, m.isAdminIn 5 = true := by
  have hkeyed : adaBobCarl.db.Keyed := ⟨by decide, by decide, by decide⟩
  obtain ⟨promoted, -, -, -, -, hadmin⟩ :=
    @leaveRoom_succession parseId teamStamps adaBobCarl 5 1 idFive hkeyed rfl (by decide)
  exact ⟨by decide, hadmin (by decide) (by decide)⟩

end ConvoyChat.Handlers
