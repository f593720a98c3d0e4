import ConvoyChat.System.Bans

/-!
# Admins who kick each other

`RequireRoomAdmin` reads the membership of the caller, and `BanMember` is executed some
time later. The comment of `RemoveMember` concludes from the check that a kick never
leaves a room without admins; by then the caller may have been kicked.

* `kicks_keep_admin`: in a run of kicks that all take effect while their caller is still
  an active admin, or hit a target who is none, an admin remains.
* `admins_kick_each_other`: two admins are both gone.
-/

namespace ConvoyChat.System

open ConvoyChat.Lib ConvoyChat.Store ConvoyChat.Handlers

/-- `u` is an active admin of room `r`. -/
def IsAdmin (db : Database) (r u : UUID) : Prop :=
  ∃ m ∈ db.members, m.isAdminIn r = true ∧ m.userID = u

def HasAdmin (db : Database) (r : UUID) : Prop := ∃ u, IsAdmin db r u

/-- The requests of the run are kicks. -/
def OnlyKicks (a : TrafficAction) : Prop :=
  ∀ n req, a = .request n req → ∃ caller room target, req = .removeMember caller room target

/-- A `BanMember` for room `r` comes from a caller who is still an active admin, or hits a
    target who is none. -/
def InTime (r : UUID) (s : Traffic) (a : TrafficAction) : Prop :=
  ∀ n caller room target u k, a = .serve n →
    s.requests n = some (.removeMember caller room target, .op (.banMember r u) k) →
    IsAdmin s.backend.db r caller ∨ ¬ IsAdmin s.backend.db r u

/-- A call that no kick of `caller` makes; in particular the ban of the caller. -/
def NoCallOf (caller : UUID) : RoomOp → Prop
  | .getMembership _ _ => False
  | .banMember _ u => u = caller
  | .publishRoomEvent _ _ => False
  | _ => True

variable {parse : String → Option UUID} {stamps : ℕ → Stamp} {s s' : Traffic} {a : TrafficAction}
  {r u : UUID} {db db' : Database}

/-- A kick checks, bans somebody else and tells the room. -/
theorem removeMember_calls (parse : String → Option UUID) (caller : UUID) (room target : String) :
    (Handlers.removeMember parse caller room target).Never Proc.Always (NoCallOf caller) := by
  unfold Handlers.removeMember requireRoomAdmin
  cases hroom : parse room with
  | none => exact .ret _
  | some roomID =>
    refine .perform id fun res _ => ?_
    cases res with
    | error e => cases e <;> exact .ret _
    | ok membership =>
      dsimp only
      split_ifs
      · exact .ret _
      · cases parse target with
        | none => exact .ret _
        | some targetID =>
          dsimp only
          split_ifs with hself
          · exact .ret _
          · refine .perform hself fun res _ => ?_
            cases res with
            | error e => cases e <;> exact .ret _
            | ok x => exact .perform id fun _ _ => .ret _

/-- A ban leaves the admins who are not its target. -/
theorem banMember_isAdmin {now : Time} {r' t : UUID} (hne : r' ≠ r ∨ u ≠ t)
    (h : IsAdmin db r u) : IsAdmin (Store.banMember now r' t db).2 r u := by
  obtain ⟨m, hm, hadmin, rfl⟩ := h
  cases hout : Store.banMember now r' t db with
  | mk res db' =>
    cases res with
    | error e =>
      rw [updateActive_error hout]
      exact ⟨m, hm, hadmin, rfl⟩
    | ok x =>
      obtain ⟨htouch, -, hothers⟩ := banMember_ok hout
      rcases hne with hr | hu
      · have hroom : m.roomID ≠ r' := by
          rw [(RoomMember.isAdminIn_iff.mp hadmin).1]
          exact hr.symm
        exact ⟨m, (htouch.mem_members hroom).mpr hm, hadmin, rfl⟩
      · exact ⟨m, hothers m hm hu, hadmin, rfl⟩

/-- One kick that is in time. -/
theorem banMember_hasAdmin {now : Time} {r' caller t : UUID} (hself : t ≠ caller)
    (htime : r' = r → IsAdmin db r caller ∨ ¬ IsAdmin db r t) (h : HasAdmin db r) :
    HasAdmin (Store.banMember now r' t db).2 r := by
  obtain ⟨u, hu⟩ := h
  by_cases hr : r' = r
  · rcases htime hr with hcaller | htarget
    · exact ⟨caller, banMember_isAdmin (.inr hself.symm) hcaller⟩
    · refine ⟨u, banMember_isAdmin (.inr ?_) hu⟩
      rintro rfl
      exact htarget hu
  · exact ⟨u, banMember_isAdmin (.inl hr) hu⟩

/-- The room has an admin, and the requests in progress are kicks. -/
structure Kicking (r : UUID) (s : Traffic) : Prop where
  admin : HasAdmin s.backend.db r
  requests : s.Each fun req p => ∃ caller room target, req = .removeMember caller room target ∧
    p.Never Proc.Always (NoCallOf caller)

theorem Kicking.step (h : Kicking r s) (honly : OnlyKicks a) (htime : InTime r s a)
    (hs : s.step parse stamps a = some s') : Kicking r s' := by
  refine ⟨?_, h.requests.step ?_ ?_ hs⟩
  · rcases Traffic.step_cases hs with ⟨n, req, -, -, rfl⟩ | ⟨n, req, o, k, ha, hn, rfl⟩ |
      ⟨n, req, o, k, -, -, rfl⟩
    · exact h.admin
    · obtain ⟨caller, room, target, rfl, hnever⟩ := h.requests n req _ hn
      cases o with
      | getMembership r' u' => exact h.admin
      | publishRoomEvent r' e => exact h.admin
      | banMember r' t =>
        refine banMember_hasAdmin hnever.not (fun hr => ?_) h.admin
        subst hr
        exact htime n caller room target t k ha hn
      | _ => exact absurd trivial hnever.not
    · exact h.admin
  · intro n req ha
    obtain ⟨caller, room, target, rfl⟩ := honly n req ha
    exact ⟨caller, room, target, rfl, removeMember_calls parse caller room target⟩
  · rintro req o k res ⟨caller, room, target, hreq, hnever⟩
    exact ⟨caller, room, target, hreq, hnever.next trivial⟩

/-- In a run of kicks that are all in time, a room with an active admin keeps one. -/
theorem kicks_keep_admin (hadmin : HasAdmin db r)
    (hrun : Reach (Traffic.step parse stamps) (fun s a => OnlyKicks a ∧ InTime r s a)
      (Traffic.idle db) s) : HasAdmin s.backend.db r := by
  have hkicking : Kicking r (Traffic.idle db) := ⟨hadmin, idle_each _ _⟩
  exact (hrun.invariant (Kicking r) (fun _ _ _ h hok hs => h.step hok.1 hok.2 hs) hkicking).admin

/-! ## Two admins -/

/-- A channel of which Ada and Bob are admins. -/
def twoAdmins : Database where
  users := [⟨1, "ada"⟩, ⟨2, "bob"⟩]
  rooms := [⟨5, some "five", .channel, 1, none, none, false, true, 0, 0⟩]
  members := [⟨6, 5, 1, .admin, 0, none, none, none⟩, ⟨35, 5, 2, .admin, 3, none, none, none⟩]

/-- Ada kicks Bob. -/
def oneKick : List TrafficAction := arrives 0 (.removeMember 1 idFive idTwo) 3

/-- Both pass `RequireRoomAdmin` before either `BanMember`. -/
def mutualKick : List TrafficAction :=
  [.request 0 (.removeMember 1 idFive idTwo), .request 1 (.removeMember 2 idFive idOne),
    .serve 0, .serve 1, .serve 0, .serve 1, .serve 0, .serve 1]

def kicksAfter (as : List TrafficAction) : Traffic :=
  (exec trafficStep (Traffic.idle twoAdmins) as).getD (Traffic.idle twoAdmins)

theorem twoAdmins_hasAdmin : HasAdmin twoAdmins 5 :=
  ⟨1, ⟨6, 5, 1, .admin, 0, none, none, none⟩, by decide, by decide, rfl⟩

/-- The conditions of the run, evaluated. -/
def onlyKicks : TrafficAction → Bool
  | .request _ (.removeMember _ _ _) => true
  | .request _ _ => false
  | _ => true

def inTime (r : UUID) (s : Traffic) : TrafficAction → Bool
  | .serve n =>
    match s.requests n with
    | some (.removeMember caller _ _, .op (.banMember _ _) _) =>
      s.backend.db.members.any fun m => m.isAdminIn r && m.userID = caller
    | _ => true
  | _ => true

theorem onlyKicks_of_check (a : TrafficAction) (h : onlyKicks a = true) : OnlyKicks a := by
  rintro n req rfl
  cases req with
  | removeMember caller room target => exact ⟨caller, room, target, rfl⟩
  | _ => cases h

theorem inTime_of_check (r : UUID) (s : Traffic) (a : TrafficAction)
    (h : (onlyKicks a && inTime r s a) = true) : OnlyKicks a ∧ InTime r s a := by
  rw [Bool.and_eq_true] at h
  refine ⟨onlyKicks_of_check a h.1, ?_⟩
  rintro n caller room target u k rfl hn
  have htime := h.2
  simp only [inTime, hn, List.any_eq_true, Bool.and_eq_true, decide_eq_true_eq] at htime
  obtain ⟨m, hm, hadmin, hu⟩ := htime
  exact .inl ⟨m, hm, hadmin, hu⟩

/-- After Ada's kick, Ada is left. -/
theorem kicks_keep_admin_once :
    ¬ IsAdmin (kicksAfter oneKick).backend.db 5 2 ∧ HasAdmin (kicksAfter oneKick).backend.db 5 := by
  have hexec : exec trafficStep (Traffic.idle twoAdmins) oneKick = some (kicksAfter oneKick) := rfl
  refine ⟨?_, kicks_keep_admin twoAdmins_hasAdmin
    (Reach.of_exec (meets_of_checks (inTime_of_check 5) rfl) hexec)⟩
  rintro ⟨m, hm, hadmin, hu⟩
  revert m
  decide

/-- After the kicks of both, nobody is. -/
theorem admins_kick_each_other :
    ¬ ∀ (parse : String → Option UUID) (stamps : ℕ → Stamp) (db : Database) (r : UUID)
      (s : Traffic), HasAdmin db r → Reach (Traffic.step parse stamps) (fun _ a => OnlyKicks a)
        (Traffic.idle db) s →
      (s.Each fun _ p => ∃ w, p = .ret w) → HasAdmin s.backend.db r := by
  intro h
  have hexec : exec trafficStep (Traffic.idle twoAdmins) mutualKick =
      some (kicksAfter mutualKick) :=
    rfl
  have hdone : (kicksAfter mutualKick).Each fun _ p => ∃ w, p = .ret w := by
    intro n req p hn
    match n with
    | 0 =>
      cases hn
      exact ⟨_, rfl⟩
    | 1 =>
      cases hn
      exact ⟨_, rfl⟩
    | n + 2 => cases hn
  obtain ⟨u, m, hm, hadmin, -⟩ := h parseId fiveStamps twoAdmins 5 _ twoAdmins_hasAdmin
    (Reach.of_exec (meets_of_checks (fun _ => onlyKicks_of_check) rfl) hexec) hdone
  revert m
  decide

end ConvoyChat.System
