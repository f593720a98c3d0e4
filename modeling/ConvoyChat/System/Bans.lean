import ConvoyChat.System.Traffic

/-!
# Bans

A kick stamps `banned_at` beside `left_at`, and `AddMember` clears both. `JoinChannel`
asks `IsBanned` first, but the `AddMember` that follows is a statement of its own: a kick
that commits between the two is undone by it.

* `joinChannel_after`: a join that is told of the ban adds nobody; it comes to its
  `AddMember` only right after it was told that there is none.
* `ban_stands_iff`: from a kick on the user stays out and banned, whatever the requests
  in progress and those to come do short of a new invitation, if and only if no join of
  the user stands at its `AddMember` when the kick commits.
-/

namespace ConvoyChat.System

open ConvoyChat.Lib ConvoyChat.Store ConvoyChat.Handlers

/-- The call adds `u` to room `r`. -/
def AddsTo (r u : UUID) : RoomOp → Prop
  | .addMember r' u' _ => r' = r ∧ u' = u
  | _ => False

/-- The answers of a store in which `u` is banned from room `r`. -/
def ToldOfBan (r u : UUID) : (o : RoomOp) → o.Res → Prop
  | .isBanned r' u', res => r' = r → u' = u → res ≠ .ok false
  | _, _ => True

/-- The handler is about to add `u` to room `r`. -/
def AtAddMember (r u : UUID) (p : RoomProc Response) : Prop :=
  ∃ role k, p = .op (.addMember r u role) k

def IsInvite : RoomRequest → Prop
  | .inviteMember _ _ _ => True
  | _ => False

/-- No invitation adds `u` to room `r`. -/
def NoReinvite (r u : UUID) (s : Traffic) (a : TrafficAction) : Prop :=
  ∀ n req p, a = .serve n → s.requests n = some (req, p) → IsInvite req → ¬ AtAddMember r u p

/-- Request `n` is a kick, and its `BanMember` of `u` from room `r` goes through. -/
def Kicks (stamps : ℕ → Stamp) (r u : UUID) (s : Traffic) (n : ℕ) : Prop :=
  ∃ caller roomParam userParam k,
    s.requests n = some (.removeMember caller roomParam userParam, .op (.banMember r u) k) ∧
      ((RoomOp.banMember r u).serve stamps s.backend).1 = .ok ()

/-- `u` is no active member of room `r`, and is banned from it. -/
def Out (db : Database) (r u : UUID) : Prop := ¬ Active db r u ∧ Store.isBanned r u db = true

/-- A join of `u` stands between its `IsBanned` and its `AddMember`. -/
def JoinPending (r u : UUID) (s : Traffic) : Prop :=
  ∃ n caller roomParam p, s.requests n = some (.joinChannel caller roomParam, p) ∧ AtAddMember r u p

/-! ## The handlers -/

variable {parse : String → Option UUID} {stamps : ℕ → Stamp} {s s' : Traffic} {a : TrafficAction}
  {r u : UUID} {n : ℕ} {db db' : Database}

theorem not_addsTo_of_harmless {o : RoomOp} (h : Harmless o) : ¬ AddsTo r u o := by
  cases o <;> first | exact id | exact False.elim h

/-- Only joins and invitations add members. -/
theorem handler_adds (parse : String → Option UUID) (r u : UUID) {req : RoomRequest}
    (hinvite : ¬ IsInvite req) (hjoin : ∀ caller room, req ≠ .joinChannel caller room) :
    (req.handler parse).Never Proc.Always (AddsTo r u) := by
  have hP : ∀ o, Harmless o → ¬ AddsTo r u o := fun _ => not_addsTo_of_harmless
  cases req with
  | createRoom caller body => exact createRoom_never hP (fun _ _ _ => id) caller body
  | inviteMember caller room body => exact absurd trivial hinvite
  | joinChannel caller room => exact absurd rfl (hjoin caller room)
  | leaveRoom caller room => exact leaveRoom_never hP caller room
  | changeMemberRole caller room target body =>
    exact changeMemberRole_never hP (fun _ _ _ _ _ _ _ => id) caller room target body
  | removeMember caller room target =>
    exact removeMember_never hP (fun _ _ _ _ _ _ => id) caller room target

/-- The handler adds `u` next, or only if it is told that there is no ban. -/
def Checked (r u : UUID) (p : RoomProc Response) : Prop :=
  AtAddMember r u p ∨ p.Never (ToldOfBan r u) (AddsTo r u)

/-- `Checked` now, and after every answer. -/
def ChecksBan (r u : UUID) (p : RoomProc Response) : Prop :=
  Checked r u p ∧ p.After fun _ _ rest => Checked r u rest

theorem Never.checksBan {p : RoomProc Response} (h : p.Never Proc.Always (AddsTo r u)) :
    ChecksBan r u p := by
  have hchecked : ∀ p : RoomProc Response, p.Never Proc.Always (AddsTo r u) → Checked r u p :=
    fun p h => .inr fun hcan => h (hcan.mono (fun _ _ _ => trivial) fun _ => id)
  refine ⟨hchecked p h, ?_⟩
  induction p with
  | ret w => trivial
  | op o k ih =>
    intro res
    have hk : (k res).Never Proc.Always (AddsTo r u) := h.next trivial
    exact ⟨hchecked _ hk, ih res hk⟩

theorem ChecksBan.next {o : RoomOp} {k : o.Res → RoomProc Response} (h : ChecksBan r u (.op o k))
    (res : o.Res) : ChecksBan r u (k res) :=
  ⟨(h.2 res).1, (h.2 res).2⟩

theorem ChecksBan.ret (w : Response) : ChecksBan r u (pure w) := Never.checksBan (.ret w)

theorem not_atAddMember_ret (w : Response) : ¬ AtAddMember r u (pure w) := by
  rintro ⟨role, k, h⟩
  cases h

theorem addsTo_of_atAddMember {o : RoomOp} {f : o.Res → RoomProc Response}
    (h : AtAddMember r u (Proc.perform o >>= f)) : AddsTo r u o := by
  obtain ⟨role, k, h⟩ := h
  cases h
  exact ⟨rfl, rfl⟩

/-- A call that adds nobody, and after which nobody is added right away unless it told
    that there is no ban. -/
theorem ChecksBan.perform {o : RoomOp} {f : o.Res → RoomProc Response} (ho : ¬ AddsTo r u o)
    (hf : ∀ res, ChecksBan r u (f res) ∧ (ToldOfBan r u o res → ¬ AtAddMember r u (f res))) :
    ChecksBan r u (Proc.perform o >>= f) := by
  refine ⟨.inr (.perform ho fun res hres => ?_), .perform (fun res => (hf res).1.1)
    fun res => (hf res).1.2⟩
  exact (hf res).1.1.resolve_left ((hf res).2 hres)

/-- An `AddMember` after which nobody is added. -/
theorem ChecksBan.add {r' u' : UUID} {role : MemberRole}
    {f : Except StoreErr RoomMember → RoomProc Response}
    (hf : ∀ res, (f res).Never Proc.Always (AddsTo r u)) :
    ChecksBan r u (DB.addMember r' u' role >>= f) := by
  have hafter := fun res => Never.checksBan (hf res)
  refine ⟨?_, .perform (fun res => (hafter res).1) fun res => (hafter res).2⟩
  by_cases heq : r' = r ∧ u' = u
  · obtain ⟨rfl, rfl⟩ := heq
    exact .inl ⟨role, f, rfl⟩
  · exact .inr
      (.perform heq fun res _ hcan => hf res (hcan.mono (fun _ _ _ => trivial) fun _ => id))

/-- `JoinChannel` comes to its `AddMember` only from an `IsBanned` that said no. -/
theorem joinChannel_checksBan (parse : String → Option UUID) (r u caller : UUID) (room : String) :
    ChecksBan r u (joinChannel parse caller room) := by
  unfold joinChannel
  cases parse room with
  | none => exact .ret _
  | some roomID =>
    refine .perform id fun res => ?_
    cases res with
    | error e => cases e <;> exact ⟨.ret _, fun _ => not_atAddMember_ret _⟩
    | ok x =>
      dsimp only
      split_ifs
      · exact ⟨.ret _, fun _ => not_atAddMember_ret _⟩
      · refine ⟨.perform id fun res => ?_, fun _ hat => addsTo_of_atAddMember hat⟩
        cases res with
        | error e => exact ⟨.ret _, fun _ => not_atAddMember_ret _⟩
        | ok banned =>
          cases banned with
          | true => exact ⟨.ret _, fun _ => not_atAddMember_ret _⟩
          | false =>
            refine ⟨.add fun res => ?_, fun htold hat => ?_⟩
            · cases res with
              | error e => cases e <;> exact .ret _
              | ok member =>
                refine .perform id fun res _ => ?_
                cases res with
                | error e => exact .ret _
                | ok joiner => exact .perform id fun _ _ => .ret _
            · obtain ⟨hr, hu⟩ := addsTo_of_atAddMember hat
              exact htold hr hu rfl

theorem handler_checksBan (parse : String → Option UUID) (r u : UUID) {req : RoomRequest}
    (hinvite : ¬ IsInvite req) : ChecksBan r u (req.handler parse) := by
  by_cases hjoin : ∀ caller room, req ≠ .joinChannel caller room
  · exact Never.checksBan (handler_adds parse r u hinvite hjoin)
  · simp only [ne_eq, not_forall, not_not] at hjoin
    obtain ⟨caller, room, rfl⟩ := hjoin
    exact joinChannel_checksBan parse r u caller room

/-- In every state reached, the requests other than invitations check the ban. -/
theorem reach_checksBan {users : List User}
    (hrun : Reach (Traffic.step parse stamps) Unguarded (Traffic.start users) s) :
    s.Each fun req p => ¬ IsInvite req → ChecksBan r u p :=
  reach_requests (fun _ hinvite => handler_checksBan parse r u hinvite)
    (fun _ _ _ res h hinvite => (h hinvite).next res) hrun (idle_each _ _)

/-- Of those, only joins may be about to add a member. -/
theorem reach_adds {users : List User}
    (hrun : Reach (Traffic.step parse stamps) Unguarded (Traffic.start users) s) :
    s.Each fun req p => ¬ IsInvite req → (∀ caller room, req ≠ .joinChannel caller room) →
      p.Never Proc.Always (AddsTo r u) :=
  reach_requests (fun _ hinvite hjoin => handler_adds parse r u hinvite hjoin)
    (fun _ _ _ _ h hinvite hjoin => (h hinvite hjoin).next trivial) hrun (idle_each _ _)

/-- Until it has made a call, a handler adds nobody without asking for the ban. -/
theorem handler_told (parse : String → Option UUID) (r u : UUID) {req : RoomRequest}
    (hinvite : ¬ IsInvite req) : (req.handler parse).Never (ToldOfBan r u) (AddsTo r u) := by
  refine (handler_checksBan parse r u hinvite).1.resolve_left fun hat => ?_
  by_cases hjoin : ∀ caller room, req ≠ .joinChannel caller room
  · obtain ⟨role, k, hop⟩ := hat
    have hnever := handler_adds parse r u hinvite hjoin
    rw [hop] at hnever
    exact hnever.not ⟨rfl, rfl⟩
  · simp only [ne_eq, not_forall, not_not] at hjoin
    obtain ⟨caller, room, rfl⟩ := hjoin
    have hat : AtAddMember r u (joinChannel parse caller room) := hat
    unfold joinChannel at hat
    cases hparse : parse room with
    | none =>
      rw [hparse] at hat
      exact not_atAddMember_ret _ hat
    | some roomID =>
      rw [hparse] at hat
      exact addsTo_of_atAddMember hat

/-! ## The row of a banned user -/

/-- The row of `u` in room `r` is that of a member who was kicked. -/
def BannedRow (db : Database) (r u : UUID) : Prop :=
  ∃ m ∈ db.members, m.isRow r u = true ∧ m.leftAt.isSome = true ∧ m.bannedAt.isSome = true

theorem BannedRow.out (hk : db.Keyed) (h : BannedRow db r u) : Out db r u := by
  obtain ⟨m, hm, hrow, hleft, hbanned⟩ := h
  constructor
  · rintro ⟨x, hx, hactive⟩
    obtain ⟨hr, hu, hnone⟩ := RoomMember.isActiveRow_iff.mp hactive
    obtain ⟨hmr, hmu⟩ := RoomMember.isRow_iff.mp hrow
    have heq : x = m := hk.member_eq hx hm (hr.trans hmr.symm) (hu.trans hmu.symm)
    rw [← heq, hnone] at hleft
    cases hleft
  · exact List.any_eq_true.mpr ⟨m, hm, by rw [hrow, hbanned]; rfl⟩

theorem banMember_bannedRow {now : Time} (h : (Store.banMember now r u db).1 = .ok ()) :
    BannedRow (Store.banMember now r u db).2 r u := by
  unfold Store.banMember updateActive at h ⊢
  split_ifs at h ⊢ with hany
  obtain ⟨m, hm, hactive⟩ := List.any_eq_true.mp hany
  refine ⟨{ m with leftAt := some now, bannedAt := some now }, mem_updateWhere_of hm hactive,
    ?_, rfl, rfl⟩
  exact (Bool.and_eq_true_iff.mp hactive).1

/-- `AddMember` lifts the ban. -/
theorem addMember_active (now : Time) (uuid : ℕ → UUID) (role : MemberRole) (hk : db.Keyed)
    (h : BannedRow db r u) : Active (Store.addMember now uuid r u role db).2 r u := by
  obtain ⟨m, hm, hrow, hleft, -⟩ := h
  have hfind : db.members.find? (·.isRow r u) = some m := by
    cases hfind : db.members.find? (·.isRow r u) with
    | none => exact absurd hrow (by simpa using List.find?_eq_none.mp hfind m hm)
    | some x =>
      obtain ⟨hxr, hxu⟩ := RoomMember.isRow_iff.mp (List.find?_some hfind)
      obtain ⟨hmr, hmu⟩ := RoomMember.isRow_iff.mp hrow
      rw [hk.member_eq (List.mem_of_find?_eq_some hfind) hm (hxr.trans hmr.symm)
        (hxu.trans hmu.symm)]
  unfold Store.addMember
  simp only [hfind, hleft, if_true]
  refine ⟨reactivate now role m, mem_updateWhere_of hm (by rw [hrow, hleft]; rfl), ?_⟩
  exact RoomMember.isActiveRow_iff.mpr ⟨(RoomMember.isRow_iff.mp hrow).1,
    (RoomMember.isRow_iff.mp hrow).2, rfl⟩

theorem BannedRow.touches {r' : UUID} (h : BannedRow db r u) (htouch : Touches r' db db')
    (hne : r' ≠ r) : BannedRow db' r u := by
  obtain ⟨m, hm, hrow, hrest⟩ := h
  refine ⟨m, (htouch.mem_members ?_).mpr hm, hrow, hrest⟩
  rw [(RoomMember.isRow_iff.mp hrow).1]
  exact hne.symm

/-- An `UPDATE` that leaves the rows of departed members alone. -/
theorem BannedRow.updateWhere {p : RoomMember → Bool} {f : RoomMember → RoomMember}
    (h : BannedRow db r u)
    (hp : ∀ m ∈ db.members, m.isRow r u = true → m.leftAt.isSome = true → p m = false) :
    BannedRow { db with members := updateWhere p f db.members } r u := by
  obtain ⟨m, hm, hrow, hleft, hbanned⟩ := h
  exact ⟨m, mem_updateWhere_of_not hm (hp m hm hrow hleft), hrow, hleft, hbanned⟩

theorem isActiveRow_of_left {r' u' : UUID} {m : RoomMember} (h : m.leftAt.isSome = true) :
    m.isActiveRow r' u' = false := by
  rw [Bool.eq_false_iff]
  intro hactive
  rw [(RoomMember.isActiveRow_iff.mp hactive).2.2] at h
  cases h

theorem updateActive_bannedRow {f : RoomMember → RoomMember} (r' u' : UUID)
    (h : BannedRow db r u) : BannedRow (updateActive f r' u' db).2 r u := by
  unfold updateActive
  split_ifs
  · exact h.updateWhere fun m _ _ hleft => isActiveRow_of_left hleft
  · exact h

theorem addMember_bannedRow (now : Time) (uuid : ℕ → UUID) {r' u' : UUID} (role : MemberRole)
    (hne : ¬ (r' = r ∧ u' = u)) (h : BannedRow db r u) :
    BannedRow (Store.addMember now uuid r' u' role db).2 r u := by
  cases hout : Store.addMember now uuid r' u' role db with
  | mk res db' =>
    unfold Store.addMember at hout
    split at hout
    · split_ifs at hout
      · cases hout
        refine h.updateWhere fun m _ hrow _ => ?_
        obtain ⟨hr, hu⟩ := RoomMember.isRow_iff.mp hrow
        rw [Bool.and_eq_false_iff]
        left
        rw [Bool.eq_false_iff]
        intro hrow'
        obtain ⟨hr', hu'⟩ := RoomMember.isRow_iff.mp hrow'
        exact hne ⟨hr'.symm.trans hr, hu'.symm.trans hu⟩
      · cases hout
        exact h
    · rcases transact_cases hout with ⟨-, rfl⟩ | ⟨m, -, hx⟩
      · exact h
      · obtain ⟨db₁, h₁, hx⟩ := bind_eq_ok.mp hx
        cases hx
        obtain ⟨m, hm, hrest⟩ := h
        exact ⟨m, mem_insertMember h₁ hm, hrest⟩

theorem createChannel_bannedRow (now : Time) (uuid : ℕ → UUID) (creator : UUID) (name : String)
    (description : Option String) (isPublic : Bool) (h : BannedRow db r u) :
    BannedRow (Store.createChannel now uuid creator name description isPublic db).2 r u := by
  cases hout : Store.createChannel now uuid creator name description isPublic db with
  | mk res db' =>
    rcases transact_cases hout with ⟨-, rfl⟩ | ⟨room, -, hx⟩
    · exact h
    · obtain ⟨db₁, h₁, hx⟩ := bind_eq_ok.mp hx
      obtain ⟨db₂, h₂, hx⟩ := bind_eq_ok.mp hx
      cases hx
      obtain ⟨m, hm, hrest⟩ := h
      obtain ⟨rfl, -⟩ := insertRoom_ok h₁
      exact ⟨m, mem_insertMember h₂ hm, hrest⟩

theorem createGroup_bannedRow (now : Time) (uuid : ℕ → UUID) (creator : UUID) (name : String)
    (description : Option String) (memberIDs : List UUID) (h : BannedRow db r u) :
    BannedRow (Store.createGroup now uuid creator name description memberIDs db).2 r u := by
  cases hout : Store.createGroup now uuid creator name description memberIDs db with
  | mk res db' =>
    rcases transact_cases hout with ⟨-, rfl⟩ | ⟨room, -, hx⟩
    · exact h
    · obtain ⟨db₁, h₁, hx⟩ := bind_eq_ok.mp hx
      obtain ⟨db₂, h₂, hx⟩ := bind_eq_ok.mp hx
      obtain ⟨db₃, h₃, hx⟩ := bind_eq_ok.mp hx
      cases hx
      obtain ⟨m, hm, hrest⟩ := h
      obtain ⟨rfl, -⟩ := insertRoom_ok h₁
      exact ⟨m, (insertMembers_spec h₃).2.2 m (mem_insertMember h₂ hm), hrest⟩

/-- A direct room that is found or created is another room. -/
theorem getOrCreateDirectRoom_bannedRow (now : Time) (uuid : ℕ → UUID) (userA userB : UUID)
    (hk : db.Keyed) (hroom : NonDirect db r) (h : BannedRow db r u) :
    BannedRow (Store.getOrCreateDirectRoom now uuid userA userB db).2 r u := by
  obtain ⟨room, hmem, hid, htype⟩ := hroom
  have hkept := getOrCreateDirectRoom_kept now uuid userA userB hmem
  cases hout : Store.getOrCreateDirectRoom now uuid userA userB db with
  | mk res db' =>
    rw [hout] at hkept
    cases res with
    | error e => exact getOrCreateDirectRoom_error hout ▸ h
    | ok out =>
      obtain ⟨htouch, hdirect⟩ := getOrCreateDirectRoom_ok hk hout
      refine h.touches htouch fun hne => htype (hdirect room hkept ?_)
      rw [hid, hne]

/-- A call that does not add the user to the room leaves the ban alone. -/
theorem serve_bannedRow (o : RoomOp) {b : Backend} (hk : b.db.Keyed) (hroom : NonDirect b.db r)
    (ho : ¬ AddsTo r u o) (h : BannedRow b.db r u) : BannedRow (o.serve stamps b).2.db r u := by
  cases o with
  | createChannel => exact createChannel_bannedRow _ _ _ _ _ _ h
  | createGroup => exact createGroup_bannedRow _ _ _ _ _ _ h
  | getOrCreateDirectRoom => exact getOrCreateDirectRoom_bannedRow _ _ _ _ hk hroom h
  | addMember r' u' role => exact addMember_bannedRow _ _ role ho h
  | removeMember r' u' => exact updateActive_bannedRow r' u' h
  | banMember r' u' => exact updateActive_bannedRow r' u' h
  | changeMemberRole r' u' role =>
    show BannedRow (Store.changeMemberRole r' u' role b.db).2 r u
    unfold Store.changeMemberRole
    split
    · exact h
    · split_ifs
      · exact h
      · exact h
      · exact h.updateWhere fun m _ _ hleft => isActiveRow_of_left hleft
  | promoteOldestIfNoAdmins r' =>
    show BannedRow (Store.promoteOldestIfNoAdmins r' b.db).2 r u
    unfold Store.promoteOldestIfNoAdmins
    split
    · exact h
    · rename_i c hcand
      refine h.updateWhere fun m hm _ hleft => ?_
      -- the candidate is active, so it is another row
      unfold promotionCandidate at hcand
      split_ifs at hcand
      obtain ⟨hc, hactive⟩ := List.mem_filter.mp (List.argmin_mem hcand)
      rw [decide_eq_false_iff_not]
      intro hid
      have heq : m = c := List.inj_on_of_nodup_map hk.memberIDs hm hc hid
      rw [heq, (RoomMember.isActiveIn_iff.mp hactive).2] at hleft
      cases hleft
  | _ => exact h

/-! ## After the kick -/

theorem serve_toldOfBan (o : RoomOp) {b : Backend} (h : Store.isBanned r u b.db = true) :
    ToldOfBan r u o (o.serve stamps b).1 := by
  cases o with
  | isBanned r' u' =>
    rintro rfl rfl
    show Except.ok (Store.isBanned r' u' b.db) ≠ .ok false
    rw [h]
    intro hfalse
    cases hfalse
  | _ => trivial

theorem failed_toldOfBan (o : RoomOp) : ToldOfBan r u o (failed o) := by
  cases o with
  | isBanned r' u' =>
    intro _ _ hfalse
    cases hfalse
  | _ => trivial

/-- The ban stands, and no request in progress is past its check. -/
structure Stands (r u : UUID) (s : Traffic) : Prop where
  tables : s.Tables
  room : NonDirect s.backend.db r
  row : BannedRow s.backend.db r u
  requests : s.Each fun req p => ¬ IsInvite req → p.Never (ToldOfBan r u) (AddsTo r u)

theorem Stands.out (h : Stands r u s) : Out s.backend.db r u := h.row.out h.tables.1

theorem Stands.step (h : Stands r u s) (hok : NoReinvite r u s a)
    (hs : s.step parse stamps a = some s') : Stands r u s' := by
  have htables := h.tables.step hs
  rcases Traffic.step_cases hs with ⟨n, req, -, -, rfl⟩ | ⟨n, req, o, k, ha, hn, rfl⟩ |
    ⟨n, req, o, k, -, hn, rfl⟩
  · exact ⟨htables, h.room, h.row, h.requests.resume fun hinvite => handler_told parse r u hinvite⟩
  · have ho : ¬ AddsTo r u o := by
      by_cases hinvite : IsInvite req
      · intro hadds
        cases o with
        | addMember r' u' role =>
          obtain ⟨rfl, rfl⟩ := hadds
          exact hok n req _ ha hn hinvite ⟨role, k, rfl⟩
        | _ => exact hadds
      · exact (h.requests n req _ hn hinvite).not
    refine ⟨htables, serve_nonDirect o h.room, serve_bannedRow o h.tables.1 h.room ho h.row, ?_⟩
    exact Traffic.Each.resume (s := { s with backend := _ }) h.requests fun hinvite =>
      (h.requests n req _ hn hinvite).next (serve_toldOfBan o h.out.2)
  · exact ⟨htables, h.room, h.row, h.requests.resume fun hinvite =>
      (h.requests n req _ hn hinvite).next (failed_toldOfBan o)⟩

/-- A request that is not at its `AddMember` when the kick commits. -/
theorem stands_of_kick {users : List User}
    (hrun : Reach (Traffic.step parse stamps) Unguarded (Traffic.start users) s)
    (hroom : NonDirect s.backend.db r) (hkick : Kicks stamps r u s n)
    (hs : s.step parse stamps (.serve n) = some s') (hpending : ¬ JoinPending r u s) :
    Stands r u s' := by
  obtain ⟨caller, roomParam, userParam, k, hn, hok⟩ := hkick
  have hkicked : s' = { s with backend := ((RoomOp.banMember r u).serve stamps s.backend).2 }.resume
    n
      (.removeMember caller roomParam userParam)
      (k ((RoomOp.banMember r u).serve stamps s.backend).1) := by
    simp only [Traffic.step, hn] at hs
    exact (Option.some.inj hs).symm
  have htold : s.Each fun req p => ¬ IsInvite req → p.Never (ToldOfBan r u) (AddsTo r u) := by
    intro m req p hm hinvite
    refine ((reach_checksBan hrun m req p hm) hinvite).1.resolve_left fun hat => ?_
    by_cases hjoin : ∀ caller room, req ≠ .joinChannel caller room
    · obtain ⟨role, k', rfl⟩ := hat
      exact (reach_adds hrun m req _ hm hinvite hjoin).not ⟨rfl, rfl⟩
    · simp only [ne_eq, not_forall, not_not] at hjoin
      obtain ⟨caller', room', rfl⟩ := hjoin
      exact hpending ⟨m, caller', room', p, hm, hat⟩
  refine ⟨(reach_tables hrun).step hs, ?_, ?_, ?_⟩
  · rw [hkicked]
    exact serve_nonDirect (.banMember r u) hroom
  · rw [hkicked]
    exact banMember_bannedRow hok
  · rw [hkicked]
    refine Traffic.Each.resume (s := { s with backend := _ }) htold fun hinvite => ?_
    exact (htold n _ _ hn hinvite).next trivial

/-- A pending join goes through after the kick, and the user is back. -/
theorem active_of_joinPending (hk : s'.backend.db.Keyed) (hrow : BannedRow s'.backend.db r u)
    (hpending : JoinPending r u s') :
    ∃ s₂, Reach (Traffic.step parse stamps) (NoReinvite r u) s' s₂ ∧ Active s₂.backend.db r u := by
  obtain ⟨m, caller, roomParam, p, hm, role, k, rfl⟩ := hpending
  have hserve : s'.step parse stamps (.serve m) =
      some ({ s' with backend := ((RoomOp.addMember r u role).serve stamps s'.backend).2 }.resume m
        (.joinChannel caller roomParam)
        (k ((RoomOp.addMember r u role).serve stamps s'.backend).1)) := by
    simp only [Traffic.step, hm]
  refine ⟨_, Reach.single ?_ hserve, addMember_active _ _ role hk hrow⟩
  intro n req p ha hn hinvite
  cases ha
  rw [hm] at hn
  cases hn
  exact hinvite.elim

/-- From a kick on, the user stays out of the channel or group and banned in every run
    without a new invitation, if and only if no join of the user stands between its
    `IsBanned` and its `AddMember` when the kick commits. -/
theorem ban_stands_iff {users : List User}
    (hrun : Reach (Traffic.step parse stamps) Unguarded (Traffic.start users) s)
    (hroom : NonDirect s.backend.db r) (hkick : Kicks stamps r u s n)
    (hs : s.step parse stamps (.serve n) = some s') :
    (∀ s₂, Reach (Traffic.step parse stamps) (NoReinvite r u) s' s₂ → Out s₂.backend.db r u) ↔
      ¬ JoinPending r u s := by
  constructor
  · intro hout hpending
    obtain ⟨caller, roomParam, userParam, k, hn, hok⟩ := hkick
    have hkicked : s' = { s with
        backend := ((RoomOp.banMember r u).serve stamps s.backend).2 }.resume n
          (.removeMember caller roomParam userParam)
          (k ((RoomOp.banMember r u).serve stamps s.backend).1) := by
      simp only [Traffic.step, hn] at hs
      exact (Option.some.inj hs).symm
    -- the join is still where it was
    have hpending' : JoinPending r u s' := by
      obtain ⟨m, caller', roomParam', p, hm, hat⟩ := hpending
      have hmn : m ≠ n := by
        rintro rfl
        rw [hn] at hm
        cases hm
      refine ⟨m, caller', roomParam', p, ?_, hat⟩
      rw [hkicked]
      show Function.update s.requests n _ m = _
      rw [Function.update_of_ne hmn]
      exact hm
    have hrow : BannedRow s'.backend.db r u := by
      rw [hkicked]
      exact banMember_bannedRow hok
    obtain ⟨s₂, hreach, hactive⟩ :=
      active_of_joinPending ((reach_tables hrun).step hs).1 hrow hpending'
    exact (hout s₂ hreach).1 hactive
  · intro hpending s₂ hreach
    have hstands : Stands r u s' := stands_of_kick hrun hroom hkick hs hpending
    exact (hreach.invariant (Stands r u) (fun _ _ _ h hok hs => h.step hok hs) hstands).out

/-! ## A channel with a kick -/

/-- Request `n` arrives and makes `calls` store calls. -/
def arrives (n : ℕ) (req : RoomRequest) (calls : ℕ) : List TrafficAction :=
  .request n req :: List.replicate calls (.serve n)

/-- Ada creates the channel and Bob joins it; Ada's kick of Bob is about to commit. -/
def kickPrepared : List TrafficAction :=
  arrives 0 (.createRoom 1 (some ⟨"channel", "five", none, "", none, []⟩)) 1 ++
    arrives 1 (.joinChannel 2 idFive) 5 ++ arrives 2 (.removeMember 1 idFive idTwo) 1

/-- Bob has asked to join again, and was told that he is not banned. -/
def joinPrepared : List TrafficAction := arrives 3 (.joinChannel 2 idFive) 2

def trafficStep : Traffic → TrafficAction → Option Traffic := Traffic.step parseId fiveStamps

def trafficAfter (as : List TrafficAction) : Traffic :=
  (exec trafficStep (Traffic.start [⟨1, "ada"⟩, ⟨2, "bob"⟩]) as).getD (Traffic.start [])

theorem reach_trafficAfter {as : List TrafficAction}
    (hexec : exec trafficStep (Traffic.start [⟨1, "ada"⟩, ⟨2, "bob"⟩]) as =
      some (trafficAfter as)) :
    Reach trafficStep Unguarded (Traffic.start [⟨1, "ada"⟩, ⟨2, "bob"⟩]) (trafficAfter as) :=
  Reach.of_exec (meets_unguarded _ _ _) hexec

theorem nonDirect_five {as : List TrafficAction}
    (h : (trafficAfter as).backend.db.rooms.any (fun x => x.id = 5 && x.type = .channel) = true) :
    NonDirect (trafficAfter as).backend.db 5 := by
  obtain ⟨room, hroom, hx⟩ := List.any_eq_true.mp h
  simp only [Bool.and_eq_true, decide_eq_true_eq] at hx
  exact ⟨room, hroom, hx.1, by simp [hx.2]⟩

theorem kickPrepared_no_join : ¬ JoinPending 5 2 (trafficAfter kickPrepared) := by
  rintro ⟨n, caller, roomParam, p, hn, role, k, rfl⟩
  match n with
  | 0 => cases hn
  | 1 => cases hn
  | 2 => cases hn
  | n + 3 => cases hn

/-- Without a pending join the ban holds. -/
theorem ban_stands_after_kick :
    Kicks fiveStamps 5 2 (trafficAfter kickPrepared) 2 ∧
      ∀ s₂, Reach trafficStep (NoReinvite 5 2) (trafficAfter (kickPrepared ++ [.serve 2])) s₂ →
        Out s₂.backend.db 5 2 := by
  have hkick : Kicks fiveStamps 5 2 (trafficAfter kickPrepared) 2 :=
    ⟨1, idFive, idTwo, _, rfl, rfl⟩
  refine ⟨hkick, ?_⟩
  exact (ban_stands_iff (reach_trafficAfter rfl) (nonDirect_five rfl) hkick rfl).mpr
    kickPrepared_no_join

/-- The `AddMember` of Bob's second join comes right after the kick. -/
theorem pending_join_lifts_ban :
    ¬ ∀ (parse : String → Option UUID) (stamps : ℕ → Stamp) (users : List User) (s s' s₂ : Traffic)
      (r u : UUID) (n : ℕ), Reach (Traffic.step parse stamps) Unguarded (Traffic.start users) s →
      NonDirect s.backend.db r → Kicks stamps r u s n → s.step parse stamps (.serve n) = some s' →
      Reach (Traffic.step parse stamps) (NoReinvite r u) s' s₂ → Out s₂.backend.db r u := by
  intro h
  have hjoin : Reach trafficStep (NoReinvite 5 2)
      (trafficAfter (kickPrepared ++ joinPrepared ++ [.serve 2]))
      (trafficAfter (kickPrepared ++ joinPrepared ++ [.serve 2, .serve 3])) := by
    refine Reach.single ?_ (rfl : trafficStep _ (.serve 3) = _)
    intro n req p ha hn hinvite
    cases ha
    cases hn
    exact hinvite.elim
  have hout := h parseId fiveStamps [⟨1, "ada"⟩, ⟨2, "bob"⟩]
    (trafficAfter (kickPrepared ++ joinPrepared)) _ _ 5 2 2 (reach_trafficAfter rfl)
    (nonDirect_five rfl) ⟨1, idFive, idTwo, _, rfl, rfl⟩ rfl hjoin
  exact hout.1 (by decide)

end ConvoyChat.System
