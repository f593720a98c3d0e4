import ConvoyChat.Handlers.Rooms
import ConvoyChat.Store.RoomLemmas
import Mathlib.Data.List.Induction

/-!
# Admins of channels and groups

Six requests add, remove, reactivate, promote and demote members. Each of them
keeps an active admin in every channel or group that has an active member, with
one exception: `JoinChannel` on a public channel that everyone has left admits
the caller as a plain `member`, and nothing ever promotes them.

* `serve_effect`: all that serving a request can do to the tables.
* `effect_administered`: every effect but that join keeps the invariant.
* `administered_iff`: along a run the invariant holds in every state exactly when
  no request of the run is a join of an empty channel.
* `rejoined_channel_has_no_admin`: a run that breaks it.
-/

namespace ConvoyChat.Handlers

open ConvoyChat.Lib ConvoyChat.Store

/-! ## The effect of a request -/

/-- All that a request other than `JoinChannel` can do to the tables. -/
inductive Effect (db : Database) : Database → Prop
  | unchanged : Effect db db
  | channel {now uuid u name description isPublic room db'} :
      Store.createChannel now uuid u name description isPublic db = (.ok room, db') →
      Effect db db'
  | group {now uuid u name description memberIDs room db'} :
      Store.createGroup now uuid u name description memberIDs db = (.ok room, db') →
      Effect db db'
  | direct {now uuid a b out db'} :
      Store.getOrCreateDirectRoom now uuid a b db = (.ok out, db') → Effect db db'
  | invite {now uuid r u caller member db'} : caller ∈ db.members → caller.isAdminIn r →
      Store.addMember now uuid r u .member db = (.ok member, db') → Effect db db'
  | leave {now r u db₁ promoted db'} : Store.removeMember now r u db = (.ok (), db₁) →
      Store.promoteOldestIfNoAdmins r db₁ = (promoted, db') → Effect db db'
  | role {r target newRole changed db'} :
      Store.changeMemberRole r target newRole db = (.ok changed, db') → Effect db db'
  | kick {now r target caller db'} : caller ∈ db.members → caller.isAdminIn r →
      caller.userID ≠ target → Store.banMember now r target db = (.ok (), db') → Effect db db'

/-- The room on which `JoinChannel` calls `AddMember`, if it gets that far. -/
def admission (parse : String → Option UUID) (u : UUID) (roomParam : String) (db : Database) :
    Option UUID :=
  match parse roomParam with
  | none => none
  | some r =>
    match Store.getRoomByID r db with
    | .error _ => none
    | .ok room => if joinable room && !Store.isBanned r u db then some r else none

variable {parse : String → Option UUID} {stamps : ℕ → Stamp} {s : Backend}

/-- A store function that failed left the tables alone. -/
theorem write_error {α : Type} {s s' : Backend} {e : StoreErr} {out : Except StoreErr α × Database}
    (hout : ∀ db', out = (.error e, db') → db' = s.db) (h : s.write out = (.error e, s')) :
    s'.db = s.db := by
  obtain ⟨res, db'⟩ := out
  unfold Backend.write at h
  cases h
  exact hout db' rfl

theorem write_ok {α : Type} {s s' : Backend} {a : α} {out : Except StoreErr α × Database}
    (h : s.write out = (.ok a, s')) : out = (.ok a, s'.db) := by
  obtain ⟨res, db'⟩ := out
  unfold Backend.write at h
  cases h
  rfl

/-- Publications do not touch the tables. -/
theorem publish_db {s s' : Backend} {p : Publication} {res : Except StoreErr Unit}
    (h : s.publish p = (res, s')) : s'.db = s.db := by
  unfold Backend.publish at h
  cases h
  rfl

theorem read_ok {α : Type} {s s' : Backend} {a out : α} (h : s.read out = (a, s')) :
    out = a ∧ s'.db = s.db := by
  unfold Backend.read at h
  cases h
  exact ⟨rfl, rfl⟩

section Serve

open Proc

/-- The effect of a request, as a postcondition of its handler. -/
abbrev HasEffect (stamps : ℕ → Stamp) (s s₀ : Backend) (p : RoomProc Response) : Prop :=
  Ends (RoomOp.serve stamps) p s₀ fun _ s' => Effect s.db s'.db

theorem hasEffect_of_db {s₀ : Backend} {w : Response} (h : s₀.db = s.db) :
    HasEffect stamps s s₀ (pure w) := by
  refine .ret ?_
  rw [h]
  exact .unchanged

/-- What follows the last write only reads and publishes. -/
theorem hasEffect_publish {s₀ : Backend} {o : RoomOp} {w : Response}
    (ho : ∀ res s', o.serve stamps s₀ = (res, s') → s'.db = s₀.db)
    (h : Effect s.db s₀.db) :
    HasEffect stamps s s₀ (perform o >>= fun _ => pure w) := by
  refine .perform fun res s' hs' => .ret ?_
  rw [ho res s' hs']
  exact h

theorem createRoomChannel_effect (u : UUID) (body : CreateRoomRequest) :
    HasEffect stamps s s (createRoomChannel u body) := by
  unfold createRoomChannel
  dsimp only
  split
  · exact hasEffect_of_db rfl
  · refine .perform fun res s₁ h₁ => ?_
    cases res with
    | error e => exact hasEffect_of_db (write_error (fun _ => transact_error) h₁)
    | ok room => exact .ret (.channel (write_ok h₁))

theorem createRoomDirect_effect (u : UUID) (body : CreateRoomRequest) :
    HasEffect stamps s s (createRoomDirect parse u body) := by
  unfold createRoomDirect
  split
  · exact hasEffect_of_db rfl
  · rename_i peerID _
    refine .perform fun res s₁ h₁ => ?_
    obtain ⟨-, hdb₁⟩ := read_ok h₁
    split
    · exact hasEffect_of_db hdb₁
    · exact hasEffect_of_db hdb₁
    · refine .perform fun res s₂ h₂ => ?_
      cases res with
      | error e =>
        refine hasEffect_of_db ?_
        rw [write_error (fun _ => getOrCreateDirectRoom_error) h₂, hdb₁]
      | ok out =>
        obtain ⟨room, created, peerReactivated⟩ := out
        have heff : Effect s.db s₂.db := by
          rw [← hdb₁]
          exact .direct (write_ok h₂)
        dsimp only
        by_cases hnotify : (created || peerReactivated) = true
        · rw [if_pos hnotify]
          exact hasEffect_publish (fun _ _ h => publish_db h) heff
        · rw [if_neg hnotify]
          exact .ret heff

theorem lookUpMembers_db (ids : List UUID) (s₀ : Backend) :
    Ends (RoomOp.serve stamps) (lookUpMembers ids) s₀ fun _ s' => s'.db = s₀.db := by
  induction ids generalizing s₀ with
  | nil => exact .ret rfl
  | cons id ids ih =>
    unfold lookUpMembers
    refine .perform fun res s₁ h₁ => ?_
    obtain ⟨-, hdb₁⟩ := read_ok h₁
    split
    · exact .ret hdb₁
    · exact .ret hdb₁
    · exact (ih s₁).mono fun _ _ h => h.trans hdb₁

theorem publishInvitations_db (roomID : UUID) (ids : List UUID) (s₀ : Backend) :
    Ends (RoomOp.serve stamps) (publishInvitations roomID ids) s₀ fun _ s' => s'.db = s₀.db := by
  induction ids generalizing s₀ with
  | nil => exact .ret rfl
  | cons id ids ih =>
    unfold publishInvitations
    refine .perform fun res s₁ h₁ => ?_
    exact (ih s₁).mono fun _ _ h => h.trans (publish_db h₁)

theorem createRoomGroup_effect (u : UUID) (body : CreateRoomRequest) :
    HasEffect stamps s s (createRoomGroup parse u body) := by
  unfold createRoomGroup
  dsimp only
  split
  · exact hasEffect_of_db rfl
  · split
    · exact hasEffect_of_db rfl
    · rename_i memberIDs _
      refine .bind ((lookUpMembers_db memberIDs s).mono fun out s₁ hdb₁ => ?_)
      cases out with
      | some w => exact hasEffect_of_db hdb₁
      | none =>
        refine .perform fun res s₂ h₂ => ?_
        cases res with
        | error e =>
          refine hasEffect_of_db ?_
          rw [write_error (fun _ => transact_error) h₂, hdb₁]
        | ok room =>
          refine .bind ((publishInvitations_db room.id memberIDs s₂).mono fun _ s₃ hdb₃ => .ret ?_)
          rw [hdb₃, ← hdb₁]
          exact .group (write_ok h₂)

theorem createRoom_effect (u : UUID) (body : Option CreateRoomRequest) :
    HasEffect stamps s s (createRoom parse u body) := by
  cases body with
  | none => exact hasEffect_of_db rfl
  | some body =>
    unfold createRoom
    dsimp only
    split_ifs
    · exact createRoomChannel_effect u body
    · exact createRoomDirect_effect u body
    · exact createRoomGroup_effect u body
    · exact hasEffect_of_db rfl

theorem inviteMember_effect (u : UUID) (roomParam : String) (body : Option String) :
    HasEffect stamps s s (inviteMember parse u roomParam body) := by
  unfold inviteMember requireActiveMembership
  cases parse roomParam with
  | none => exact hasEffect_of_db rfl
  | some r =>
    refine .bind (.perform fun res s₁ h₁ => ?_)
    obtain ⟨hres, hdb₁⟩ := read_ok h₁
    split
    · exact .ret (hasEffect_of_db hdb₁)
    · exact .ret (hasEffect_of_db hdb₁)
    · rename_i caller
      refine .ret ?_
      dsimp only
      split_ifs with hrole
      · exact hasEffect_of_db hdb₁
      · obtain ⟨hmem, hadmin, -⟩ := isAdminIn_of_getMembership hres (not_not.mp hrole)
        split
        · exact hasEffect_of_db hdb₁
        · split
          · exact hasEffect_of_db hdb₁
          · refine .perform fun res s₂ h₂ => ?_
            have hdb₂ := (read_ok h₂).2.trans hdb₁
            split
            · exact hasEffect_of_db hdb₂
            · exact hasEffect_of_db hdb₂
            · refine .perform fun res s₃ h₃ => ?_
              split
              · exact hasEffect_of_db ((write_error (fun _ => addMember_error) h₃).trans hdb₂)
              · exact hasEffect_of_db ((write_error (fun _ => addMember_error) h₃).trans hdb₂)
              · refine hasEffect_publish (fun _ _ h => publish_db h) ?_
                have hadd := write_ok h₃
                rw [hdb₂] at hadd
                exact .invite hmem hadmin hadd

theorem leaveRoom_effect (u : UUID) (roomParam : String) :
    HasEffect stamps s s (leaveRoom parse u roomParam) := by
  unfold leaveRoom
  cases parse roomParam with
  | none => exact hasEffect_of_db rfl
  | some r =>
    refine .perform fun res s₁ h₁ => ?_
    split
    · exact hasEffect_of_db (write_error (fun _ => updateActive_error) h₁)
    · exact hasEffect_of_db (write_error (fun _ => updateActive_error) h₁)
    · refine .perform fun _ s₂ h₂ => .perform fun res s₃ h₃ => ?_
      have heff : Effect s.db s₃.db := by
        have hprom : (Store.promoteOldestIfNoAdmins r s₁.db) = (res, s₃.db) := by
          rw [← publish_db h₂]
          cases h₃
          rfl
        exact .leave (write_ok h₁) hprom
      split
      · exact hasEffect_publish (fun _ _ h => publish_db h) heff
      · exact .ret heff

/-- Behind `RequireRoomAdmin` the caller is an active admin of the room. -/
theorem requireRoomAdmin_effect {u : UUID} {roomParam : String} {next : RoomProc Response}
    (h : ∀ r caller s₁, parse roomParam = some r → caller ∈ s.db.members →
      caller.isAdminIn r = true → caller.userID = u → s₁.db = s.db →
      HasEffect stamps s s₁ next) :
    HasEffect stamps s s (requireRoomAdmin parse roomParam u next) := by
  unfold requireRoomAdmin
  cases hparse : parse roomParam with
  | none => exact hasEffect_of_db rfl
  | some r =>
    refine .perform fun res s₁ h₁ => ?_
    obtain ⟨hres, hdb₁⟩ := read_ok h₁
    split
    · exact hasEffect_of_db hdb₁
    · exact hasEffect_of_db hdb₁
    · rename_i caller
      split_ifs with hrole
      · exact hasEffect_of_db hdb₁
      · obtain ⟨hmem, hadmin, huser⟩ := isAdminIn_of_getMembership hres (not_not.mp hrole)
        exact h r caller s₁ hparse hmem hadmin huser hdb₁

theorem changeMemberRole_effect (u : UUID) (roomParam userParam : String) (body : Option String) :
    HasEffect stamps s s (changeMemberRole parse u roomParam userParam body) := by
  refine requireRoomAdmin_effect fun r caller s₁ hparse hmem hadmin huser hdb₁ => ?_
  rw [hparse]
  dsimp only
  split
  · exact hasEffect_of_db hdb₁
  · split
    · exact hasEffect_of_db hdb₁
    · split
      · exact hasEffect_of_db hdb₁
      · refine .perform fun res s₂ h₂ => ?_
        split
        · exact hasEffect_of_db ((write_error (fun _ => changeMemberRole_error) h₂).trans hdb₁)
        · exact hasEffect_of_db ((write_error (fun _ => changeMemberRole_error) h₂).trans hdb₁)
        · exact hasEffect_of_db ((write_error (fun _ => changeMemberRole_error) h₂).trans hdb₁)
        · have hchange := write_ok h₂
          rw [hdb₁] at hchange
          split_ifs
          · exact hasEffect_publish (fun _ _ h => publish_db h) (.role hchange)
          · exact .ret (.role hchange)

theorem removeMember_effect (u : UUID) (roomParam userParam : String) :
    HasEffect stamps s s (removeMember parse u roomParam userParam) := by
  refine requireRoomAdmin_effect fun r caller s₁ hparse hmem hadmin huser hdb₁ => ?_
  rw [hparse]
  dsimp only
  split
  · exact hasEffect_of_db hdb₁
  · rename_i target _
    split_ifs with hself
    · exact hasEffect_of_db hdb₁
    · refine .perform fun res s₂ h₂ => ?_
      split
      · exact hasEffect_of_db ((write_error (fun _ => updateActive_error) h₂).trans hdb₁)
      · exact hasEffect_of_db ((write_error (fun _ => updateActive_error) h₂).trans hdb₁)
      · have hban := write_ok h₂
        rw [hdb₁] at hban
        have hother : caller.userID ≠ target := by
          rw [huser]
          exact Ne.symm hself
        exact hasEffect_publish (fun _ _ h => publish_db h) (.kick hmem hadmin hother hban)

/-- Serving a request other than `JoinChannel` has one of the effects above. -/
theorem serve_effect {req : RoomRequest} (hreq : ∀ u room, req ≠ .joinChannel u room) :
    Effect s.db (serve parse stamps req s).2.db := by
  cases req with
  | createRoom u body => exact createRoom_effect u body
  | inviteMember u room body => exact inviteMember_effect u room body
  | joinChannel u room => exact absurd rfl (hreq u room)
  | leaveRoom u room => exact leaveRoom_effect u room
  | changeMemberRole u room target body => exact changeMemberRole_effect u room target body
  | removeMember u room target => exact removeMember_effect u room target

/-- `JoinChannel` calls `AddMember` on the room of `admission`, as its third call. -/
theorem serve_joinChannel (u : UUID) (roomParam : String) :
    (serve parse stamps (.joinChannel u roomParam) s).2.db =
      match admission parse u roomParam s.db with
      | none => s.db
      | some r =>
        (Store.addMember (stamps (s.calls + 2)).now (stamps (s.calls + 2)).uuid r u .member
          s.db).2 := by
  show Ends (RoomOp.serve stamps) (joinChannel parse u roomParam) s fun _ s' => s'.db = _
  unfold joinChannel admission
  cases parse roomParam with
  | none => exact .ret rfl
  | some r =>
    refine .perform fun res s₁ h₁ => ?_
    obtain ⟨rfl, rfl⟩ := Prod.mk.inj h₁
    dsimp only
    cases hroom : Store.getRoomByID r s.db with
    | error e =>
      cases e <;> exact .ret rfl
    | ok room =>
      dsimp only
      cases hjoin : joinable room with
      | false => exact .ret rfl
      | true =>
        refine .perform fun res s₂ h₂ => ?_
        obtain ⟨rfl, rfl⟩ := Prod.mk.inj h₂
        dsimp only
        cases hban : Store.isBanned r u s.db with
        | true => exact .ret rfl
        | false =>
          refine .perform fun res s₃ h₃ => ?_
          obtain ⟨rfl, rfl⟩ := Prod.mk.inj h₃
          split
          · exact .ret rfl
          · exact .ret rfl
          · refine .perform fun res s₄ h₄ => ?_
            obtain ⟨-, hdb₄⟩ := read_ok h₄
            split
            · exact .ret hdb₄
            · exact .perform fun _ s₅ h₅ => .ret ((publish_db h₅).trans hdb₄)

end Serve

/-! ## The invariant -/

/-- Every channel or group with an active member has an active admin. -/
def Administered (db : Database) : Prop :=
  ∀ room ∈ db.rooms, room.type ≠ .direct → (∃ m ∈ db.members, m.isActiveIn room.id = true) →
    ∃ m ∈ db.members, m.isAdminIn room.id = true

instance (db : Database) : Decidable (Administered db) :=
  inferInstanceAs (Decidable (∀ room ∈ db.rooms, _))

/-- `JoinChannel` admits its caller to a channel without an active member. -/
def JoinsEmptyChannel (parse : String → Option UUID) (stamps : ℕ → Stamp) (s : Backend)
    (req : RoomRequest) : Prop :=
  ∃ u roomParam r, req = .joinChannel u roomParam ∧ admission parse u roomParam s.db = some r ∧
    (∀ m ∈ s.db.members, m.isActiveIn r = false) ∧ Admits (stamps (s.calls + 2)).uuid r u s.db

/-- A call that touches room `r` only is judged by room `r`. -/
theorem administered_of_touches {r : UUID} {db db' : Database} (h : Administered db)
    (ht : Touches r db db')
    (hr : ∀ room ∈ db'.rooms, room.id = r → room.type ≠ .direct →
      (∃ m ∈ db'.members, m.isActiveIn r = true) → ∃ m ∈ db'.members, m.isAdminIn r = true) :
    Administered db' := by
  intro room hroom htype hactive
  by_cases hid : room.id = r
  · rw [hid] at hactive ⊢
    exact hr room hroom hid htype hactive
  · have hold : room ∈ db.rooms := (ht.rooms room hroom).resolve_right hid
    obtain ⟨m, hm, hma⟩ := hactive
    have hmr := (RoomMember.isActiveIn_iff.mp hma).1
    have hm' := (ht.mem_members (by rw [hmr]; exact hid)).mp hm
    obtain ⟨a, ha, haa⟩ := h room hold htype ⟨m, hm', hma⟩
    have har := (RoomMember.isAdminIn_iff.mp haa).1
    exact ⟨a, (ht.mem_members (by rw [har]; exact hid)).mpr ha, haa⟩

/-- Admitting a member to a room that has an active admin. -/
theorem administered_addMember {now : Time} {uuid : ℕ → UUID} {r u : UUID} {role : MemberRole}
    {member admin : RoomMember} {db db' : Database} (h : Administered db)
    (hadmin : admin ∈ db.members) (hin : admin.isAdminIn r = true)
    (hadd : Store.addMember now uuid r u role db = (.ok member, db')) : Administered db' := by
  obtain ⟨ht, hkeep⟩ := addMember_ok hadd
  refine administered_of_touches h ht fun _ _ _ _ _ => ⟨admin, ?_, hin⟩
  exact hkeep admin hadmin (RoomMember.isAdminIn_iff.mp hin).2.1

theorem effect_keyed {db db' : Database} (hk : db.Keyed) (h : Effect db db') : db'.Keyed := by
  cases h with
  | unchanged => exact hk
  | channel h => exact (createChannel_ok h).1.keyed hk
  | group h => exact (createGroup_ok h).1.keyed hk
  | direct h => exact (getOrCreateDirectRoom_ok hk h).1.keyed hk
  | invite _ _ h => exact (addMember_ok h).1.keyed hk
  | leave h h' =>
    have hk₁ := (removeMember_ok h).1.keyed hk
    exact (promoteOldestIfNoAdmins_spec hk₁ h').1.keyed hk₁
  | role h => exact (changeMemberRole_ok hk h).1.keyed hk
  | kick _ _ _ h => exact (banMember_ok h).1.keyed hk

/-- Every effect keeps the invariant. -/
theorem effect_administered {db db' : Database} (hk : db.Keyed) (hinv : Administered db)
    (h : Effect db db') : Administered db' := by
  cases h with
  | unchanged => exact hinv
  | channel h =>
    obtain ⟨ht, hadmin⟩ := createChannel_ok h
    exact administered_of_touches hinv ht fun _ _ _ _ _ => hadmin
  | group h =>
    obtain ⟨ht, hadmin⟩ := createGroup_ok h
    exact administered_of_touches hinv ht fun _ _ _ _ _ => hadmin
  | direct h =>
    obtain ⟨ht, hdirect⟩ := getOrCreateDirectRoom_ok hk h
    exact administered_of_touches hinv ht fun room hroom hid htype _ =>
      absurd (hdirect room hroom hid) htype
  | invite hcaller hadmin h => exact administered_addMember hinv hcaller hadmin h
  | leave h h' =>
    -- the succession runs on the tables that the departure left behind
    obtain ⟨ht, -, -⟩ := removeMember_ok h
    obtain ⟨ht', hrooms, hprom⟩ := promoteOldestIfNoAdmins_spec (ht.keyed hk) h'
    refine administered_of_touches hinv (ht.trans ht') fun room hroom hid htype hactive => ?_
    exact hprom ⟨room, by rw [← hrooms]; exact hroom, hid, htype⟩ hactive
  | role h =>
    obtain ⟨ht, hrooms, hactive, hadmin⟩ := changeMemberRole_ok hk h
    refine administered_of_touches hinv ht fun room hroom hid htype ⟨m, hm, hma⟩ => hadmin ?_
    rw [hrooms] at hroom
    have := hinv room hroom htype
    rw [hid] at this
    exact this (hactive m hm hma)
  | kick hcaller hadmin hne h =>
    obtain ⟨ht, -, hkeep⟩ := banMember_ok h
    exact administered_of_touches hinv ht fun _ _ _ _ _ => ⟨_, hkeep _ hcaller hne, hadmin⟩

theorem admission_room {u : UUID} {roomParam : String} {db : Database} {r : UUID}
    (h : admission parse u roomParam db = some r) :
    ∃ room ∈ db.rooms, room.id = r ∧ room.type = .channel := by
  unfold admission at h
  split at h
  · cases h
  · split at h
    · cases h
    · rename_i room hroom
      split_ifs at h with hjoin
      cases h
      unfold Store.getRoomByID at hroom
      split at hroom
      · rename_i x hx
        have hid : x.id = r := by simpa using List.find?_some hx
        cases hroom
        refine ⟨room, List.mem_of_find?_eq_some hx, hid, ?_⟩
        simp only [joinable, Bool.and_eq_true, decide_eq_true_eq] at hjoin
        exact hjoin.1.1.1
      · cases hroom

/-- Joining a channel keeps the invariant unless the channel was empty. -/
theorem joinChannel_administered (hk : s.db.Keyed) (hinv : Administered s.db) (u : UUID)
    (roomParam : String) :
    (serve parse stamps (.joinChannel u roomParam) s).2.db.Keyed ∧
      (¬ JoinsEmptyChannel parse stamps s (.joinChannel u roomParam) →
        Administered (serve parse stamps (.joinChannel u roomParam) s).2.db) := by
  rw [serve_joinChannel]
  split
  · exact ⟨hk, fun _ => hinv⟩
  · rename_i r hadm
    obtain ⟨room, hroom, hid, htype⟩ := admission_room hadm
    rcases hadd : Store.addMember (stamps (s.calls + 2)).now (stamps (s.calls + 2)).uuid r u .member
      s.db with ⟨res, db'⟩
    cases res with
    | error e =>
      rw [addMember_error hadd]
      exact ⟨hk, fun _ => hinv⟩
    | ok member =>
      refine ⟨(addMember_ok hadd).1.keyed hk, fun hne => ?_⟩
      by_cases hempty : ∀ m ∈ s.db.members, m.isActiveIn r = false
      · exfalso
        refine hne ⟨u, roomParam, r, rfl, hadm, hempty, ?_⟩
        exact (addMember_empty _ _ u .member ⟨room, hroom, hid⟩ hempty).1.mp ⟨member, db', hadd⟩
      · push Not at hempty
        obtain ⟨m, hm, hma⟩ := hempty
        have hadmin := hinv room hroom (by simp [htype])
        rw [hid] at hadmin
        obtain ⟨a, ha, haa⟩ := hadmin ⟨m, hm, by simpa using hma⟩
        exact administered_addMember hinv ha haa hadd

/-- A join of an empty channel leaves it without an admin. -/
theorem not_administered_of_joinsEmpty {req : RoomRequest}
    (h : JoinsEmptyChannel parse stamps s req) :
    ¬ Administered (serve parse stamps req s).2.db := by
  obtain ⟨u, roomParam, r, rfl, hadm, hempty, hadmits⟩ := h
  obtain ⟨room, hroom, hid, htype⟩ := admission_room hadm
  rw [serve_joinChannel, hadm]
  dsimp only
  have hspec := addMember_empty (stamps (s.calls + 2)).now (stamps (s.calls + 2)).uuid u .member
    ⟨room, hroom, hid⟩ hempty
  obtain ⟨member, db', hadd⟩ := hspec.1.mpr hadmits
  rw [hadd]
  obtain ⟨hactive, hrole⟩ := hspec.2 member db' hadd
  intro hinv
  have hroom' : room ∈ db'.rooms := by
    have := addMember_rooms hadd
    rw [this]
    exact hroom
  have hadmin := hinv room hroom' (by simp [htype])
  rw [hid] at hadmin
  obtain ⟨a, ha, haa⟩ := hadmin hactive
  obtain ⟨har, hal, hadm'⟩ := RoomMember.isAdminIn_iff.mp haa
  have := hrole a ha (RoomMember.isActiveIn_iff.mpr ⟨har, hal⟩)
  rw [hadm'] at this
  cases this

/-! ## Runs -/

/-- Serve a list of requests one after another. -/
def serveAll (parse : String → Option UUID) (stamps : ℕ → Stamp) (reqs : List RoomRequest)
    (s : Backend) : Backend :=
  reqs.foldl (fun s req => (serve parse stamps req s).2) s

/-- No rooms yet. -/
def emptyBackend (users : List User) : Backend := ⟨⟨users, [], []⟩, 0, []⟩

theorem serveAll_snoc (reqs : List RoomRequest) (req : RoomRequest) (s : Backend) :
    serveAll parse stamps (reqs ++ [req]) s =
      (serve parse stamps req (serveAll parse stamps reqs s)).2 := by
  simp [serveAll]

variable (parse stamps) in
theorem serve_keyed (hk : s.db.Keyed) (hinv : Administered s.db) (req : RoomRequest) :
    (serve parse stamps req s).2.db.Keyed ∧ (¬ JoinsEmptyChannel parse stamps s req →
      Administered (serve parse stamps req s).2.db) := by
  by_cases hjoin : ∃ u room, req = .joinChannel u room
  · obtain ⟨u, room, rfl⟩ := hjoin
    exact joinChannel_administered hk hinv u room
  · have heff : Effect s.db (serve parse stamps req s).2.db :=
      serve_effect fun u room h => hjoin ⟨u, room, h⟩
    exact ⟨effect_keyed hk heff, fun _ => effect_administered hk hinv heff⟩

/-- Along a run from an empty database, every state has an active admin in each
    populated channel and group exactly when no request of the run admits its
    caller to a channel without an active member. -/
theorem administered_iff (parse : String → Option UUID) (stamps : ℕ → Stamp) (users : List User)
    (reqs : List RoomRequest) :
    (∀ pre, pre <+: reqs → Administered (serveAll parse stamps pre (emptyBackend users)).db) ↔
      ∀ pre req post, reqs = pre ++ req :: post →
        ¬ JoinsEmptyChannel parse stamps (serveAll parse stamps pre (emptyBackend users)) req := by
  constructor
  · intro hinv pre req post hsplit hjoin
    refine not_administered_of_joinsEmpty hjoin ?_
    rw [← serveAll_snoc]
    exact hinv _ ⟨post, by simp [hsplit]⟩
  · intro hok pre hpre
    suffices h : (serveAll parse stamps pre (emptyBackend users)).db.Keyed ∧
        Administered (serveAll parse stamps pre (emptyBackend users)).db from h.2
    induction pre using List.reverseRecOn with
    | nil => exact ⟨⟨by simp [serveAll, emptyBackend], by simp [serveAll, emptyBackend],
        by simp [serveAll, emptyBackend]⟩, by simp [serveAll, emptyBackend, Administered]⟩
    | append_singleton pre req ih =>
      obtain ⟨post, hpost⟩ := hpre
      obtain ⟨hk, hinv⟩ := ih ⟨req :: post, by simp [← hpost]⟩
      have hstep := serve_keyed parse stamps hk hinv req
      rw [serveAll_snoc]
      exact ⟨hstep.1, hstep.2 (hok pre req post (by simp [← hpost]))⟩

/-- The clock ticks with each store call, and no UUID repeats. -/
def tickingStamps (n : ℕ) : Stamp := ⟨n, fun k => 100 * (n + 1) + k⟩

/-- User 1 creates a public channel and leaves it, and user 2 joins it. -/
def abandonedChannel : List RoomRequest :=
  [.createRoom 1 (some ⟨"channel", "general", none, "", none, []⟩), .leaveRoom 1 "general-id",
    .joinChannel 2 "general-id"]

/-- Afterwards user 2 is the only active member of the channel, and a plain one. -/
theorem rejoined_channel_has_no_admin :
    ¬ Administered (serveAll (fun raw => if raw = "general-id" then some 100 else none)
      tickingStamps abandonedChannel (emptyBackend [⟨1, "ann"⟩, ⟨2, "bob"⟩])).db := by
  decide

end ConvoyChat.Handlers
