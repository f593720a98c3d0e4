import ConvoyChat.Handlers.DirectRooms
import ConvoyChat.System.World

/-!
# Room requests side by side

The handlers of any number of HTTP requests on one store, one store call at a time.
Between two calls of a handler the others may make any number of theirs, and every call
may fail. What the servers do is left out here (`System/World.lean`).

* `Traffic.step_cases`: what one step can do.
* `reach_requests`: a property of a request and the rest of its handler, kept by every
  answer, holds of all requests in progress.
* `reach_tables`: the keys and references of the tables.
-/

namespace ConvoyChat.System

open ConvoyChat.Lib ConvoyChat.Store ConvoyChat.Handlers

/-- The store and the requests so far, with what their handlers have left to do. -/
structure Traffic where
  backend : Backend
  requests : ℕ → Option (RoomRequest × RoomProc Response)

inductive TrafficAction
  | request (n : ℕ) (req : RoomRequest)
  /-- the handler of a request makes its next store call -/
  | serve (n : ℕ)
  /-- the next store call of a handler fails -/
  | fail (n : ℕ)

namespace Traffic

/-- No request yet. -/
def idle (db : Database) : Traffic := ⟨⟨db, 0, []⟩, fun _ => none⟩

/-- Users, and nothing else so far. -/
def start (users : List User) : Traffic := idle ⟨users, [], []⟩

def resume (s : Traffic) (n : ℕ) (req : RoomRequest) (p : RoomProc Response) : Traffic :=
  { s with requests := Function.update s.requests n (some (req, p)) }

def step (parse : String → Option UUID) (stamps : ℕ → Stamp) (s : Traffic) :
    TrafficAction → Option Traffic
  | .request n req =>
    match s.requests n with
    | none => some (s.resume n req (req.handler parse))
    | some _ => none
  | .serve n =>
    match s.requests n with
    | some (req, .op o k) =>
      let out := o.serve stamps s.backend
      some ({ s with backend := out.2 }.resume n req (k out.1))
    | _ => none
  | .fail n =>
    match s.requests n with
    | some (req, .op o k) => some (s.resume n req (k (failed o)))
    | _ => none

end Traffic

variable {parse : String → Option UUID} {stamps : ℕ → Stamp} {s s' : Traffic} {a : TrafficAction}
  {ok : Traffic → TrafficAction → Prop}

/-- A request arrives, a call is served, or a call fails. -/
theorem Traffic.step_cases (h : s.step parse stamps a = some s') :
    (∃ n req, a = .request n req ∧ s.requests n = none ∧
      s' = s.resume n req (req.handler parse)) ∨
    (∃ n req o k, a = .serve n ∧ s.requests n = some (req, .op o k) ∧
      s' = { s with backend := (o.serve stamps s.backend).2 }.resume n req
        (k (o.serve stamps s.backend).1)) ∨
    ∃ n req o k, a = .fail n ∧ s.requests n = some (req, .op o k) ∧
      s' = s.resume n req (k (failed o)) := by
  cases a with
  | request n req =>
    simp only [Traffic.step] at h
    split at h
    · rename_i hn
      cases h
      exact .inl ⟨n, req, rfl, hn, rfl⟩
    · cases h
  | serve n =>
    simp only [Traffic.step] at h
    split at h
    · rename_i req o k hn
      cases h
      exact .inr (.inl ⟨n, req, o, k, rfl, hn, rfl⟩)
    · cases h
  | fail n =>
    simp only [Traffic.step] at h
    split at h
    · rename_i req o k hn
      cases h
      exact .inr (.inr ⟨n, req, o, k, rfl, hn, rfl⟩)
    · cases h

/-- A request of the state after `resume`: the one that went on, or one of before. -/
theorem resume_requests {n m : ℕ} {req req' : RoomRequest} {p p' : RoomProc Response}
    (h : (s.resume n req p).requests m = some (req', p')) :
    (m = n ∧ req' = req ∧ p' = p) ∨ (m ≠ n ∧ s.requests m = some (req', p')) := by
  have h : Function.update s.requests n (some (req, p)) m = some (req', p') := h
  by_cases hm : m = n
  · subst hm
    rw [Function.update_self] at h
    cases h
    exact .inl ⟨rfl, rfl, rfl⟩
  · rw [Function.update_of_ne hm] at h
    exact .inr ⟨hm, h⟩

/-! ## The requests in progress -/

/-- A property of a request and of the rest of its handler, for all of them. -/
def Traffic.Each (P : RoomRequest → RoomProc Response → Prop) (s : Traffic) : Prop :=
  ∀ n req p, s.requests n = some (req, p) → P req p

theorem Traffic.Each.resume {P : RoomRequest → RoomProc Response → Prop} (h : s.Each P) {n : ℕ}
    {req : RoomRequest} {p : RoomProc Response} (hp : P req p) : (s.resume n req p).Each P := by
  intro m req' p' hm
  rcases resume_requests hm with ⟨-, rfl, rfl⟩ | ⟨-, hm⟩
  · exact hp
  · exact h m req' p' hm

/-- Requests that arrive have the property, and every answer keeps it. -/
theorem Traffic.Each.step {P : RoomRequest → RoomProc Response → Prop}
    (hnew : ∀ n req, a = .request n req → P req (req.handler parse))
    (hnext : ∀ req o k r, P req (.op o k) → P req (k r)) (h : s.Each P)
    (hs : s.step parse stamps a = some s') : s'.Each P := by
  rcases Traffic.step_cases hs with ⟨n, req, ha, -, rfl⟩ | ⟨n, req, o, k, -, hn, rfl⟩ |
    ⟨n, req, o, k, -, hn, rfl⟩
  · exact h.resume (hnew n req ha)
  · exact Each.resume (s := { s with backend := _ }) h (hnext req o k _ (h n req _ hn))
  · exact h.resume (hnext req o k _ (h n req _ hn))

theorem reach_requests {P : RoomRequest → RoomProc Response → Prop}
    (hnew : ∀ req, P req (req.handler parse)) (hnext : ∀ req o k r, P req (.op o k) → P req (k r))
    (hrun : Reach (Traffic.step parse stamps) ok s s') (h : s.Each P) : s'.Each P :=
  hrun.invariant (Traffic.Each P) (fun _ _ _ h _ hs => h.step (fun _ req _ => hnew req) hnext hs) h

theorem idle_each (P : RoomRequest → RoomProc Response → Prop) (db : Database) :
    (Traffic.idle db).Each P := by
  intro n req p hn
  cases hn

/-! ## The tables -/

/-- Every store call keeps the keys. -/
theorem serve_keys (o : RoomOp) {b : Backend} (hk : b.db.Keyed) :
    (o.serve stamps b).2.db.Keyed := by
  cases o with
  | createChannel u name description isPublic =>
    exact (createChannel_calm _ _ _ _ _ _ b.db).keyed hk
  | createGroup u name description memberIDs =>
    exact (createGroup_calm _ _ _ _ _ _ b.db).keyed hk
  | getOrCreateDirectRoom u v =>
    show (Store.getOrCreateDirectRoom _ _ u v b.db).2.Keyed
    cases hout : Store.getOrCreateDirectRoom (stamps b.calls).now (stamps b.calls).uuid
      u v b.db with
    | mk res db' =>
      cases res with
      | error e => exact getOrCreateDirectRoom_error hout ▸ hk
      | ok out => exact (getOrCreateDirectRoom_ok hk hout).1.keyed hk
  | addMember r u role =>
    show (Store.addMember _ _ r u role b.db).2.Keyed
    cases hout : Store.addMember (stamps b.calls).now (stamps b.calls).uuid r u role b.db with
    | mk res db' =>
      cases res with
      | error e => exact addMember_error hout ▸ hk
      | ok m => exact (addMember_ok hout).1.keyed hk
  | removeMember r u => exact (removeMember_calm _ r u b.db).keyed hk
  | banMember r u =>
    show (Store.banMember _ r u b.db).2.Keyed
    cases hout : Store.banMember (stamps b.calls).now r u b.db with
    | mk res db' =>
      cases res with
      | error e => exact updateActive_error hout ▸ hk
      | ok x => exact (banMember_ok hout).1.keyed hk
  | changeMemberRole r u role =>
    show (Store.changeMemberRole r u role b.db).2.Keyed
    cases hout : Store.changeMemberRole r u role b.db with
    | mk res db' =>
      cases res with
      | error e => exact changeMemberRole_error hout ▸ hk
      | ok changed => exact (changeMemberRole_ok hk hout).1.keyed hk
  | promoteOldestIfNoAdmins r => exact (promoteOldestIfNoAdmins_calm r hk).keyed hk
  | _ => exact hk

/-- No store call changes or deletes a room. -/
theorem serve_rooms (o : RoomOp) {b : Backend} {room : Room} (h : room ∈ b.db.rooms) :
    room ∈ (o.serve stamps b).2.db.rooms := by
  cases o with
  | createChannel u name description isPublic =>
    exact (createChannel_calm _ _ _ _ _ _ b.db).kept room h
  | createGroup u name description memberIDs =>
    exact (createGroup_calm _ _ _ _ _ _ b.db).kept room h
  | getOrCreateDirectRoom u v => exact getOrCreateDirectRoom_kept _ _ u v h
  | addMember r u role =>
    show room ∈ (Store.addMember _ _ r u role b.db).2.rooms
    cases hout : Store.addMember (stamps b.calls).now (stamps b.calls).uuid r u role b.db with
    | mk res db' =>
      cases res with
      | error e => exact addMember_error hout ▸ h
      | ok m => exact addMember_rooms hout ▸ h
  | removeMember r u => exact (removeMember_calm _ r u b.db).kept room h
  | banMember r u =>
    show room ∈ (Store.banMember _ r u b.db).2.rooms
    cases hout : Store.banMember (stamps b.calls).now r u b.db with
    | mk res db' =>
      cases res with
      | error e => exact updateActive_error hout ▸ h
      | ok x => exact (banMember_ok hout).2.1 ▸ h
  | changeMemberRole r u role =>
    show room ∈ (Store.changeMemberRole r u role b.db).2.rooms
    unfold Store.changeMemberRole
    split
    · exact h
    · split_ifs <;> exact h
  | promoteOldestIfNoAdmins r =>
    show room ∈ (Store.promoteOldestIfNoAdmins r b.db).2.rooms
    unfold Store.promoteOldestIfNoAdmins
    split <;> exact h
  | _ => exact h

theorem serve_nonDirect (o : RoomOp) {b : Backend} {r : UUID} (h : NonDirect b.db r) :
    NonDirect (o.serve stamps b).2.db r := by
  obtain ⟨room, hroom, hid, htype⟩ := h
  exact ⟨room, serve_rooms o hroom, hid, htype⟩

/-- The keys are unique and no member row is without its room. -/
def Traffic.Tables (s : Traffic) : Prop := s.backend.db.Keyed ∧ s.backend.db.Referenced

theorem Traffic.Tables.step (h : s.Tables) (hs : s.step parse stamps a = some s') : s'.Tables := by
  rcases Traffic.step_cases hs with ⟨n, req, -, -, rfl⟩ | ⟨n, req, o, k, -, -, rfl⟩ |
    ⟨n, req, o, k, -, -, rfl⟩
  · exact h
  · exact ⟨serve_keys o h.1, serve_referenced o h.2⟩
  · exact h

theorem reach_tables {users : List User}
    (hrun : Reach (Traffic.step parse stamps) ok (Traffic.start users) s) : s.Tables := by
  refine hrun.invariant Traffic.Tables (fun _ _ _ h _ hs => h.step hs) ⟨?_, ?_⟩
  · exact ⟨List.nodup_nil, List.nodup_nil, List.nodup_nil⟩
  · intro m hm
    cases hm

end ConvoyChat.System
