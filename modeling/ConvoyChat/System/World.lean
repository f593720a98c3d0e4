import ConvoyChat.Websocket.Holders
import ConvoyChat.Store.RoomLemmas

/-!
# The whole backend

The tables, the HTTP requests in progress and any number of servers, which share
Postgres and Redis. One step is a store call of a handler, a publication, or a step
of one server. The store answers a connection from the tables of that moment, and
what is published reaches every server that is subscribed to the channel.

Handlers that change neither rooms nor memberships (messages, reactions, uploads)
are here only with what they publish: `WorldAction.publish`.

* `World.step_server`: a step of the world is a run of each server, which the store
  answers from the tables.
* `World.reach_server`: the same for a run.
-/

namespace ConvoyChat.System

open ConvoyChat.Lib ConvoyChat.Store ConvoyChat.Handlers ConvoyChat.Websocket

structure World where
  backend : Backend
  /-- the handlers of the HTTP requests so far -/
  requests : ℕ → Option (RoomProc Response)
  servers : ℕ → Server

inductive WorldAction
  /-- an HTTP request arrives -/
  | request (n : ℕ) (req : RoomRequest)
  /-- the handler of a request makes its next store call -/
  | serve (n : ℕ)
  /-- the next store call of a handler fails -/
  | fail (n : ℕ)
  /-- another handler publishes -/
  | publish (k : Kind) (id : UUID) (e : Event)
  /-- one step of a server -/
  | server (i : ℕ) (a : Action)

/-- Users and servers, and nothing else so far. -/
def World.start (users : List User) : World :=
  ⟨⟨⟨users, [], []⟩, 0, []⟩, fun _ => none, fun _ => Server.new⟩

/-- The error of a store call that did not go through. -/
def failed : (o : RoomOp) → o.Res
  | .getUserByID _ => .error .internal
  | .getRoomByID _ => .error .internal
  | .getMembership _ _ => .error .internal
  | .isBanned _ _ => .error .internal
  | .createChannel _ _ _ _ => .error .internal
  | .createGroup _ _ _ _ => .error .internal
  | .getOrCreateDirectRoom _ _ => .error .internal
  | .addMember _ _ _ => .error .internal
  | .removeMember _ _ => .error .internal
  | .banMember _ _ => .error .internal
  | .changeMemberRole _ _ _ => .error .internal
  | .promoteOldestIfNoAdmins _ => .error .internal
  | .publishRoomEvent _ _ => .error .internal
  | .publishUserEvent _ _ => .error .internal

/-- The answers of the store, when it answers at all; messages, presence and the
    clock are up to `env`. -/
def fromStore (db : Database) (env : (o : EnvOp) → o.Res) : (o : EnvOp) → o.Res
  | .getMembership r u =>
    match env (.getMembership r u) with
    | .error .internal => .error .internal
    | _ => Store.getMembership r u db
  | .listRoomsForUser u =>
    match env (.listRoomsForUser u) with
    | .error .internal => .error .internal
    | _ => .ok (Store.listRoomsForUser u db)
  | o => env o

/-- The same step, with the answers of the store. -/
def answered (db : Database) : Action → Action
  | .perform c env => .perform c (fromStore db env)
  | .offlinePerform env => .offlinePerform (fromStore db env)
  | a => a

/-- What the call of a handler publishes. -/
def callPublishes : RoomOp → Option (Kind × UUID × Event)
  | .publishRoomEvent r e => some (.room, r, .room e)
  | .publishUserEvent u e => some (.user, u, .room e)
  | _ => none

/-- What the call of a server publishes, when it succeeds. -/
def envPublishes (env : (o : EnvOp) → o.Res) : EnvOp → Option (Kind × UUID × Event)
  | .publish r e =>
    match env (.publish r e) with
    | .ok () => some (.room, r, e)
    | .error _ => none
  | _ => none

/-- What a step of a server publishes. -/
def stepPublishes (s : Server) : Action → Option (Kind × UUID × Event)
  | .perform c env =>
    match s.thread c with
    | .running (.op (.call o) _) => envPublishes env o
    | _ => none
  | .offlinePerform env =>
    match s.offline with
    | some (.op o _) => envPublishes env o
    | _ => none
  | _ => none

section

variable (parse : String → Option UUID) (stamps : ℕ → Stamp)

/-- Redis forwards a publication to the servers that are subscribed. -/
def World.publish (w : World) (k : Kind) (id : UUID) (e : Event) : World :=
  { w with
    servers := fun i => ((w.servers i).step parse (.arrive k id e)).getD (w.servers i) }

def World.emit (w : World) : Option (Kind × UUID × Event) → World
  | none => w
  | some (k, id, e) => w.publish parse k id e

/-- Go on with `p` in the handler of request `n`. -/
def World.resume (w : World) (n : ℕ) (p : RoomProc Response) : World :=
  { w with requests := Function.update w.requests n (some p) }

/-- A server takes a step; what arrives there comes from Redis only. -/
def World.serverStep (w : World) (i : ℕ) (a : Action) : Option World :=
  match a with
  | .arrive _ _ _ => none
  | a =>
    ((w.servers i).step parse (answered w.backend.db a)).map fun s' =>
      ({ w with servers := Function.update w.servers i s' }).emit parse
        (stepPublishes (w.servers i) a)

def World.step (w : World) : WorldAction → Option World
  | .request n req =>
    match w.requests n with
    | none => some (w.resume n (req.handler parse))
    | some _ => none
  | .serve n =>
    match w.requests n with
    | some (.op o k) =>
      let out := o.serve stamps w.backend
      some (({ w with backend := out.2 }.resume n (k out.1)).emit parse (callPublishes o))
    | _ => none
  | .fail n =>
    match w.requests n with
    | some (.op o k) => some (w.resume n (k (failed o)))
    | _ => none
  | .publish k id e => some (w.publish parse k id e)
  | .server i a => w.serverStep parse i a

end

/-! ## The servers -/

variable {parse : String → Option UUID} {stamps : ℕ → Stamp} {w w' : World} {a : WorldAction}
  {i : ℕ}

/-- What server `i` does in a step of the world. -/
def Caused (db : Database) (i : ℕ) (a : WorldAction) (_ : Server) (b : Action) : Prop :=
  (∃ k id e, b = .arrive k id e) ∨ ∃ a₀, a = .server i a₀ ∧ b = answered db a₀

theorem publish_server (w : World) (k : Kind) (id : UUID) (e : Event) (i : ℕ) :
    Reach (Server.step parse) (fun _ b => ∃ k id e, b = .arrive k id e) (w.servers i)
      ((w.publish parse k id e).servers i) := by
  show Reach _ _ _ (((w.servers i).step parse (.arrive k id e)).getD (w.servers i))
  cases h : (w.servers i).step parse (.arrive k id e) with
  | none => exact .refl
  | some s => exact Reach.single ⟨k, id, e, rfl⟩ h

theorem emit_server (w : World) (p : Option (Kind × UUID × Event)) (i : ℕ) :
    Reach (Server.step parse) (fun _ b => ∃ k id e, b = .arrive k id e) (w.servers i)
      ((w.emit parse p).servers i) := by
  cases p with
  | none => exact .refl
  | some p => exact publish_server w p.1 p.2.1 p.2.2 i

theorem emit_backend (w : World) (p : Option (Kind × UUID × Event)) :
    (w.emit parse p).backend = w.backend := by
  cases p with
  | none => rfl
  | some p => rfl

theorem serverStep_eq_some {i₀ : ℕ} {a₀ : Action} (h : w.serverStep parse i₀ a₀ = some w') :
    ∃ s', (w.servers i₀).step parse (answered w.backend.db a₀) = some s' ∧
      w' = ({ w with servers := Function.update w.servers i₀ s' }).emit parse
        (stepPublishes (w.servers i₀) a₀) := by
  unfold World.serverStep at h
  split at h
  · cases h
  · obtain ⟨s', hs', rfl⟩ := Option.map_eq_some_iff.mp h
    exact ⟨s', hs', rfl⟩

/-- A step of the world is a run of each server. -/
theorem World.step_server (h : w.step parse stamps a = some w') (i : ℕ) :
    Reach (Server.step parse) (Caused w.backend.db i a) (w.servers i) (w'.servers i) := by
  have harrive : ∀ (w₀ : World) (p : Option (Kind × UUID × Event)),
      Reach (Server.step parse) (Caused w.backend.db i a) (w₀.servers i)
        ((w₀.emit parse p).servers i) :=
    fun w₀ p => (emit_server w₀ p i).mono fun _ _ hb => .inl hb
  cases a with
  | request n req =>
    simp only [World.step] at h
    split at h
    · cases h
      exact .refl
    · cases h
  | serve n =>
    simp only [World.step] at h
    split at h
    · rename_i o k _
      cases h
      exact harrive ({ w with backend := (o.serve stamps w.backend).2 }.resume n
        (k (o.serve stamps w.backend).1)) (callPublishes o)
    · cases h
  | fail n =>
    simp only [World.step] at h
    split at h
    · cases h
      exact .refl
    · cases h
  | publish k id e =>
    cases h
    exact harrive w (some (k, id, e))
  | server i₀ a₀ =>
    obtain ⟨s', hs', rfl⟩ := serverStep_eq_some h
    refine Relation.ReflTransGen.trans ?_ (harrive _ _)
    by_cases hi : i = i₀
    · subst hi
      show Reach _ _ _ (Function.update w.servers i s' i)
      rw [Function.update_self]
      exact Reach.single (.inr ⟨a₀, rfl, rfl⟩) hs'
    · show Reach _ _ _ (Function.update w.servers i₀ s' i)
      rw [Function.update_of_ne hi]

/-- A property that every step of a server keeps holds along a run of the world. -/
theorem World.reach_server {ok : World → WorldAction → Prop} (Inv : Server → Prop)
    (hstep : ∀ s b s', Inv s → Server.step parse s b = some s' → Inv s')
    (hrun : Reach (World.step parse stamps) ok w w') (h : Inv (w.servers i)) :
    Inv (w'.servers i) :=
  hrun.invariant (fun w => Inv (w.servers i))
    (fun _ _ _ hinv _ hs => (World.step_server hs i).invariant Inv
      (fun s b s' hinv _ hb => hstep s b s' hinv hb) hinv) h

theorem World.step_inRoom {c : Client} {r : UUID} (h : w.step parse stamps a = some w')
    (hread : ∀ data, a = .server i (.read c data) → ¬ LeaveFrame parse r data)
    (hin : InRoom (w.servers i) c r) : InRoom (w'.servers i) c r := by
  refine (World.step_server h i).invariant (InRoom · c r) (fun s b s' hin hb hs => ?_) hin
  refine (Server.step_move hs).2.inRoom (fun data hdata => ?_) hin
  rcases hb with ⟨k, id, e, rfl⟩ | ⟨a₀, ha, rfl⟩
  · cases hdata
  · cases a₀ with
    | read c₀ data₀ =>
      cases hdata
      exact hread data ha
    | _ => cases hdata

/-! ## The tables -/

/-- `u` is an active member of room `r`. -/
def Active (db : Database) (r u : UUID) : Prop :=
  ∃ m ∈ db.members, m.isActiveRow r u = true

instance (db : Database) (r u : UUID) : Decidable (Active db r u) :=
  inferInstanceAs (Decidable (∃ m ∈ db.members, _))

theorem getMembership_of_not_active {db : Database} {r u : UUID} (h : ¬ Active db r u) :
    Store.getMembership r u db = .error .notFound := by
  unfold Store.getMembership
  have hnone : db.members.find? (·.isActiveRow r u) = none := by
    rw [List.find?_eq_none]
    exact fun m hm hact => h ⟨m, hm, hact⟩
  rw [hnone]

/-- Nobody who is not a member is told so. -/
theorem fromStore_denies {db : Database} {r u : UUID} (h : ¬ Active db r u)
    (env : (o : EnvOp) → o.Res) (m : RoomMember) :
    fromStore db env (.getMembership r u) ≠ .ok m := by
  simp only [fromStore, getMembership_of_not_active h]
  split <;> simp

/-- No store call leaves a member row without its room. -/
theorem serve_referenced (o : RoomOp) {s : Backend} (h : s.db.Referenced) :
    (o.serve stamps s).2.db.Referenced := by
  cases o with
  | createChannel => exact referenced_createChannel h
  | createGroup => exact referenced_createGroup h
  | getOrCreateDirectRoom => exact referenced_getOrCreateDirectRoom h
  | addMember => exact referenced_addMember h
  | removeMember => exact referenced_updateActive (fun _ => rfl) h
  | banMember => exact referenced_updateActive (fun _ => rfl) h
  | changeMemberRole => exact referenced_changeMemberRole h
  | promoteOldestIfNoAdmins => exact referenced_promoteOldestIfNoAdmins h
  | _ => exact h

theorem World.step_backend (h : w.step parse stamps a = some w') :
    w'.backend = w.backend ∨ ∃ o : RoomOp, w'.backend = (o.serve stamps w.backend).2 := by
  cases a with
  | request n req =>
    simp only [World.step] at h
    split at h
    · cases h
      exact .inl rfl
    · cases h
  | serve n =>
    simp only [World.step] at h
    split at h
    · rename_i o k _
      cases h
      exact .inr ⟨o, emit_backend _ _⟩
    · cases h
  | fail n =>
    simp only [World.step] at h
    split at h
    · cases h
      exact .inl rfl
    · cases h
  | publish k id e =>
    cases h
    exact .inl rfl
  | server i a =>
    obtain ⟨s', -, rfl⟩ := serverStep_eq_some h
    exact .inl (emit_backend _ _)

theorem World.step_referenced (h : w.step parse stamps a = some w')
    (href : w.backend.db.Referenced) : w'.backend.db.Referenced := by
  rcases World.step_backend h with heq | ⟨o, heq⟩
  · rw [heq]
    exact href
  · rw [heq]
    exact serve_referenced o href

/-! ## Runs -/

/-- Times and UUIDs: the first store call creates room 5. -/
def fiveStamps (n : ℕ) : Stamp := ⟨n, fun k => 10 * n + 5 + k⟩

/-- Request `n` arrives and makes `calls` store calls. -/
def requested (n : ℕ) (req : RoomRequest) (calls : ℕ) : List WorldAction :=
  .request n req :: List.replicate calls (.serve n)

/-- Steps of server 0. -/
def onServer (as : List Action) : List WorldAction := as.map (.server 0)

end ConvoyChat.System
