import ConvoyChat.System.World

/-!
# Events after a departure

`LeaveRoom` and `RemoveMember` end a membership in the tables and publish
`user.left`; neither of them touches a Hub. A connection of the user that is in the
room stays there until its client sends `room.leave` or disconnects, which the web
client does on its own `user.left`. What the backend does by itself is to keep the
user from coming back: `room.join` reads the tables.

* `events_reach_only_holders`: after the departure, an event of the room is put on
  the queue of a connection of the user only if the connection has held the room
  all the time.
* `silent_client_gets_messages`: a client that does not react to its departure.
-/

namespace ConvoyChat.System

open ConvoyChat.Lib ConvoyChat.Store ConvoyChat.Handlers ConvoyChat.Websocket

variable {parse : String → Option UUID} {stamps : ℕ → Stamp} {w w' : World} {a : WorldAction}
  {i : ℕ} {c : Client} {r u : UUID}

/-- The step is the `UPDATE` of a `LeaveRoom` or of a kick, and it finds the member. -/
def EndsMembership (stamps : ℕ → Stamp) (w : World) (a : WorldAction) (r u : UUID) : Prop :=
  ∃ n, a = .serve n ∧
    ((∃ k, w.requests n = some (.op (.removeMember r u) k) ∧
        ((RoomOp.removeMember r u).serve stamps w.backend).1 = .ok ()) ∨
      ∃ k, w.requests n = some (.op (.banMember r u) k) ∧
        ((RoomOp.banMember r u).serve stamps w.backend).1 = .ok ())

/-- The step does not make `u` an active member of `r`. -/
def KeepsOut (parse : String → Option UUID) (stamps : ℕ → Stamp) (r u : UUID) (w : World)
    (a : WorldAction) : Prop :=
  ∀ w', w.step parse stamps a = some w' → ¬ Active w'.backend.db r u

/-- The Hub's next task puts the event `e` of room `r` on the queue of `c`. -/
def Places (s : Server) (r : UUID) (e : Event) (c : Client) : Prop :=
  (∃ rest, s.hub.todo = .deliver .room r e c :: rest) ∧
    ∃ ch, (s.send c).trySend sendBuffer e = .ok ch

/-! ## The departure -/

/-- An `UPDATE` that sets `left_at` on the active rows leaves none. -/
theorem updateActive_not_active {f : RoomMember → RoomMember} {db : Database}
    (hf : ∀ m, (f m).leftAt ≠ none) (h : (updateActive f r u db).1 = .ok ()) :
    ¬ Active (updateActive f r u db).2 r u := by
  unfold updateActive at h ⊢
  split_ifs at h ⊢
  rintro ⟨m, hm, hact⟩
  rcases mem_updateWhere.mp hm with ⟨m₀, -, hm₀⟩
  by_cases hp : m₀.isActiveRow r u = true
  · rw [if_pos hp] at hm₀
    rw [RoomMember.isActiveRow_iff, hm₀] at hact
    exact hf m₀ hact.2.2
  · rw [if_neg hp] at hm₀
    rw [hm₀] at hact
    exact hp hact

theorem not_active_of_endsMembership (hends : EndsMembership stamps w a r u)
    (h : w.step parse stamps a = some w') : ¬ Active w'.backend.db r u := by
  obtain ⟨n, rfl, hn⟩ := hends
  rcases hn with ⟨k, hreq, hok⟩ | ⟨k, hreq, hok⟩
  · simp only [World.step, hreq, Option.some.injEq] at h
    rw [← h, emit_backend]
    exact updateActive_not_active (by simp) hok
  · simp only [World.step, hreq, Option.some.injEq] at h
    rw [← h, emit_backend]
    exact updateActive_not_active (by simp) hok

theorem reach_not_active (hrun : Reach (World.step parse stamps) (KeepsOut parse stamps r u) w w')
    (h : ¬ Active w.backend.db r u) : ¬ Active w'.backend.db r u :=
  hrun.invariant (fun w => ¬ Active w.backend.db r u) (fun _ _ _ _ hok hs => hok _ hs) h

/-! ## Who holds the room -/

theorem Caused.denied {db : Database} (h : ¬ Active db r c.userID) {s : Server} {b : Action}
    (hb : Caused db i a s b) : Denied c r s b := by
  intro env henv m
  rcases hb with ⟨k, id, e, rfl⟩ | ⟨a₀, -, rfl⟩
  · cases henv
  · cases a₀ with
    | perform c₀ env₀ =>
      cases henv
      exact fromStore_denies h env₀ m
    | _ => cases henv

theorem World.step_holds (h : w.step parse stamps a = some w')
    (hout : ¬ Active w.backend.db r c.userID)
    (hlife : Life (w.servers i).hub (w.servers i).thread) (hholds : Holds (w'.servers i) c r) :
    Holds (w.servers i) c r :=
  holds_reach ((World.step_server h i).mono fun _ _ hb => hb.denied hout) hlife hholds

/-- While the user is out, no connection of the user gets hold of the room. -/
theorem World.reach_holds
    (hrun : Reach (World.step parse stamps) (KeepsOut parse stamps r c.userID) w w')
    (hout : ¬ Active w.backend.db r c.userID)
    (hlife : Life (w.servers i).hub (w.servers i).thread) (hholds : Holds (w'.servers i) c r) :
    Holds (w.servers i) c r := by
  induction hrun using Relation.ReflTransGen.head_induction_on with
  | refl => exact hholds
  | head hmove _ ih =>
    obtain ⟨b, hok, hb⟩ := hmove
    have hlife' := life_reach (World.step_server hb i) hlife
    exact World.step_holds hb hout hlife (ih (hok _ hb) hlife')

theorem aimed_start {ok : World → WorldAction → Prop} {users : List User}
    (hrun : Reach (World.step parse stamps) ok (World.start users) w) : Aimed (w.servers i) :=
  World.reach_server Aimed (fun _ _ _ hinv hs => (Server.step_move hs).2.aimed hinv) hrun aimed_new

/-- After a `LeaveRoom` or a kick has committed, and as long as the user is not made
    an active member again, an event of the room is put on the queue of a connection
    of the user only if that connection has held the room at every moment since. -/
theorem events_reach_only_holders (parse : String → Option UUID) (stamps : ℕ → Stamp)
    (users : List User) (w₀ w₁ w w₂ : World) (a : WorldAction) (i : ℕ) (c : Client) (r : UUID)
    (e : Event)
    (hstart : Reach (World.step parse stamps) Unguarded (World.start users) w₀)
    (hends : EndsMembership stamps w₀ a r c.userID) (ha : w₀.step parse stamps a = some w₁)
    (hsince : Reach (World.step parse stamps) (KeepsOut parse stamps r c.userID) w₁ w)
    (hafter : Reach (World.step parse stamps) (KeepsOut parse stamps r c.userID) w w₂)
    (hplaces : Places (w₂.servers i) r e c) : Holds (w.servers i) c r := by
  have hout₁ : ¬ Active w₁.backend.db r c.userID := not_active_of_endsMembership hends ha
  have hout : ¬ Active w.backend.db r c.userID := reach_not_active hsince hout₁
  have hreach : Reach (World.step parse stamps) Unguarded (World.start users) w :=
    (hstart.tail ⟨a, trivial, ha⟩).trans (hsince.mono fun _ _ _ => trivial)
  have haimed : Aimed (w₂.servers i) :=
    aimed_start (hreach.trans (hafter.mono fun _ _ _ => trivial))
  obtain ⟨⟨rest, htodo⟩, -⟩ := hplaces
  have hroom : c ∈ (w₂.servers i).hub.maps.rooms.members r :=
    haimed.members .room r e c (by simp [htodo])
  exact World.reach_holds hafter hout (aimed_start hreach).life (.inl hroom)

/-! ## A client that does not react -/

/-- The store accepts a message. -/
def stores : (o : EnvOp) → o.Res
  | .insertMessage r u content messageType =>
    .ok ⟨9, r, ⟨u, "bob", none⟩, some content, messageType, none, none, 0, 0⟩
  | o => answers o

def hello : Event := .messageNew ⟨9, 5, ⟨2, "bob", none⟩, some "hello", 0, [], ""⟩

/-- What Redis has forwarded for the room goes to `early`. -/
def delivering : List Action :=
  [.brokerReceive .room, .brokerForward, .hubBroadcast .room [early]]

/-- User 1 creates the channel, user 2 joins it, both connect, and user 1 joins it
    on its connection. -/
def settledIn : List WorldAction :=
  requested 0 (.createRoom 1 (some ⟨"channel", "five", none, "", none, []⟩)) 1 ++
    requested 1 (.joinChannel 2 idFive) 5 ++
    onServer (connect early ++ connect late ++ ensured early ++ joined early ++ delivering ++
      [.hubTask [], .write early]) ++
    requested 2 (.leaveRoom 1 idFive) 0

/-- User 2 sends a message to the room. -/
def messageSent : List WorldAction :=
  onServer ([.read late (some ⟨"message.send", idFive, "hello", "", "", "", ""⟩),
    .perform late stores, .perform late stores, .perform late stores] ++ delivering)

/-- The state after some actions. -/
def worldAfter (as : List WorldAction) : World :=
  (exec (World.step parseId fiveStamps) (World.start [⟨1, "ada"⟩, ⟨2, "bob"⟩]) as).getD
    (World.start [])

/-- The states before and after the `UPDATE` of the `LeaveRoom` of user 1, and when
    the message of user 2 is about to be delivered. -/
def beforeLeave : World := worldAfter settledIn

def afterLeave : World := worldAfter (settledIn ++ [.serve 2])

def atDelivery : World := worldAfter (settledIn ++ [.serve 2] ++ messageSent)

/-- `KeepsOut`, evaluated. -/
def keepsOut (r u : UUID) (w : World) (a : WorldAction) : Bool :=
  match w.step parseId fiveStamps a with
  | some w' => !w'.backend.db.members.any (·.isActiveRow r u)
  | none => true

theorem keepsOut_of_check (r u : UUID) (w : World) (a : WorldAction) (h : keepsOut r u w a = true) :
    KeepsOut parseId fiveStamps r u w a := by
  rintro w' hw' ⟨m, hm, hact⟩
  unfold keepsOut at h
  rw [hw', Bool.not_eq_true', List.any_eq_false] at h
  exact h m hm hact

theorem reach_beforeLeave :
    Reach (World.step parseId fiveStamps) Unguarded (World.start [⟨1, "ada"⟩, ⟨2, "bob"⟩])
      beforeLeave := by
  have hexec : exec (World.step parseId fiveStamps) (World.start [⟨1, "ada"⟩, ⟨2, "bob"⟩])
      settledIn = some beforeLeave := rfl
  exact Reach.of_exec (meets_unguarded _ _ settledIn) hexec

theorem leave_ends : EndsMembership fiveStamps beforeLeave (.serve 2) 5 early.userID :=
  ⟨2, rfl, .inl ⟨_, rfl, rfl⟩⟩

theorem reach_atDelivery :
    Reach (World.step parseId fiveStamps) (KeepsOut parseId fiveStamps 5 early.userID)
      afterLeave atDelivery := by
  have hexec : exec (World.step parseId fiveStamps) afterLeave messageSent = some atDelivery :=
    rfl
  exact Reach.of_exec (meets_of_checks (keepsOut_of_check 5 early.userID) rfl) hexec

theorem places_atDelivery : Places (atDelivery.servers 0) 5 hello early :=
  ⟨⟨[], rfl⟩, _, rfl⟩

theorem events_reach_only_holders_silent :
    Places (atDelivery.servers 0) 5 hello early ∧ Holds (afterLeave.servers 0) early 5 :=
  ⟨places_atDelivery, events_reach_only_holders parseId fiveStamps _ beforeLeave afterLeave
    afterLeave atDelivery (.serve 2) 0 early 5 hello reach_beforeLeave leave_ends rfl .refl
    reach_atDelivery places_atDelivery⟩

/-- When the `LeaveRoom` commits, no event is on its way to the Hub; a message sent
    afterwards still gets on the queue of the user who left. -/
theorem silent_client_gets_messages :
    Reach (World.step parseId fiveStamps) Unguarded (World.start [⟨1, "ada"⟩, ⟨2, "bob"⟩])
        beforeLeave ∧
      EndsMembership fiveStamps beforeLeave (.serve 2) 5 early.userID ∧
      beforeLeave.step parseId fiveStamps (.serve 2) = some afterLeave ∧
      (((afterLeave.servers 0).broker.subs .room).messages = [] ∧
        (afterLeave.servers 0).broker.task = .idle ∧
        (afterLeave.servers 0).hub.broadcast .room = [] ∧ (afterLeave.servers 0).hub.todo = []) ∧
      Reach (World.step parseId fiveStamps) (KeepsOut parseId fiveStamps 5 early.userID)
        afterLeave atDelivery ∧
      Places (atDelivery.servers 0) 5 hello early :=
  ⟨reach_beforeLeave, leave_ends, rfl, ⟨rfl, rfl, rfl, rfl⟩, reach_atDelivery, places_atDelivery⟩

end ConvoyChat.System
