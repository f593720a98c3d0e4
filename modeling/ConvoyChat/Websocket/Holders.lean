import ConvoyChat.Websocket.Lifecycle

/-!
# Who is in a room

The Hub delivers the events of a room to the clients in `Hub.rooms`. A client gets
in by a `room.join` frame whose membership check passes, and it gets out by a
`room.leave` frame or by being removed.

* `Move.holds`: without an answer that the user is a member, a connection does not
  get hold of a room that it does not hold already.
* `Move.inRoom`: a connection that is in a room stays there while it is registered
  and reads no `room.leave` of its own.
* `Aimed`: what the Hub is about to deliver goes to clients of the room, and
  `Move.aimed`: after every step.
-/

namespace ConvoyChat.Websocket

open ConvoyChat.Lib

variable {parse : String → Option UUID} {s s' : Server} {a : Action} {c : Client} {r : UUID}

/-! ## Getting in -/

/-- The answer is not that `u` is a member of room `r`. -/
def Unverified (r u : UUID) : (o : ConnOp) → o.Res → Prop
  | .call (.getMembership r' u'), res => ¬ (r' = r ∧ u' = u ∧ ∃ m, res = .ok m)
  | _, _ => True

/-- The goroutine of `c` may call `Hub.Join` for `r` without another check of the
    membership. -/
def Entering (s : Server) (c : Client) (r : UUID) : Prop :=
  ∃ p, s.thread c = .running p ∧ p.Can (Unverified r c.userID) (· = .join r)

/-- `c` is in room `r`, its join is queued, or its `room.join` has passed the check. -/
def Holds (s : Server) (c : Client) (r : UUID) : Prop :=
  c ∈ s.hub.maps.rooms.members r ∨ (c, r) ∈ s.hub.join ∨ Entering s c r

/-- The store does not tell `c` that its user is a member of `r`. -/
def Denied (c : Client) (r : UUID) (_ : Server) (a : Action) : Prop :=
  ∀ env, a = .perform c env → ∀ m, env (.getMembership r c.userID) ≠ .ok m

theorem dispatch_unverified (parse : String → Option UUID) (c : Client) (r : UUID)
    (data : Option InboundEnvelope) :
    (dispatch parse c data).Never (Unverified r c.userID) (· = .join r) := by
  refine dispatch_never (passive_ne id) (fun env _ _ => ?_) (fun env _ _ => ?_)
  · refine handleRoomJoin_never (passive_ne id) (by simp) ?_
    intro r' _ hr' m hm
    cases hr'
    exact absurd ⟨rfl, rfl, m, rfl⟩ hm
  · exact handleRoomLeave_never (passive_ne id) (by simp)

theorem handshake_unverified (c : Client) (r : UUID) :
    (handshake c).Never (Unverified r c.userID) (· = .join r) :=
  .perform (by simp) fun _ _ => .perform (by simp) fun _ _ => lift_never (passive_ne id) _

/-- What the step tells the goroutine of `c` does not verify its membership. -/
theorem Denied.unverified {o : ConnOp} {res : o.Res} (hden : Denied c r s a)
    (h : s.Grants a c o res) : Unverified r c.userID o res := by
  unfold Unverified
  split
  · rintro ⟨rfl, rfl, m, rfl⟩
    obtain ⟨env, ha, hres⟩ := h
    exact hden env ha m hres.symm
  · trivial

theorem Move.entering (hmove : Move parse s a s') (hden : Denied c r s a)
    (h : Entering s' c r) : Entering s c r := by
  obtain ⟨p, hp, hcan⟩ := h
  have ht : ThreadMove parse s a c (s.thread c) (s'.thread c) := hmove.thread c
  rw [hp] at ht
  generalize hold : s.thread c = old at ht
  cases ht with
  | same => exact ⟨p, hold, hcan⟩
  | accept _ => exact absurd hcan (handshake_unverified c r)
  | read _ => exact absurd hcan (dispatch_unverified parse c r _)
  | next res hres => exact ⟨_, hold, .inr ⟨res, hden.unverified hres, hcan⟩⟩

/-- Only the store lets a connection into a room. -/
theorem Move.holds (hmove : Move parse s a s') (hlife : Life s.hub s.thread)
    (hden : Denied c r s a) (h : Holds s' c r) : Holds s c r := by
  rcases h with hroom | hjoin | hent
  · rcases hmove.mem_rooms hlife hroom with h₁ | ⟨h₁, -⟩
    · exact .inl h₁
    · exact .inr (.inl h₁)
  · rcases hmove.mem_join hjoin with h₁ | ⟨k, hk⟩
    · exact .inr (.inl h₁)
    · exact .inr (.inr ⟨_, hk, .here rfl⟩)
  · exact .inr (.inr (hmove.entering hden hent))

theorem holds_reach (hrun : Reach (Server.step parse) (Denied c r) s s')
    (hlife : Life s.hub s.thread) (h : Holds s' c r) : Holds s c r := by
  induction hrun using Relation.ReflTransGen.head_induction_on with
  | refl => exact h
  | head hmove _ ih =>
    obtain ⟨a, hden, hs⟩ := hmove
    have hm := (Server.step_move hs).2
    exact hm.holds hlife hden (ih (hm.life hlife))

/-! ## Getting out -/

/-- The goroutine of `c` is about to leave `r`, or has queued it. -/
def Leaving (s : Server) (c : Client) (r : UUID) : Prop :=
  (c, r) ∈ s.hub.leave ∨ ∃ p, s.thread c = .running p ∧ p.Can Proc.Always (· = .leave r)

/-- The frame asks to leave room `r`. -/
def LeaveFrame (parse : String → Option UUID) (r : UUID) (data : Option InboundEnvelope) : Prop :=
  ∃ env, data = some env ∧ env.type = "room.leave" ∧ parse env.roomID = some r

theorem dispatch_leave {data : Option InboundEnvelope}
    (h : (dispatch parse c data).Can Proc.Always (· = .leave r)) : LeaveFrame parse r data := by
  by_contra hnot
  refine dispatch_never (passive_ne id) (fun env _ _ => ?_) (fun env hdata htype => ?_) h
  · exact handleRoomJoin_never (passive_ne id) (by simp) (by simp)
  · refine handleRoomLeave_never (passive_ne id) fun r' hr' heq => hnot ?_
    cases heq
    exact ⟨env, hdata, htype, hr'⟩

theorem handshake_never_leave (c : Client) (r : UUID) :
    (handshake c).Never Proc.Always (· = .leave r) :=
  .perform (by simp) fun _ _ => .perform (by simp) fun _ _ => lift_never (passive_ne id) _

/-- Only a frame of its own makes a connection leave. -/
theorem Move.leaving (hmove : Move parse s a s') (h : Leaving s' c r) :
    Leaving s c r ∨ ∃ data, a = .read c data ∧ LeaveFrame parse r data := by
  rcases h with hq | ⟨p, hp, hcan⟩
  · rcases hmove.mem_leave hq with h₁ | ⟨k, hk⟩
    · exact .inl (.inl h₁)
    · exact .inl (.inr ⟨_, hk, .here rfl⟩)
  · have ht : ThreadMove parse s a c (s.thread c) (s'.thread c) := hmove.thread c
    rw [hp] at ht
    generalize hold : s.thread c = old at ht
    cases ht with
    | same => exact .inl (.inr ⟨p, hold, hcan⟩)
    | accept _ => exact absurd hcan (handshake_never_leave c r)
    | read hread => exact .inr ⟨_, hread, dispatch_leave hcan⟩
    | next res _ => exact .inl (.inr ⟨_, hold, .inr ⟨res, trivial, hcan⟩⟩)

/-- A connection that is not leaving stays in the room until it is removed. -/
theorem Move.stays (hmove : Move parse s a s') (hlife : Life s.hub s.thread)
    (hnot : ¬ Leaving s c r) (hc : c ∈ s'.hub.maps.clients)
    (h : c ∈ s.hub.maps.rooms.members r) : c ∈ s'.hub.maps.rooms.members r := by
  have hhub : HubMove s s'.hub := hmove.hub
  generalize s'.hub = hub at hhub hc ⊢
  have hkept : ∀ {ids : List UUID} {c₀ : Client},
      c ∈ (s.hub.maps.removeClient ids c₀).1.clients → c ≠ c₀ := by
    intro ids c₀ hmem
    rw [removeClient_clients] at hmem
    exact Finset.ne_of_mem_erase hmem
  cases hhub with
  | removeClient _ _ hids => exact (mem_removeClient hlife.maps hids).mpr ⟨h, hkept hc⟩
  | addToRoom _ _ => exact mem_addToRoom_of_mem h
  | removeFromRoom _ hq =>
    refine (mem_removeFromRoom hlife.maps).mpr ⟨h, ?_⟩
    rintro ⟨rfl, rfl⟩
    exact hnot (.inl (by simp [hq]))
  | dropped _ hids => exact (mem_removeClient hlife.maps hids).mpr ⟨h, hkept hc⟩
  | _ => exact h

/-- `c` is not leaving room `r`, and it is there as long as it is registered. -/
structure InRoom (s : Server) (c : Client) (r : UUID) : Prop where
  life : Life s.hub s.thread
  registered : Registered s.hub s.thread c
  notLeaving : ¬ Leaving s c r
  stays : c ∈ s.hub.maps.clients → c ∈ s.hub.maps.rooms.members r

theorem Move.inRoom (hmove : Move parse s a s')
    (hread : ∀ data, a = .read c data → ¬ LeaveFrame parse r data) (h : InRoom s c r) :
    InRoom s' c r := by
  refine ⟨hmove.life h.life, hmove.registered h.life h.registered, fun hl => ?_, fun hmem => ?_⟩
  · rcases hmove.leaving hl with hold | ⟨data, ha, hdata⟩
    · exact h.notLeaving hold
    · exact hread data ha hdata
  · have hclient : c ∈ s.hub.maps.clients := (hmove.mem_clients hmem).resolve_right h.registered.2
    exact hmove.stays h.life h.notLeaving hmem (h.stays hclient)

/-! ## Deliveries -/

/-- The client that the task sends to. -/
def HubTask.receiver : HubTask → Option Client
  | .deliver _ _ _ c => some c
  | _ => none

/-- The Hub is about to send to clients of the index, to each of them once. -/
structure Aimed (s : Server) : Prop where
  life : Life s.hub s.thread
  nodup : (s.hub.todo.filterMap HubTask.receiver).Nodup
  members : ∀ k id e c, .deliver k id e c ∈ s.hub.todo → c ∈ (s.hub.maps.index k).members id

theorem removeClient_receivers {m : Maps} {ids : List UUID} (hinv : m.Inv)
    (hids : Server.Lists ids (m.clientRooms c)) :
    ∀ t ∈ (m.removeClient ids c).2, HubTask.receiver t = none := by
  intro t ht
  by_cases hc : c ∈ m.clients
  · obtain ⟨ts, hts, heq⟩ := (Maps.removeClient_removed hinv hc hids.2).tasks
    rw [heq] at ht
    rcases List.mem_append.mp ht with h₁ | h₁
    · obtain ⟨k, id, rfl⟩ := hts t h₁
      rfl
    · rcases List.mem_pair.mp h₁ with rfl | rfl <;> rfl
  · rw [Maps.removeClient_of_not_mem hc] at ht
    cases ht

theorem removeFromRoom_receivers {m : Maps} :
    ∀ t ∈ (m.removeFromRoom c r).2, HubTask.receiver t = none := by
  intro t ht
  unfold Maps.removeFromRoom at ht
  split at ht
  · cases ht
  · rw [Maps.mem_detach_tasks ht]
    rfl

theorem not_deliver_of_receivers {ts : List HubTask}
    (hts : ∀ t ∈ ts, HubTask.receiver t = none) {k : Kind} {id : UUID} {e : Event} :
    HubTask.deliver k id e c ∉ ts := by
  intro hmem
  cases hts _ hmem

theorem filterMap_receivers {ts : List HubTask}
    (hts : ∀ t ∈ ts, HubTask.receiver t = none) : ts.filterMap HubTask.receiver = [] :=
  List.filterMap_eq_nil_iff.mpr hts

theorem mem_index_removeClient {m : Maps} {c₀ : Client} {ids : List UUID} {k : Kind} {id : UUID}
    (hinv : m.Inv) (hids : Server.Lists ids (m.clientRooms c₀))
    (h : c ∈ (m.index k).members id) (hc : c ≠ c₀) :
    c ∈ ((m.removeClient ids c₀).1.index k).members id := by
  by_cases hmem : c₀ ∈ m.clients
  · have hrem := Maps.removeClient_removed hinv hmem hids.2
    cases k with
    | room => exact (hrem.rooms id c).mpr ⟨h, hc⟩
    | user => exact (hrem.users id c).mpr ⟨h, hc⟩
  · rw [Maps.removeClient_of_not_mem hmem]
    exact h

/-- The Hub takes its next command only when it has delivered everything. -/
theorem Move.aimed (hmove : Move parse s a s') (h : Aimed s) : Aimed s' := by
  have hhub : HubMove s s'.hub := hmove.hub
  have hlife : Life s'.hub s'.thread := hmove.life h.life
  suffices hnew : (s'.hub.todo.filterMap HubTask.receiver).Nodup ∧
      ∀ k id e c, .deliver k id e c ∈ s'.hub.todo → c ∈ (s'.hub.maps.index k).members id from
    ⟨hlife, hnew.1, hnew.2⟩
  generalize s'.hub = hub at hhub ⊢
  cases hhub with
  | task htodo =>
    have hnodup := h.nodup
    rw [htodo] at hnodup
    refine ⟨hnodup.sublist ((List.sublist_cons_self _ _).filterMap _), ?_⟩
    intro k id e c hmem
    exact h.members k id e c (by rw [htodo]; exact List.mem_cons_of_mem _ hmem)
  | registerClient htodo _ => simp [htodo]
  | removeClient _ _ hids =>
    have hts := removeClient_receivers h.life.maps hids
    refine ⟨by simp [filterMap_receivers hts], ?_⟩
    exact fun k id e c hmem => absurd hmem (not_deliver_of_receivers hts)
  | addToRoom htodo _ => simp [htodo]
  | removeFromRoom _ _ =>
    refine ⟨by simp [filterMap_receivers removeFromRoom_receivers], ?_⟩
    exact fun k id e c hmem => absurd hmem (not_deliver_of_receivers removeFromRoom_receivers)
  | broadcast _ horder =>
    rename_i k₀ order id₀ payload rest _
    have hmap : (order.map (HubTask.deliver k₀ id₀ payload)).filterMap HubTask.receiver =
        order := by
      simp [List.filterMap_map, Function.comp_def, HubTask.receiver]
    refine ⟨by rw [hmap]; exact horder.1, ?_⟩
    intro k id e c hmem
    obtain ⟨c', hc', heq⟩ := List.mem_map.mp hmem
    cases heq
    show c ∈ (s.hub.maps.index k₀).members id₀
    rw [← horder.2]
    exact List.mem_toFinset.mpr hc'
  | dropped htodo hids =>
    rename_i ids k₀ id₀ payload c₀ rest
    have hts := removeClient_receivers h.life.maps hids
    have hnodup := h.nodup
    rw [htodo] at hnodup
    have hrest : c₀ ∉ rest.filterMap HubTask.receiver ∧ (rest.filterMap HubTask.receiver).Nodup :=
      List.nodup_cons.mp hnodup
    refine ⟨by simp [List.filterMap_append, filterMap_receivers hts, hrest.2], ?_⟩
    intro k id e c hmem
    rcases List.mem_append.mp hmem with h₁ | h₁
    · exact absurd h₁ (not_deliver_of_receivers hts)
    · have hc : c ≠ c₀ := by
        rintro rfl
        exact hrest.1 (List.mem_filterMap.mpr ⟨_, h₁, rfl⟩)
      have hold := h.members k id e c (by rw [htodo]; exact List.mem_cons_of_mem _ h₁)
      exact mem_index_removeClient h.life.maps hids hold hc
  | _ => exact ⟨h.nodup, h.members⟩

theorem aimed_new : Aimed Server.new where
  life := life_new
  nodup := by simp [Server.new, Hub.new]
  members := by simp [Server.new, Hub.new]

end ConvoyChat.Websocket
