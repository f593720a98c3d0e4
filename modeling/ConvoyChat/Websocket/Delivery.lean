import ConvoyChat.Websocket.Holders
import ConvoyChat.Websocket.Subscriptions

/-!
# The way of an event through one server

A room event that Redis forwards waits in the subscription, is taken by
`Broker.Run`, waits in `Hub.broadcast`, and becomes one send for every client of
the room. `Server.pending` lists the events of a room that are on this way to one
client, the next one first.

* `Server.act_buffer`: what a step puts on a send queue and what it takes from it.
* `Server.act_pending`: no step duplicates or reorders the pending events; what it
  places on the queue of the client was the first of them.
* `placed_member`: the Hub places an event on the queue of a client of the room
  only.
-/

namespace ConvoyChat.Websocket

open ConvoyChat.Lib

/-- A value on a send queue: the room whose channel it came through, if it did, and
    the event. -/
abbrev QueueEntry := Option UUID × Event

/-- The value that the step puts on the queue of `c`, if any: one round of
    `deliver` or `deliverToUser`, or an error reply of `readPump`. -/
def Server.placesOn (s : Server) (a : Action) (c : Client) : List QueueEntry :=
  match a with
  | .hubTask _ =>
    match s.hub.todo with
    | .deliver k id payload c' :: _ =>
      match (s.send c').trySend sendBuffer payload with
      | .ok _ => if c' = c then [(if k = .room then some id else none, payload)] else []
      | _ => []
    | _ => []
  | .perform c' _ =>
    match s.thread c' with
    | .running (.op (.sendError code message) _) =>
      match (s.send c').trySend sendBuffer (.error code message) with
      | .ok _ => if c' = c then [(none, .error code message)] else []
      | _ => []
    | _ => []
  | _ => []

/-- The event that `writePump` of `c` takes from the queue and writes to the
    connection. -/
def Server.writesTo (s : Server) (a : Action) (c : Client) : List Event :=
  match a with
  | .write c' => if c' = c ∧ s.writing c' = true then (s.send c').buffer.take 1 else []
  | _ => []

/-- The events of room `r` among these. -/
def ofRoom (r : UUID) (q : List QueueEntry) : List Event :=
  q.filterMap fun x => if x.1 = some r then some x.2 else none

/-- The event of room `r` that the task sends to `c`. -/
def HubTask.toClient (c : Client) (r : UUID) : HubTask → Option Event
  | .deliver .room r' e c' => if r' = r ∧ c' = c then some e else none
  | _ => none

/-- The payloads of room `r` in a channel. -/
def payloads (r : UUID) (q : List (UUID × Event)) : List Event :=
  q.filterMap fun x => if x.1 = r then some x.2 else none

/-- The event of room `r` that the Broker hands to the Hub. -/
def BrokerTask.payload (r : UUID) : BrokerTask → List Event
  | .forward .room r' e => if r' = r then [e] else []
  | _ => []

/-- The events of room `r` on their way to `c`, the next one first. -/
def Server.pending (s : Server) (c : Client) (r : UUID) : List Event :=
  s.hub.todo.filterMap (HubTask.toClient c r) ++
    (payloads r (s.hub.broadcast .room) ++
      (s.broker.task.payload r ++ payloads r (s.broker.subs .room).messages))

variable {parse : String → Option UUID} {s s' : Server} {a : Action} {c : Client} {r : UUID}

/-! ## Send queues -/

/-- Only the three steps below touch a send queue's buffer. -/
theorem Move.buffer_eq (hmove : Move parse s a s') (hhub : ∀ ids, a ≠ .hubTask ids)
    (hperform : ∀ c env, a ≠ .perform c env) (hwrite : ∀ c, a ≠ .write c) : s'.send = s.send := by
  cases hmove with
  | quiet h => exact h.send
  | brokerApply _ => exact brokerApply_send _ _ _
  | sendError _ => exact absurd rfl (hperform _ _)
  | write _ _ => exact absurd rfl (hwrite _)
  | delivered _ _ => exact absurd rfl (hhub _)
  | closeSend _ => exact absurd rfl (hhub _)
  | _ => rfl

theorem closeSend_buffer (c' : Client) (rest : List HubTask) :
    ((s.closeSend c' rest).send c).buffer = (s.send c).buffer := by
  unfold Server.closeSend
  split_ifs
  · rfl
  · show (Function.update s.send c' _ c).buffer = _
    by_cases hc : c = c'
    · subst hc
      simp
    · rw [Function.update_of_ne hc]

/-- A send that is delivered is appended to the queue of its client. -/
theorem update_buffer {send : Client → Chan Event} {c' : Client} {e : Event} {ch : Chan Event}
    (h : (send c').trySend sendBuffer e = .ok ch) :
    (Function.update send c' ch c).buffer = (send c).buffer ++ if c' = c then [e] else [] := by
  by_cases hc : c' = c
  · subst hc
    rw [Function.update_self, Chan.trySend_ok h, if_pos rfl]
  · rw [Function.update_of_ne (Ne.symm hc), if_neg hc, List.append_nil]

theorem placesOn_hubTask {ids : List UUID} {k : Kind} {id : UUID} {payload : Event} {c' : Client}
    {rest : List HubTask} {ch : Chan Event} (h : s.hub.todo = .deliver k id payload c' :: rest)
    (hch : (s.send c').trySend sendBuffer payload = .ok ch) :
    s.placesOn (.hubTask ids) c =
      if c' = c then [(if k = .room then some id else none, payload)] else [] := by
  simp only [Server.placesOn, h, hch]

theorem hubTask_buffer {ids : List UUID} (h : s.hubTask ids = some s') :
    (s'.send c).buffer = (s.send c).buffer ++ (s.placesOn (.hubTask ids) c).map (·.2) := by
  unfold Server.hubTask at h
  cases htodo : s.hub.todo with
  | nil =>
    rw [htodo] at h
    cases h
  | cons t rest =>
    rw [htodo] at h
    cases t with
    | deliver k id payload c' =>
      simp only [Server.deliver] at h
      cases hch : (s.send c').trySend sendBuffer payload with
      | ok ch =>
        rw [hch] at h
        cases h
        rw [update_buffer hch, placesOn_hubTask htodo hch]
        split_ifs <;> rfl
      | full =>
        simp only [hch] at h
        split_ifs at h
        cases h
        simp [Server.placesOn, htodo, hch]
      | panic =>
        rw [hch] at h
        cases h
        simp [Server.placesOn, htodo, hch]
    | unsubscribe k id =>
      cases h
      simp [Server.placesOn, htodo, Server.unsubscribe, Server.setSub]
    | closeSend c' =>
      cases h
      rw [closeSend_buffer]
      simp [Server.placesOn, htodo]
    | disconnected u rooms =>
      cases h
      simp [Server.placesOn, htodo, Server.clientDisconnected]

theorem perform_buffer {c' : Client} {env : (o : EnvOp) → o.Res} (h : s.perform c' env = some s') :
    (s'.send c).buffer = (s.send c).buffer ++ (s.placesOn (.perform c' env) c).map (·.2) := by
  unfold Server.perform at h
  unfold Server.placesOn
  split at h
  · cases h
    simp [*, Server.resume]
  · rename_i code message k hthread
    cases h
    simp only [hthread, Server.resume, Server.enqueue]
    cases hch : (s.send c').trySend sendBuffer (.error code message) with
    | ok ch =>
      show (Function.update s.send c' ch c).buffer = _
      rw [update_buffer hch]
      split_ifs <;> rfl
    | full => simp
    | panic => simp
  · obtain ⟨q, -, rfl⟩ := Option.map_eq_some_iff.mp h
    simp [*, Server.resume]
  · obtain ⟨q, -, rfl⟩ := Option.map_eq_some_iff.mp h
    simp [*, Server.resume]
  · obtain ⟨q, -, rfl⟩ := Option.map_eq_some_iff.mp h
    simp [*, Server.resume]
  · cases h
    simp [*, Server.resume]
  · cases h
    simp [*, Server.resume]
  · cases h

theorem write_buffer {c' : Client} (h : s.act parse (.write c') = some s') :
    s.writesTo (.write c') c ++ (s'.send c).buffer = (s.send c).buffer := by
  simp only [Server.act] at h
  unfold Server.writesTo
  split at h
  · rename_i e rest hw hbuf
    cases h
    by_cases hc : c' = c
    · subst hc
      simp [hw, hbuf]
    · simp [hc, Function.update_of_ne (Ne.symm hc)]
  · rename_i hw hbuf
    cases h
    by_cases hc : c' = c
    · subst hc
      simp [hw]
    · simp [hc]
  · cases h

/-- What a step writes to the connection comes off the front of the queue, what it
    places goes to the end. -/
theorem Server.act_buffer (h : s.act parse a = some s') :
    s.writesTo a c ++ (s'.send c).buffer =
      (s.send c).buffer ++ (s.placesOn a c).map (·.2) := by
  cases a with
  | hubTask ids =>
    rw [hubTask_buffer (c := c) h]
    rfl
  | perform c' env =>
    rw [perform_buffer (c := c) h]
    rfl
  | write c' =>
    rw [write_buffer h]
    exact (List.append_nil _).symm
  | _ =>
    have hsend : s'.send = s.send :=
      (Server.act_move h).buffer_eq (by intros; simp) (by intros; simp) (by intros; simp)
    simp [hsend, Server.writesTo, Server.placesOn]

/-! ## Pending events -/

theorem payloads_cons (q : List (UUID × Event)) (id : UUID) (e : Event) :
    payloads r ((id, e) :: q) = (if id = r then [e] else []) ++ payloads r q := by
  rw [payloads, List.filterMap_cons]
  by_cases hid : id = r
  · simp [hid, payloads]
  · simp [hid, payloads]

theorem payloads_append (q : List (UUID × Event)) (id : UUID) (e : Event) :
    payloads r (q ++ [(id, e)]) = payloads r q ++ if id = r then [e] else [] := by
  rw [payloads, List.filterMap_append]
  by_cases hid : id = r
  · simp [hid, payloads]
  · simp [hid, payloads]

theorem toClient_of_receiver {ts : List HubTask} (h : ∀ t ∈ ts, HubTask.receiver t = none) :
    ts.filterMap (HubTask.toClient c r) = [] := by
  rw [List.filterMap_eq_nil_iff]
  intro t ht
  cases t with
  | deliver k id e c' => cases h _ ht
  | _ => rfl

/-- A broadcast sends to each client once. -/
theorem toClient_order {order : List Client} (hnodup : order.Nodup) (k : Kind) (id : UUID)
    (e : Event) :
    ((order.map (HubTask.deliver k id e)).filterMap (HubTask.toClient c r)).Sublist
      (if k = .room ∧ id = r then [e] else []) := by
  induction order with
  | nil => exact List.nil_sublist _
  | cons c' order ih =>
    obtain ⟨hnot, hrest⟩ := List.nodup_cons.mp hnodup
    rw [List.map_cons, List.filterMap_cons]
    cases k with
    | user => exact ih hrest
    | room =>
      by_cases hhit : id = r ∧ c' = c
      · obtain ⟨rfl, rfl⟩ := hhit
        have hnone :
            (order.map (HubTask.deliver .room id e)).filterMap (HubTask.toClient c' id) = [] := by
          rw [List.filterMap_eq_nil_iff]
          intro t ht
          obtain ⟨c'', hc'', rfl⟩ := List.mem_map.mp ht
          have hne : c'' ≠ c' := fun heq => hnot (heq ▸ hc'')
          simp [HubTask.toClient, hne]
        simp [HubTask.toClient, hnone]
      · rw [show HubTask.toClient c r (.deliver .room id e c') = none from if_neg hhit]
        exact ih hrest

/-- Dropping events in some of the stages drops them from the whole. -/
theorem pending_sublist
    (htodo : (s'.hub.todo.filterMap (HubTask.toClient c r)).Sublist
      (s.hub.todo.filterMap (HubTask.toClient c r)))
    (hbroadcast : s'.hub.broadcast .room = s.hub.broadcast .room)
    (htask : s'.broker.task.payload r = s.broker.task.payload r)
    (hmessages : (s'.broker.subs .room).messages = (s.broker.subs .room).messages) :
    (s'.pending c r).Sublist (s.pending c r) := by
  unfold Server.pending
  rw [hbroadcast, htask, hmessages]
  exact htodo.append (List.Sublist.refl _)

theorem apply_messages (sub : Subscription) (req : SubRequest) (ok : Bool) :
    (sub.apply req ok).1.messages = sub.messages := by
  unfold Subscription.apply
  split_ifs <;> rfl

theorem tail_sublist {ts rest : List HubTask} {t : HubTask} (h : ts = t :: rest) :
    (rest.filterMap (HubTask.toClient c r)).Sublist (ts.filterMap (HubTask.toClient c r)) := by
  rw [h]
  exact (List.sublist_cons_self t rest).filterMap _

/-- No step of the server duplicates or reorders the pending events of a room;
    only Redis adds one. -/
theorem Move.pending (hmove : Move parse s a s') (hlife : Life s.hub s.thread)
    (ha : ∀ id e, a ≠ .arrive .room id e) : (s'.pending c r).Sublist (s.pending c r) := by
  cases hmove with
  | quiet h =>
    refine pending_sublist ?_ ?_ ?_ ?_
    · rw [h.hub]
    · rw [h.hub]
    · rw [h.broker]
    · rw [h.broker]
  | arrive h =>
    rename_i k id e
    cases k with
    | room => exact absurd rfl (ha id e)
    | user => exact pending_sublist (List.Sublist.refl _) rfl rfl rfl
  | sendError h =>
    rename_i c' env code message k
    have hhub : ((s.enqueue c' (.error code message)).resume c' (k ())).hub = s.hub :=
      enqueue_hub _ _
    have hbroker : ((s.enqueue c' (.error code message)).resume c' (k ())).broker = s.broker :=
      enqueue_broker _ _
    refine pending_sublist ?_ ?_ ?_ ?_
    · rw [hhub]
    · rw [hhub]
    · rw [hbroker]
    · rw [hbroker]
  | request h hwait hq =>
    refine pending_sublist (List.Sublist.refl _) rfl rfl ?_
    exact update_field Subscription.messages (by rfl) .room
  | hubUnregister htodo h hids =>
    refine pending_sublist ?_ rfl rfl rfl
    rw [toClient_of_receiver (removeClient_receivers hlife.maps hids)]
    exact List.nil_sublist _
  | hubLeave htodo h =>
    refine pending_sublist ?_ rfl rfl rfl
    rw [toClient_of_receiver removeFromRoom_receivers]
    exact List.nil_sublist _
  | hubBroadcast htodo h horder =>
    rename_i k order id payload rest
    have hsends := toClient_order (c := c) (r := r) horder.1 k id payload
    -- the value leaves the channel and is sent to `c` at most once
    have hqueue : ((if k = .room ∧ id = r then [payload] else []) ++
        payloads r (Function.update s.hub.broadcast k rest .room)).Sublist
        (payloads r (s.hub.broadcast .room)) := by
      cases k with
      | user => simp
      | room =>
        rw [Function.update_self, h, payloads_cons]
        simp
    show ((order.map (HubTask.deliver k id payload)).filterMap (HubTask.toClient c r) ++
      (payloads r (Function.update s.hub.broadcast k rest .room) ++ _)).Sublist _
    rw [Server.pending, htodo, List.filterMap_nil, List.nil_append, ← List.append_assoc]
    exact ((hsends.append (List.Sublist.refl _)).trans hqueue).append (List.Sublist.refl _)
  | delivered h hch => exact pending_sublist (tail_sublist h) rfl rfl rfl
  | dropped h hch hids =>
    refine pending_sublist ?_ rfl rfl rfl
    rw [List.filterMap_append, toClient_of_receiver (removeClient_receivers hlife.maps hids),
      List.nil_append]
    exact tail_sublist h
  | unsubscribe h =>
    refine pending_sublist (tail_sublist h) rfl rfl ?_
    exact update_field Subscription.messages (by rfl) .room
  | closeSend h =>
    rename_i ids c' rest
    have hbroker : (s.closeSend c' rest).broker = s.broker := closeSend_broker _ _
    refine pending_sublist ?_ ?_ ?_ ?_
    · rcases closeSend_hub (s := s) c' rest with heq | heq
      · rw [heq]
      · rw [heq]
        exact tail_sublist h
    · rcases closeSend_hub (s := s) c' rest with heq | heq
      · rw [heq]
      · rw [heq]
    · rw [hbroker]
    · rw [hbroker]
  | disconnected h => exact pending_sublist (tail_sublist h) rfl rfl rfl
  | brokerTake h hq =>
    refine pending_sublist (List.Sublist.refl _) rfl ?_ ?_
    · rw [h]
      rfl
    · exact update_field Subscription.messages (by rfl) .room
  | brokerApply h =>
    rename_i ok k req
    refine pending_sublist ?_ ?_ ?_ ?_
    · rw [brokerApply_hub]
    · rw [brokerApply_hub]
    · rw [brokerApply_task, h]
      rfl
    · rw [brokerApply_subs]
      exact update_field Subscription.messages (apply_messages _ req ok) .room
  | brokerReceive h hq =>
    rename_i k id e rest
    unfold Server.pending
    refine (List.Sublist.refl _).append ((List.Sublist.refl _).append ?_)
    rw [h]
    show ((BrokerTask.forward k id e).payload r ++
      payloads r (Function.update s.broker.subs k _ .room).messages).Sublist
      ([] ++ payloads r (s.broker.subs .room).messages)
    cases k with
    | user => simp [BrokerTask.payload]
    | room =>
      rw [Function.update_self, hq, payloads_cons, BrokerTask.payload]
      exact List.Sublist.refl _
  | brokerForward h hq =>
    rename_i k id e q
    unfold Server.pending
    refine (List.Sublist.refl _).append ?_
    rw [h]
    show (payloads r (Function.update s.hub.broadcast k q .room) ++ ([] ++ _)).Sublist
      (payloads r (s.hub.broadcast .room) ++ ((BrokerTask.forward k id e).payload r ++ _))
    rw [List.nil_append, ← List.append_assoc]
    refine List.Sublist.append ?_ (List.Sublist.refl _)
    cases k with
    | user => simp [BrokerTask.payload]
    | room =>
      rw [Function.update_self]
      rcases offer_eq_some hq with rfl | rfl
      · rw [payloads_append, BrokerTask.payload]
      · exact List.sublist_append_left _ _
  | brokerReturn hc h =>
    refine pending_sublist (List.Sublist.refl _) rfl ?_ rfl
    rw [h]
    rfl
  | _ => exact pending_sublist (List.Sublist.refl _) rfl rfl rfl

/-- An event that Redis forwards is the last of the pending ones. -/
theorem arrive_pending {id : UUID} {e : Event} (h : s.act parse (.arrive .room id e) = some s') :
    s'.pending c r = s.pending c r ++ if id = r then [e] else [] := by
  simp only [Server.act] at h
  split_ifs at h
  cases h
  have hmessages : (Function.update s.broker.subs .room { s.broker.subs .room with
      messages := (s.broker.subs .room).messages ++ [(id, e)] } .room).messages =
      (s.broker.subs .room).messages ++ [(id, e)] := by
    rw [Function.update_self]
  simp only [Server.pending, Server.setSub, hmessages, payloads_append, List.append_assoc]

theorem ofRoom_toClient (k : Kind) (id : UUID) (e : Event) (c' : Client) (rest : List HubTask) :
    (ofRoom r (if c' = c then [(if k = .room then some id else none, e)] else []) ++
      rest.filterMap (HubTask.toClient c r)).Sublist
      ((HubTask.deliver k id e c' :: rest).filterMap (HubTask.toClient c r)) := by
  rw [List.filterMap_cons]
  cases k with
  | user =>
    have hnone : ofRoom r (if c' = c then [(none, e)] else []) = [] := by
      split_ifs <;> simp [ofRoom]
    simp [hnone, HubTask.toClient]
  | room =>
    by_cases hc : c' = c
    · by_cases hid : id = r
      · simp [ofRoom, HubTask.toClient, hc, hid]
      · simp [ofRoom, HubTask.toClient, hc, hid]
    · simp [ofRoom, HubTask.toClient, hc]

/-- What a step places on the queue of `c` for room `r` was the first of the pending
    events, and the rest stays in order. -/
theorem Server.act_pending (h : s.act parse a = some s') (hlife : Life s.hub s.thread)
    (ha : ∀ id e, a ≠ .arrive .room id e) :
    (ofRoom r (s.placesOn a c) ++ s'.pending c r).Sublist (s.pending c r) := by
  have hmove : (s'.pending c r).Sublist (s.pending c r) := (Server.act_move h).pending hlife ha
  cases a with
  | hubTask ids =>
    simp only [Server.act, Server.hubTask] at h
    cases htodo : s.hub.todo with
    | nil => simpa [Server.placesOn, htodo, ofRoom] using hmove
    | cons t rest =>
      rw [htodo] at h
      cases t with
      | deliver k id payload c' =>
        simp only [Server.deliver] at h
        cases hch : (s.send c').trySend sendBuffer payload with
        | ok ch =>
          rw [hch] at h
          cases h
          rw [placesOn_hubTask htodo hch, Server.pending, Server.pending, htodo,
            ← List.append_assoc]
          exact (ofRoom_toClient k id payload c' rest).append (List.Sublist.refl _)
        | full => simpa [Server.placesOn, htodo, hch, ofRoom] using hmove
        | panic => simpa [Server.placesOn, htodo, hch, ofRoom] using hmove
      | _ => simpa [Server.placesOn, htodo, ofRoom] using hmove
  | perform c' env =>
    have hnone : ofRoom r (s.placesOn (.perform c' env) c) = [] := by
      simp only [Server.placesOn]
      split
      · split
        · split_ifs <;> simp [ofRoom]
        · rfl
      · rfl
    rw [hnone]
    exact hmove
  | _ => exact hmove

/-- An event that the Hub places for room `r` goes to a client of the room. -/
theorem placed_member (haimed : Aimed s) {e : Event} (h : (some r, e) ∈ s.placesOn a c) :
    c ∈ s.hub.maps.rooms.members r := by
  unfold Server.placesOn at h
  split at h
  · split at h
    · rename_i k id payload c' rest htodo
      split at h
      · split_ifs at h with hc hk
        · obtain ⟨hid, -⟩ := Prod.mk.inj (List.mem_singleton.mp h)
          cases hid
          subst hc hk
          exact haimed.members .room r _ c' (by rw [htodo]; exact List.mem_cons_self)
        · simp at h
        · cases h
      · cases h
    · cases h
  · split at h
    · split at h
      · split_ifs at h
        · simp at h
        · cases h
      · cases h
    · cases h
  · cases h

end ConvoyChat.Websocket
