import ConvoyChat.Lib.Work
import ConvoyChat.Websocket.Delivery

/-!
# A server that is left alone

The goroutines of a server hand work to each other through bounded channels: a
connection blocks on the Hub and on the Broker, the Broker on the Hub, and the Hub
never blocks. Left alone (no new connection, frame, publication or network error),
they finish what was started, in whatever order they are scheduled: nothing goes
round in circles, and nobody waits for somebody who waits as well.

* `Server.work`: what is left to do, as a multiset of weights.
* `Server.act_eases`: every step that needs nothing from outside leaves less to do.
* `comes_to_rest`: no run of such steps goes on for ever, and one that cannot go on
  has answered every frame, drained every channel and stopped what a shutdown stops;
  until the shutdown no `EnsureSubscribed` has to wait for its timeout.
-/

namespace ConvoyChat.Websocket

open ConvoyChat.Lib

variable {parse : String → Option UUID} {s s' : Server} {a : Action} {c : Client}

/-! ## Steps from inside -/

/-- The step needs nothing from outside the process but the answer to a call. -/
def Internal (_ : Server) : Action → Prop
  | .accept _ => False
  | .arrive _ _ _ => False
  | .cancel => False
  | .read _ _ => False
  | .readError _ => False
  | .writeStop _ => False
  | _ => True

/-- It needs no timeout either, unless the server shuts down. -/
def Prompt (s : Server) (a : Action) : Prop :=
  Internal s a ∧ ∀ c, a = .timeout c → s.cancelled = true

/-- Nothing is left to do. -/
structure AtRest (s : Server) : Prop where
  /-- every connection waits for its next frame or has ended -/
  threads : ∀ c, s.thread c = .absent ∨ s.thread c = .running (.ret ()) ∨ s.thread c = .gone
  hub : s.hub.done = true ∨ (s.hub.register = [] ∧ s.hub.unregister = [] ∧ s.hub.join = [] ∧
    s.hub.leave = [] ∧ ∀ k, s.hub.broadcast k = [])
  todo : s.hub.todo = []
  broker : s.broker.task = .returned ∨
    (s.broker.task = .idle ∧ ∀ k, (s.broker.subs k).reqs = [] ∧ (s.broker.subs k).messages = [])
  presence : s.offline = none ∨ (s.offline = some (.ret ()) ∧ s.disconnects = [])
  writers : ∀ c, s.writing c = true → (s.send c).buffer = [] ∧ (s.send c).closed = false
  shutdown : (s.hub.done = true ↔ s.cancelled = true) ∧
    (s.broker.task = .returned ↔ s.cancelled = true) ∧ (s.offline = none ↔ s.cancelled = true)

/-! ## What is left to do

A job creates jobs of lower stages only, or a smaller one of its own stage: a
publication of Redis (9) is forwarded (8) to the Hub (7), which sends it to clients
(6) or removes one (5); the frame of a connection (8) leads to requests for the
Broker (7, then 4) and the Hub (6). -/

/-- What is left of the goroutine of a connection; while it has not asked the Broker,
    that is left as well. -/
noncomputable def threadWork : Thread → Option ℕ → Multiset Weight
  | .running (.op o k), none => {toLex (8, (Proc.op o k).rank), stage 7}
  | .running (.op o k), some _ => {toLex (8, (Proc.op o k).rank)}
  | .leaving, _ => {stage 7}
  | _, _ => 0

/-- The jobs of a channel. -/
noncomputable def queueWork {α : Type} (n : ℕ) (q : List α) : Multiset Weight :=
  Multiset.replicate q.length (stage n)

/-- The stage of a task of the Hub. -/
def HubTask.stage : HubTask → ℕ
  | .deliver _ _ _ _ => 6
  | _ => 5

noncomputable def taskWork (todo : List HubTask) : Multiset Weight :=
  Multiset.ofList (todo.map fun t => Lib.stage t.stage)

/-- The job of a goroutine that has not ended. -/
noncomputable def endWork (ended : Bool) : Multiset Weight := if ended then 0 else {stage 0}

noncomputable def hubWork (h : Hub) : Multiset Weight :=
  queueWork 6 h.register + queueWork 6 h.unregister + queueWork 6 h.join + queueWork 6 h.leave +
    queueWork 7 (h.broadcast .room) + queueWork 7 (h.broadcast .user) + taskWork h.todo +
    endWork h.done

noncomputable def subWork (sub : Subscription) : Multiset Weight :=
  queueWork 4 sub.reqs + queueWork 9 sub.messages

noncomputable def brokerTaskWork : BrokerTask → Multiset Weight
  | .idle => {stage 0}
  | .apply _ _ => {stage 3, stage 0}
  | .forward _ _ _ => {stage 8, stage 0}
  | .returned => 0

noncomputable def brokerWork (b : Broker) : Multiset Weight :=
  subWork (b.subs .room) + subWork (b.subs .user) + brokerTaskWork b.task

noncomputable def offlineWork : Option (EnvProc Unit) → Multiset Weight
  | none => 0
  | some (.ret _) => {stage 0}
  | some (.op o k) => {toLex (3, (Proc.op o k).rank), stage 0}

/-- The work of `writePump`. -/
noncomputable def writerWork (ch : Chan Event) (writing : Bool) : Multiset Weight :=
  queueWork 0 ch.buffer + endWork !writing

/-- What is left to do, with the connections in `K`. -/
noncomputable def Server.work (K : Finset Client) (s : Server) : Multiset Weight :=
  ∑ c ∈ K, threadWork (s.thread c) (s.waiting c) + ∑ c ∈ K, writerWork (s.send c) (s.writing c) +
    hubWork s.hub + brokerWork s.broker + queueWork 4 s.disconnects + offlineWork s.offline

/-- `K` has every connection that was accepted. -/
structure Known (K : Finset Client) (s : Server) : Prop where
  thread : ∀ c, s.thread c ≠ .absent → c ∈ K
  writing : ∀ c, s.writing c = true → c ∈ K

section

variable {α : Type} {n : ℕ} {q q' : List α} {x : α}

@[simp] theorem queueWork_nil : queueWork n ([] : List α) = 0 := rfl

@[simp] theorem queueWork_cons : queueWork n (x :: q) = queueWork n q + {stage n} := by
  simp [queueWork, Multiset.replicate_succ, ← Multiset.singleton_add, add_comm]

@[simp] theorem queueWork_append : queueWork n (q ++ [x]) = queueWork n q + {stage n} := by
  simp [queueWork, Multiset.replicate_succ, ← Multiset.singleton_add, add_comm]

theorem queueWork_offer {done : Bool} {cap : ℕ} (h : offer done cap q x = some q') :
    queueWork n q' ≤ queueWork n q + {stage n} := by
  rcases offer_eq_some h with rfl | rfl
  · rw [queueWork_append]
  · exact Multiset.le_add_right _ _

theorem queueWork_push {cap : ℕ} (h : push cap q x = some q') :
    queueWork n q' = queueWork n q + {stage n} := by
  rw [push_eq_some h, queueWork_append]

theorem queueWork_getD (cap : ℕ) :
    queueWork n ((push cap q x).getD q) ≤ queueWork n q + {stage n} := by
  cases hq : push cap q x with
  | none => exact Multiset.le_add_right _ _
  | some q' => exact (queueWork_push hq).le

end

@[simp] theorem taskWork_nil : taskWork [] = 0 := rfl

@[simp] theorem taskWork_cons (t : HubTask) (rest : List HubTask) :
    taskWork (t :: rest) = taskWork rest + {stage t.stage} := by
  simp [taskWork, ← Multiset.cons_coe, ← Multiset.singleton_add, add_comm]

@[simp] theorem taskWork_append (ts rest : List HubTask) :
    taskWork (ts ++ rest) = taskWork ts + taskWork rest := by
  simp [taskWork, ← Multiset.coe_add]

theorem lt_of_mem_taskWork {ts : List HubTask} {n : ℕ} (h : ∀ t ∈ ts, t.stage < n) :
    ∀ y ∈ taskWork ts, y < stage n := by
  intro y hy
  obtain ⟨t, ht, rfl⟩ := List.mem_map.mp (Multiset.mem_coe.mp hy)
  exact stage_lt (h t ht)

/-! ## Every step leaves less -/

section

variable {K : Finset Client} {o : ConnOp} {k : o.Res → ConnProc Unit}

theorem lt_of_mem_threadWork (r : o.Res) :
    ∀ y ∈ threadWork (.running (k r)) none, y < toLex (8, (Proc.op o k).rank) := by
  intro y hy
  cases hk : k r with
  | ret u =>
    rw [hk] at hy
    simp [threadWork] at hy
  | op o' k' =>
    rw [hk] at hy
    simp only [threadWork, Multiset.insert_eq_cons, Multiset.mem_cons,
      Multiset.mem_singleton] at hy
    rcases hy with rfl | rfl
    · have hrank := Proc.rank_lt k r
      rw [hk] at hrank
      exact Prod.Lex.toLex_lt_toLex.mpr (.inr ⟨rfl, hrank⟩)
    · exact stage_lt_rank (by omega)

/-- A connection goes on after its operation. -/
theorem threads_resume (hK : Known K s) (hc : s.thread c = .running (.op o k))
    (p : ConnProc Unit) :
    ∑ x ∈ K, threadWork ((s.resume c p).thread x) ((s.resume c p).waiting x) +
        {toLex (8, (Proc.op o k).rank)} ≤
      ∑ x ∈ K, threadWork (s.thread x) (s.waiting x) + threadWork (.running p) none := by
  have hmem : c ∈ K := hK.thread c (by simp [hc])
  have hsum := sum_change hmem (fun x => threadWork (s.thread x) (s.waiting x))
    (fun x => threadWork ((s.resume c p).thread x) ((s.resume c p).waiting x))
    (fun x hx => by simp [Server.resume, hx])
  have hold : {toLex (8, (Proc.op o k).rank)} ≤ threadWork (s.thread c) (s.waiting c) := by
    rw [hc]
    cases s.waiting c with
    | none => simp [threadWork]
    | some n => simp [threadWork]
  have hnew : threadWork ((s.resume c p).thread c) ((s.resume c p).waiting c) =
      threadWork (.running p) none := by simp [Server.resume]
  rw [hnew] at hsum
  calc _ ≤ ∑ x ∈ K, threadWork ((s.resume c p).thread x) ((s.resume c p).waiting x) +
        threadWork (s.thread c) (s.waiting c) := by gcongr
    _ = _ := hsum

theorem eases_resume (s₁ : Server) {r : o.Res} (hK : Known K s)
    (hc : s.thread c = .running (.op o k)) {Y : Multiset Weight} (hY : ∀ y ∈ Y, y < stage 8)
    (hthread : s₁.thread = s.thread) (hwaiting : s₁.waiting = s.waiting)
    (hrest : ∑ c ∈ K, writerWork (s₁.send c) (s₁.writing c) + hubWork s₁.hub +
        brokerWork s₁.broker + queueWork 4 s₁.disconnects + offlineWork s₁.offline ≤
      ∑ c ∈ K, writerWork (s.send c) (s.writing c) + hubWork s.hub + brokerWork s.broker +
        queueWork 4 s.disconnects + offlineWork s.offline + Y) :
    Eases ((s₁.resume c (k r)).work K) (s.work K) := by
  have hthreads := threads_resume hK hc (k r)
  refine eases_of_count (z := toLex (8, (Proc.op o k).rank))
    (Y := threadWork (.running (k r)) none + Y) ?_ fun w => ?_
  · intro y hy
    rcases Multiset.mem_add.mp hy with hy | hy
    · exact lt_of_mem_threadWork r y hy
    · exact (hY y hy).trans_le (Prod.Lex.toLex_le_toLex.mpr (.inr ⟨rfl, by simp⟩))
  · have h₁ := Multiset.le_iff_count.mp hthreads w
    have h₂ := Multiset.le_iff_count.mp hrest w
    have hsame : ∀ x, (s₁.resume c (k r)).thread x = (s.resume c (k r)).thread x ∧
        (s₁.resume c (k r)).waiting x = (s.resume c (k r)).waiting x := by
      intro x
      simp [Server.resume, hthread, hwaiting]
    simp only [Server.work, hsame, Multiset.count_add] at h₁ h₂ ⊢
    simp only [Server.resume] at h₁ h₂ ⊢
    omega

/-- A message is put into one send queue, known or not. -/
theorem writers_push {ch : Chan Event} {e : Event} (h : (s.send c).trySend sendBuffer e = .ok ch) :
    ∑ x ∈ K, writerWork (Function.update s.send c ch x) (s.writing x) ≤
      ∑ x ∈ K, writerWork (s.send x) (s.writing x) + {stage 0} := by
  by_cases hc : c ∈ K
  · have hsum := sum_change hc (fun x => writerWork (s.send x) (s.writing x))
      (fun x => writerWork (Function.update s.send c ch x) (s.writing x))
      (fun x hx => by simp [hx])
    have hnew : writerWork (Function.update s.send c ch c) (s.writing c) =
        writerWork (s.send c) (s.writing c) + {stage 0} := by
      rw [Function.update_self, Chan.trySend_ok h]
      simp only [writerWork, queueWork_append]
      abel
    rw [hnew, ← add_assoc, add_right_comm] at hsum
    exact (add_right_cancel hsum).le
  · refine (Finset.sum_congr rfl fun x hx => ?_).trans_le (Multiset.le_add_right _ _)
    have hne : x ≠ c := fun heq => hc (heq ▸ hx)
    rw [Function.update_of_ne hne]

theorem mem_singleton_stage {m n : ℕ} (h : m < n) :
    ∀ y ∈ ({stage m} : Multiset Weight), y < stage n := by
  intro y hy
  rw [Multiset.mem_singleton.mp hy]
  exact stage_lt h

/-- The goroutine of a connection puts a command on a channel of the Hub. -/
theorem eases_command (hub : Hub) {r : o.Res} (hK : Known K s)
    (hc : s.thread c = .running (.op o k)) (hhub : hubWork hub ≤ hubWork s.hub + {stage 6}) :
    Eases (({ s with hub }.resume c (k r)).work K) (s.work K) := by
  refine eases_resume { s with hub } hK hc (mem_singleton_stage (by omega : 6 < 8))
    rfl rfl ?_
  rw [Multiset.le_iff_count]
  intro w
  have hw := Multiset.le_iff_count.mp hhub w
  simp only [Multiset.count_add] at hw ⊢
  omega

/-- It goes on, and nothing else changes. -/
theorem eases_silent {r : o.Res} (hK : Known K s) (hc : s.thread c = .running (.op o k)) :
    Eases ((s.resume c (k r)).work K) (s.work K) :=
  eases_resume s (Y := 0) hK hc (by simp) rfl rfl (by rw [add_zero])

/-- A step of the goroutine of a connection. -/
theorem perform_eases {env : (o : EnvOp) → o.Res} (hK : Known K s)
    (h : s.perform c env = some s') : s'.panicked = true ∨ Eases (s'.work K) (s.work K) := by
  unfold Server.perform at h
  split at h
  · rename_i o k hc
    cases h
    have heases := eases_silent (r := env o) hK hc
    exact .inr heases
  · rename_i code message k hc
    cases h
    unfold Server.enqueue
    split
    · rename_i ch hch
      have hle := writers_push (K := K) hch
      have heases := eases_resume { s with send := Function.update s.send c ch } (r := ())
        hK hc (mem_singleton_stage (by omega : 0 < 8)) rfl rfl (by
          rw [Multiset.le_iff_count]
          intro w
          have hw := Multiset.le_iff_count.mp hle w
          simp only [Multiset.count_add] at hw ⊢
          omega)
      exact .inr heases
    · have heases := eases_silent (r := ()) hK hc
      exact .inr heases
    · exact .inl rfl
  · rename_i k hc
    obtain ⟨q, hq, rfl⟩ := Option.map_eq_some_iff.mp h
    have heases := eases_command { s.hub with register := q } (r := ()) hK hc (by
      rw [Multiset.le_iff_count]
      intro w
      have hw := Multiset.le_iff_count.mp (queueWork_offer (n := 6) hq) w
      simp only [hubWork, Multiset.count_add] at hw ⊢
      omega)
    exact .inr heases
  · rename_i r k hc
    obtain ⟨q, hq, rfl⟩ := Option.map_eq_some_iff.mp h
    have heases := eases_command { s.hub with join := q } (r := ()) hK hc (by
      rw [Multiset.le_iff_count]
      intro w
      have hw := Multiset.le_iff_count.mp (queueWork_offer (n := 6) hq) w
      simp only [hubWork, Multiset.count_add] at hw ⊢
      omega)
    exact .inr heases
  · rename_i r k hc
    obtain ⟨q, hq, rfl⟩ := Option.map_eq_some_iff.mp h
    have heases := eases_command { s.hub with leave := q } (r := ()) hK hc (by
      rw [Multiset.le_iff_count]
      intro w
      have hw := Multiset.le_iff_count.mp (queueWork_offer (n := 6) hq) w
      simp only [hubWork, Multiset.count_add] at hw ⊢
      omega)
    exact .inr heases
  · rename_i key k hc
    cases h
    have heases := eases_silent (r := ()) hK hc
    exact .inr heases
  · rename_i key k hc
    cases h
    have heases := eases_silent (r := ()) hK hc
    exact .inr heases
  · cases h

end

/-! ### The Hub -/

section

variable {K : Finset Client}

theorem removeClient_stage {m : Maps} {ids : List UUID} :
    ∀ t ∈ (m.removeClient ids c).2, t.stage = 5 := by
  unfold Maps.removeClient
  split
  · simp
  · intro t ht
    simp only [List.mem_append, List.mem_cons, List.not_mem_nil, or_false] at ht
    rcases ht with (ht | ht) | rfl | rfl
    · obtain ⟨r, rfl⟩ := Maps.mem_detachAll_tasks ht
      rfl
    · rw [Maps.mem_detachUser_tasks ht]
      rfl
    · rfl
    · rfl

theorem removeFromRoom_stage {m : Maps} {r : UUID} :
    ∀ t ∈ (m.removeFromRoom c r).2, t.stage = 5 := by
  unfold Maps.removeFromRoom
  split
  · simp
  · intro t ht
    rw [Maps.mem_detach_tasks ht]
    rfl

theorem removeClient_lt (m : Maps) (ids : List UUID) (c : Client) :
    ∀ y ∈ taskWork (m.removeClient ids c).2, y < stage 6 :=
  lt_of_mem_taskWork fun t ht => by rw [removeClient_stage t ht]; omega

theorem removeFromRoom_lt (m : Maps) (c : Client) (r : UUID) :
    ∀ y ∈ taskWork (m.removeFromRoom c r).2, y < stage 6 :=
  lt_of_mem_taskWork fun t ht => by rw [removeFromRoom_stage t ht]; omega

/-- A step that only changes the Hub. -/
theorem eases_hub {hub : Hub} {z : Weight} {Y : Multiset Weight} (hY : ∀ y ∈ Y, y < z)
    (h : hubWork hub + {z} ≤ hubWork s.hub + Y) :
    Eases (Server.work K { s with hub }) (s.work K) := by
  refine eases_of_count hY fun w => ?_
  have hw := Multiset.le_iff_count.mp h w
  simp only [Server.work, Multiset.count_add] at hw ⊢
  omega

theorem act_hubRegister (h : s.act parse .hubRegister = some s') :
    Eases (s'.work K) (s.work K) := by
  simp only [Server.act] at h
  split at h
  · rename_i c rest hidle hq
    cases h
    refine eases_hub (z := stage 6) (Y := 0) (by simp) ?_
    rw [Multiset.le_iff_count]
    intro w
    simp only [hubWork, hq, queueWork_cons, Multiset.count_add]
    omega
  · cases h

theorem act_hubUnregister {ids : List UUID} (h : s.act parse (.hubUnregister ids) = some s') :
    Eases (s'.work K) (s.work K) := by
  simp only [Server.act] at h
  split at h
  · rename_i c rest hidle hq
    split_ifs at h with hids
    cases h
    refine eases_hub (removeClient_lt s.hub.maps ids c) ?_
    rw [Multiset.le_iff_count]
    intro w
    simp only [hubWork, hq, queueWork_cons, todo_of_hubIdle hidle, taskWork_nil,
      Multiset.count_add, Multiset.count_zero]
    omega
  · cases h

theorem act_hubJoin (h : s.act parse .hubJoin = some s') : Eases (s'.work K) (s.work K) := by
  simp only [Server.act] at h
  split at h
  · rename_i c r rest hidle hq
    cases h
    refine eases_hub (z := stage 6) (Y := 0) (by simp) ?_
    rw [Multiset.le_iff_count]
    intro w
    simp only [hubWork, hq, queueWork_cons, Multiset.count_add]
    omega
  · cases h

theorem act_hubLeave (h : s.act parse .hubLeave = some s') : Eases (s'.work K) (s.work K) := by
  simp only [Server.act] at h
  split at h
  · rename_i c r rest hidle hq
    cases h
    refine eases_hub (removeFromRoom_lt s.hub.maps c r) ?_
    rw [Multiset.le_iff_count]
    intro w
    simp only [hubWork, hq, queueWork_cons, todo_of_hubIdle hidle, taskWork_nil,
      Multiset.count_add, Multiset.count_zero]
    omega
  · cases h

/-- One of the two broadcast channels changes. -/
theorem broadcastWork_update (f : Kind → List (UUID × Event)) (k : Kind)
    (q : List (UUID × Event)) :
    queueWork 7 (Function.update f k q .room) + queueWork 7 (Function.update f k q .user) +
        queueWork 7 (f k) =
      queueWork 7 (f .room) + queueWork 7 (f .user) + queueWork 7 q := by
  cases k with
  | room =>
    simp only [Function.update_self, ne_eq, reduceCtorEq, not_false_eq_true,
      Function.update_of_ne]
    abel
  | user =>
    simp only [Function.update_self, ne_eq, reduceCtorEq, not_false_eq_true,
      Function.update_of_ne]
    abel

theorem act_hubBroadcast {k : Kind} {order : List Client}
    (h : s.act parse (.hubBroadcast k order) = some s') : Eases (s'.work K) (s.work K) := by
  simp only [Server.act] at h
  split at h
  · rename_i id payload rest hidle hq
    split_ifs at h with horder
    cases h
    have hstages : ∀ t ∈ order.map (HubTask.deliver k id payload), t.stage < 7 := by
      intro t ht
      obtain ⟨c, -, rfl⟩ := List.mem_map.mp ht
      exact Nat.lt_succ_self 6
    refine eases_hub (z := stage 7) (lt_of_mem_taskWork hstages) ?_
    rw [Multiset.le_iff_count]
    intro w
    have hw := congrArg (Multiset.count w) (broadcastWork_update s.hub.broadcast k rest)
    simp only [hubWork, hq, queueWork_cons, todo_of_hubIdle hidle, taskWork_nil,
      Multiset.count_add, Multiset.count_zero] at hw ⊢
    omega
  · cases h

theorem act_hubReturn (h : s.act parse .hubReturn = some s') : Eases (s'.work K) (s.work K) := by
  simp only [Server.act] at h
  split_ifs at h with hc
  cases h
  have hdone : s.hub.done = false := by
    simp only [Server.hubIdle, Bool.and_eq_true, Bool.not_eq_true'] at hc
    exact hc.2.2
  refine eases_hub (z := stage 0) (Y := 0) (by simp) ?_
  rw [Multiset.le_iff_count]
  intro w
  simp [hubWork, hdone, endWork]

/-- One of the two subscriptions changes. -/
theorem subWork_update (f : Kind → Subscription) (k : Kind) (sub : Subscription) :
    subWork (Function.update f k sub .room) + subWork (Function.update f k sub .user) +
        subWork (f k) =
      subWork (f .room) + subWork (f .user) + subWork sub := by
  cases k with
  | room =>
    simp only [Function.update_self, ne_eq, reduceCtorEq, not_false_eq_true,
      Function.update_of_ne]
    abel
  | user =>
    simp only [Function.update_self, ne_eq, reduceCtorEq, not_false_eq_true,
      Function.update_of_ne]
    abel

/-- A request to unsubscribe is queued, if it fits. -/
theorem unsubscribeWork (s : Server) (k : Kind) (id : UUID) :
    brokerWork (s.unsubscribe k id).broker ≤ brokerWork s.broker + {stage 4} := by
  rw [Multiset.le_iff_count]
  intro w
  have hsubs := congrArg (Multiset.count w) (subWork_update s.broker.subs k
    { s.broker.subs k with
      reqs := (push subRequestBuffer (s.broker.subs k).reqs ⟨id, false, none⟩).getD
        (s.broker.subs k).reqs })
  have hreqs := Multiset.le_iff_count.mp (queueWork_getD subRequestBuffer (n := 4)
    (q := (s.broker.subs k).reqs) (x := ⟨id, false, none⟩)) w
  simp only [Server.unsubscribe, Server.setSub, brokerWork, subWork, Multiset.count_add]
    at hsubs hreqs ⊢
  omega

theorem deliver_eases {k : Kind} {id : UUID} {payload : Event} {rest : List HubTask}
    {ids : List UUID} (htodo : s.hub.todo = .deliver k id payload c :: rest)
    (h : s.deliver payload c rest ids = some s') :
    s'.panicked = true ∨ Eases (s'.work K) (s.work K) := by
  unfold Server.deliver at h
  split at h
  · rename_i ch hch
    cases h
    refine .inr (eases_of_count (z := stage 6) (Y := {stage 0})
      (mem_singleton_stage (by omega)) fun w => ?_)
    have hw := Multiset.le_iff_count.mp (writers_push (K := K) hch) w
    simp only [Server.work, hubWork, htodo, taskWork_cons, HubTask.stage, Multiset.count_add]
      at hw ⊢
    omega
  · split_ifs at h with hids
    cases h
    refine .inr (eases_hub (removeClient_lt s.hub.maps ids c) ?_)
    rw [Multiset.le_iff_count]
    intro w
    simp only [hubWork, htodo, taskWork_cons, taskWork_append, HubTask.stage,
      Multiset.count_add]
    omega
  · cases h
    exact .inl rfl

theorem hubTask_eases {ids : List UUID} (h : s.hubTask ids = some s') :
    s'.panicked = true ∨ Eases (s'.work K) (s.work K) := by
  unfold Server.hubTask at h
  split at h
  · cases h
  · exact deliver_eases ‹_› h
  · rename_i k id rest htodo
    cases h
    refine .inr (eases_of_count (z := stage 5) (Y := {stage 4})
      (mem_singleton_stage (by omega)) fun w => ?_)
    have hw := Multiset.le_iff_count.mp
      (unsubscribeWork { s with hub := { s.hub with todo := rest } } k id) w
    simp only [Server.work, hubWork, htodo, taskWork_cons, HubTask.stage, Multiset.count_add,
      Server.unsubscribe, Server.setSub] at hw ⊢
    omega
  · rename_i c rest htodo
    cases h
    unfold Server.closeSend
    split
    · exact .inl rfl
    · refine .inr (eases_of_count (z := stage 5) (Y := 0) (by simp) fun w => ?_)
      have hsend : ∀ x, writerWork (Function.update s.send c { s.send c with closed := true } x)
          (s.writing x) = writerWork (s.send x) (s.writing x) := by
        intro x
        by_cases hx : x = c
        · subst hx
          simp [writerWork]
        · simp [hx]
      simp only [Server.work, hubWork, htodo, taskWork_cons, HubTask.stage, hsend,
        Multiset.count_add]
      omega
  · rename_i u rooms rest htodo
    cases h
    refine .inr (eases_of_count (z := stage 5) (Y := {stage 4})
      (mem_singleton_stage (by omega)) fun w => ?_)
    have hw := Multiset.le_iff_count.mp (queueWork_getD disconnectBuffer (n := 4)
      (q := s.disconnects) (x := (u, rooms))) w
    simp only [Server.work, hubWork, htodo, taskWork_cons, HubTask.stage, Multiset.count_add,
      Server.clientDisconnected] at hw ⊢
    omega

end

/-! ### The Broker -/

section

variable {K : Finset Client}

/-- A step that only changes the Broker. -/
theorem eases_broker {broker : Broker} {z : Weight} {Y : Multiset Weight} (hY : ∀ y ∈ Y, y < z)
    (h : brokerWork broker + {z} ≤ brokerWork s.broker + Y) :
    Eases (Server.work K { s with broker }) (s.work K) := by
  refine eases_of_count hY fun w => ?_
  have hw := Multiset.le_iff_count.mp h w
  simp only [Server.work, Multiset.count_add] at hw ⊢
  omega

theorem act_brokerTake {k : Kind} (h : s.act parse (.brokerTake k) = some s') :
    Eases (s'.work K) (s.work K) := by
  simp only [Server.act] at h
  split at h
  · rename_i req rest hidle hq
    cases h
    show Eases (Server.work K { s with broker := { s.broker with
      subs := Function.update s.broker.subs k { s.broker.subs k with reqs := rest }
      task := .apply k req } }) (s.work K)
    refine eases_broker (z := stage 4) (Y := {stage 3}) (mem_singleton_stage (by omega)) ?_
    rw [Multiset.le_iff_count]
    intro w
    have hw := congrArg (Multiset.count w)
      (subWork_update s.broker.subs k { s.broker.subs k with reqs := rest })
    simp only [brokerWork, subWork, hidle, hq, queueWork_cons, brokerTaskWork,
      Multiset.insert_eq_cons, ← Multiset.singleton_add, Multiset.count_add] at hw ⊢
    omega
  · cases h

theorem act_brokerReceive {k : Kind} (h : s.act parse (.brokerReceive k) = some s') :
    Eases (s'.work K) (s.work K) := by
  simp only [Server.act] at h
  split at h
  · rename_i id e rest hidle hq
    cases h
    show Eases (Server.work K { s with broker := { s.broker with
      subs := Function.update s.broker.subs k { s.broker.subs k with messages := rest }
      task := .forward k id e } }) (s.work K)
    refine eases_broker (z := stage 9) (Y := {stage 8}) (mem_singleton_stage (by omega)) ?_
    rw [Multiset.le_iff_count]
    intro w
    have hw := congrArg (Multiset.count w)
      (subWork_update s.broker.subs k { s.broker.subs k with messages := rest })
    simp only [brokerWork, subWork, hidle, hq, queueWork_cons, brokerTaskWork,
      Multiset.insert_eq_cons, ← Multiset.singleton_add, Multiset.count_add] at hw ⊢
    omega
  · cases h

theorem act_brokerApply {ok : Bool} (h : s.act parse (.brokerApply ok) = some s') :
    Eases (s'.work K) (s.work K) := by
  simp only [Server.act] at h
  split at h
  · rename_i k req htask
    cases h
    refine eases_of_count (z := stage 3) (Y := 0) (by simp) fun w => ?_
    have hw := congrArg (Multiset.count w)
      (subWork_update s.broker.subs k ((s.broker.subs k).apply req ok).1)
    have hrest : (s.brokerApply k req ok).writing = s.writing ∧
        (s.brokerApply k req ok).disconnects = s.disconnects ∧
        (s.brokerApply k req ok).offline = s.offline := by
      unfold Server.brokerApply Server.answerReady
      split <;> exact ⟨rfl, rfl, rfl⟩
    simp only [Server.work, brokerApply_hub, brokerApply_thread, brokerApply_waiting,
      brokerApply_send, brokerApply_subs, brokerApply_task, hrest, brokerWork, subWork, apply_reqs,
      apply_messages, htask, brokerTaskWork, Multiset.insert_eq_cons, ← Multiset.singleton_add,
      Multiset.count_add, Multiset.count_zero] at hw ⊢
    omega
  · cases h

theorem act_brokerForward (h : s.act parse .brokerForward = some s') :
    Eases (s'.work K) (s.work K) := by
  simp only [Server.act] at h
  split at h
  · rename_i k id e htask
    obtain ⟨q, hq, rfl⟩ := Option.map_eq_some_iff.mp h
    refine eases_of_count (z := stage 8) (Y := {stage 7}) (mem_singleton_stage (by omega))
      fun w => ?_
    have hw := congrArg (Multiset.count w) (broadcastWork_update s.hub.broadcast k q)
    have hw' := Multiset.le_iff_count.mp (queueWork_offer (n := 7) hq) w
    simp only [Server.work, hubWork, brokerWork, htask, brokerTaskWork, Multiset.insert_eq_cons,
      ← Multiset.singleton_add, Multiset.count_add] at hw hw' ⊢
    omega
  · cases h

theorem act_brokerReturn (h : s.act parse .brokerReturn = some s') :
    Eases (s'.work K) (s.work K) := by
  simp only [Server.act] at h
  split at h
  · rename_i hcancel hidle
    cases h
    refine eases_broker (z := stage 0) (Y := 0) (by simp) ?_
    rw [Multiset.le_iff_count]
    intro w
    simp only [brokerWork, subWork, hidle, brokerTaskWork, Multiset.count_add]
    omega
  · cases h

end

/-! ### The connections and their presence -/

section

variable {K : Finset Client}

theorem act_unregister (hK : Known K s) (h : s.act parse (.unregister c) = some s') :
    Eases (s'.work K) (s.work K) := by
  simp only [Server.act] at h
  split at h
  · rename_i hc
    obtain ⟨q, hq, rfl⟩ := Option.map_eq_some_iff.mp h
    have hmem : c ∈ K := hK.thread c (by simp [hc])
    refine eases_of_count (z := stage 7) (Y := {stage 6}) (mem_singleton_stage (by omega))
      fun w => ?_
    have hw := Multiset.le_iff_count.mp (queueWork_offer (n := 6) hq) w
    have hsum := sum_change hmem (fun x => threadWork (s.thread x) (s.waiting x))
      (fun x => threadWork (Function.update s.thread c .gone x) (s.waiting x))
      (fun x hx => by simp [hx])
    have hthreads := congrArg (Multiset.count w) hsum
    simp only [Server.work, hubWork, hc, threadWork, Function.update_self, Multiset.count_add,
      Multiset.count_zero] at hw hthreads ⊢
    omega
  · cases h

theorem act_request (hK : Known K s) (h : s.act parse (.request c) = some s') :
    Eases (s'.work K) (s.work K) := by
  simp only [Server.act] at h
  split at h
  · rename_i k id f hc hwait
    obtain ⟨reqs, hq, rfl⟩ := Option.map_eq_some_iff.mp h
    have hmem : c ∈ K := hK.thread c (by simp [hc])
    refine eases_of_count (z := stage 7) (Y := {stage 4}) (mem_singleton_stage (by omega))
      fun w => ?_
    have hreqs := congrArg (Multiset.count w) (queueWork_push (n := 4) hq)
    have hsubs := congrArg (Multiset.count w)
      (subWork_update s.broker.subs k { s.broker.subs k with reqs })
    have hsum := sum_change hmem (fun x => threadWork (s.thread x) (s.waiting x))
      (fun x => threadWork (s.thread x)
        (Function.update s.waiting c (some s.broker.nextReady) x))
      (fun x hx => by simp [hx])
    have hthreads := congrArg (Multiset.count w) hsum
    simp only [Server.work, brokerWork, subWork, hc, hwait, threadWork, Function.update_self,
      Multiset.insert_eq_cons, ← Multiset.singleton_add,
      Multiset.count_add] at hreqs hsubs hthreads ⊢
    omega
  · cases h

theorem act_receiveReady (hK : Known K s) (h : s.act parse (.receiveReady c) = some s') :
    Eases (s'.work K) (s.work K) := by
  simp only [Server.act] at h
  split at h
  · rename_i k id f n hc hwait
    obtain ⟨res, hres, rfl⟩ := Option.map_eq_some_iff.mp h
    exact eases_silent hK hc
  · cases h

theorem act_timeout (hK : Known K s) (h : s.act parse (.timeout c) = some s') :
    Eases (s'.work K) (s.work K) := by
  simp only [Server.act] at h
  split at h
  · rename_i k id f hc
    cases h
    exact eases_silent (o := .ensure k id) (k := f) (r := (.error .internal : Except StoreErr Unit))
      hK hc
  · cases h

theorem act_write (hK : Known K s) (h : s.act parse (.write c) = some s') :
    Eases (s'.work K) (s.work K) := by
  simp only [Server.act] at h
  split at h
  · rename_i e rest hw hbuf
    cases h
    have hmem : c ∈ K := hK.writing c hw
    refine eases_of_count (z := stage 0) (Y := 0) (by simp) fun w => ?_
    have hsum := sum_change hmem (fun x => writerWork (s.send x) (s.writing x))
      (fun x => writerWork
        (Function.update s.send c { s.send c with buffer := rest } x) (s.writing x))
      (fun x hx => by simp [hx])
    have hwriters := congrArg (Multiset.count w) hsum
    simp only [Server.work, writerWork, hbuf, queueWork_cons, Function.update_self,
      Multiset.count_add, Multiset.count_zero] at hwriters ⊢
    omega
  · rename_i hw hbuf hclosed
    cases h
    have hmem : c ∈ K := hK.writing c hw
    refine eases_of_count (z := stage 0) (Y := 0) (by simp) fun w => ?_
    have hsum := sum_change hmem (fun x => writerWork (s.send x) (s.writing x))
      (fun x => writerWork (s.send x) (Function.update s.writing c false x))
      (fun x hx => by simp [hx])
    have hwriters := congrArg (Multiset.count w) hsum
    simp only [Server.work, writerWork, endWork, hw, Function.update_self, Bool.not_true,
      Bool.not_false, Bool.false_eq_true, if_true, if_false, Multiset.count_add,
      Multiset.count_zero] at hwriters ⊢
    omega
  · cases h

/-- What `processDisconnects` does with one entry is smaller than the entry. -/
theorem offlineWork_some (p : EnvProc Unit) :
    ∃ Y, offlineWork (some p) = Y + {stage 0} ∧ ∀ y ∈ Y, y < stage 4 := by
  cases p with
  | ret u => exact ⟨0, by simp [offlineWork], by simp⟩
  | op o k =>
    refine ⟨{toLex (3, (Proc.op o k).rank)}, by simp [offlineWork], fun y hy => ?_⟩
    rw [Multiset.mem_singleton.mp hy]
    exact Prod.Lex.toLex_lt_toLex.mpr (.inl (by omega))

theorem act_offlineTake (h : s.act parse .offlineTake = some s') :
    Eases (s'.work K) (s.work K) := by
  simp only [Server.act] at h
  split at h
  · rename_i u userID rooms rest hoff hq
    cases h
    obtain ⟨Y, hY, hlt⟩ := offlineWork_some (presenceOffline userID rooms)
    have hold : offlineWork s.offline = {stage 0} := by
      rw [hoff]
      rfl
    refine eases_of_count hlt fun w => ?_
    simp only [Server.work, hq, hold, hY, queueWork_cons, Multiset.count_add]
    omega
  · cases h

theorem act_offlinePerform {env : (o : EnvOp) → o.Res}
    (h : s.act parse (.offlinePerform env) = some s') : Eases (s'.work K) (s.work K) := by
  simp only [Server.act] at h
  split at h
  · rename_i o k hoff
    cases h
    have hnext : ∃ Y, offlineWork (some (k (env o))) = Y + {stage 0} ∧
        ∀ y ∈ Y, y < toLex (3, (Proc.op o k).rank) := by
      have hrank := Proc.rank_lt k (env o)
      generalize k (env o) = p at hrank ⊢
      cases p with
      | ret u => exact ⟨0, by simp [offlineWork], by simp⟩
      | op o' k' =>
        refine ⟨{toLex (3, (Proc.op o' k').rank)}, by simp [offlineWork], fun y hy => ?_⟩
        rw [Multiset.mem_singleton.mp hy]
        exact Prod.Lex.toLex_lt_toLex.mpr (.inr ⟨rfl, hrank⟩)
    obtain ⟨Y, hY, hlt⟩ := hnext
    have hold : offlineWork s.offline = {toLex (3, (Proc.op o k).rank)} + {stage 0} := by
      rw [hoff]
      rfl
    refine eases_of_count hlt fun w => ?_
    simp only [Server.work, hold, hY, Multiset.count_add]
    omega
  · cases h

theorem act_offlineReturn (h : s.act parse .offlineReturn = some s') :
    Eases (s'.work K) (s.work K) := by
  simp only [Server.act] at h
  split at h
  · rename_i u hcancel hoff
    cases h
    refine eases_of_count (z := stage 0) (Y := 0) (by simp) fun w => ?_
    have hold : offlineWork s.offline = {stage 0} := by
      rw [hoff]
      rfl
    have hnew : offlineWork none = 0 := rfl
    simp only [Server.work, hold, hnew, Multiset.count_add, Multiset.count_zero]
    omega
  · cases h

/-- A step from inside leaves less to do, or it crashes the process. -/
theorem Server.act_eases (hK : Known K s) (ha : Internal s a) (h : s.act parse a = some s') :
    s'.panicked = true ∨ Eases (s'.work K) (s.work K) := by
  cases a with
  | accept c => exact ha.elim
  | arrive k id e => exact ha.elim
  | cancel => exact ha.elim
  | read c data => exact ha.elim
  | readError c => exact ha.elim
  | writeStop c => exact ha.elim
  | unregister c => exact .inr (act_unregister hK h)
  | perform c env => exact perform_eases hK h
  | request c => exact .inr (act_request hK h)
  | receiveReady c => exact .inr (act_receiveReady hK h)
  | timeout c => exact .inr (act_timeout hK h)
  | write c => exact .inr (act_write hK h)
  | hubRegister => exact .inr (act_hubRegister h)
  | hubUnregister ids => exact .inr (act_hubUnregister h)
  | hubJoin => exact .inr (act_hubJoin h)
  | hubLeave => exact .inr (act_hubLeave h)
  | hubBroadcast k order => exact .inr (act_hubBroadcast h)
  | hubTask ids => exact hubTask_eases h
  | hubReturn => exact .inr (act_hubReturn h)
  | brokerTake k => exact .inr (act_brokerTake h)
  | brokerApply ok => exact .inr (act_brokerApply h)
  | brokerReceive k => exact .inr (act_brokerReceive h)
  | brokerForward => exact .inr (act_brokerForward h)
  | brokerReturn => exact .inr (act_brokerReturn h)
  | offlineTake => exact .inr (act_offlineTake h)
  | offlinePerform env => exact .inr (act_offlinePerform h)
  | offlineReturn => exact .inr (act_offlineReturn h)

end

/-! ## Nobody waits for ever -/

theorem push_nil {α : Type} {cap : ℕ} (hcap : 0 < cap) (x : α) : push cap [] x = some [x] := by
  simp [push, hcap]

/-- A value fits into an empty channel, and none is refused once the Hub has returned. -/
theorem offer_some {α : Type} {done : Bool} {cap : ℕ} {q : List α} (hcap : 0 < cap)
    (h : done = true ∨ q = []) (x : α) : ∃ q', offer done cap q x = some q' := by
  unfold offer
  rcases h with rfl | rfl
  · split
    · exact ⟨_, rfl⟩
    · exact ⟨q, rfl⟩
  · rw [push_nil hcap]
    exact ⟨[x], rfl⟩

/-- What a server that runs keeps. -/
structure Steady (s : Server) : Prop where
  waits : Waits s
  /-- a request that a connection waits for is queued, being applied or answered -/
  served : ∀ c n, s.waiting c = some n →
    (∃ k req, Open s k req ∧ req.ready = some n) ∨ ∃ res, s.broker.ready n = some res
  done : s.hub.done = true → s.cancelled = true
  returned : s.broker.task = .returned → s.cancelled = true
  offline : s.offline = none → s.cancelled = true

section

theorem Requests.served (hreq : Requests s s' a) (hmove : Move parse s a s') (h : Steady s)
    {n : ℕ} (hw : s'.waiting c = some n) :
    (∃ k req, Open s' k req ∧ req.ready = some n) ∨ ∃ res, s'.broker.ready n = some res := by
  rcases hmove.waiting h.waits c with hnone | ⟨hsame, -⟩ | hask
  · rw [hnone] at hw
    cases hw
  · rw [hsame] at hw
    rcases h.served c n hw with ⟨k, req, hopen, hr⟩ | ⟨res, hres⟩
    · exact .inl ⟨k, req, hreq.keeps k req hopen, hr⟩
    · exact .inr ⟨res, by rw [hreq.ready]; exact hres⟩
  · rw [hask.waiting] at hw
    cases hw
    obtain ⟨k, id, f, -, hopen⟩ := hask.request
    exact .inl ⟨k, _, hopen, rfl⟩

/-- An answer that was given stays, and the request that is applied gets one. -/
theorem brokerApply_answers {k : Kind} {req : SubRequest} {ok : Bool} {n : ℕ} :
    (req.ready = some n ∨ ∃ res, s.broker.ready n = some res) →
      ∃ res, (s.brokerApply k req ok).broker.ready n = some res := by
  unfold Server.brokerApply Server.answerReady
  split
  · rename_i hnone
    rintro (hr | hres)
    · rw [hnone] at hr
      cases hr
    · exact hres
  · rename_i m hm
    by_cases hn : n = m
    · subst hn
      exact fun _ => ⟨((s.broker.subs k).apply req ok).2, by simp⟩
    · rintro (hr | hres)
      · rw [hm] at hr
        exact absurd (Option.some.inj hr).symm hn
      · simpa [hn, Server.setSub] using hres

theorem Steady.brokerApply {k : Kind} {req : SubRequest} {ok : Bool} {n : ℕ} (h : Steady s)
    (htask : s.broker.task = .apply k req) (hw : s.waiting c = some n) :
    (∃ k' req', Open (s.brokerApply k req ok) k' req' ∧ req'.ready = some n) ∨
      ∃ res, (s.brokerApply k req ok).broker.ready n = some res := by
  rcases h.served c n hw with ⟨k', req', hmem | hsame, hr⟩ | hres
  · exact .inl ⟨k', req', open_brokerApply.mpr hmem, hr⟩
  · rw [htask] at hsame
    cases hsame
    exact .inr (brokerApply_answers (.inl hr))
  · exact .inr (brokerApply_answers (.inr hres))

/-- One step of a `writePump` or of `processDisconnects`, or none. -/
inductive SideMove (s : Server) : Action → (Client → Bool) → Option (EnvProc Unit) → Prop
  | same {a : Action} : SideMove s a s.writing s.offline
  | accept {c : Client} : SideMove s (.accept c) (Function.update s.writing c true) s.offline
  | stop {a : Action} {c : Client} : SideMove s a (Function.update s.writing c false) s.offline
  | offline {a : Action} (p : EnvProc Unit) : SideMove s a s.writing (some p)
  | returned {a : Action} (hc : s.cancelled = true) : SideMove s a s.writing none

theorem perform_side {env : (o : EnvOp) → o.Res} (h : s.perform c env = some s') :
    s'.writing = s.writing ∧ s'.offline = s.offline := by
  unfold Server.perform at h
  split at h
  · cases h
    exact ⟨rfl, rfl⟩
  · cases h
    unfold Server.enqueue
    split <;> exact ⟨rfl, rfl⟩
  · obtain ⟨q, -, rfl⟩ := Option.map_eq_some_iff.mp h
    exact ⟨rfl, rfl⟩
  · obtain ⟨q, -, rfl⟩ := Option.map_eq_some_iff.mp h
    exact ⟨rfl, rfl⟩
  · obtain ⟨q, -, rfl⟩ := Option.map_eq_some_iff.mp h
    exact ⟨rfl, rfl⟩
  · cases h
    exact ⟨rfl, rfl⟩
  · cases h
    exact ⟨rfl, rfl⟩
  · cases h

theorem hubTask_side {ids : List UUID} (h : s.hubTask ids = some s') :
    s'.writing = s.writing ∧ s'.offline = s.offline := by
  unfold Server.hubTask at h
  split at h
  · cases h
  · unfold Server.deliver at h
    split at h
    · cases h
      exact ⟨rfl, rfl⟩
    · split_ifs at h
      cases h
      exact ⟨rfl, rfl⟩
    · cases h
      exact ⟨rfl, rfl⟩
  · cases h
    exact ⟨rfl, rfl⟩
  · cases h
    unfold Server.closeSend
    split <;> exact ⟨rfl, rfl⟩
  · cases h
    exact ⟨rfl, rfl⟩

theorem Server.act_side (h : s.act parse a = some s') :
    SideMove s a s'.writing s'.offline := by
  cases a with
  | accept c =>
    simp only [Server.act] at h
    split at h
    · cases h
      exact .accept
    · cases h
  | cancel =>
    cases h
    exact .same
  | writeStop c =>
    cases h
    exact .stop
  | perform c env =>
    rw [(perform_side h).1, (perform_side h).2]
    exact .same
  | hubTask ids =>
    rw [(hubTask_side h).1, (hubTask_side h).2]
    exact .same
  | write c =>
    simp only [Server.act] at h
    split at h
    · cases h
      exact .same
    · cases h
      exact .stop
    · cases h
  | offlineTake | offlinePerform env =>
    simp only [Server.act] at h
    split at h
    · cases h
      exact .offline _
    · cases h
  | offlineReturn =>
    simp only [Server.act] at h
    split at h
    · cases h
      exact .returned ‹_›
    · cases h
  | arrive k id e | hubReturn =>
    simp only [Server.act] at h
    split_ifs at h
    cases h
    exact .same
  | hubUnregister ids | hubBroadcast k order =>
    simp only [Server.act] at h
    split at h
    · split_ifs at h
      cases h
      exact .same
    · cases h
  | unregister c | request c | receiveReady c | brokerForward =>
    simp only [Server.act] at h
    split at h
    · obtain ⟨x, -, rfl⟩ := Option.map_eq_some_iff.mp h
      exact .same
    · cases h
  | brokerApply ok =>
    simp only [Server.act] at h
    split at h
    · cases h
      unfold Server.brokerApply Server.answerReady
      split <;> exact .same
    · cases h
  | read c data | readError c | timeout c | hubRegister | hubJoin | hubLeave | brokerTake k
  | brokerReceive k | brokerReturn =>
    simp only [Server.act] at h
    split at h
    · cases h
      exact .same
    · cases h

theorem Move.hub_done (hmove : Move parse s a s') (h : s'.hub.done = true) :
    s.hub.done = true ∨ s.cancelled = true := by
  cases hmove with
  | quiet hq =>
    rw [hq.hub] at h
    exact .inl h
  | hubReturn hc _ => exact .inr hc
  | sendError _ =>
    have hd : (s.enqueue _ _).hub.done = true := h
    rw [enqueue_hub] at hd
    exact .inl hd
  | closeSend _ =>
    rcases closeSend_hub (s := s) _ _ with heq | heq
    · rw [heq] at h
      exact .inl h
    · rw [heq] at h
      exact .inl h
  | brokerApply _ =>
    rw [brokerApply_hub] at h
    exact .inl h
  | _ => exact .inl h

theorem Move.broker_returned (hmove : Move parse s a s') (h : s'.broker.task = .returned) :
    s.broker.task = .returned ∨ s.cancelled = true := by
  cases hmove with
  | quiet hq =>
    rw [hq.broker] at h
    exact .inl h
  | brokerReturn hc _ => exact .inr hc
  | sendError _ =>
    have hb : (s.enqueue _ _).broker.task = .returned := h
    rw [enqueue_broker] at hb
    exact .inl hb
  | closeSend _ =>
    rw [closeSend_broker] at h
    exact .inl h
  | brokerApply _ =>
    rw [brokerApply_task] at h
    cases h
  | brokerTake _ _ => cases h
  | brokerReceive _ _ => cases h
  | brokerForward _ _ => cases h
  | _ => exact .inl h

theorem SideMove.offline_none {w : Client → Bool} {o : Option (EnvProc Unit)}
    (h : SideMove s a w o) (ho : o = none) : s.offline = none ∨ s.cancelled = true := by
  cases h with
  | offline p => cases ho
  | returned hc => exact .inr hc
  | _ => exact .inl ho

theorem SideMove.writes {w : Client → Bool} {o : Option (EnvProc Unit)} (h : SideMove s a w o)
    (hw : w c = true) : s.writing c = true ∨ a = .accept c := by
  cases h with
  | accept =>
    rename_i c₀
    by_cases hc : c = c₀
    · exact .inr (by rw [hc])
    · exact .inl (by simpa [hc] using hw)
  | stop =>
    rename_i c₀
    by_cases hc : c = c₀
    · simp [hc] at hw
    · exact .inl (by simpa [hc] using hw)
  | _ => exact .inl hw

theorem steady_step (h : Steady s) (hs : s.act parse a = some s') : Steady s' := by
  have hmove : Move parse s a s' := Server.act_move hs
  have hwaits : Waits s' ∧ ∀ c n, s'.waiting c = some n →
      (∃ k req, Open s' k req ∧ req.ready = some n) ∨ ∃ res, s'.broker.ready n = some res := by
    by_cases ha : ∃ ok, a = .brokerApply ok
    · obtain ⟨ok, rfl⟩ := ha
      have hm := hmove
      cases hmove with
      | quiet hq =>
        have hreq : Requests s s' (.brokerApply ok) := requests_of_eq hq.broker
        exact ⟨hreq.waits hm h.waits, fun c n hw => hreq.served hm h hw⟩
      | brokerApply htask =>
        refine ⟨h.waits.brokerApply htask, fun c n hw => ?_⟩
        rw [brokerApply_waiting] at hw
        exact h.brokerApply htask hw
    · have hreq := hmove.requests fun ok heq => ha ⟨ok, heq⟩
      exact ⟨hreq.waits hmove h.waits, fun c n hw => hreq.served hmove h hw⟩
  refine ⟨hwaits.1, hwaits.2, fun hd => ?_, fun hr => ?_, fun hoff => ?_⟩
  · rcases hmove.hub_done hd with hold | hc
    · exact hmove.cancelled (h.done hold)
    · exact hmove.cancelled hc
  · rcases hmove.broker_returned hr with hold | hc
    · exact hmove.cancelled (h.returned hold)
    · exact hmove.cancelled hc
  · rcases (Server.act_side hs).offline_none hoff with hold | hc
    · exact hmove.cancelled (h.offline hold)
    · exact hmove.cancelled hc

theorem steady_new : Steady Server.new where
  waits := ⟨fun _ _ => rfl, by simp [Server.new], by simp [Open, Server.new]⟩
  served := by simp [Server.new]
  done := by simp [Server.new, Hub.new]
  returned := by simp [Server.new]
  offline := by simp [Server.new]

theorem steady_reach {ok : Server → Action → Prop}
    (hrun : Reach (Server.step parse) ok Server.new s) : Steady s := by
  refine hrun.invariant Steady (fun x a x' hx _ hs => ?_) steady_new
  unfold Server.step at hs
  split_ifs at hs
  exact steady_step hx hs

/-! ### Who is known -/

theorem known_step {K : Finset Client} (h : Known K s) (hs : s.act parse a = some s')
    (ha : ∀ c, a = .accept c → c ∈ K) : Known K s' := by
  refine ⟨fun c hc => ?_, fun c hw => ?_⟩
  · by_cases hacc : a = .accept c
    · exact ha c hacc
    · refine h.thread c fun habs => hc ?_
      exact (Server.act_move hs).thread_absent habs hacc
  · rcases (Server.act_side hs).writes hw with hold | hacc
    · exact h.writing c hold
    · exact ha c hacc

theorem known_reach {ok : Server → Action → Prop}
    (hrun : Reach (Server.step parse) ok Server.new s) : ∃ K, Known K s := by
  refine hrun.invariant (fun x => ∃ K, Known K x) (fun x a x' hx _ hs => ?_)
    ⟨∅, by simp [Server.new], by simp [Server.new]⟩
  unfold Server.step at hs
  split_ifs at hs
  obtain ⟨K, hK⟩ := hx
  by_cases hacc : ∃ c, a = .accept c
  · obtain ⟨c, rfl⟩ := hacc
    have hmore : Known (insert c K) x :=
      ⟨fun c' hc' => Finset.mem_insert_of_mem (hK.thread c' hc'),
        fun c' hc' => Finset.mem_insert_of_mem (hK.writing c' hc')⟩
    refine ⟨insert c K, known_step hmore hs fun c' heq => ?_⟩
    cases heq
    exact Finset.mem_insert_self c K
  · exact ⟨K, known_step hK hs fun c heq => absurd ⟨c, heq⟩ hacc⟩

end

/-! ## At rest -/

section

/-- No step from inside is possible. -/
def Stuck (parse : String → Option UUID) (s : Server) : Prop :=
  ∀ a, Prompt s a → s.act parse a = none

theorem Stuck.blocks (h : Stuck parse s) (ha : Internal s a) (hne : ∀ c, a ≠ .timeout c) :
    s.act parse a = none :=
  h a ⟨ha, fun c heq => absurd heq (hne c)⟩

theorem Stuck.todo (h : Stuck parse s) : s.hub.todo = [] := by
  by_contra hne
  obtain ⟨t, rest, htodo⟩ := List.exists_cons_of_ne_nil hne
  -- the Hub never blocks: every task is possible, with some order of the rooms of a client
  have hlists : ∀ set : Finset UUID, Server.Lists set.toList set :=
    fun set => ⟨set.nodup_toList, Finset.toList_toFinset set⟩
  have hcan : ∃ ids s', s.hubTask ids = some s' := by
    unfold Server.hubTask
    rw [htodo]
    cases t with
    | deliver k id payload c =>
      refine ⟨(s.hub.maps.clientRooms c).toList, ?_⟩
      simp only [Server.deliver]
      split
      · exact ⟨_, rfl⟩
      · rw [if_pos (hlists _)]
        exact ⟨_, rfl⟩
      · exact ⟨_, rfl⟩
    | unsubscribe k id => exact ⟨[], _, rfl⟩
    | closeSend c => exact ⟨[], _, rfl⟩
    | disconnected u rooms => exact ⟨[], _, rfl⟩
  obtain ⟨ids, s', hs⟩ := hcan
  have hnone : s.hubTask ids = none := h.blocks (a := .hubTask ids) trivial (by simp)
  rw [hs] at hnone
  cases hnone

theorem Stuck.hub (h : Stuck parse s) : s.hub.done = true ∨
    (s.hub.register = [] ∧ s.hub.unregister = [] ∧ s.hub.join = [] ∧ s.hub.leave = [] ∧
      ∀ k, s.hub.broadcast k = []) := by
  by_cases hdone : s.hub.done = true
  · exact .inl hdone
  have hidle : s.hubIdle = true := by simp [Server.hubIdle, h.todo, hdone]
  have hlists : ∀ {α : Type} [DecidableEq α] (set : Finset α), Server.Lists set.toList set :=
    fun set => ⟨set.nodup_toList, Finset.toList_toFinset set⟩
  refine .inr ⟨?_, ?_, ?_, ?_, fun k => ?_⟩
  · cases hq : s.hub.register with
    | nil => rfl
    | cons c rest =>
      have hnone := h.blocks (a := .hubRegister) trivial (by simp)
      simp [Server.act, hidle, hq] at hnone
  · cases hq : s.hub.unregister with
    | nil => rfl
    | cons c rest =>
      have hnone := h.blocks (a := .hubUnregister (s.hub.maps.clientRooms c).toList) trivial
        (by simp)
      simp [Server.act, hidle, hq, hlists] at hnone
  · cases hq : s.hub.join with
    | nil => rfl
    | cons x rest =>
      have hnone := h.blocks (a := .hubJoin) trivial (by simp)
      simp [Server.act, hidle, hq] at hnone
  · cases hq : s.hub.leave with
    | nil => rfl
    | cons x rest =>
      have hnone := h.blocks (a := .hubLeave) trivial (by simp)
      simp [Server.act, hidle, hq] at hnone
  · cases hq : s.hub.broadcast k with
    | nil => rfl
    | cons x rest =>
      have hnone := h.blocks (a := .hubBroadcast k ((s.hub.maps.index k).members x.1).toList)
        trivial (by simp)
      simp [Server.act, hidle, hq, hlists] at hnone

/-- The Hub takes what is sent to it, or it has returned. -/
theorem Stuck.offers (h : Stuck parse s) :
    (∀ c, ∃ q, offer s.hub.done registerBuffer s.hub.register c = some q) ∧
      (∀ c, ∃ q, offer s.hub.done registerBuffer s.hub.unregister c = some q) ∧
      (∀ x, ∃ q, offer s.hub.done commandBuffer s.hub.join x = some q) ∧
      (∀ x, ∃ q, offer s.hub.done commandBuffer s.hub.leave x = some q) ∧
      ∀ k x, ∃ q, offer s.hub.done commandBuffer (s.hub.broadcast k) x = some q := by
  have hreg : 0 < registerBuffer := by decide
  have hcom : 0 < commandBuffer := by decide
  rcases h.hub with hdone | ⟨h₁, h₂, h₃, h₄, h₅⟩
  · exact ⟨offer_some hreg (.inl hdone), offer_some hreg (.inl hdone),
      offer_some hcom (.inl hdone), offer_some hcom (.inl hdone),
      fun k => offer_some hcom (.inl hdone)⟩
  · exact ⟨offer_some hreg (.inr h₁), offer_some hreg (.inr h₂), offer_some hcom (.inr h₃),
      offer_some hcom (.inr h₄), fun k => offer_some hcom (.inr (h₅ k))⟩

theorem Stuck.broker (h : Stuck parse s) : s.broker.task = .returned ∨ (s.broker.task = .idle ∧
    ∀ k, (s.broker.subs k).reqs = [] ∧ (s.broker.subs k).messages = []) := by
  cases htask : s.broker.task with
  | returned => exact .inl rfl
  | apply k req =>
    have hnone := h.blocks (a := .brokerApply true) trivial (by simp)
    simp [Server.act, htask] at hnone
  | forward k id e =>
    obtain ⟨q, hq⟩ := h.offers.2.2.2.2 k (id, e)
    have hnone := h.blocks (a := .brokerForward) trivial (by simp)
    simp [Server.act, htask, hq] at hnone
  | idle =>
    refine .inr ⟨rfl, fun k => ⟨?_, ?_⟩⟩
    · cases hq : (s.broker.subs k).reqs with
      | nil => rfl
      | cons req rest =>
        have hnone := h.blocks (a := .brokerTake k) trivial (by simp)
        simp [Server.act, htask, hq] at hnone
    · cases hq : (s.broker.subs k).messages with
      | nil => rfl
      | cons x rest =>
        have hnone := h.blocks (a := .brokerReceive k) trivial (by simp)
        simp [Server.act, htask, hq] at hnone

/-- A connection does not stop in `EnsureSubscribed`: its request fits into the channel
    of an idle Broker, which has answered it; and a shutdown ends the wait. -/
theorem Stuck.ensure (h : Stuck parse s) (hsteady : Steady s) {k : Kind} {id : UUID}
    {f : Except StoreErr Unit → ConnProc Unit} (hc : s.thread c = .running (.op (.ensure k id) f)) :
    False := by
  rcases h.broker with hret | ⟨hidle, hempty⟩
  · have hcancel := hsteady.returned hret
    have hnone := h (.timeout c) ⟨trivial, fun _ _ => hcancel⟩
    simp [Server.act, hc] at hnone
  · cases hwait : s.waiting c with
    | none =>
      have hnone := h.blocks (a := .request c) trivial (by simp)
      simp [Server.act, hc, hwait, (hempty k).1, push_nil (show 0 < subRequestBuffer by decide)]
        at hnone
    | some n =>
      rcases hsteady.served c n hwait with ⟨k', req, hmem | htask, -⟩ | ⟨res, hres⟩
      · rw [(hempty k').1] at hmem
        cases hmem
      · rw [hidle] at htask
        cases htask
      · have hnone := h.blocks (a := .receiveReady c) trivial (by simp)
        simp [Server.act, hc, hwait, hres] at hnone

theorem Stuck.threads (h : Stuck parse s) (hsteady : Steady s) (c : Client) :
    s.thread c = .absent ∨ s.thread c = .running (.ret ()) ∨ s.thread c = .gone := by
  obtain ⟨hregister, hunregister, hjoin, hleave, -⟩ := h.offers
  cases hc : s.thread c with
  | absent => exact .inl rfl
  | gone => exact .inr (.inr rfl)
  | leaving =>
    obtain ⟨q, hq⟩ := hunregister c
    have hnone := h.blocks (a := .unregister c) trivial (by simp)
    simp [Server.act, hc, hq] at hnone
  | running p =>
    cases p with
    | ret u => exact .inr (.inl rfl)
    | op o f =>
      have hnone : ∀ env, s.perform c env = none := fun env =>
        h.blocks (a := .perform c env) trivial (by simp)
      have hstuck := hnone answers
      cases o with
      | ensure k id => exact (h.ensure hsteady hc).elim
      | register =>
        obtain ⟨q, hq⟩ := hregister c
        simp [Server.perform, hc, hq] at hstuck
      | join r =>
        obtain ⟨q, hq⟩ := hjoin (c, r)
        simp [Server.perform, hc, hq] at hstuck
      | leave r =>
        obtain ⟨q, hq⟩ := hleave (c, r)
        simp [Server.perform, hc, hq] at hstuck
      | call o => simp [Server.perform, hc] at hstuck
      | sendError code message => simp [Server.perform, hc] at hstuck
      | typingStart key => simp [Server.perform, hc] at hstuck
      | typingStop key => simp [Server.perform, hc] at hstuck

theorem Stuck.writers (h : Stuck parse s) (hw : s.writing c = true) :
    (s.send c).buffer = [] ∧ (s.send c).closed = false := by
  have hnone := h.blocks (a := .write c) trivial (by simp)
  cases hbuf : (s.send c).buffer with
  | cons e rest => simp [Server.act, hw, hbuf] at hnone
  | nil =>
    refine ⟨rfl, ?_⟩
    cases hclosed : (s.send c).closed with
    | false => rfl
    | true => simp [Server.act, hw, hbuf, hclosed] at hnone

theorem Stuck.presence (h : Stuck parse s) :
    s.offline = none ∨ (s.offline = some (.ret ()) ∧ s.disconnects = []) := by
  cases hoff : s.offline with
  | none => exact .inl rfl
  | some p =>
    cases p with
    | op o f =>
      have hnone := h.blocks (a := .offlinePerform answers) trivial (by simp)
      simp [Server.act, hoff] at hnone
    | ret u =>
      refine .inr ⟨rfl, ?_⟩
      cases hq : s.disconnects with
      | nil => rfl
      | cons x rest =>
        have hnone := h.blocks (a := .offlineTake) trivial (by simp)
        simp [Server.act, hoff, hq] at hnone

theorem Stuck.atRest (h : Stuck parse s) (hsteady : Steady s) : AtRest s where
  threads := h.threads hsteady
  hub := h.hub
  todo := h.todo
  broker := h.broker
  presence := h.presence
  writers _ := h.writers
  shutdown := by
    refine ⟨⟨hsteady.done, fun hc => ?_⟩, ⟨hsteady.returned, fun hc => ?_⟩,
      ⟨hsteady.offline, fun hc => ?_⟩⟩
    · by_contra hdone
      have hidle : s.hubIdle = true := by
        simp [Server.hubIdle, h.todo, Bool.eq_false_iff.mpr hdone]
      have hnone := h.blocks (a := .hubReturn) trivial (by simp)
      simp [Server.act, hc, hidle] at hnone
    · rcases h.broker with hret | ⟨hidle, -⟩
      · exact hret
      · have hnone := h.blocks (a := .brokerReturn) trivial (by simp)
        simp [Server.act, hc, hidle] at hnone
    · rcases h.presence with hoff | ⟨hoff, -⟩
      · exact hoff
      · have hnone := h.blocks (a := .offlineReturn) trivial (by simp)
        simp [Server.act, hc, hoff] at hnone

/-- Left alone, a server does not go on for ever, and where it cannot go on without a
    timeout that no shutdown causes, it has crashed or it is at rest. -/
theorem comes_to_rest (parse : String → Option UUID) (s : Server)
    (hrun : Reach (Server.step parse) Unguarded Server.new s) :
    Halts (Server.step parse) Internal s ∧
      ∀ s', Reach (Server.step parse) Internal s s' →
        (∀ s'', ¬ Moves (Server.step parse) Prompt s' s'') → s'.panicked = true ∨ AtRest s' := by
  obtain ⟨K, hK⟩ := known_reach hrun
  refine ⟨?_, fun s' hrest hstuck => ?_⟩
  · refine halts_of_work (Server.work K) (Known K) (·.panicked = true) ?_ ?_ hK
    · rintro x x' hp ⟨a, -, hs⟩
      simp [Server.step, hp] at hs
    · rintro x x' hx ⟨a, ha, hs⟩
      unfold Server.step at hs
      split_ifs at hs
      refine ⟨known_step hx hs fun c heq => ?_, Server.act_eases hx ha hs⟩
      rw [heq] at ha
      exact ha.elim
  · by_cases hp : s'.panicked = true
    · exact .inl hp
    refine .inr (@Stuck.atRest parse _ (fun a ha => ?_) ?_)
    · by_contra hne
      obtain ⟨s'', hs⟩ := Option.ne_none_iff_exists'.mp hne
      exact hstuck s'' ⟨a, ha, by simp [Server.step, hp, hs]⟩
    · exact steady_reach (hrun.trans (hrest.mono fun _ _ _ => trivial))

/-- A connection has been told that its room is subscribed and has not joined it yet. -/
theorem comes_to_rest_join :
    Halts (Server.step parseId) Internal (after parseId (connect early ++ ensured early)) := by
  have hexec : exec (Server.step parseId) Server.new (connect early ++ ensured early) =
      some (after parseId (connect early ++ ensured early)) := rfl
  exact (comes_to_rest parseId _ (Reach.of_exec (meets_unguarded _ _ _) hexec)).1

end

end ConvoyChat.Websocket
