import ConvoyChat.Websocket.JoinOrder
import ConvoyChat.Websocket.Rest
import ConvoyChat.Websocket.SendQueue

/-!
# Connections that have ended

When `readPump` ends, its last act is `Hub.Unregister`. The Hub then forgets the
client and closes its send queue, which ends `writePump`. The Hub reads `register`
and `unregister` in any order, so a connection that ends at once can be unregistered
before it is registered, and then it stays.

* `Tidy`: while the Hub runs, every connection that has ended is about to be
  forgotten or forgotten, and every queue that is open belongs to a client of the Hub.
* `ended_connections_forgotten`: a server at rest has nothing left of the connections
  that have ended, if no client was unregistered before it was registered.
* `unregistered_first`: one that was stays in the maps, and its `writePump` runs on.
-/

namespace ConvoyChat.Websocket

open ConvoyChat.Lib

variable {parse : String → Option UUID} {s s' : Server} {a : Action} {c : Client}

/-- The Hub unregisters no client whose registration is still queued. -/
def RegistersFirst (s : Server) : Action → Prop
  | .hubUnregister _ => ∀ c rest, s.hub.unregister = c :: rest → c ∉ s.hub.register
  | _ => True

/-- What holds of connections and queues while the Hub runs. -/
structure Tidy (s : Server) : Prop where
  life : Life s.hub s.thread
  ended : s.hub.done = false → ∀ c, s.thread c = .gone →
    c ∈ s.hub.unregister ∨ (c ∉ s.hub.register ∧ c ∉ s.hub.maps.clients)
  closes : s.hub.done = false → ∀ c, Started s.thread c → c ∈ s.hub.register ∨
    c ∈ s.hub.maps.clients ∨ .closeSend c ∈ s.hub.todo ∨ (s.send c).closed = true

/-! ## What a step does to a connection -/

theorem Move.hub_running (hmove : Move parse s a s') (h : s'.hub.done = false) :
    s.hub.done = false := by
  have hhub : HubMove s s'.hub := hmove.hub
  generalize s'.hub = hub at hhub h
  cases hhub with
  | returned => cases h
  | _ => exact h

/-- Another goroutine goes on. -/
theorem update_other {thread : Client → Thread} {c₀ : Client} {t old : Thread}
    (h : thread c = old) (hne : thread c₀ ≠ old) : Function.update thread c₀ t c = old := by
  have hc : c ≠ c₀ := by
    rintro rfl
    exact hne h
  rw [Function.update_of_ne hc, h]

/-- The goroutine of a connection ends by putting it on `unregister`. -/
theorem Move.unregisters (hmove : Move parse s a s') (hdone : s'.hub.done = false)
    (hold : s.thread c = .leaving) : s'.thread c = .leaving ∨ c ∈ s'.hub.unregister := by
  have hrun := hmove.hub_running hdone
  cases hmove with
  | quiet h => exact .inl (by rw [h.thread]; exact hold)
  | unregister hc hq =>
    rename_i c₀ q
    rw [hrun] at hq
    have hq : q = s.hub.unregister ++ [c₀] := offer_running hq
    by_cases heq : c = c₀
    · subst heq
      exact .inr (by simp [hq])
    · exact .inl (by simp [heq, hold])
  | sendError hc =>
    rename_i c₀ env code message k
    refine .inl ?_
    show Function.update (s.enqueue c₀ (.error code message)).thread c₀ (.running (k ())) c = _
    rw [enqueue_thread]
    exact update_other hold (by simp [hc])
  | accept hc => exact .inl (update_other hold (by simp [hc]))
  | readError hc => exact .inl (update_other hold (by simp [hc]))
  | read hc => exact .inl (update_other hold (by simp [hc]))
  | call hc => exact .inl (update_other hold (by simp [hc]))
  | register hc _ => exact .inl (update_other hold (by simp [hc]))
  | join hc _ => exact .inl (update_other hold (by simp [hc]))
  | leave hc _ => exact .inl (update_other hold (by simp [hc]))
  | typingStart hc => exact .inl (update_other hold (by simp [hc]))
  | typingStop hc => exact .inl (update_other hold (by simp [hc]))
  | receiveReady hc _ _ => exact .inl (update_other hold (by simp [hc]))
  | timeout hc => exact .inl (update_other hold (by simp [hc]))
  | closeSend _ => exact .inl (by rw [closeSend_thread]; exact hold)
  | brokerApply _ => exact .inl (by rw [brokerApply_thread]; exact hold)
  | _ => exact .inl hold

/-- Its registration is the first thing that it does. -/
theorem Move.registers (hmove : Move parse s a s') (hdone : s'.hub.done = false)
    (hold : s.thread c = .running (handshake c)) :
    s'.thread c = .running (handshake c) ∨ c ∈ s'.hub.register := by
  have hrun := hmove.hub_running hdone
  have hop : ∀ {c₀ : Client} {o : ConnOp} {k : o.Res → ConnProc Unit},
      s.thread c₀ = .running (.op o k) → o ≠ .register →
      s.thread c₀ ≠ .running (handshake c) := by
    intro c₀ o k hc ho heq
    rw [hc] at heq
    cases heq
    exact ho rfl
  have hret : ∀ u : Unit, (.ret u : ConnProc Unit) ≠ handshake c := by
    intro u h
    cases h
  cases hmove with
  | quiet h => exact .inl (by rw [h.thread]; exact hold)
  | register hc hq =>
    rename_i c₀ env k q
    rw [hrun] at hq
    have hq : q = s.hub.register ++ [c₀] := offer_running hq
    by_cases heq : c = c₀
    · subst heq
      exact .inr (by simp [Server.resume, hq])
    · exact .inl (by simp [Server.resume, heq, hold])
  | sendError hc =>
    rename_i c₀ env code message k
    refine .inl ?_
    show Function.update (s.enqueue c₀ (.error code message)).thread c₀ (.running (k ())) c = _
    rw [enqueue_thread]
    exact update_other hold (hop hc (by simp))
  | unregister hc _ => exact .inl (update_other hold (by simp [hc]))
  | accept hc => exact .inl (update_other hold (by simp [hc]))
  | readError hc => exact .inl (update_other hold (by simp [hc, hret]))
  | read hc => exact .inl (update_other hold (by simp [hc, hret]))
  | call hc => exact .inl (update_other hold (hop hc (by simp)))
  | join hc _ => exact .inl (update_other hold (hop hc (by simp)))
  | leave hc _ => exact .inl (update_other hold (hop hc (by simp)))
  | typingStart hc => exact .inl (update_other hold (hop hc (by simp)))
  | typingStop hc => exact .inl (update_other hold (hop hc (by simp)))
  | receiveReady hc _ _ => exact .inl (update_other hold (hop hc (by simp)))
  | timeout hc => exact .inl (update_other hold (hop hc (by simp)))
  | closeSend _ => exact .inl (by rw [closeSend_thread]; exact hold)
  | brokerApply _ => exact .inl (by rw [brokerApply_thread]; exact hold)
  | _ => exact .inl hold

/-- Only the Hub takes a client from `unregister`, and it forgets it. -/
theorem Move.mem_unregister (hmove : Move parse s a s') (h : c ∈ s.hub.unregister) :
    c ∈ s'.hub.unregister ∨ ((∃ ids, a = .hubUnregister ids) ∧
      (∃ rest, s.hub.unregister = c :: rest) ∧ s'.hub.register = s.hub.register ∧
      c ∉ s'.hub.maps.clients) := by
  cases hmove with
  | quiet hsame => exact .inl (by rw [hsame.hub]; exact h)
  | unregister _ hq =>
    rcases offer_eq_some hq with rfl | rfl
    · exact .inl (List.mem_append_left _ h)
    · exact .inl h
  | hubUnregister _ hq _ =>
    rename_i ids c₀ rest htodo hids
    rw [hq] at h
    rcases List.mem_cons.mp h with rfl | h
    · refine .inr ⟨⟨ids, rfl⟩, ⟨rest, hq⟩, rfl, ?_⟩
      rw [removeClient_clients]
      exact Finset.notMem_erase c _
    · exact .inl h
  | sendError _ =>
    refine .inl ?_
    show c ∈ (s.enqueue _ _).hub.unregister
    rw [enqueue_hub]
    exact h
  | closeSend _ =>
    refine .inl ?_
    rcases closeSend_hub (s := s) _ _ with hhub | hhub <;>
    · rw [hhub]
      exact h
  | brokerApply _ => exact .inl (by rw [brokerApply_hub]; exact h)
  | _ => exact .inl h

theorem Tidy.stepEnded (h : Tidy s) (hmove : Move parse s a s') (hok : RegistersFirst s a)
    (hdone : s'.hub.done = false) (hgone : s'.thread c = .gone) :
    c ∈ s'.hub.unregister ∨ (c ∉ s'.hub.register ∧ c ∉ s'.hub.maps.clients) := by
  have hrun := hmove.hub_running hdone
  by_cases hold : s.thread c = .gone
  · rcases h.ended hrun c hold with hmem | ⟨hreg, hclients⟩
    · rcases hmove.mem_unregister hmem with hmem' | ⟨⟨ids, rfl⟩, ⟨rest, hq⟩, hreg', hclients'⟩
      · exact .inl hmem'
      · exact .inr ⟨by rw [hreg']; exact hok c rest hq, hclients'⟩
    · refine .inr ⟨fun hmem => ?_, fun hmem => ?_⟩
      · rcases hmove.mem_register h.life hmem with hmem | ⟨hfirst, -⟩
        · exact hreg hmem
        · rw [hold] at hfirst
          cases hfirst
      · exact (hmove.mem_clients hmem).elim hclients hreg
  · have hleaving : s.thread c = .leaving := by
      have ht := hmove.thread c
      rw [hgone] at ht
      generalize s.thread c = t at ht hold
      cases ht with
      | same => exact absurd rfl hold
      | unregister => rfl
    rcases hmove.unregisters hdone hleaving with hstill | hmem
    · rw [hgone] at hstill
      cases hstill
    · exact .inl hmem

/-! ## What a step does to a queue -/

/-- A queue that is closed stays closed. -/
theorem Move.closed (hmove : Move parse s a s') (h : (s.send c).closed = true) :
    (s'.send c).closed = true := by
  have hkeep : ∀ {c₀ : Client} {ch : Chan Event}, (ch.closed = (s.send c₀).closed) →
      (Function.update s.send c₀ ch c).closed = true := by
    intro c₀ ch hch
    by_cases hc : c = c₀
    · subst hc
      rw [Function.update_self, hch]
      exact h
    · rw [Function.update_of_ne hc]
      exact h
  cases hmove with
  | quiet hsame =>
    rw [hsame.send]
    exact h
  | sendError _ =>
    show ((s.enqueue _ _).send c).closed = true
    unfold Server.enqueue
    split
    · rename_i ch hch
      exact hkeep (by rw [Chan.trySend_ok hch])
    · exact h
    · exact h
  | delivered _ hch => exact hkeep (by rw [Chan.trySend_ok hch])
  | write _ _ => exact hkeep rfl
  | closeSend _ =>
    rename_i ids c₀ rest _
    unfold Server.closeSend
    split
    · exact h
    · by_cases hc : c = c₀
      · subst hc
        simp
      · simpa [hc] using h
  | brokerApply _ =>
    rw [brokerApply_send]
    exact h
  | _ => exact h

/-- A queue that is to be closed is closed by the Hub. -/
theorem Move.closing (hmove : Move parse s a s') (h : .closeSend c ∈ s.hub.todo) :
    .closeSend c ∈ s'.hub.todo ∨ (s'.send c).closed = true := by
  have hbusy : s.hub.todo ≠ [] := List.ne_nil_of_mem h
  cases hmove with
  | quiet hsame =>
    rw [hsame.hub]
    exact .inl h
  | sendError _ =>
    refine .inl ?_
    show _ ∈ (s.enqueue _ _).hub.todo
    rw [enqueue_hub]
    exact h
  | hubUnregister htodo _ _ => exact absurd htodo hbusy
  | hubLeave htodo _ => exact absurd htodo hbusy
  | hubBroadcast htodo _ _ => exact absurd htodo hbusy
  | delivered htodo _ =>
    rw [htodo] at h
    exact .inl (List.mem_of_ne_of_mem (by simp) h)
  | dropped htodo _ _ =>
    rw [htodo] at h
    exact .inl (List.mem_append_right _ (List.mem_of_ne_of_mem (by simp) h))
  | unsubscribe htodo =>
    rw [htodo] at h
    exact .inl (List.mem_of_ne_of_mem (by simp) h)
  | disconnected htodo =>
    rw [htodo] at h
    exact .inl (List.mem_of_ne_of_mem (by simp) h)
  | closeSend htodo =>
    rename_i ids c₀ rest
    unfold Server.closeSend
    split
    · exact .inl h
    · by_cases hc : c = c₀
      · subst hc
        exact .inr (by simp)
      · rw [htodo] at h
        exact .inl (List.mem_of_ne_of_mem (by simpa using hc) h)
  | brokerApply _ =>
    rw [brokerApply_hub]
    exact .inl h
  | _ => exact .inl h

/-- The Hub closes the queue of a client that it forgets. -/
theorem closeSend_mem {m : Maps} {ids : List UUID} {c₀ : Client} (hinv : m.Inv)
    (hids : Server.Lists ids (m.clientRooms c₀)) (hc : c ∈ m.clients) :
    c ∈ (m.removeClient ids c₀).1.clients ∨ .closeSend c ∈ (m.removeClient ids c₀).2 := by
  by_cases heq : c = c₀
  · subst heq
    obtain ⟨ts, -, htasks⟩ := (Maps.removeClient_removed hinv hc hids.2).tasks
    exact .inr (by simp [htasks])
  · rw [removeClient_clients]
    exact .inl (Finset.mem_erase.mpr ⟨heq, hc⟩)

theorem Move.forgets (hmove : Move parse s a s') (hlife : Life s.hub s.thread)
    (h : c ∈ s.hub.maps.clients) :
    c ∈ s'.hub.maps.clients ∨ .closeSend c ∈ s'.hub.todo := by
  have hhub : HubMove s s'.hub := hmove.hub
  generalize s'.hub = hub at hhub ⊢
  cases hhub with
  | registerClient _ _ => exact .inl (Finset.mem_insert_of_mem h)
  | removeClient _ _ hids => exact closeSend_mem hlife.maps hids h
  | addToRoom _ _ => exact .inl (by rw [addToRoom_clients]; exact h)
  | removeFromRoom _ _ => exact .inl (by rw [removeFromRoom_clients]; exact h)
  | dropped _ hids =>
    exact (closeSend_mem hlife.maps hids h).imp_right fun ht => List.mem_append_left _ ht
  | _ => exact .inl h

/-- The Hub takes a registration and knows the client. -/
theorem Move.admits (hmove : Move parse s a s') (h : c ∈ s.hub.register) :
    c ∈ s'.hub.register ∨ c ∈ s'.hub.maps.clients := by
  have hhub : HubMove s s'.hub := hmove.hub
  generalize s'.hub = hub at hhub ⊢
  cases hhub with
  | register _ hq =>
    rcases offer_eq_some hq with rfl | rfl
    · exact .inl (List.mem_append_left _ h)
    · exact .inl h
  | registerClient _ hreg =>
    rw [hreg] at h
    rcases List.mem_cons.mp h with rfl | h
    · exact .inr (Finset.mem_insert_self _ _)
    · exact .inl h
  | _ => exact .inl h

theorem Tidy.stepCloses (h : Tidy s) (hmove : Move parse s a s') (hdone : s'.hub.done = false)
    (hstarted : Started s'.thread c) : c ∈ s'.hub.register ∨ c ∈ s'.hub.maps.clients ∨
      .closeSend c ∈ s'.hub.todo ∨ (s'.send c).closed = true := by
  by_cases hold : Started s.thread c
  · rcases h.closes (hmove.hub_running hdone) c hold with hreg | hclients | htodo | hclosed
    · exact (hmove.admits hreg).imp_right .inl
    · exact .inr ((hmove.forgets h.life hclients).imp_right .inl)
    · exact .inr (.inr (hmove.closing htodo))
    · exact .inr (.inr (.inr (hmove.closed hclosed)))
  · by_cases hfirst : s.thread c = .running (handshake c)
    · rcases hmove.registers hdone hfirst with hstill | hreg
      · exact absurd hstill hstarted.2
      · exact .inl hreg
    · -- it was not there before, and a connection that is accepted has done nothing yet
      have habs : s.thread c = .absent := by
        by_contra hne
        exact hold ⟨hne, hfirst⟩
      have ht := hmove.thread c
      rw [habs] at ht
      generalize hnew : s'.thread c = t at ht
      cases ht with
      | same => exact absurd hnew hstarted.1
      | accept _ => exact absurd hnew hstarted.2

/-! ## Runs -/

theorem Move.tidy (hmove : Move parse s a s') (hok : RegistersFirst s a) (h : Tidy s) :
    Tidy s' where
  life := hmove.life h.life
  ended hdone _ hgone := h.stepEnded hmove hok hdone hgone
  closes hdone _ hstarted := h.stepCloses hmove hdone hstarted

theorem tidy_new : Tidy Server.new where
  life := life_new
  ended := by simp [Server.new]
  closes _ c h := absurd rfl h.1

/-- A server at rest that does not shut down has forgotten every connection that has ended,
    and has stopped its `writePump`, if no client was unregistered before it was registered. -/
theorem ended_connections_forgotten (parse : String → Option UUID) (s : Server)
    (hrun : Reach (Server.step parse) RegistersFirst Server.new s) (hrest : AtRest s)
    (hrunning : s.cancelled = false) (c : Client) (hgone : s.thread c = .gone) :
    c ∉ s.hub.maps.clients ∧ (∀ r, c ∉ s.hub.maps.rooms.members r) ∧
      (∀ u, c ∉ s.hub.maps.users.members u) ∧ (s.send c).closed = true ∧ s.writing c = false := by
  have htidy : Tidy s :=
    hrun.invariant Tidy (fun _ _ _ h hok hs => (Server.step_move hs).2.tidy hok h) tidy_new
  have hdone : s.hub.done = false := by
    by_contra hdone
    have hcancel := hrest.shutdown.1.mp (by simpa using hdone)
    rw [hrunning] at hcancel
    cases hcancel
  obtain hd | ⟨hregister, hunregister, -⟩ := hrest.hub
  · rw [hdone] at hd
    cases hd
  have hclients : c ∉ s.hub.maps.clients := by
    rcases htidy.ended hdone c hgone with hmem | ⟨-, hclients⟩
    · rw [hunregister] at hmem
      cases hmem
    · exact hclients
  have hclosed : (s.send c).closed = true := by
    rcases htidy.closes hdone c ⟨by simp [hgone], by simp [hgone]⟩ with hmem | hmem | hmem | hclosed
    · rw [hregister] at hmem
      cases hmem
    · exact absurd hmem hclients
    · rw [hrest.todo] at hmem
      cases hmem
    · exact hclosed
  refine ⟨hclients, fun r hr => ?_, fun u hu => ?_, hclosed, ?_⟩
  · exact hclients ((htidy.life.maps.rooms r c).mp hr).1
  · exact hclients ((htidy.life.maps.users u c).mp hu).1
  · by_contra hwriting
    have hopen := (hrest.writers c (by simpa using hwriting)).2
    rw [hclosed] at hopen
    cases hopen

/-! ## A short connection -/

theorem exec_writing {as : List Action} (h : exec (Server.step parse) s as = some s')
    (hc : s.writing c = false) (has : .accept c ∉ as) : s'.writing c = false := by
  induction as generalizing s with
  | nil =>
    cases h
    exact hc
  | cons a as ih =>
    obtain ⟨m, hm, hrest⟩ := Option.bind_eq_some_iff.mp h
    rw [List.mem_cons, not_or] at has
    unfold Server.step at hm
    split_ifs at hm
    refine ih hrest ?_ has.2
    by_contra hw
    rcases (Server.act_side hm).writes (by simpa using hw) with hold | hacc
    · rw [hc] at hold
      cases hold
    · exact has.1 hacc.symm

/-- A run with one connection, `early`, at whose end nothing is queued. -/
theorem atRest_one {as : List Action}
    (hexec : exec (Server.step parse) Server.new as = some s)
    (has : ∀ c, .accept c ∈ as → c = early) (hgone : s.thread early = .gone)
    (hwriters : s.writing early = true →
      (s.send early).buffer = [] ∧ (s.send early).closed = false)
    (hhub : s.hub.register = [] ∧ s.hub.unregister = [] ∧ s.hub.join = [] ∧ s.hub.leave = [] ∧
      s.hub.broadcast .room = [] ∧ s.hub.broadcast .user = [])
    (htodo : s.hub.todo = []) (hdone : s.hub.done = false) (hcancel : s.cancelled = false)
    (hbroker : s.broker.task = .idle ∧ (s.broker.subs .room).reqs = [] ∧
      (s.broker.subs .user).reqs = [] ∧ (s.broker.subs .room).messages = [] ∧
      (s.broker.subs .user).messages = [])
    (hoff : s.offline = some (.ret ()) ∧ s.disconnects = []) : AtRest s where
  threads c := by
    by_cases hc : c = early
    · exact .inr (.inr (hc ▸ hgone))
    · exact .inl (exec_thread_absent hexec rfl fun hacc => hc (has c hacc))
  hub := by
    obtain ⟨h₁, h₂, h₃, h₄, h₅, h₆⟩ := hhub
    exact .inr ⟨h₁, h₂, h₃, h₄, fun k => by cases k <;> assumption⟩
  todo := htodo
  broker := by
    obtain ⟨htask, h₁, h₂, h₃, h₄⟩ := hbroker
    refine .inr ⟨htask, fun k => ?_⟩
    cases k with
    | room => exact ⟨h₁, h₃⟩
    | user => exact ⟨h₂, h₄⟩
  presence := .inr hoff
  writers c hw := by
    by_cases hc : c = early
    · subst hc
      exact hwriters hw
    · rw [exec_writing hexec rfl fun hacc => hc (has c hacc)] at hw
      cases hw
  shutdown := by simp [hdone, hcancel, hbroker.1, hoff.1]

/-- The connection is closed, and the Hub, the Broker and `processDisconnects` follow. -/
def closed : List Action :=
  [.readError early, .unregister early, .hubUnregister [], .hubTask [], .hubTask [], .hubTask [],
    .write early, .brokerTake .user, .brokerApply true, .offlineTake, .offlinePerform answers]

/-- The Hub never takes from `unregister` while `register` holds something. -/
def registersFirst (s : Server) : Action → Bool
  | .hubUnregister _ => s.hub.register.isEmpty
  | _ => true

theorem registersFirst_of_check (s : Server) (a : Action) (h : registersFirst s a = true) :
    RegistersFirst s a := by
  unfold RegistersFirst
  split
  · intro c rest _
    have hempty : s.hub.register = [] := by simpa [registersFirst] using h
    rw [hempty]
    exact List.not_mem_nil
  · trivial

theorem ended_connections_forgotten_early :
    early ∉ (after parseId (connect early ++ closed)).hub.maps.clients ∧
      ((after parseId (connect early ++ closed)).send early).closed = true ∧
      (after parseId (connect early ++ closed)).writing early = false := by
  have hexec : exec (Server.step parseId) Server.new (connect early ++ closed) =
      some (after parseId (connect early ++ closed)) := rfl
  have hrun := Reach.of_exec (meets_of_checks registersFirst_of_check rfl) hexec
  have hrest := atRest_one hexec (by simp [connect, closed]) rfl (fun h => absurd h (by decide))
    ⟨rfl, rfl, rfl, rfl, rfl, rfl⟩ rfl rfl rfl ⟨rfl, rfl, rfl, rfl, rfl⟩ ⟨rfl, rfl⟩
  obtain ⟨hclients, -, -, hclosed, hwriting⟩ :=
    ended_connections_forgotten parseId _ hrun hrest rfl early rfl
  exact ⟨hclients, hclosed, hwriting⟩

/-- The connection ends before the Hub has taken its registration. -/
def hasty : List Action :=
  [.accept early, .perform early answers, .request early, .brokerTake .user, .brokerApply true,
    .receiveReady early, .perform early answers, .readError early, .unregister early,
    .hubUnregister [], .hubRegister]

/-- The Hub is left with a client whose connection has ended. -/
theorem unregistered_first :
    Reach (Server.step parseId) Unguarded Server.new (after parseId hasty) ∧
      AtRest (after parseId hasty) ∧ (after parseId hasty).thread early = .gone ∧
      early ∈ (after parseId hasty).hub.maps.clients ∧
      (after parseId hasty).writing early = true := by
  have hexec : exec (Server.step parseId) Server.new hasty = some (after parseId hasty) := rfl
  refine ⟨Reach.of_exec (meets_unguarded _ _ _) hexec, ?_, rfl, by decide, rfl⟩
  exact atRest_one hexec (by simp [hasty]) rfl (fun _ => ⟨rfl, rfl⟩)
    ⟨rfl, rfl, rfl, rfl, rfl, rfl⟩ rfl rfl rfl ⟨rfl, rfl, rfl, rfl, rfl⟩ ⟨rfl, rfl⟩

end ConvoyChat.Websocket
