import ConvoyChat.Websocket.Server

/-!
# The life of a connection

A connection registers once, joins rooms while it is registered, and asks to be
unregistered once, as the last thing its goroutine does. The Hub reads `register`,
`unregister`, `join` and `leave` in any order, so a command may be processed before
the registration of its client or after its removal.

* `Life`: the maps of the Hub agree with each other, and every client in them has
  been registered before and never is again.
* `life_reach`: it holds in every run.
-/

namespace ConvoyChat.Websocket

open ConvoyChat.Lib

/-- The goroutine of `c` has called `Hub.Register`. -/
def Started (thread : Client → Thread) (c : Client) : Prop :=
  thread c ≠ .absent ∧ thread c ≠ .running (handshake c)

/-- The registration of `c` has been processed. -/
def Registered (hub : Hub) (thread : Client → Thread) (c : Client) : Prop :=
  Started thread c ∧ c ∉ hub.register

structure Life (hub : Hub) (thread : Client → Thread) : Prop where
  maps : hub.maps.Inv
  /-- `Hub.Register` is called once, first. -/
  threads : ∀ c p, thread c = .running p →
    p = handshake c ∨ p.Never Proc.Always (· = .register)
  nodup : hub.register.Nodup
  queued : ∀ c ∈ hub.register, Started thread c
  clients : ∀ c ∈ hub.maps.clients, Registered hub thread c
  rooms : ∀ c, hub.maps.clientRooms c ≠ ∅ → Registered hub thread c
  unregister : ∀ c ∈ hub.unregister, thread c = .gone

/-! ## What the goroutine may still do -/

/-- What is left of the handshake after `Hub.Register`. -/
def afterRegister (c : Client) : ConnProc Unit := do
  let _ ← Proc.perform (ConnOp.ensure .user c.userID)
  lift (presenceOnline c.userID)

theorem afterRegister_never (c : Client) :
    (afterRegister c).Never Proc.Always (· = .register) :=
  .perform (by simp) fun _ _ => lift_never (passive_ne id) _

theorem dispatch_never_register (parse : String → Option UUID) (c : Client)
    (data : Option InboundEnvelope) :
    (dispatch parse c data).Never Proc.Always (· = .register) := by
  refine dispatch_never (passive_ne id) (fun env _ _ => ?_) (fun env _ _ => ?_)
  · exact handleRoomJoin_never (passive_ne id) (by simp) (by simp)
  · exact handleRoomLeave_never (passive_ne id) (by simp)

theorem not_never_handshake (c : Client) :
    ¬ (handshake c).Never Proc.Always (· = .register) :=
  fun h => h.not rfl

section

variable {hub : Hub} {thread : Client → Thread} {c : Client}

/-- What follows an operation other than `Hub.Register` does not register. -/
theorem Life.next {o : ConnOp} {k : o.Res → ConnProc Unit} (h : Life hub thread)
    (hc : thread c = .running (.op o k)) (ho : o ≠ .register) (a : o.Res) :
    (k a).Never Proc.Always (· = .register) := by
  rcases h.threads c _ hc with heq | hnever
  · cases heq
    exact absurd rfl ho
  · exact hnever.next trivial

theorem Life.started {p : ConnProc Unit} (hc : thread c = .running p)
    (hp : p.Never Proc.Always (· = .register)) : Started thread c := by
  refine ⟨by simp [hc], fun heq => ?_⟩
  rw [hc] at heq
  cases heq
  exact not_never_handshake c hp

/-- The goroutine of `c` goes from a thread that is not `gone` to `t`. -/
theorem Life.update {t : Thread} (h : Life hub thread) (hgone : thread c ≠ .gone)
    (habsent : t ≠ .absent) (hother : Started thread c → t ≠ .running (handshake c))
    (ht : ∀ p, t = .running p → p = handshake c ∨ p.Never Proc.Always (· = .register)) :
    Life hub (Function.update thread c t) := by
  have hstarted : ∀ c', Started thread c' → Started (Function.update thread c t) c' := by
    intro c' hc'
    by_cases heq : c' = c
    · subst heq
      exact ⟨by simpa using habsent, by simpa using hother hc'⟩
    · simpa [Started, heq] using hc'
  refine ⟨h.maps, ?_, h.nodup, fun c' hc' => hstarted c' (h.queued c' hc'), ?_, ?_, ?_⟩
  · intro c' p hp
    by_cases heq : c' = c
    · subst heq
      exact ht p (by simpa using hp)
    · exact h.threads c' p (by simpa [heq] using hp)
  · exact fun c' hc' => ⟨hstarted c' (h.clients c' hc').1, (h.clients c' hc').2⟩
  · exact fun c' hc' => ⟨hstarted c' (h.rooms c' hc').1, (h.rooms c' hc').2⟩
  · intro c' hc'
    have heq : c' ≠ c := by
      rintro rfl
      exact hgone (h.unregister c' hc')
    simpa [heq] using h.unregister c' hc'

/-- The goroutine of `c` goes on with a procedure that does not register. -/
theorem Life.resume {p p' : ConnProc Unit} (h : Life hub thread) (hc : thread c = .running p)
    (hp : p'.Never Proc.Always (· = .register)) :
    Life hub (Function.update thread c (.running p')) := by
  refine h.update (by simp [hc]) (by simp) (fun _ heq => ?_) (fun q hq => ?_)
  · cases heq
    exact not_never_handshake c hp
  · cases hq
    exact .inr hp

/-- Only the channels that `Life` does not read have changed. -/
theorem Life.congr {hub' : Hub} (h : Life hub thread) (hmaps : hub'.maps = hub.maps)
    (hreg : hub'.register = hub.register) (hunreg : hub'.unregister = hub.unregister) :
    Life hub' thread := by
  refine ⟨by rw [hmaps]; exact h.maps, h.threads, by rw [hreg]; exact h.nodup, ?_, ?_, ?_, ?_⟩
  · rw [hreg]
    exact h.queued
  · intro c hc
    rw [hmaps] at hc
    exact ⟨(h.clients c hc).1, by rw [hreg]; exact (h.clients c hc).2⟩
  · intro c hc
    rw [hmaps] at hc
    exact ⟨(h.rooms c hc).1, by rw [hreg]; exact (h.rooms c hc).2⟩
  · rw [hunreg]
    exact h.unregister

/-- `Hub.Register` of a connection that has not called it before. -/
theorem Life.enqueueRegister {q : List Client} (h : Life hub thread)
    (hc : thread c = .running (handshake c))
    (hq : offer hub.done registerBuffer hub.register c = some q) :
    Life { hub with register := q } (Function.update thread c (.running (afterRegister c))) := by
  have hfresh : ¬ Started thread c := fun hs => hs.2 hc
  have hlife := h.resume hc (afterRegister_never c)
  have hstarted : Started (Function.update thread c (.running (afterRegister c))) c :=
    Life.started (by simp) (afterRegister_never c)
  have hmem : ∀ c' ∈ q, c' ∈ hub.register ∨ c' = c := by
    intro c' hc'
    rcases offer_eq_some hq with rfl | rfl
    · simpa using hc'
    · exact .inl hc'
  have hkeep : ∀ c', Started thread c' →
      Registered hub (Function.update thread c (.running (afterRegister c))) c' →
      Registered { hub with register := q }
        (Function.update thread c (.running (afterRegister c))) c' := by
    intro c' hs hc'
    refine ⟨hc'.1, fun hmq => ?_⟩
    rcases hmem c' hmq with h₁ | rfl
    · exact hc'.2 h₁
    · exact hfresh hs
  refine ⟨hlife.maps, hlife.threads, ?_, ?_, ?_, ?_, hlife.unregister⟩
  · show q.Nodup
    rcases offer_eq_some hq with rfl | rfl
    · rw [List.nodup_append]
      refine ⟨h.nodup, by simp, fun c' hc' c'' hc'' => ?_⟩
      cases List.mem_singleton.mp hc''
      rintro rfl
      exact hfresh (h.queued c' hc')
    · exact h.nodup
  · intro c' hc'
    rcases hmem c' hc' with h₁ | rfl
    · exact hlife.queued c' h₁
    · exact hstarted
  · exact fun c' hc' => hkeep c' (h.clients c' hc').1 (hlife.clients c' hc')
  · exact fun c' hc' => hkeep c' (h.rooms c' hc').1 (hlife.rooms c' hc')

/-! ## The commands of the Hub -/

theorem Life.registerClient {rest : List Client} (h : Life hub thread)
    (hreg : hub.register = c :: rest) :
    Life { hub with register := rest, maps := hub.maps.registerClient c } thread := by
  have hnodup : c ∉ rest ∧ rest.Nodup := by
    rw [← List.nodup_cons, ← hreg]
    exact h.nodup
  have hstarted : Started thread c := h.queued c (by simp [hreg])
  have hrooms : hub.maps.clientRooms c = ∅ := by
    by_contra hne
    exact (h.rooms c hne).2 (by simp [hreg])
  have hrest : ∀ c', Registered hub thread c' → Registered { hub with
      register := rest, maps := hub.maps.registerClient c } thread c' := by
    intro c' hc'
    refine ⟨hc'.1, fun hmem => hc'.2 ?_⟩
    rw [hreg]
    exact List.mem_cons_of_mem c hmem
  refine ⟨h.maps.registerClient hrooms, h.threads, hnodup.2, ?_, ?_, ?_, h.unregister⟩
  · intro c' hc'
    exact h.queued c' (by rw [hreg]; exact List.mem_cons_of_mem c hc')
  · intro c' hc'
    rcases Finset.mem_insert.mp hc' with rfl | hc'
    · exact ⟨hstarted, hnodup.1⟩
    · exact hrest c' (h.clients c' hc')
  · exact fun c' hc' => hrest c' (h.rooms c' hc')

/-- `unregister` gets shorter and `removeClient` keeps only clients that were there. -/
theorem Life.removeClient {ids : List UUID} {rest : List Client} {todo : List HubTask}
    {dropped : Finset Client} (h : Life hub thread)
    (hids : Server.Lists ids (hub.maps.clientRooms c)) (hrest : ∀ c' ∈ rest, c' ∈ hub.unregister) :
    Life { hub with
      unregister := rest
      maps := (hub.maps.removeClient ids c).1
      todo
      dropped } thread := by
  by_cases hc : c ∈ hub.maps.clients
  · have hrem := Maps.removeClient_removed h.maps hc hids.2
    refine ⟨hrem.inv h.maps, h.threads, h.nodup, h.queued, ?_, ?_, ?_⟩
    · intro c' hc'
      have hc' : c' ∈ (hub.maps.removeClient ids c).1.clients := hc'
      rw [hrem.clients] at hc'
      exact h.clients c' (Finset.mem_of_mem_erase hc')
    · intro c' hc'
      have hc' : (hub.maps.removeClient ids c).1.clientRooms c' ≠ ∅ := hc'
      rw [hrem.clientRooms] at hc'
      exact h.rooms c' hc'
    · exact fun c' hc' => h.unregister c' (hrest c' hc')
  · rw [Maps.removeClient_of_not_mem hc]
    refine ⟨h.maps, h.threads, h.nodup, h.queued, h.clients, h.rooms, ?_⟩
    exact fun c' hc' => h.unregister c' (hrest c' hc')

theorem Life.addToRoom {r : UUID} {rest : List (Client × UUID)} (h : Life hub thread) :
    Life { hub with join := rest, maps := hub.maps.addToRoom c r } thread := by
  refine ⟨h.maps.addToRoom, h.threads, h.nodup, h.queued, ?_, ?_, h.unregister⟩
  · intro c' hc'
    have hclients : (hub.maps.addToRoom c r).clients = hub.maps.clients := by
      unfold Maps.addToRoom
      split
      · rfl
      · split <;> rfl
    exact h.clients c' (by rw [← hclients]; exact hc')
  · intro c' hc'
    by_cases heq : c' ∈ hub.maps.clients
    · exact h.clients c' heq
    · -- `addToRoom` gives a room only to a registered client
      have hsame : (hub.maps.addToRoom c r).clientRooms c' = hub.maps.clientRooms c' := by
        unfold Maps.addToRoom
        split
        · rfl
        · rename_i hc
          split
          · rfl
          · have hne : c' ≠ c := by
              rintro rfl
              exact hc heq
            simp [hne]
      exact h.rooms c' (by rw [← hsame]; exact hc')

theorem Life.removeFromRoom {r : UUID} {rest : List (Client × UUID)} {todo : List HubTask}
    (h : Life hub thread) :
    Life { hub with
      leave := rest
      maps := (hub.maps.removeFromRoom c r).1
      todo } thread := by
  refine ⟨h.maps.removeFromRoom, h.threads, h.nodup, h.queued, ?_, ?_, h.unregister⟩
  · intro c' hc'
    have hclients : (hub.maps.removeFromRoom c r).1.clients = hub.maps.clients := by
      unfold Maps.removeFromRoom
      split <;> rfl
    exact h.clients c' (by rw [← hclients]; exact hc')
  · intro c' hc'
    refine h.rooms c' fun hempty => hc' ?_
    show (hub.maps.removeFromRoom c r).1.clientRooms c' = ∅
    unfold Maps.removeFromRoom
    split
    · exact hempty
    · by_cases heq : c' = c
      · subst heq
        simp [hempty]
      · simp [heq, hempty]

end

/-! ## Every step -/

variable {parse : String → Option UUID} {s s' : Server} {a : Action}

theorem closeSend_maps (c : Client) (rest : List HubTask) :
    (s.closeSend c rest).hub.maps = s.hub.maps ∧
      (s.closeSend c rest).hub.register = s.hub.register ∧
      (s.closeSend c rest).hub.unregister = s.hub.unregister := by
  unfold Server.closeSend
  split <;> exact ⟨rfl, rfl, rfl⟩

theorem Move.life (hmove : Move parse s a s') (h : Life s.hub s.thread) :
    Life s'.hub s'.thread := by
  cases hmove with
  | quiet hsame =>
    rw [hsame.hub, hsame.thread]
    exact h
  | accept hc =>
    refine h.update (by simp [hc]) (by simp) (fun hs => absurd hc hs.1) (fun p hp => ?_)
    cases hp
    exact .inl rfl
  | arrive _ => exact h
  | read hc => exact h.resume hc (dispatch_never_register parse _ _)
  | readError hc => exact h.update (by simp [hc]) (by simp) (by simp) (by simp)
  | unregister hc hq =>
    rename_i c q
    have hlife := h.update (c := c) (t := .gone) (by simp [hc]) (by simp) (by simp) (by simp)
    refine ⟨hlife.maps, hlife.threads, hlife.nodup, hlife.queued, hlife.clients, hlife.rooms, ?_⟩
    intro c' hc'
    rcases offer_eq_some hq with hq | hq
    · have hmem : c' ∈ s.hub.unregister ++ [c] := by rw [← hq]; exact hc'
      rcases List.mem_append.mp hmem with h₁ | h₁
      · exact hlife.unregister c' h₁
      · cases List.mem_singleton.mp h₁
        simp
    · exact hlife.unregister c' (by rw [← hq]; exact hc')
  | call hc => exact h.resume hc (h.next hc (by simp) _)
  | sendError hc =>
    show Life (s.enqueue _ _).hub (Function.update (s.enqueue _ _).thread _ _)
    rw [enqueue_hub, enqueue_thread]
    exact h.resume hc (h.next hc (by simp) _)
  | register hc hq =>
    rename_i c env k q
    have hk : k = fun _ => afterRegister c := by
      rcases h.threads c _ hc with heq | hnever
      · cases heq
        rfl
      · exact absurd rfl hnever.not
    subst hk
    exact h.enqueueRegister hc hq
  | join hc hq => exact (h.resume hc (h.next hc (by simp) _)).congr rfl rfl rfl
  | leave hc hq => exact (h.resume hc (h.next hc (by simp) _)).congr rfl rfl rfl
  | typingStart hc => exact h.resume hc (h.next hc (by simp) _)
  | typingStop hc => exact h.resume hc (h.next hc (by simp) _)
  | request hc _ _ => exact h
  | receiveReady hc _ _ => exact h.resume hc (h.next hc (by simp) _)
  | timeout hc => exact h.resume hc (h.next hc (by simp) _)
  | write _ _ => exact h
  | hubRegister _ hreg => exact h.registerClient hreg
  | hubUnregister _ hq hids =>
    exact h.removeClient hids fun c' hc' => by rw [hq]; exact List.mem_cons_of_mem _ hc'
  | hubJoin _ _ => exact h.addToRoom
  | hubLeave _ _ => exact h.removeFromRoom
  | hubBroadcast _ _ _ => exact h.congr rfl rfl rfl
  | delivered _ _ => exact h.congr rfl rfl rfl
  | dropped _ _ hids => exact h.removeClient hids fun _ hc' => hc'
  | deliverPanic _ _ => exact h
  | unsubscribe _ => exact h.congr rfl rfl rfl
  | closeSend _ =>
    obtain ⟨hmaps, hreg, hunreg⟩ := closeSend_maps (s := s) _ _
    rw [closeSend_thread]
    exact h.congr hmaps hreg hunreg
  | disconnected _ => exact h.congr rfl rfl rfl
  | hubReturn _ _ => exact h.congr rfl rfl rfl
  | brokerTake _ _ => exact h
  | brokerApply _ =>
    rw [brokerApply_hub, brokerApply_thread]
    exact h
  | brokerReceive _ _ => exact h
  | brokerForward _ _ => exact h.congr rfl rfl rfl
  | brokerReturn _ _ => exact h

theorem life_new : Life Server.new.hub Server.new.thread where
  maps := Maps.inv_new
  threads := by simp [Server.new]
  nodup := by simp [Server.new, Hub.new]
  queued := by simp [Server.new, Hub.new]
  clients := by simp [Server.new, Hub.new]
  rooms := by simp [Server.new, Hub.new]
  unregister := by simp [Server.new, Hub.new]

theorem life_reach {ok : Server → Action → Prop} (hrun : Reach (Server.step parse) ok s s')
    (h : Life s.hub s.thread) : Life s'.hub s'.thread :=
  hrun.invariant (fun s => Life s.hub s.thread)
    (fun _ _ _ h _ hs => (Server.step_move hs).2.life h) h

/-! ## What a step changes -/

variable {c : Client} {r : UUID}

theorem Move.started (hmove : Move parse s a s') (hlife : Life s.hub s.thread)
    (h : Started s.thread c) : Started s'.thread c := by
  have hlife' := hmove.life hlife
  generalize hold : s.thread c = old
  generalize hnew : s'.thread c = new
  have ht := hmove.thread c
  rw [hold, hnew] at ht
  cases ht with
  | same => exact ⟨by rw [hnew, ← hold]; exact h.1, by rw [hnew, ← hold]; exact h.2⟩
  | accept _ => exact absurd hold h.1
  | read _ => exact Life.started hnew (dispatch_never_register parse c _)
  | next res _ =>
    rcases hlife.threads c _ hold with heq | hnever
    · rw [heq] at hold
      exact absurd hold h.2
    · exact Life.started hnew (hnever.next trivial)
  | readError => exact ⟨by simp [hnew], by simp [hnew]⟩
  | unregister => exact ⟨by simp [hnew], by simp [hnew]⟩

/-- Only a goroutine at its first step adds to `register`. -/
theorem Move.mem_register (hmove : Move parse s a s') (hlife : Life s.hub s.thread)
    (h : c ∈ s'.hub.register) :
    c ∈ s.hub.register ∨ (s.thread c = .running (handshake c) ∧
      s'.thread c = .running (afterRegister c) ∧ s'.waiting c = none) := by
  cases hmove with
  | quiet hsame =>
    rw [hsame.hub] at h
    exact .inl h
  | sendError _ =>
    have h : c ∈ (s.enqueue _ _).hub.register := h
    rw [enqueue_hub] at h
    exact .inl h
  | register hc hq =>
    have h : c ∈ _ := h
    rcases offer_eq_some hq with rfl | rfl
    · rcases List.mem_append.mp h with h₁ | h₁
      · exact .inl h₁
      · cases List.mem_singleton.mp h₁
        rcases hlife.threads c _ hc with heq | hnever
        · cases heq
          exact .inr ⟨hc, Function.update_self .., Function.update_self ..⟩
        · exact absurd rfl hnever.not
    · exact .inl h
  | hubRegister _ hreg =>
    rw [hreg]
    exact .inl (List.mem_cons_of_mem _ h)
  | closeSend _ =>
    rcases closeSend_hub (s := s) _ _ with hhub | hhub <;>
    · rw [hhub] at h
      exact .inl h
  | brokerApply _ =>
    rw [brokerApply_hub] at h
    exact .inl h
  | _ => exact .inl h

theorem Move.registered (hmove : Move parse s a s') (hlife : Life s.hub s.thread)
    (h : Registered s.hub s.thread c) : Registered s'.hub s'.thread c := by
  refine ⟨hmove.started hlife h.1, fun hmem => h.2 ?_⟩
  exact (hmove.mem_register hlife hmem).resolve_right fun hnew => h.1.2 hnew.1

theorem addToRoom_clients (m : Maps) (r : UUID) : (m.addToRoom c r).clients = m.clients := by
  unfold Maps.addToRoom
  split
  · rfl
  · split <;> rfl

theorem removeFromRoom_clients (m : Maps) (r : UUID) :
    (m.removeFromRoom c r).1.clients = m.clients := by
  unfold Maps.removeFromRoom
  split <;> rfl

theorem removeClient_clients (m : Maps) (ids : List UUID) :
    (m.removeClient ids c).1.clients = m.clients.erase c := by
  unfold Maps.removeClient
  by_cases hc : c ∈ m.clients
  · rw [if_neg (not_not.mpr hc)]
  · rw [if_pos hc, Finset.erase_eq_of_notMem hc]

/-- Only `register` gives the Hub a new client. -/
theorem Move.mem_clients (hmove : Move parse s a s') (h : c ∈ s'.hub.maps.clients) :
    c ∈ s.hub.maps.clients ∨ c ∈ s.hub.register := by
  have hhub : HubMove s s'.hub := hmove.hub
  generalize s'.hub = hub at hhub h
  cases hhub with
  | registerClient _ hreg =>
    rcases Finset.mem_insert.mp h with rfl | h
    · exact .inr (by simp [hreg])
    · exact .inl h
  | removeClient _ _ _ =>
    rw [removeClient_clients] at h
    exact .inl (Finset.mem_of_mem_erase h)
  | addToRoom _ _ =>
    rw [addToRoom_clients] at h
    exact .inl h
  | removeFromRoom _ _ =>
    rw [removeFromRoom_clients] at h
    exact .inl h
  | dropped _ _ =>
    rw [removeClient_clients] at h
    exact .inl (Finset.mem_of_mem_erase h)
  | _ => exact .inl h

theorem mem_addToRoom {m : Maps} {c₀ : Client} {r₀ : UUID}
    (h : c ∈ (m.addToRoom c₀ r₀).rooms.members r) :
    c ∈ m.rooms.members r ∨ (c = c₀ ∧ r = r₀ ∧ c ∈ m.clients) := by
  unfold Maps.addToRoom at h
  by_cases hc : c₀ ∈ m.clients
  · rw [if_neg (not_not.mpr hc)] at h
    split at h
    · exact .inl h
    · rcases Index.mem_attach.mp h with ⟨rfl, rfl⟩ | h
      · exact .inr ⟨rfl, rfl, hc⟩
      · exact .inl h
  · rw [if_pos hc] at h
    exact .inl h

theorem mem_addToRoom_of_mem {m : Maps} {c₀ : Client} {r₀ : UUID} (h : c ∈ m.rooms.members r) :
    c ∈ (m.addToRoom c₀ r₀).rooms.members r := by
  unfold Maps.addToRoom
  split
  · exact h
  · split
    · exact h
    · exact Index.mem_attach.mpr (.inr h)

theorem mem_removeFromRoom {m : Maps} {c₀ : Client} {r₀ : UUID} (hinv : m.Inv) :
    c ∈ (m.removeFromRoom c₀ r₀).1.rooms.members r ↔
      c ∈ m.rooms.members r ∧ ¬ (r = r₀ ∧ c = c₀) := by
  unfold Maps.removeFromRoom
  by_cases hr : r₀ ∈ m.clientRooms c₀
  · rw [if_neg (not_not.mpr hr)]
    exact Index.mem_detach
  · rw [if_pos hr]
    refine ⟨fun h => ⟨h, ?_⟩, And.left⟩
    rintro ⟨rfl, rfl⟩
    exact hr ((hinv.rooms r c).mp h).2

theorem mem_removeClient {m : Maps} {c₀ : Client} {ids : List UUID} (hinv : m.Inv)
    (hids : Server.Lists ids (m.clientRooms c₀)) :
    c ∈ (m.removeClient ids c₀).1.rooms.members r ↔ c ∈ m.rooms.members r ∧ c ≠ c₀ := by
  by_cases hc : c₀ ∈ m.clients
  · exact (Maps.removeClient_removed hinv hc hids.2).rooms r c
  · rw [Maps.removeClient_of_not_mem hc]
    refine ⟨fun h => ⟨h, ?_⟩, And.left⟩
    rintro rfl
    exact hc ((hinv.rooms r c).mp h).1

/-- A client enters a room by a queued join. -/
theorem Move.mem_rooms (hmove : Move parse s a s') (hlife : Life s.hub s.thread)
    (h : c ∈ s'.hub.maps.rooms.members r) :
    c ∈ s.hub.maps.rooms.members r ∨ ((c, r) ∈ s.hub.join ∧ c ∈ s.hub.maps.clients) := by
  have hhub : HubMove s s'.hub := hmove.hub
  generalize s'.hub = hub at hhub h
  cases hhub with
  | removeClient _ _ hids => exact .inl ((mem_removeClient hlife.maps hids).mp h).1
  | addToRoom _ hq =>
    rcases mem_addToRoom h with h | ⟨rfl, rfl, hc⟩
    · exact .inl h
    · exact .inr ⟨by simp [hq], hc⟩
  | removeFromRoom _ _ => exact .inl ((mem_removeFromRoom hlife.maps).mp h).1
  | dropped _ hids => exact .inl ((mem_removeClient hlife.maps hids).mp h).1
  | _ => exact .inl h

/-- A join is queued by the goroutine of its client. -/
theorem Move.mem_join (hmove : Move parse s a s') (h : (c, r) ∈ s'.hub.join) :
    (c, r) ∈ s.hub.join ∨ ∃ k, s.thread c = .running (.op (.join r) k) := by
  have hhub : HubMove s s'.hub := hmove.hub
  generalize s'.hub = hub at hhub h
  cases hhub with
  | join hc hq =>
    rcases mem_offer hq h with h | heq
    · exact .inl h
    · cases heq
      exact .inr ⟨_, hc⟩
  | addToRoom _ hq =>
    rw [hq]
    exact .inl (List.mem_cons_of_mem _ h)
  | _ => exact .inl h

/-- A leave is queued by the goroutine of its client. -/
theorem Move.mem_leave (hmove : Move parse s a s') (h : (c, r) ∈ s'.hub.leave) :
    (c, r) ∈ s.hub.leave ∨ ∃ k, s.thread c = .running (.op (.leave r) k) := by
  have hhub : HubMove s s'.hub := hmove.hub
  generalize s'.hub = hub at hhub h
  cases hhub with
  | leave hc hq =>
    rcases mem_offer hq h with h | heq
    · exact .inl h
    · cases heq
      exact .inr ⟨_, hc⟩
  | removeFromRoom _ hq =>
    rw [hq]
    exact .inl (List.mem_cons_of_mem _ h)
  | _ => exact .inl h

/-! ## Runs -/

/-- The store and Redis answer; everybody is a member, and was online before. -/
def answers : (o : EnvOp) → o.Res
  | .getMembership r u => .ok ⟨1, r, u, .member, 0, none, none, none⟩
  | .insertMessage _ _ _ _ => .error .internal
  | .getMessageByID _ => .error .notFound
  | .markMessageRead _ _ => .ok false
  | .listRoomsForUser _ => .ok []
  | .presenceConnect _ => .ok false
  | .presenceDisconnect _ => .ok false
  | .presenceSetStatus _ _ => .ok ()
  | .now => 0
  | .publish _ _ => .ok ()

/-- A connection is accepted, registered and subscribed, and starts to read. -/
def connect (c : Client) : List Action :=
  [.accept c, .perform c answers, .hubRegister, .request c, .brokerTake .user, .brokerApply true,
    .receiveReady c, .perform c answers]

/-- The state after some actions of a server that just started. -/
def after (parse : String → Option UUID) (as : List Action) : Server :=
  (exec (Server.step parse) Server.new as).getD Server.new

/-- A frame about room 5. -/
def frame (type : String) : Option InboundEnvelope := some ⟨type, idFive, "", "", "", "", ""⟩

def early : Client := ⟨0, 1, "ada"⟩

def late : Client := ⟨1, 2, "bob"⟩

/-- `c` sends `room.join`, and the Broker tells it that the room is subscribed. -/
def ensured (c : Client) : List Action :=
  [.read c (frame "room.join"), .perform c answers, .request c, .brokerTake .room,
    .brokerApply true, .receiveReady c]

/-- `c` calls `Hub.Join` and publishes `user.joined`. -/
def joined (c : Client) : List Action := [.perform c answers, .hubJoin, .perform c answers]

end ConvoyChat.Websocket
