import ConvoyChat.Websocket.Lifecycle

/-!
# Sends on a closed queue

`Hub.removeClient` closes the send queue of a client, and a send on a closed
channel takes the process down. The Hub itself only sends to clients in its maps,
whose queues are open. The goroutine of the client sends too: `dispatch` answers a
bad frame with `sendError`, and after a slow consumer is dropped its `readPump`
goes on until its next read fails.

* `QueueInv`: a closed queue belongs to a client that is in no map, and that was
  dropped or whose goroutine has ended.
* `sends_on_open_queues`: in a run in which no dropped client is sent an error
  reply, nothing panics.
* `error_reply_after_drop`: a client that lets its queue fill and then sends a bad
  frame.
-/

namespace ConvoyChat.Websocket

open ConvoyChat.Lib

variable {parse : String → Option UUID} {s s' : Server} {a : Action} {c : Client}

/-! ## Clients that are gone for good -/

/-- `c` was removed from the maps, because it was dropped or because its goroutine
    has ended. -/
def Ended (s : Server) (c : Client) : Prop :=
  Registered s.hub s.thread c ∧ c ∉ s.hub.maps.clients ∧
    (c ∈ s.hub.dropped ∨ s.thread c = .gone)

theorem ThreadMove.gone {t t' : Thread} (h : ThreadMove parse s a c t t') (ht : t = .gone) :
    t' = .gone := by
  cases h with
  | same => exact ht
  | _ => cases ht

theorem Move.mem_dropped (hmove : Move parse s a s') (h : c ∈ s.hub.dropped) :
    c ∈ s'.hub.dropped := by
  have hhub : HubMove s s'.hub := hmove.hub
  generalize s'.hub = hub at hhub ⊢
  cases hhub with
  | dropped _ _ => exact Finset.mem_insert_of_mem h
  | _ => exact h

theorem Move.ended (hmove : Move parse s a s') (hlife : Life s.hub s.thread) (h : Ended s c) :
    Ended s' c := by
  obtain ⟨hreg, hclients, hwhy⟩ := h
  refine ⟨hmove.registered hlife hreg, fun hmem => ?_, ?_⟩
  · rcases hmove.mem_clients hmem with h | h
    · exact hclients h
    · exact hreg.2 h
  · rcases hwhy with hd | hgone
    · exact .inl (hmove.mem_dropped hd)
    · exact .inr ((hmove.thread c).gone hgone)

/-! ## The invariant -/

/-- The task sends to `c` or closes its queue. -/
def HubTask.Names (c : Client) : HubTask → Prop
  | .deliver _ _ _ c' => c' = c
  | .closeSend c' => c' = c
  | _ => False

/-- No client is named by both. -/
def Apart (t t' : HubTask) : Prop := ∀ c, t.Names c → ¬ t'.Names c

structure QueueInv (s : Server) : Prop where
  life : Life s.hub s.thread
  apart : s.hub.todo.Pairwise Apart
  receivers : ∀ k id e c, .deliver k id e c ∈ s.hub.todo → c ∈ s.hub.maps.clients
  closing : ∀ c, .closeSend c ∈ s.hub.todo → Ended s c ∧ (s.send c).closed = false
  closed : ∀ c, (s.send c).closed = true → Ended s c
  calm : s.panicked = false

/-- A step that removes no client, adds no task and closes no queue. -/
theorem QueueInv.quiet (h : QueueInv s) (hmove : Move parse s a s')
    (htodo : s'.hub.todo.Sublist s.hub.todo)
    (hclients : ∀ c ∈ s.hub.maps.clients, c ∈ s'.hub.maps.clients)
    (hsend : ∀ c, (s'.send c).closed = (s.send c).closed) (hcalm : s'.panicked = s.panicked) :
    QueueInv s' where
  life := hmove.life h.life
  apart := h.apart.sublist htodo
  receivers k id e c hmem := hclients c (h.receivers k id e c (htodo.subset hmem))
  closing c hmem := by
    obtain ⟨hended, hopen⟩ := h.closing c (htodo.subset hmem)
    exact ⟨hmove.ended h.life hended, by rw [hsend]; exact hopen⟩
  closed c hclosed := hmove.ended h.life (h.closed c (by rw [← hsend]; exact hclosed))
  calm := by rw [hcalm]; exact h.calm

/-- The clients of the Hub have open queues. -/
theorem QueueInv.open (h : QueueInv s) (hc : c ∈ s.hub.maps.clients) :
    (s.send c).closed = false := by
  by_contra hclosed
  exact (h.closed c (by simpa using hclosed)).2.1 hc

theorem enqueue_open {e : Event} (hopen : (s.send c).closed = false) :
    (∀ c', ((s.enqueue c e).send c').closed = (s.send c').closed) ∧
      (s.enqueue c e).panicked = s.panicked := by
  unfold Server.enqueue
  split
  · rename_i ch hch
    refine ⟨fun c' => ?_, rfl⟩
    by_cases hc : c' = c
    · subst hc
      rw [Chan.trySend_ok hch]
      simp
    · simp [hc]
  · exact ⟨fun _ => rfl, rfl⟩
  · rename_i hch
    rw [Chan.trySend_panic hch] at hopen
    cases hopen

/-- Removing a client that is there: the tasks it adds, and the rest. -/
theorem QueueInv.remove {ids : List UUID} {rest : List HubTask} (h : QueueInv s)
    (hmove : Move parse s a s') (hc : c ∈ s.hub.maps.clients)
    (hids : Server.Lists ids (s.hub.maps.clientRooms c))
    (hwhy : c ∈ s'.hub.dropped ∨ s'.thread c = .gone)
    (hrest : rest.Sublist s.hub.todo) (hnames : ∀ t ∈ rest, ¬ t.Names c)
    (hmaps : s'.hub.maps = (s.hub.maps.removeClient ids c).1)
    (htodo : s'.hub.todo = (s.hub.maps.removeClient ids c).2 ++ rest)
    (hsend : s'.send = s.send) (hcalm : s'.panicked = s.panicked) : QueueInv s' := by
  have hrem := Maps.removeClient_removed h.life.maps hc hids.2
  have hended : Ended s' c := by
    refine ⟨hmove.registered h.life (h.life.clients c hc), ?_, hwhy⟩
    rw [hmaps, hrem.clients]
    simp
  obtain ⟨ts, hts, htasks⟩ := hrem.tasks
  rw [htasks] at htodo
  have hmem : ∀ t, t ∈ s'.hub.todo →
      (∃ k id, t = .unsubscribe k id) ∨ t = .closeSend c ∨ t = .disconnected c.userID ids ∨
        t ∈ rest := by
    intro t ht
    rw [htodo] at ht
    simp only [List.mem_append, List.mem_cons, List.not_mem_nil, or_false] at ht
    rcases ht with (h₁ | h₁ | h₁) | h₁
    · exact .inl (hts t h₁)
    · exact .inr (.inl h₁)
    · exact .inr (.inr (.inl h₁))
    · exact .inr (.inr (.inr h₁))
  refine ⟨hmove.life h.life, ?_, ?_, ?_, ?_, by rw [hcalm]; exact h.calm⟩
  · rw [htodo]
    have hfree : ∀ t ∈ ts, ∀ t', Apart t t' := by
      intro t ht t' c' hn
      obtain ⟨k, id, rfl⟩ := hts t ht
      exact False.elim hn
    have hpair : (ts ++ [HubTask.closeSend c, .disconnected c.userID ids]).Pairwise Apart := by
      refine List.pairwise_append.mpr ⟨?_, ?_, fun t ht t' _ => hfree t ht t'⟩
      · exact List.pairwise_of_forall_mem_list fun t ht t' _ => hfree t ht t'
      · simp [Apart, HubTask.Names]
    refine List.pairwise_append.mpr ⟨hpair, h.apart.sublist hrest, ?_⟩
    intro t ht t' ht' c' hn
    rcases List.mem_append.mp ht with h₁ | h₁
    · exact hfree t h₁ t' c' hn
    · rcases List.mem_pair.mp h₁ with rfl | rfl
      · cases hn
        exact hnames t' ht'
      · exact False.elim hn
  · intro k id e c' ht
    rcases hmem _ ht with ⟨_, _, h₁⟩ | h₁ | h₁ | h₁
    · cases h₁
    · cases h₁
    · cases h₁
    · rw [hmaps, hrem.clients]
      refine Finset.mem_erase.mpr ⟨?_, h.receivers k id e c' (hrest.subset h₁)⟩
      rintro rfl
      exact hnames _ h₁ rfl
  · intro c' ht
    rcases hmem _ ht with ⟨_, _, h₁⟩ | h₁ | h₁ | h₁
    · cases h₁
    · cases h₁
      exact ⟨hended, by rw [hsend]; exact h.open hc⟩
    · cases h₁
    · obtain ⟨hended', hopen⟩ := h.closing c' (hrest.subset h₁)
      exact ⟨hmove.ended h.life hended', by rw [hsend]; exact hopen⟩
  · intro c' hclosed
    rw [hsend] at hclosed
    exact hmove.ended h.life (h.closed c' hclosed)

/-- No dropped client is sent an error reply. -/
def RepliesBeforeDrop (s : Server) : Action → Prop
  | .perform c _ => ∀ code message k,
      s.thread c = .running (.op (.sendError code message) k) → c ∉ s.hub.dropped
  | _ => True

/-- The head of `todo` names no client of its rest. -/
theorem QueueInv.head {t : HubTask} {rest : List HubTask} (h : QueueInv s)
    (htodo : s.hub.todo = t :: rest) (hn : t.Names c) : ∀ t' ∈ rest, ¬ t'.Names c := by
  have hpair := h.apart
  rw [htodo] at hpair
  exact fun t' ht' => List.rel_of_pairwise_cons hpair ht' c hn

theorem sublist_of_todo {t : HubTask} {rest : List HubTask} (htodo : s.hub.todo = t :: rest) :
    rest.Sublist s.hub.todo := by
  rw [htodo]
  exact List.sublist_cons_self t rest

/-- A task that is not addressed to a client leaves the queues alone. -/
theorem QueueInv.task {t : HubTask} {rest : List HubTask} (h : QueueInv s)
    (hmove : Move parse s a s') (htodo : s.hub.todo = t :: rest)
    (hhub : s'.hub = { s.hub with todo := rest }) (hsend : s'.send = s.send)
    (hcalm : s'.panicked = s.panicked) : QueueInv s' := by
  refine h.quiet hmove ?_ ?_ (fun c => by rw [hsend]) hcalm
  · rw [hhub]
    exact sublist_of_todo htodo
  · rw [hhub]
    exact fun _ hc => hc

theorem QueueInv.broadcast {k : Kind} {order : List Client} {id : UUID} {payload : Event}
    {rest : List (UUID × Event)} (h : QueueInv s) (hmove : Move parse s a s')
    (horder : Server.Lists order ((s.hub.maps.index k).members id))
    (hs' : s' = { s with hub := { s.hub with
      broadcast := Function.update s.hub.broadcast k rest
      todo := order.map (.deliver k id payload) } }) : QueueInv s' := by
  subst hs'
  refine ⟨hmove.life h.life, ?_, ?_, ?_, ?_, h.calm⟩
  · show (order.map (HubTask.deliver k id payload)).Pairwise Apart
    refine List.pairwise_map.mpr (horder.1.imp fun hne c hn hn' => hne ?_)
    exact Eq.trans hn hn'.symm
  · intro k' id' e c hmem
    obtain ⟨c', hc', heq⟩ := List.mem_map.mp hmem
    cases heq
    have hmem : c ∈ (s.hub.maps.index k).members id := by
      rw [← horder.2]
      simpa using hc'
    exact h.life.maps.mem_clients hmem
  · intro c hmem
    obtain ⟨c', _, heq⟩ := List.mem_map.mp hmem
    cases heq
  · exact fun c hclosed => hmove.ended h.life (h.closed c hclosed)

theorem QueueInv.closeSend {rest : List HubTask} {ids : List UUID} (h : QueueInv s)
    (htodo : s.hub.todo = .closeSend c :: rest)
    (hmove : Move parse s (.hubTask ids) (s.closeSend c rest)) : QueueInv (s.closeSend c rest) := by
  obtain ⟨hended, hopen⟩ := h.closing c (by simp [htodo])
  have heq : s.closeSend c rest = { s with
      send := Function.update s.send c { s.send c with closed := true }
      hub := { s.hub with todo := rest } } := by
    unfold Server.closeSend
    rw [hopen]
    rfl
  rw [heq] at hmove ⊢
  have hsub := sublist_of_todo htodo
  refine ⟨hmove.life h.life, h.apart.sublist hsub, ?_, ?_, ?_, h.calm⟩
  · exact fun k id e c' hmem => h.receivers k id e c' (hsub.subset hmem)
  · intro c' hmem
    obtain ⟨hended', hopen'⟩ := h.closing c' (hsub.subset hmem)
    have hne : c' ≠ c := by
      rintro rfl
      exact h.head htodo rfl _ hmem rfl
    exact ⟨hmove.ended h.life hended', by simpa [hne] using hopen'⟩
  · intro c' hclosed
    by_cases hc : c' = c
    · rw [hc]
      exact hmove.ended h.life hended
    · exact hmove.ended h.life (h.closed c' (by simpa [hc] using hclosed))

theorem Move.queueInv (hmove : Move parse s a s') (hok : RepliesBeforeDrop s a)
    (h : QueueInv s) : QueueInv s' := by
  have hm := hmove
  have hsame : ∀ c, (s.send c).closed = (s.send c).closed := fun _ => rfl
  have hkeep : ∀ c ∈ s.hub.maps.clients, c ∈ s.hub.maps.clients := fun _ hc => hc
  cases hmove with
  | quiet hq =>
    refine h.quiet hm ?_ ?_ ?_ hq.panicked
    · rw [hq.hub]
    · rw [hq.hub]
      exact hkeep
    · intro c
      rw [hq.send]
  | sendError hc =>
    rename_i c env code message k
    have hnotdropped : c ∉ s.hub.dropped := hok code message k hc
    have hopen : (s.send c).closed = false := by
      by_contra hclosed
      rcases (h.closed c (by simpa using hclosed)).2.2 with hd | hgone
      · exact hnotdropped hd
      · rw [hc] at hgone
        cases hgone
    obtain ⟨hsend, hcalm⟩ := enqueue_open (e := .error code message) hopen
    refine h.quiet hm ?_ ?_ hsend hcalm
    · show (s.enqueue c _).hub.todo.Sublist s.hub.todo
      rw [enqueue_hub]
    · show ∀ c' ∈ _, c' ∈ (s.enqueue c _).hub.maps.clients
      rw [enqueue_hub]
      exact hkeep
  | hubRegister htodo hreg =>
    exact h.quiet hm (.refl _) (fun c hc => Finset.mem_insert_of_mem hc) hsame rfl
  | hubUnregister htodo hq hids =>
    rename_i ids c rest
    by_cases hc : c ∈ s.hub.maps.clients
    · refine h.remove hm hc hids (.inr ?_) (List.nil_sublist _) (by simp) rfl (by simp) rfl rfl
      exact h.life.unregister c (by simp [hq])
    · rw [Maps.removeClient_of_not_mem hc] at hm ⊢
      exact h.quiet hm (List.nil_sublist _) hkeep hsame rfl
  | hubJoin htodo hq =>
    refine h.quiet hm (.refl _) ?_ hsame rfl
    show ∀ c' ∈ _, c' ∈ (s.hub.maps.addToRoom _ _).clients
    rw [addToRoom_clients]
    exact hkeep
  | hubLeave htodo hq =>
    rename_i c r rest
    have hun : ∀ t ∈ (s.hub.maps.removeFromRoom c r).2, t = .unsubscribe .room r := by
      intro t ht
      unfold Maps.removeFromRoom at ht
      split at ht
      · cases ht
      · exact Maps.mem_detach_tasks ht
    refine ⟨hm.life h.life, ?_, ?_, ?_, ?_, h.calm⟩
    · refine List.pairwise_of_forall_mem_list fun t ht t' _ c' hn => ?_
      rw [hun t ht] at hn
      exact False.elim hn
    · intro k id e c' ht
      cases hun _ ht
    · intro c' ht
      cases hun _ ht
    · exact fun c' hclosed => hm.ended h.life (h.closed c' hclosed)
  | hubBroadcast htodo hq horder =>
    exact h.broadcast hm horder rfl
  | delivered htodo hch =>
    rename_i ids k id payload c rest ch
    refine h.quiet hm (sublist_of_todo htodo) hkeep (fun c' => ?_) rfl
    by_cases hc : c' = c
    · subst hc
      rw [Chan.trySend_ok hch]
      simp
    · simp [hc]
  | dropped htodo hch hids =>
    rename_i ids k id payload c rest
    have hc : c ∈ s.hub.maps.clients := h.receivers k id payload c (by simp [htodo])
    exact h.remove hm hc hids (.inl (Finset.mem_insert_self c _)) (sublist_of_todo htodo)
      (h.head htodo rfl) rfl rfl rfl rfl
  | deliverPanic htodo hch =>
    rename_i ids k id payload c rest
    have hopen := h.open (h.receivers k id payload c (by simp [htodo]))
    rw [Chan.trySend_panic hch] at hopen
    cases hopen
  | unsubscribe htodo => exact h.task hm htodo rfl rfl rfl
  | closeSend htodo => exact h.closeSend htodo hm
  | disconnected htodo => exact h.task hm htodo rfl rfl rfl
  | write _ _ =>
    rename_i c e rest _ _
    refine h.quiet hm (.refl _) hkeep (fun c' => ?_) rfl
    by_cases hc : c' = c
    · subst hc
      simp
    · simp [hc]
  | brokerApply _ =>
    refine h.quiet hm ?_ ?_ (fun c => ?_) ?_
    · rw [brokerApply_hub]
    · rw [brokerApply_hub]
      exact hkeep
    · rw [brokerApply_send]
    · rw [brokerApply_panicked]
  | _ => exact h.quiet hm (.refl _) hkeep hsame rfl

theorem queueInv_new : QueueInv Server.new where
  life := life_new
  apart := by simp [Server.new, Hub.new]
  receivers := by simp [Server.new, Hub.new]
  closing := by simp [Server.new, Hub.new]
  closed := by simp [Server.new, Chan.empty]
  calm := rfl

/-- In every run in which no dropped client is sent an error reply, no goroutine
    sends on a closed queue or closes one twice. -/
theorem sends_on_open_queues (parse : String → Option UUID) (s : Server)
    (hrun : Reach (Server.step parse) RepliesBeforeDrop Server.new s) : s.panicked = false := by
  have hinv : QueueInv s :=
    hrun.invariant QueueInv (fun _ _ _ h hok hs => (Server.step_move hs).2.queueInv hok h)
      queueInv_new
  exact hinv.calm

/-! ## A slow consumer -/

/-- A connection of user 7. -/
def slowClient : Client := ⟨0, 7, "ada"⟩

/-- One frame that is not JSON, and its error reply. -/
def badFrame : List Action := [.read slowClient none, .perform slowClient answers]

/-- The reply to a frame that is not JSON. -/
def notJSON : Event := .error "invalid_input" "message must be a JSON object with a type field"

/-- No client that has been dropped goes on. -/
def undropped (s : Server) : Action → Bool
  | .perform c _ => c ∉ s.hub.dropped
  | _ => true

theorem repliesBeforeDrop_of_undropped (s : Server) (a : Action) (h : undropped s a = true) :
    RepliesBeforeDrop s a := by
  unfold undropped at h
  split at h
  · exact fun _ _ _ _ => by simpa using h
  · unfold RepliesBeforeDrop
    split
    · simp_all
    · trivial

theorem sends_on_open_queues_reply :
    ((after (fun _ => none) (connect slowClient ++ badFrame)).send slowClient).buffer = [notJSON] ∧
      (after (fun _ => none) (connect slowClient ++ badFrame)).panicked = false := by
  refine ⟨rfl, sends_on_open_queues (fun _ => none) _ ?_⟩
  have hexec : exec (Server.step fun _ => none) Server.new (connect slowClient ++ badFrame) =
      some (after (fun _ => none) (connect slowClient ++ badFrame)) := rfl
  exact Reach.of_exec (meets_of_checks repliesBeforeDrop_of_undropped rfl) hexec

/-- A bad frame of a client that is reading puts one reply on its queue. -/
theorem exec_badFrame (hcalm : s.panicked = false)
    (hthread : s.thread slowClient = .running (.ret ())) (hwait : s.waiting slowClient = none)
    {buffer : List Event} (hsend : s.send slowClient = ⟨buffer, false⟩)
    (hlen : buffer.length < sendBuffer) :
    exec (Server.step parse) s badFrame =
      some { s with send := Function.update s.send slowClient ⟨buffer ++ [notJSON], false⟩ } := by
  have hread : s.step parse (.read slowClient none) =
      some (s.resume slowClient (dispatch parse slowClient none)) := by
    simp only [Server.step, hcalm, Server.act, hthread]
    rfl
  have hreply : ∀ p, (s.resume slowClient p).enqueue slowClient notJSON =
      { s.resume slowClient p with
        send := Function.update s.send slowClient ⟨buffer ++ [notJSON], false⟩ } := by
    intro p
    simp [Server.enqueue, Server.resume, hsend, Chan.trySend, hlen]
  have hperform : (s.resume slowClient (dispatch parse slowClient none)).step parse
      (.perform slowClient answers) =
      some (((s.resume slowClient (dispatch parse slowClient none)).enqueue slowClient
        notJSON).resume slowClient (.ret ())) := by
    simp [Server.step, Server.resume, hcalm, Server.act, Server.perform, notJSON, dispatch,
      sendError, Proc.perform]
  have hback : Function.update s.thread slowClient (.running (.ret ())) = s.thread :=
    Function.update_eq_self_iff.mpr hthread.symm
  have hback' : Function.update s.waiting slowClient none = s.waiting :=
    Function.update_eq_self_iff.mpr hwait.symm
  simp only [badFrame, exec, hread, Option.bind_some, hperform, hreply]
  simp [Server.resume, Function.update_idem, hback, hback']

/-- Bad frames fill the queue of a client that does not read its socket. -/
theorem exec_badFrames (n : ℕ) (hcalm : s.panicked = false)
    (hthread : s.thread slowClient = .running (.ret ())) (hwait : s.waiting slowClient = none)
    {buffer : List Event} (hsend : s.send slowClient = ⟨buffer, false⟩)
    (hlen : buffer.length + n ≤ sendBuffer) :
    exec (Server.step parse) s (List.replicate n badFrame).flatten =
      some { s with
        send := Function.update s.send slowClient
          ⟨buffer ++ List.replicate n notJSON, false⟩ } := by
  induction n generalizing s buffer with
  | zero => simp [exec, ← hsend]
  | succ n ih =>
    rw [List.replicate_succ, List.flatten_cons, exec_append,
      exec_badFrame hcalm hthread hwait hsend (by omega), Option.bind_some]
    have hlen' : (buffer ++ [notJSON]).length + n ≤ sendBuffer := by
      rw [List.length_append, List.length_singleton]
      omega
    rw [ih (s := { s with
      send := Function.update s.send slowClient ⟨buffer ++ [notJSON], false⟩ }) hcalm hthread hwait
      (by simp) hlen']
    simp [List.replicate_succ]

/-- Somebody invites the user, the Hub drops the client for its full queue and
    closes the queue, and the client sends another bad frame. -/
def overflowActions : List Action :=
  [.arrive .user 7 (.room (.roomInvited 5)), .brokerReceive .user, .brokerForward,
    .hubBroadcast .user [slowClient], .hubTask [], .hubTask [], .hubTask []] ++ badFrame

def slowConsumer : List Action :=
  connect slowClient ++ ((List.replicate 256 badFrame).flatten ++ overflowActions)

/-- The error reply to a dropped client takes the process down. -/
theorem error_reply_after_drop :
    Reach (Server.step fun _ => none) Unguarded Server.new (after (fun _ => none) slowConsumer) ∧
      (after (fun _ => none) slowConsumer).panicked = true := by
  have hconnect : exec (Server.step fun _ => none) Server.new (connect slowClient) =
      some (after (fun _ => none) (connect slowClient)) := rfl
  obtain ⟨s, hs, hpanic⟩ : ∃ s, exec (Server.step fun _ => none) Server.new slowConsumer = some s ∧
      s.panicked = true := by
    rw [slowConsumer, exec_append, hconnect, Option.bind_some, exec_append,
      exec_badFrames 256 rfl rfl rfl rfl (by decide), Option.bind_some]
    exact (Option.any_eq_true Server.panicked _).mp (by decide +kernel)
  have heq : after (fun _ => none) slowConsumer = s := by
    unfold after
    rw [hs]
    rfl
  rw [heq]
  exact ⟨Reach.of_exec (meets_unguarded _ _ slowConsumer) hs, hpanic⟩

end ConvoyChat.Websocket
