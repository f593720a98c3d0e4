import ConvoyChat.Websocket.Lifecycle

/-!
# Subscriptions that follow local interest

A connection makes sure that its room's channel is subscribed before it joins the
room (`EnsureSubscribed`, then `Hub.Join`), and that its user's channel is
subscribed before it reads. When the last client of a room or of a user leaves, the
Hub asks the Broker to unsubscribe, through the same channel of requests but with
no regard to the connections that were answered in between.

* `SubInv`: while nothing is unsubscribed under a connection that relies on it,
  whoever is in a room, or on the way into it, has its channel subscribed.
* `watched_rooms_subscribed`: the runs in which no unsubscribe is applied to a
  channel that somebody relies on.
* `join_meets_last_leave`: the last client of a room leaves while another one has
  just been told that the room is subscribed.
-/

namespace ConvoyChat.Websocket

open ConvoyChat.Lib

variable {parse : String → Option UUID} {s s' : Server} {a : Action} {c : Client} {r : UUID}

/-! ## Who relies on a subscription -/

/-- `c` is registered, or its registration is queued. -/
def Alive (s : Server) (c : Client) : Prop :=
  c ∈ s.hub.maps.clients ∨ c ∈ s.hub.register

/-- The answer is not that room `r` is subscribed. -/
def Unensured (r : UUID) : (o : ConnOp) → o.Res → Prop
  | .ensure k id, res => ¬ (k = .room ∧ id = r ∧ res = .ok ())
  | _, _ => True

/-- The goroutine of `c` may call `Hub.Join` for `r` without asking the Broker for
    it again. -/
def Joining (s : Server) (c : Client) (r : UUID) : Prop :=
  ∃ p, s.thread c = .running p ∧ p.Can (Unensured r) (· = .join r)

/-- `EnsureSubscribed` of `c` for `r` has been answered and has not yet returned. -/
def Answered (s : Server) (c : Client) (r : UUID) : Prop :=
  ∃ k n, s.thread c = .running (.op (.ensure .room r) k) ∧ s.waiting c = some n ∧
    s.broker.ready n = some (.ok ())

/-- `c` is in room `r`, or enters it without asking the Broker again. -/
def Watching (s : Server) (c : Client) (r : UUID) : Prop :=
  Alive s c ∧ (c ∈ s.hub.maps.rooms.members r ∨ (c, r) ∈ s.hub.join ∨ Joining s c r ∨
    Answered s c r)

/-- `c` is about to ask for the channel of its user. -/
def Asks (s : Server) (c : Client) : Prop :=
  s.thread c = .running (afterRegister c) ∧ s.waiting c = none

/-- A request to subscribe to the channel of `u` is queued. -/
def Queued (s : Server) (u : UUID) : Prop :=
  ∃ req ∈ (s.broker.subs .user).reqs, req.subscribe = true ∧ req.id = u

/-- Some connection relies on the channel and will not ask for it again. -/
def Wanted (s : Server) : Kind → UUID → Prop
  | .room, r => ∃ c, Watching s c r
  | .user, u => (∃ c, c.userID = u ∧ Alive s c ∧ ¬ Asks s c) ∧ ¬ Queued s u

/-- Redis answers, no unsubscribe is applied to a channel that is wanted, and no
    connection gives up before it has asked for the channel of its user. -/
def UnsubscribesUnwanted (s : Server) : Action → Prop
  | .brokerApply ok => ok = true ∧
      ∀ k req, s.broker.task = .apply k req → req.subscribe = false → ¬ Wanted s k req.id
  | .timeout c => ¬ Asks s c
  | _ => True

/-! ## The `ready` channels -/

/-- The Broker still has to answer the request. -/
def Open (s : Server) (k : Kind) (req : SubRequest) : Prop :=
  req ∈ (s.broker.subs k).reqs ∨ s.broker.task = .apply k req

structure Waits (s : Server) : Prop where
  fresh : ∀ n, s.broker.nextReady ≤ n → s.broker.ready n = none
  bounded : ∀ c n, s.waiting c = some n →
    n < s.broker.nextReady ∧ ∃ k id f, s.thread c = .running (.op (.ensure k id) f)
  owner : ∀ k req n, Open s k req → req.ready = some n → n < s.broker.nextReady ∧
    req.subscribe = true ∧ ∀ c k' id f, s.waiting c = some n →
      s.thread c = .running (.op (.ensure k' id) f) → k' = k ∧ id = req.id

theorem waiting_resume (s : Server) (c₀ : Client) (p : ConnProc Unit) (c : Client) :
    (s.resume c₀ p).waiting c = none ∨
      ((s.resume c₀ p).waiting c = s.waiting c ∧ (s.resume c₀ p).thread c = s.thread c) := by
  by_cases hc : c = c₀
  · exact .inl (by simp [Server.resume, hc])
  · exact .inr ⟨by simp [Server.resume, hc], by simp [Server.resume, hc]⟩

/-- A goroutine that is not in `EnsureSubscribed` waits for nothing. -/
theorem Waits.idle (h : Waits s) {c₀ : Client} {t : Thread}
    (hidle : ∀ k id f, s.thread c₀ ≠ .running (.op (.ensure k id) f)) (c : Client) :
    s.waiting c = none ∨
      (s.waiting c = s.waiting c ∧ Function.update s.thread c₀ t c = s.thread c) := by
  by_cases hc : c = c₀
  · subst hc
    cases hw : s.waiting c with
    | none => exact .inl rfl
    | some n =>
      obtain ⟨-, k, id, f, ht⟩ := h.bounded c n hw
      exact absurd ht (hidle k id f)
  · exact .inr ⟨rfl, by simp [hc]⟩

theorem enqueue_waiting (c : Client) (e : Event) : (s.enqueue c e).waiting = s.waiting := by
  unfold Server.enqueue
  split <;> rfl

theorem enqueue_broker (c : Client) (e : Event) : (s.enqueue c e).broker = s.broker := by
  unfold Server.enqueue
  split <;> rfl

theorem closeSend_waiting (c : Client) (rest : List HubTask) :
    (s.closeSend c rest).waiting = s.waiting := by
  unfold Server.closeSend
  split <;> rfl

theorem closeSend_broker (c : Client) (rest : List HubTask) :
    (s.closeSend c rest).broker = s.broker := by
  unfold Server.closeSend
  split <;> rfl

theorem brokerApply_waiting (k : Kind) (req : SubRequest) (ok : Bool) :
    (s.brokerApply k req ok).waiting = s.waiting := by
  unfold Server.brokerApply Server.answerReady
  split <;> rfl

/-- `c` has put its request on the channel of the Broker. -/
structure Asked (s s' : Server) (a : Action) (c : Client) : Prop where
  action : a = .request c
  waiting : s'.waiting c = some s.broker.nextReady
  thread : s'.thread c = s.thread c
  nextReady : s'.broker.nextReady = s.broker.nextReady + 1
  request : ∃ k id f, s.thread c = .running (.op (.ensure k id) f) ∧
    Open s' k ⟨id, true, some s.broker.nextReady⟩

/-- A connection waits from its request on, until it goes on. -/
theorem Move.waiting (hmove : Move parse s a s') (h : Waits s) (c : Client) :
    s'.waiting c = none ∨ (s'.waiting c = s.waiting c ∧ s'.thread c = s.thread c) ∨
      Asked s s' a c := by
  cases hmove with
  | quiet hq =>
    rw [hq.waiting, hq.thread]
    exact .inr (.inl ⟨rfl, rfl⟩)
  | accept hc => exact (h.idle (by simp [hc]) c).imp_right .inl
  | read _ => exact (waiting_resume s _ _ c).imp_right .inl
  | readError hc => exact (h.idle (by simp [hc]) c).imp_right .inl
  | unregister hc _ => exact (h.idle (by simp [hc]) c).imp_right .inl
  | call _ => exact (waiting_resume s _ _ c).imp_right .inl
  | sendError _ =>
    rename_i c₀ env code message k hc
    have h₀ := waiting_resume (s.enqueue c₀ (.error code message)) c₀ (k ()) c
    rw [enqueue_waiting, enqueue_thread] at h₀
    exact h₀.imp_right .inl
  | register _ _ => exact (waiting_resume s _ _ c).imp_right .inl
  | join _ _ => exact (waiting_resume s _ _ c).imp_right .inl
  | leave _ _ => exact (waiting_resume s _ _ c).imp_right .inl
  | typingStart _ => exact (waiting_resume s _ _ c).imp_right .inl
  | typingStop _ => exact (waiting_resume s _ _ c).imp_right .inl
  | request hc hwait hq =>
    rename_i c₀ k id f reqs
    by_cases heq : c = c₀
    · subst heq
      refine .inr (.inr ⟨rfl, by simp, rfl, rfl, k, id, f, hc, .inl ?_⟩)
      rw [push_eq_some hq]
      simp
    · exact .inr (.inl ⟨by simp [heq], rfl⟩)
  | receiveReady _ _ _ => exact (waiting_resume s _ _ c).imp_right .inl
  | timeout _ => exact (waiting_resume s _ _ c).imp_right .inl
  | closeSend _ =>
    rw [closeSend_waiting, closeSend_thread]
    exact .inr (.inl ⟨rfl, rfl⟩)
  | brokerApply _ =>
    rw [brokerApply_waiting, brokerApply_thread]
    exact .inr (.inl ⟨rfl, rfl⟩)
  | _ => exact .inr (.inl ⟨rfl, rfl⟩)

/-! ## What a step does to the Broker -/

theorem brokerApply_ready (k : Kind) (req : SubRequest) (ok : Bool) {n : ℕ}
    {res : Except StoreErr Unit} (h : (s.brokerApply k req ok).broker.ready n = some res) :
    s.broker.ready n = some res ∨
      (req.ready = some n ∧ res = ((s.broker.subs k).apply req ok).2) := by
  unfold Server.brokerApply Server.answerReady at h
  split at h
  · exact .inl h
  · rename_i m hm
    by_cases hn : n = m
    · subst hn
      have heq : ((s.broker.subs k).apply req ok).2 = res := by
        simpa [Server.setSub] using h
      exact .inr ⟨hm, heq.symm⟩
    · exact .inl (by simpa [Server.setSub, hn] using h)

theorem brokerApply_nextReady (k : Kind) (req : SubRequest) (ok : Bool) :
    (s.brokerApply k req ok).broker.nextReady = s.broker.nextReady := by
  unfold Server.brokerApply Server.answerReady
  split <;> rfl

theorem brokerApply_task (k : Kind) (req : SubRequest) (ok : Bool) :
    (s.brokerApply k req ok).broker.task = .idle := by
  unfold Server.brokerApply Server.answerReady
  split <;> rfl

theorem brokerApply_subs (k : Kind) (req : SubRequest) (ok : Bool) :
    (s.brokerApply k req ok).broker.subs =
      Function.update s.broker.subs k ((s.broker.subs k).apply req ok).1 := by
  unfold Server.brokerApply Server.answerReady
  split <;> rfl

theorem apply_reqs (sub : Subscription) (req : SubRequest) (ok : Bool) :
    (sub.apply req ok).1.reqs = sub.reqs := by
  unfold Subscription.apply
  split_ifs <;> rfl

/-- The Broker's part of a step that is not `brokerApply`. -/
structure Requests (s s' : Server) (a : Action) : Prop where
  ready : s'.broker.ready = s.broker.ready
  nextReady : s.broker.nextReady ≤ s'.broker.nextReady
  opens : ∀ k req, Open s' k req → Open s k req ∨ (req.ready = none ∧ req.subscribe = false) ∨
    ∃ c id f, a = .request c ∧ s.thread c = .running (.op (.ensure k id) f) ∧
      req = ⟨id, true, some s.broker.nextReady⟩ ∧ s'.broker.nextReady = s.broker.nextReady + 1
  keeps : ∀ k req, Open s k req → Open s' k req
  subs : s.cancelled = false → ∀ k, (s'.broker.subs k).subscribed = (s.broker.subs k).subscribed ∧
    (s'.broker.subs k).redis = (s.broker.subs k).redis

theorem update_field {β : Type} {subs : Kind → Subscription} {k : Kind} {sub : Subscription}
    (f : Subscription → β) (h : f sub = f (subs k)) (k' : Kind) :
    f (Function.update subs k sub k') = f (subs k') := by
  by_cases hk : k' = k
  · subst hk
    simpa using h
  · simp [hk]

/-- Only the requests or the messages of a subscription change. -/
theorem update_subs {subs : Kind → Subscription} {k : Kind} {sub : Subscription}
    (h : sub.subscribed = (subs k).subscribed ∧ sub.redis = (subs k).redis) (k' : Kind) :
    (Function.update subs k sub k').subscribed = (subs k').subscribed ∧
      (Function.update subs k sub k').redis = (subs k').redis :=
  ⟨update_field Subscription.subscribed h.1 k', update_field Subscription.redis h.2 k'⟩

/-- The requests are the same, and the Broker takes none. -/
theorem requests_of_same (hready : s'.broker.ready = s.broker.ready)
    (hnext : s'.broker.nextReady = s.broker.nextReady)
    (htask : ∀ k req, s'.broker.task = .apply k req ↔ s.broker.task = .apply k req)
    (hreqs : ∀ k, (s'.broker.subs k).reqs = (s.broker.subs k).reqs)
    (hsubs : s.cancelled = false → ∀ k,
      (s'.broker.subs k).subscribed = (s.broker.subs k).subscribed ∧
        (s'.broker.subs k).redis = (s.broker.subs k).redis) : Requests s s' a := by
  have hopen : ∀ k req, Open s' k req ↔ Open s k req := by
    intro k req
    unfold Open
    rw [hreqs, htask]
  exact ⟨hready, hnext.symm.le, fun k req h => .inl ((hopen k req).mp h),
    fun k req h => (hopen k req).mpr h, hsubs⟩

theorem requests_of_eq (hb : s'.broker = s.broker) : Requests s s' a :=
  requests_of_same (by rw [hb]) (by rw [hb]) (fun _ _ => by rw [hb]) (fun _ => by rw [hb])
    (fun _ _ => by rw [hb]; exact ⟨rfl, rfl⟩)

theorem push_getD {cap : ℕ} {q : List SubRequest} {x req : SubRequest}
    (h : req ∈ (push cap q x).getD q) : req ∈ q ∨ req = x := by
  cases hq : push cap q x with
  | none =>
    rw [hq] at h
    exact .inl h
  | some q' =>
    rw [hq, push_eq_some hq] at h
    simpa using h

theorem mem_push_getD {cap : ℕ} {q : List SubRequest} {x req : SubRequest} (h : req ∈ q) :
    req ∈ (push cap q x).getD q := by
  cases hq : push cap q x with
  | none => exact h
  | some q' =>
    rw [push_eq_some hq]
    exact List.mem_append_left _ h

theorem requests_unsubscribe (k : Kind) (id : UUID)
    (hb : s'.broker = (s.unsubscribe k id).broker) : Requests s s' a := by
  unfold Server.unsubscribe Server.setSub at hb
  obtain ⟨hub, broker, _⟩ := s'
  subst hb
  refine ⟨rfl, le_rfl, ?_, ?_, ?_⟩
  · rintro k' req (hmem | htask)
    · by_cases hk : k' = k
      · subst hk
        have hmem : req ∈ (push subRequestBuffer (s.broker.subs k').reqs ⟨id, false, none⟩).getD
            (s.broker.subs k').reqs := by
          simpa using hmem
        rcases push_getD hmem with h | rfl
        · exact .inl (.inl h)
        · exact .inr (.inl ⟨rfl, rfl⟩)
      · exact .inl (.inl (by simpa [hk] using hmem))
    · exact .inl (.inr htask)
  · rintro k' req (hmem | htask)
    · by_cases hk : k' = k
      · subst hk
        refine .inl ?_
        simpa using mem_push_getD hmem
      · exact .inl (by simpa [hk] using hmem)
    · exact .inr htask
  · exact fun _ => update_subs (by exact ⟨rfl, rfl⟩)

theorem Move.requests (hmove : Move parse s a s') (ha : ∀ ok, a ≠ .brokerApply ok) :
    Requests s s' a := by
  cases hmove with
  | quiet hq => exact requests_of_eq hq.broker
  | arrive _ =>
    exact requests_of_same rfl rfl (fun _ _ => .rfl) (update_field Subscription.reqs (by rfl))
      fun _ => update_subs (by exact ⟨rfl, rfl⟩)
  | sendError _ => exact requests_of_eq (enqueue_broker _ _)
  | request hc hwait hq =>
    rename_i c k id f reqs
    have hreqs := push_eq_some hq
    subst hreqs
    refine ⟨rfl, Nat.le_succ _, ?_, ?_, ?_⟩
    · rintro k' req (hmem | htask)
      · by_cases hk : k' = k
        · subst hk
          have hmem : req ∈ (s.broker.subs k').reqs ++
              [⟨id, true, some s.broker.nextReady⟩] := by simpa using hmem
          rcases List.mem_append.mp hmem with h | h
          · exact .inl (.inl h)
          · exact .inr (.inr ⟨c, id, f, rfl, hc, List.mem_singleton.mp h, rfl⟩)
        · exact .inl (.inl (by simpa [hk] using hmem))
      · exact .inl (.inr htask)
    · rintro k' req (hmem | htask)
      · by_cases hk : k' = k
        · subst hk
          exact .inl (by simp [hmem])
        · exact .inl (by simpa [hk] using hmem)
      · exact .inr htask
    · exact fun _ => update_subs (by exact ⟨rfl, rfl⟩)
  | unsubscribe _ => exact requests_unsubscribe _ _ rfl
  | closeSend _ => exact requests_of_eq (closeSend_broker _ _)
  | brokerTake hidle hq =>
    rename_i k req₀ rest
    refine ⟨rfl, le_rfl, ?_, ?_, ?_⟩
    · rintro k' req (hmem | htask)
      · refine .inl (.inl ?_)
        by_cases hk : k' = k
        · subst hk
          rw [hq]
          exact List.mem_cons_of_mem _ (by simpa [Server.setSub] using hmem)
        · simpa [Server.setSub, hk] using hmem
      · cases htask
        exact .inl (.inl (by simp [hq]))
    · rintro k' req (hmem | htask)
      · by_cases hk : k' = k
        · subst hk
          rw [hq] at hmem
          rcases List.mem_cons.mp hmem with rfl | hmem
          · exact .inr rfl
          · exact .inl (by simpa [Server.setSub] using hmem)
        · exact .inl (by simpa [Server.setSub, hk] using hmem)
      · rw [hidle] at htask
        cases htask
    · exact fun _ => update_subs (by exact ⟨rfl, rfl⟩)
  | brokerApply _ => exact absurd rfl (ha _)
  | brokerReceive hidle _ =>
    refine requests_of_same rfl rfl (fun _ _ => ?_) (update_field Subscription.reqs (by rfl))
      fun _ => update_subs (by exact ⟨rfl, rfl⟩)
    simp [Server.setSub, hidle]
  | brokerForward htask _ =>
    refine requests_of_same rfl rfl (fun _ _ => ?_) (fun _ => rfl) fun _ _ => ⟨rfl, rfl⟩
    simp [htask]
  | brokerReturn hc hidle =>
    refine requests_of_same rfl rfl (fun _ _ => ?_) (fun _ => rfl) fun hlive => ?_
    · simp [hidle]
    · rw [hc] at hlive
      cases hlive
  | _ => exact requests_of_eq rfl

/-! ## The `ready` channels in every step -/

theorem Requests.waits (hreq : Requests s s' a) (hmove : Move parse s a s') (h : Waits s) :
    Waits s' := by
  refine ⟨fun n hn => ?_, fun c n hw => ?_, fun k req n hopen hr => ?_⟩
  · rw [hreq.ready]
    exact h.fresh n (hreq.nextReady.trans hn)
  · rcases hmove.waiting h c with hnone | ⟨hsame, hthread⟩ | hask
    · rw [hnone] at hw
      cases hw
    · rw [hsame] at hw
      rw [hthread]
      exact ⟨(h.bounded c n hw).1.trans_le hreq.nextReady, (h.bounded c n hw).2⟩
    · rw [hask.waiting] at hw
      cases hw
      obtain ⟨k, id, f, ht, -⟩ := hask.request
      rw [hask.nextReady, hask.thread]
      exact ⟨Nat.lt_succ_self _, k, id, f, ht⟩
  · rcases hreq.opens k req hopen with hold | ⟨hnone, -⟩ | ⟨c₀, id₀, f₀, rfl, ht₀, rfl, hnext⟩
    · obtain ⟨hlt, hsub, howner⟩ := h.owner k req n hold hr
      refine ⟨hlt.trans_le hreq.nextReady, hsub, fun c k' id f hw ht => ?_⟩
      rcases hmove.waiting h c with hnone | ⟨hsame, hthread⟩ | hask
      · rw [hnone] at hw
        cases hw
      · rw [hsame] at hw
        rw [hthread] at ht
        exact howner c k' id f hw ht
      · rw [hask.waiting] at hw
        cases hw
        exact absurd hlt (lt_irrefl _)
    · rw [hnone] at hr
      cases hr
    · cases hr
      refine ⟨by rw [hnext]; exact Nat.lt_succ_self _, rfl, fun c k' id f hw ht => ?_⟩
      rcases hmove.waiting h c with hnone | ⟨hsame, -⟩ | hask
      · rw [hnone] at hw
        cases hw
      · rw [hsame] at hw
        exact absurd (h.bounded c _ hw).1 (lt_irrefl _)
      · cases hask.action
        rw [hask.thread, ht₀] at ht
        cases ht
        exact ⟨rfl, rfl⟩

/-- Applying a request keeps the requests that wait. -/
theorem open_brokerApply {k k' : Kind} {req req' : SubRequest} {ok : Bool} :
    Open (s.brokerApply k req ok) k' req' ↔ req' ∈ (s.broker.subs k').reqs := by
  unfold Open
  rw [brokerApply_task, brokerApply_subs,
    update_field Subscription.reqs (apply_reqs (s.broker.subs k) req ok)]
  simp

theorem Waits.brokerApply {k : Kind} {req : SubRequest} {ok : Bool} (h : Waits s)
    (htask : s.broker.task = .apply k req) : Waits (s.brokerApply k req ok) := by
  refine ⟨fun n hn => ?_, fun c n hw => ?_, fun k' req' n hopen hr => ?_⟩
  · rw [brokerApply_nextReady] at hn
    by_contra hne
    obtain ⟨res, hres⟩ := Option.ne_none_iff_exists'.mp hne
    rcases brokerApply_ready k req ok hres with hold | ⟨hr, -⟩
    · rw [h.fresh n hn] at hold
      cases hold
    · have hlt := (h.owner k req n (.inr htask) hr).1
      omega
  · rw [brokerApply_waiting] at hw
    rw [brokerApply_nextReady, brokerApply_thread]
    exact h.bounded c n hw
  · rw [brokerApply_nextReady, brokerApply_waiting, brokerApply_thread]
    exact h.owner k' req' n (.inl (open_brokerApply.mp hopen)) hr

/-! ## Who watches a room after a step -/

theorem afterRegister_never_join (c : Client) (r : UUID) :
    (afterRegister c).Never (Unensured r) (· = .join r) :=
  .perform (by simp) fun _ _ => lift_never (passive_ne id) _

theorem handshake_never_join (c : Client) (r : UUID) :
    (handshake c).Never (Unensured r) (· = .join r) :=
  .perform (by simp) fun _ _ => afterRegister_never_join c r

/-- A frame does not lead into a room that the Broker was not asked for. -/
theorem dispatch_never_join (c : Client) (data : Option InboundEnvelope) (r : UUID) :
    (dispatch parse c data).Never (Unensured r) (· = .join r) := by
  refine dispatch_never (passive_ne id) (fun env _ _ => ?_) (fun env _ _ => ?_)
  · refine handleRoomJoin_never (passive_ne id) (by simp) fun r' _ hr' m _ hok => ?_
    cases hr'
    exact hok ⟨rfl, rfl, rfl⟩
  · exact handleRoomLeave_never (passive_ne id) (by simp)

theorem Move.alive (hmove : Move parse s a s') (hlife : Life s.hub s.thread) (h : Alive s' c) :
    Alive s c ∨ (s.thread c = .running (handshake c) ∧
      s'.thread c = .running (afterRegister c) ∧ s'.waiting c = none) := by
  rcases h with h | h
  · exact .inl (hmove.mem_clients h)
  · exact (hmove.mem_register hlife h).imp_left .inr

theorem Move.joining (hmove : Move parse s a s') (h : Joining s' c r) :
    Joining s c r ∨ Answered s c r := by
  obtain ⟨p', hp', hcan⟩ := h
  have ht := hmove.thread c
  rw [hp'] at ht
  generalize hold : s.thread c = old at ht
  cases ht with
  | same => exact .inl ⟨p', hold, hcan⟩
  | accept _ => exact absurd hcan (handshake_never_join c r)
  | read _ => exact absurd hcan (dispatch_never_join c _ r)
  | next res hgrant =>
    rename_i o k
    by_cases hun : Unensured r o res
    · exact .inl ⟨_, hold, .inr ⟨res, hun, hcan⟩⟩
    · -- the Broker has just answered `EnsureSubscribed`
      cases o with
      | ensure k' id =>
        obtain ⟨rfl, rfl, rfl⟩ : k' = .room ∧ id = r ∧ res = .ok () := by
          simpa [Unensured] using hun
        rcases hgrant with ⟨n, hwait, hready⟩ | ⟨-, hres⟩
        · exact .inr ⟨k, n, hold, hwait, hready⟩
        · cases hres
      | _ => exact absurd trivial hun

theorem Requests.answered (hreq : Requests s s' a) (hmove : Move parse s a s') (hw : Waits s)
    (h : Answered s' c r) : Answered s c r := by
  obtain ⟨k, n, ht, hwait, hready⟩ := h
  rw [hreq.ready] at hready
  rcases hmove.waiting hw c with hnone | ⟨hsame, hthread⟩ | hask
  · rw [hnone] at hwait
    cases hwait
  · exact ⟨k, n, by rw [← hthread]; exact ht, by rw [← hsame]; exact hwait, hready⟩
  · rw [hask.waiting] at hwait
    cases hwait
    rw [hw.fresh _ le_rfl] at hready
    cases hready

/-- Some request for the channel of user `u` is still to be answered. -/
def Pending (s : Server) (u : UUID) : Prop :=
  ∃ req, Open s .user req ∧ req.subscribe = true ∧ req.id = u

structure SubInv (s : Server) : Prop where
  life : Life s.hub s.thread
  waits : Waits s
  joins : ∀ c r, (c, r) ∈ s.hub.join → Started s.thread c
  covered : s.cancelled = false → ∀ k, (s.broker.subs k).subscribed ⊆ (s.broker.subs k).redis
  rooms : s.cancelled = false → ∀ c r, Watching s c r → r ∈ (s.broker.subs .room).subscribed
  users : s.cancelled = false → ∀ c, Alive s c →
    Asks s c ∨ Pending s c.userID ∨ c.userID ∈ (s.broker.subs .user).subscribed

theorem Requests.watching (hreq : Requests s s' a) (hmove : Move parse s a s') (h : SubInv s)
    (hw : Watching s' c r) : Watching s c r := by
  obtain ⟨halive, hwhere⟩ := hw
  have hjoin : (c, r) ∈ s'.hub.join → (c, r) ∈ s.hub.join ∨ Joining s c r := by
    intro hmem
    rcases hmove.mem_join hmem with h₁ | ⟨k, hk⟩
    · exact .inl h₁
    · exact .inr ⟨_, hk, .here rfl⟩
  rcases hmove.alive h.life halive with halive | ⟨hhand, hafter, -⟩
  · refine ⟨halive, ?_⟩
    rcases hwhere with h₁ | h₁ | h₁ | h₁
    · rcases hmove.mem_rooms h.life h₁ with h₂ | h₂
      · exact .inl h₂
      · exact .inr (.inl h₂.1)
    · rcases hjoin h₁ with h₂ | h₂
      · exact .inr (.inl h₂)
      · exact .inr (.inr (.inl h₂))
    · rcases hmove.joining h₁ with h₂ | h₂
      · exact .inr (.inr (.inl h₂))
      · exact .inr (.inr (.inr h₂))
    · exact .inr (.inr (.inr (hreq.answered hmove h.waits h₁)))
  · -- a connection that registers now has not joined anything
    rcases hwhere with h₁ | h₁ | ⟨p, hp, hcan⟩ | ⟨k, n, hk, -, -⟩
    · rcases hmove.mem_rooms h.life h₁ with h₂ | ⟨h₂, hc⟩
      · exact ⟨.inl ((h.life.maps.rooms r c).mp h₂).1, .inl h₂⟩
      · exact ⟨.inl hc, .inr (.inl h₂)⟩
    · rcases hjoin h₁ with h₂ | ⟨p, hp, hcan⟩
      · exact absurd hhand (h.joins c r h₂).2
      · rw [hhand] at hp
        cases hp
        exact absurd hcan (handshake_never_join c r)
    · rw [hafter] at hp
      cases hp
      exact absurd hcan (afterRegister_never_join c r)
    · rw [hafter] at hk
      cases hk

theorem Move.cancelled (hmove : Move parse s a s') (h : s.cancelled = true) :
    s'.cancelled = true := by
  cases hmove with
  | quiet hq => exact hq.cancelled h
  | sendError _ =>
    unfold Server.enqueue Server.resume
    split <;> exact h
  | closeSend _ =>
    unfold Server.closeSend
    split <;> exact h
  | brokerApply _ =>
    unfold Server.brokerApply Server.answerReady
    split <;> exact h
  | _ => exact h

theorem Move.joins (hmove : Move parse s a s') (h : SubInv s) (hmem : (c, r) ∈ s'.hub.join) :
    Started s'.thread c := by
  refine hmove.started h.life ?_
  rcases hmove.mem_join hmem with h₁ | ⟨k, hk⟩
  · exact h.joins c r h₁
  · refine ⟨by simp [hk], fun heq => ?_⟩
    rw [hk] at heq
    cases heq

/-- A connection that is about to ask asks or still is about to. -/
theorem Move.asks (hmove : Move parse s a s') (hok : UnsubscribesUnwanted s a) (hw : Waits s)
    (h : Asks s c) : Asks s' c ∨ Pending s' c.userID := by
  obtain ⟨ht, hwait⟩ := h
  rcases hmove.waiting hw c with hnone | ⟨hsame, hthread⟩ | hask
  · refine .inl ⟨?_, hnone⟩
    have hmv := hmove.thread c
    rw [ht] at hmv
    generalize s'.thread c = new at hmv ⊢
    -- `afterRegister` waits for its answer, and its request has not been made
    cases hmv with
    | same => rfl
    | next res hgrant =>
      rcases hgrant with ⟨n, hn, -⟩ | ⟨rfl, -⟩
      · rw [hwait] at hn
        cases hn
      · exact absurd ⟨ht, hwait⟩ hok
  · exact .inl ⟨by rw [hthread]; exact ht, by rw [hsame]; exact hwait⟩
  · obtain ⟨k, id, f, hk, hopen⟩ := hask.request
    rw [ht] at hk
    cases hk
    exact .inr ⟨_, hopen, rfl, rfl⟩

theorem Requests.subInv (hreq : Requests s s' a) (hmove : Move parse s a s')
    (hok : UnsubscribesUnwanted s a) (h : SubInv s) : SubInv s' := by
  have hlive : s'.cancelled = false → s.cancelled = false := by
    intro hl
    by_contra hc
    rw [hmove.cancelled (by simpa using hc)] at hl
    cases hl
  refine ⟨hmove.life h.life, hreq.waits hmove h.waits, fun c r => hmove.joins h, ?_, ?_, ?_⟩
  · intro hl k
    rw [(hreq.subs (hlive hl) k).1, (hreq.subs (hlive hl) k).2]
    exact h.covered (hlive hl) k
  · intro hl c r hw
    rw [(hreq.subs (hlive hl) .room).1]
    exact h.rooms (hlive hl) c r (hreq.watching hmove h hw)
  · intro hl c halive
    rcases hmove.alive h.life halive with halive | ⟨-, hafter, hnone⟩
    · rcases h.users (hlive hl) c halive with hask | ⟨req, hopen, hsub⟩ | hsub
      · rcases hmove.asks hok h.waits hask with h₁ | h₁
        · exact .inl h₁
        · exact .inr (.inl h₁)
      · exact .inr (.inl ⟨req, hreq.keeps .user req hopen, hsub⟩)
      · rw [(hreq.subs (hlive hl) .user).1]
        exact .inr (.inr hsub)
    · exact .inl ⟨hafter, hnone⟩

/-! ## Applying a request -/

theorem mem_apply_subscribed {sub : Subscription} {req : SubRequest} {id : UUID} :
    id ∈ (sub.apply req true).1.subscribed ↔
      if req.subscribe then id = req.id ∨ id ∈ sub.subscribed
      else id ∈ sub.subscribed ∧ id ≠ req.id := by
  unfold Subscription.apply
  cases hs : req.subscribe with
  | false => simp [and_comm]
  | true =>
    by_cases hmem : req.id ∈ sub.subscribed
    · simp only [Bool.not_true, Bool.false_eq_true, if_false, hmem, if_true]
      constructor
      · exact .inr
      · rintro (rfl | h)
        · exact hmem
        · exact h
    · simp [hmem]

theorem apply_covered {sub : Subscription} {req : SubRequest} (h : sub.subscribed ⊆ sub.redis) :
    (sub.apply req true).1.subscribed ⊆ (sub.apply req true).1.redis := by
  unfold Subscription.apply
  simp only [if_true]
  split
  · exact Finset.erase_subset_erase _ h
  · split
    · exact h
    · exact Finset.insert_subset_insert _ h

theorem Answered.brokerApply {k : Kind} {req : SubRequest} {ok : Bool} (hw : Waits s)
    (htask : s.broker.task = .apply k req) (h : Answered (s.brokerApply k req ok) c r) :
    Answered s c r ∨ (k = .room ∧ req.id = r ∧ req.subscribe = true) := by
  obtain ⟨f, n, ht, hwait, hready⟩ := h
  rw [brokerApply_thread] at ht
  rw [brokerApply_waiting] at hwait
  rcases brokerApply_ready k req ok hready with hold | ⟨hr, -⟩
  · exact .inl ⟨f, n, ht, hwait, hold⟩
  · obtain ⟨-, hsub, howner⟩ := hw.owner k req n (.inr htask) hr
    obtain ⟨hk, hid⟩ := howner c .room r f hwait ht
    exact .inr ⟨hk.symm, hid.symm, hsub⟩

theorem Watching.brokerApply {k : Kind} {req : SubRequest} {ok : Bool} (hinv : SubInv s)
    (htask : s.broker.task = .apply k req) (h : Watching (s.brokerApply k req ok) c r) :
    Watching s c r ∨ (k = .room ∧ req.id = r ∧ req.subscribe = true) := by
  unfold Watching Alive Joining at h
  rw [brokerApply_hub, brokerApply_thread] at h
  obtain ⟨halive, h₁ | h₁ | h₁ | h₁⟩ := h
  · exact .inl ⟨halive, .inl h₁⟩
  · exact .inl ⟨halive, .inr (.inl h₁)⟩
  · exact .inl ⟨halive, .inr (.inr (.inl h₁))⟩
  · rcases h₁.brokerApply hinv.waits htask with h₂ | h₂
    · exact .inl ⟨halive, .inr (.inr (.inr h₂))⟩
    · exact .inr h₂

theorem SubInv.brokerApply {k : Kind} {req : SubRequest} (h : SubInv s)
    (htask : s.broker.task = .apply k req)
    (hmove : Move parse s (.brokerApply true) (s.brokerApply k req true))
    (hwanted : req.subscribe = false → ¬ Wanted s k req.id) :
    SubInv (s.brokerApply k req true) := by
  have hlive : (s.brokerApply k req true).cancelled = s.cancelled := by
    unfold Server.brokerApply Server.answerReady
    split <;> rfl
  have hsubs : ∀ k' id, id ∈ ((s.brokerApply k req true).broker.subs k').subscribed ↔
      if k' = k then id ∈ ((s.broker.subs k).apply req true).1.subscribed
      else id ∈ (s.broker.subs k').subscribed := by
    intro k' id
    rw [brokerApply_subs]
    by_cases hk : k' = k
    · subst hk
      simp
    · simp [hk]
  refine ⟨hmove.life h.life, h.waits.brokerApply htask, fun c r => hmove.joins h, ?_, ?_, ?_⟩
  · rw [hlive, brokerApply_subs]
    intro hl k'
    by_cases hk : k' = k
    · subst hk
      simpa using apply_covered (h.covered hl k')
    · simpa [hk] using h.covered hl k'
  · rw [hlive]
    intro hl c r hw
    rw [hsubs]
    rcases hw.brokerApply h htask with hold | ⟨rfl, rfl, hsub⟩
    · have hr := h.rooms hl c r hold
      split
      · rename_i hk
        subst hk
        rw [mem_apply_subscribed]
        split
        · exact .inr hr
        · rename_i hsub
          refine ⟨hr, fun heq => ?_⟩
          subst heq
          exact hwanted (by simpa using hsub) ⟨c, hold⟩
      · exact hr
    · rw [if_pos rfl, mem_apply_subscribed, if_pos hsub]
      exact .inl rfl
  · rw [hlive]
    intro hl c halive
    have hold : Alive s c := by
      unfold Alive at halive ⊢
      rw [brokerApply_hub] at halive
      exact halive
    have hkeep : Asks s c → Asks (s.brokerApply k req true) c := by
      unfold Asks
      rw [brokerApply_thread, brokerApply_waiting]
      exact id
    rw [hsubs]
    rcases h.users hl c hold with hask | ⟨req', hopen, hsub', hid'⟩ | hsub
    · exact .inl (hkeep hask)
    · rcases hopen with hmem | htask'
      · exact .inr (.inl ⟨req', open_brokerApply.mpr hmem, hsub', hid'⟩)
      · rw [htask] at htask'
        cases htask'
        rw [if_pos rfl, mem_apply_subscribed, if_pos hsub']
        exact .inr (.inr (.inl hid'.symm))
    · by_cases hk : Kind.user = k
      · subst hk
        rw [if_pos rfl, mem_apply_subscribed]
        split
        · exact .inr (.inr (.inr hsub))
        · rename_i hun
          by_cases heq : c.userID = req.id
          · -- nobody relies on the channel unless it asks for it again
            by_contra hnot
            refine hwanted (by simpa using hun) ⟨⟨c, heq, hold, fun hask => ?_⟩, ?_⟩
            · exact hnot (.inl (hkeep hask))
            · rintro ⟨req', hmem, hsub', hid'⟩
              refine hnot (.inr (.inl ⟨req', open_brokerApply.mpr hmem, hsub', ?_⟩))
              rw [hid', heq]
          · exact .inr (.inr ⟨hsub, heq⟩)
      · rw [if_neg hk]
        exact .inr (.inr hsub)

theorem Move.subInv (hmove : Move parse s a s') (hok : UnsubscribesUnwanted s a) (h : SubInv s) :
    SubInv s' := by
  by_cases ha : ∃ ok, a = .brokerApply ok
  · obtain ⟨ok, rfl⟩ := ha
    obtain ⟨rfl, hwanted⟩ := hok
    have hm := hmove
    cases hmove with
    | quiet hq => exact (requests_of_eq hq.broker).subInv hm ⟨rfl, hwanted⟩ h
    | brokerApply htask => exact h.brokerApply htask hm (hwanted _ _ htask)
  · exact (hmove.requests fun ok heq => ha ⟨ok, heq⟩).subInv hmove hok h

theorem subInv_new : SubInv Server.new where
  life := life_new
  waits := ⟨fun _ _ => rfl, by simp [Server.new], by simp [Open, Server.new]⟩
  joins := by simp [Server.new, Hub.new]
  covered _ _ := by simp [Server.new]
  rooms _ c r hw := by
    obtain ⟨h, -⟩ := hw
    simp [Alive, Server.new, Hub.new] at h
  users _ c h := by simp [Alive, Server.new, Hub.new] at h

/-! ## Settled states -/

/-- The goroutine is in the middle of a join or of its handshake. -/
def InProgress (p : ConnProc Unit) : Prop :=
  p.Can Proc.Always fun o => (∃ r, o = .join r) ∨ ∃ k id, o = .ensure k id

/-- All command channels are empty, the Hub and the Broker have finished their
    commands, and no join is in progress. -/
structure Settled (s : Server) : Prop where
  register : s.hub.register = []
  unregister : s.hub.unregister = []
  join : s.hub.join = []
  leave : s.hub.leave = []
  todo : s.hub.todo = []
  reqs : ∀ k, (s.broker.subs k).reqs = []
  task : ∀ k req, s.broker.task ≠ .apply k req
  threads : ∀ c p, s.thread c = .running p → ¬ InProgress p

/-- In every run in which Redis answers, no unsubscribe is applied to a channel that
    a connection relies on, and every connection gets to ask for the channel of its
    user: in every settled state before a shutdown, each room and each user with a
    local client is subscribed. -/
theorem watched_rooms_subscribed (parse : String → Option UUID) (s : Server)
    (hrun : Reach (Server.step parse) UnsubscribesUnwanted Server.new s)
    (hlive : s.cancelled = false) (hsettled : Settled s) :
    (∀ r, (s.hub.maps.rooms.members r).Nonempty →
      r ∈ (s.broker.subs .room).subscribed ∧ r ∈ (s.broker.subs .room).redis) ∧
    (∀ u, (s.hub.maps.users.members u).Nonempty →
      u ∈ (s.broker.subs .user).subscribed ∧ u ∈ (s.broker.subs .user).redis) := by
  have hinv : SubInv s :=
    hrun.invariant SubInv (fun _ _ _ h hok hs => (Server.step_move hs).2.subInv hok h) subInv_new
  refine ⟨?_, ?_⟩
  · rintro r ⟨c, hc⟩
    have halive : Alive s c := .inl ((hinv.life.maps.rooms r c).mp hc).1
    have hsub := hinv.rooms hlive c r ⟨halive, .inl hc⟩
    exact ⟨hsub, hinv.covered hlive .room hsub⟩
  · rintro u ⟨c, hc⟩
    obtain ⟨hclient, rfl⟩ := (hinv.life.maps.users u c).mp hc
    rcases hinv.users hlive c (.inl hclient) with hask | ⟨req, hopen, -⟩ | hsub
    · exact absurd (.inl (.inr ⟨.user, c.userID, rfl⟩)) (hsettled.threads c _ hask.1)
    · rcases hopen with hmem | htask
      · rw [hsettled.reqs] at hmem
        cases hmem
      · exact absurd htask (hsettled.task .user req)
    · exact ⟨hsub, hinv.covered hlive .user hsub⟩

/-! ## A join that meets the last leave -/

theorem Move.thread_absent (hmove : Move parse s a s') (h : s.thread c = .absent)
    (ha : a ≠ .accept c) : s'.thread c = .absent := by
  have ht : ThreadMove parse s a c (s.thread c) (s'.thread c) := hmove.thread c
  rw [h] at ht
  generalize s'.thread c = t at ht ⊢
  cases ht with
  | same => rfl
  | accept hacc => exact absurd hacc ha

/-- Nobody runs the goroutine of a connection that was not accepted. -/
theorem exec_thread_absent {as : List Action} (h : exec (Server.step parse) s as = some s')
    (hc : s.thread c = .absent) (has : .accept c ∉ as) : s'.thread c = .absent := by
  induction as generalizing s with
  | nil =>
    cases h
    exact hc
  | cons a as ih =>
    obtain ⟨m, hm, hrest⟩ := Option.bind_eq_some_iff.mp h
    rw [List.mem_cons, not_or] at has
    have hmove : Move parse s a m := (Server.step_move hm).2
    exact ih hrest (hmove.thread_absent hc (Ne.symm has.1)) has.2

def oneJoin : List Action := connect early ++ ensured early ++ joined early

/-- `early` is alone in the room and leaves it while `late` joins. -/
def lastLeave : List Action :=
  oneJoin ++ connect late ++ ensured late ++
    [.read early (frame "room.leave"), .perform early answers, .perform early answers, .hubLeave,
      .hubTask []] ++
    joined late ++ [.brokerTake .room, .brokerApply true]

/-- Every `SUBSCRIBE` and `UNSUBSCRIBE` succeeds. -/
def redisAnswers (_ : Server) : Action → Bool
  | .brokerApply ok => ok
  | _ => true

/-- Redis answers, and nothing is unsubscribed. -/
def onlySubscribes (s : Server) : Action → Bool
  | .brokerApply ok => ok &&
      match s.broker.task with
      | .apply _ req => req.subscribe
      | _ => true
  | .timeout _ => false
  | _ => true

theorem unsubscribesUnwanted_of_onlySubscribes (s : Server) (a : Action)
    (h : onlySubscribes s a = true) : UnsubscribesUnwanted s a := by
  unfold UnsubscribesUnwanted
  split
  · unfold onlySubscribes at h
    rw [Bool.and_eq_true] at h
    refine ⟨h.1, fun k req htask hsub => ?_⟩
    rw [htask] at h
    have hreq : req.subscribe = true := h.2
    rw [hsub] at hreq
    cases hreq
  · cases h
  · trivial

/-- Every connection of the run has finished its frame. -/
theorem threads_quiet {as : List Action} (cs : List Client)
    (hexec : exec (Server.step parse) Server.new as = some s)
    (hcs : ∀ c, .accept c ∈ as → c ∈ cs)
    (hret : ∀ c ∈ cs, s.thread c = .running (.ret ())) (c : Client) (p : ConnProc Unit)
    (hp : s.thread c = .running p) : ¬ InProgress p := by
  by_cases hc : c ∈ cs
  · rw [hret c hc] at hp
    cases hp
    exact Proc.Never.ret ()
  · rw [exec_thread_absent hexec rfl fun hacc => hc (hcs c hacc)] at hp
    cases hp

theorem watched_rooms_subscribed_one :
    early ∈ (after parseId oneJoin).hub.maps.rooms.members 5 ∧
      5 ∈ ((after parseId oneJoin).broker.subs .room).redis := by
  have hexec : exec (Server.step parseId) Server.new oneJoin = some (after parseId oneJoin) :=
    rfl
  have htask : (after parseId oneJoin).broker.task = .idle := rfl
  have hthreads := threads_quiet [early] hexec (by simp [oneJoin, connect, ensured, joined])
    (by simp only [List.mem_singleton, forall_eq]; rfl)
  have hsettled : Settled (after parseId oneJoin) :=
    ⟨rfl, rfl, rfl, rfl, rfl, by rintro (_ | _) <;> rfl, by simp [htask], hthreads⟩
  have hin : early ∈ (after parseId oneJoin).hub.maps.rooms.members 5 := by decide
  have hrun := Reach.of_exec (meets_of_checks unsubscribesUnwanted_of_onlySubscribes rfl) hexec
  exact ⟨hin, ((watched_rooms_subscribed parseId _ hrun rfl hsettled).1 5 ⟨early, hin⟩).2⟩

/-- With Redis always answering, the room ends up with a client and without a
    subscription. -/
theorem join_meets_last_leave :
    Reach (Server.step parseId) (fun s a => redisAnswers s a = true) Server.new
        (after parseId lastLeave) ∧
      Settled (after parseId lastLeave) ∧
      late ∈ (after parseId lastLeave).hub.maps.rooms.members 5 ∧
      5 ∉ ((after parseId lastLeave).broker.subs .room).subscribed ∧
      5 ∉ ((after parseId lastLeave).broker.subs .room).redis := by
  have hexec : exec (Server.step parseId) Server.new lastLeave =
      some (after parseId lastLeave) := rfl
  have htask : (after parseId lastLeave).broker.task = .idle := rfl
  have hthreads := threads_quiet [early, late] hexec
    (by simp [lastLeave, oneJoin, connect, ensured, joined])
    (by simp only [List.mem_pair, forall_eq_or_imp, forall_eq]; exact ⟨rfl, rfl⟩)
  have hrun := Reach.of_exec
    (meets_of_checks (fun s a (h : redisAnswers s a = true) => h) rfl) hexec
  refine ⟨hrun, ?_, by decide, by decide, by decide⟩
  exact ⟨rfl, rfl, rfl, rfl, rfl, by rintro (_ | _) <;> rfl, by simp [htask], hthreads⟩

end ConvoyChat.Websocket
