import ConvoyChat.Websocket.Holders

/-!
# The order of joins and leaves

The frames of a connection are dispatched one after another, but `Hub.Join` and
`Hub.Leave` hand them over on two channels, and the `select` of the Hub reads the
two in any order: a leave can overtake the join before it.

* `Watched`: a server that remembers, for every connection and room, whether the
  last of its `room.join` and `room.leave` frames was a join.
* `InTurn`: a command is handed over when no opposite one is pending.
* `rooms_follow_frames`: in a run of such steps, a connection is in exactly the
  rooms that it joined last, whenever its commands have been processed.
* `leave_overtakes_join`: a run without that.
-/

namespace ConvoyChat.Websocket

open ConvoyChat.Lib

/-! ## The last frame -/

/-- The room that the frame joins (`true`) or leaves (`false`). -/
def frameFor (parse : String → Option UUID) : Option InboundEnvelope → Option (UUID × Bool)
  | none => none
  | some env =>
    if env.type = "room.join" then (parse env.roomID).map (·, true)
    else if env.type = "room.leave" then (parse env.roomID).map (·, false)
    else none

/-- A server with the last frames of its connections. -/
structure Watched where
  server : Server
  last : Client → UUID → Bool

/-- The last frames after a step. -/
def noteFrame (parse : String → Option UUID) (last : Client → UUID → Bool) :
    Action → Client → UUID → Bool
  | .read c data =>
    match frameFor parse data with
    | some (r, joins) => Function.update last c (Function.update (last c) r joins)
    | none => last
  | _ => last

def Watched.new : Watched := ⟨Server.new, fun _ _ => false⟩

def Watched.step (parse : String → Option UUID) (w : Watched) (a : Action) : Option Watched :=
  (w.server.step parse a).map fun s' => ⟨s', noteFrame parse w.last a⟩

/-! ## The condition -/

/-- The user of `c` is a member of `r`, and `EnsureSubscribed` succeeds for it. -/
structure Served (c : Client) (r : UUID) (s : Server) (a : Action) : Prop where
  member : ∀ env k, a = .perform c env →
    s.thread c = .running (.op (.call (.getMembership r c.userID)) k) →
    ∃ m, env (.getMembership r c.userID) = .ok m
  answered : ∀ k n e, s.thread c = .running (.op (.ensure .room r) k) → s.waiting c = some n →
    s.broker.ready n ≠ some (.error e)
  patient : ∀ k, a = .timeout c → s.thread c ≠ .running (.op (.ensure .room r) k)

/-- `c` hands the Hub a command for `r` only while the Hub runs and no opposite
    command of `c` for `r` is pending, and a join only when `c` is registered. -/
structure InTurn (c : Client) (r : UUID) (s : Server) (a : Action) : Prop extends
    Served c r s a where
  join : ∀ env k, a = .perform c env → s.thread c = .running (.op (.join r) k) →
    (c, r) ∉ s.hub.leave ∧ Registered s.hub s.thread c ∧ s.hub.done = false
  leave : ∀ env k, a = .perform c env → s.thread c = .running (.op (.leave r) k) →
    (c, r) ∉ s.hub.join ∧ s.hub.done = false

/-! ## What a frame leads to -/

/-- The operation hands the Hub a command for `r`. -/
def Touches (r : UUID) (o : ConnOp) : Prop := o = .join r ∨ o = .leave r

/-- The answers that `Served` admits. -/
def Granted (c : Client) (r : UUID) : (o : ConnOp) → o.Res → Prop
  | .call (.getMembership r' u), res => r' = r → u = c.userID → ∃ m, res = .ok m
  | .ensure .room r', res => r' = r → res = .ok ()
  | _, _ => True

/-- The command of a frame. -/
def command (r : UUID) (joins : Bool) : ConnOp := if joins then .join r else .leave r

variable {parse : String → Option UUID} {s s' : Server} {a : Action} {c : Client} {r : UUID}

theorem passive_touches : ∀ o : ConnOp, o.Passive → ¬ Touches r o := by
  rintro o ho (rfl | rfl) <;> exact ho

theorem handshake_never_touches (c : Client) (r : UUID) :
    (handshake c).Never Proc.Always (Touches r) :=
  .perform (by simp [Touches]) fun _ _ =>
    .perform (by simp [Touches]) fun _ _ => lift_never passive_touches _

theorem handleRoomJoin_owes {env : InboundEnvelope} (hr : parse env.roomID = some r) :
    (handleRoomJoin parse c env).Owes (Granted c r) (Touches r) (.join r) := by
  unfold handleRoomJoin
  rw [hr]
  refine .perform (by simp [Touches]) fun res hres => ?_
  obtain ⟨m, rfl⟩ := hres rfl rfl
  refine .perform (by simp [Touches]) fun res' hres' => ?_
  rw [hres' rfl]
  exact .here fun _ => lift_never passive_touches _

theorem handleRoomLeave_owes {env : InboundEnvelope} (hr : parse env.roomID = some r) :
    (handleRoomLeave parse c env).Owes (Granted c r) (Touches r) (.leave r) := by
  unfold handleRoomLeave
  rw [hr]
  exact .here fun _ => lift_never passive_touches _

/-- A frame that joins or leaves `r` leads to that command. -/
theorem dispatch_owes {data : Option InboundEnvelope} {joins : Bool}
    (h : frameFor parse data = some (r, joins)) :
    (dispatch parse c data).Owes (Granted c r) (Touches r) (command r joins) := by
  cases data with
  | none => cases h
  | some env =>
    simp only [frameFor] at h
    simp only [dispatch]
    split_ifs at h with h₁ h₂
    · obtain ⟨r', hr', heq⟩ := Option.map_eq_some_iff.mp h
      cases heq
      rw [if_pos h₁]
      exact handleRoomJoin_owes hr'
    · obtain ⟨r', hr', heq⟩ := Option.map_eq_some_iff.mp h
      cases heq
      rw [if_neg h₁, if_pos h₂]
      exact handleRoomLeave_owes hr'

/-- Any other frame hands the Hub no command for `r`. -/
theorem dispatch_never_touches {data : Option InboundEnvelope}
    (h : ∀ joins, frameFor parse data ≠ some (r, joins)) :
    (dispatch parse c data).Never Proc.Always (Touches r) := by
  refine dispatch_never passive_touches (fun env hdata htype => ?_) (fun env hdata htype => ?_)
  · refine handleRoomJoin_never passive_touches (by simp [Touches]) fun r' hr' htouch => ?_
    rcases htouch with heq | heq <;> cases heq
    exact absurd (by simp [frameFor, hdata, htype, hr']) (h true)
  · refine handleRoomLeave_never passive_touches fun r' hr' htouch => ?_
    rcases htouch with heq | heq <;> cases heq
    exact h false (by simp [frameFor, hdata, htype, hr'])

/-! ## What the pending commands come to -/

/-- When the pending commands of `c` for `r` have been processed, `c` is in the room
    if `b` and not otherwise. -/
structure Bound (s : Server) (c : Client) (r : UUID) (b : Bool) : Prop where
  join : (c, r) ∈ s.hub.join → b = true
  leave : (c, r) ∈ s.hub.leave → b = false
  early : ¬ Registered s.hub s.thread c → b = false
  rooms : (c, r) ∉ s.hub.join → (c, r) ∉ s.hub.leave → c ∈ s.hub.maps.clients →
    (c ∈ s.hub.maps.rooms.members r ↔ b = true)

theorem mem_addToRoom_self {m : Maps} (hinv : m.Inv) (hc : c ∈ m.clients) :
    c ∈ (m.addToRoom c r).rooms.members r := by
  unfold Maps.addToRoom
  rw [if_neg (not_not.mpr hc)]
  split
  · exact (hinv.rooms r c).mpr ⟨hc, ‹_›⟩
  · exact Index.mem_attach.mpr (.inl ⟨rfl, rfl⟩)

/-- Who is in the room changes by the commands for the room only. -/
theorem HubMove.mem_rooms {hub : Hub} (h : HubMove s hub) (hlife : Life s.hub s.thread)
    (hc : c ∈ s.hub.maps.clients) (hc' : c ∈ hub.maps.clients) :
    (c ∈ hub.maps.rooms.members r ↔ c ∈ s.hub.maps.rooms.members r) ∨
      ((c, r) ∈ s.hub.join ∧ c ∈ hub.maps.rooms.members r) ∨
      ((c, r) ∈ s.hub.leave ∧ c ∉ hub.maps.rooms.members r) := by
  have hkept : ∀ {ids : List UUID} {c₀ : Client},
      c ∈ (s.hub.maps.removeClient ids c₀).1.clients → c ≠ c₀ := by
    intro ids c₀ hmem
    rw [removeClient_clients] at hmem
    exact Finset.ne_of_mem_erase hmem
  cases h with
  | removeClient _ _ hids =>
    left
    rw [mem_removeClient hlife.maps hids]
    exact ⟨And.left, fun h => ⟨h, hkept hc'⟩⟩
  | dropped _ hids =>
    left
    rw [mem_removeClient hlife.maps hids]
    exact ⟨And.left, fun h => ⟨h, hkept hc'⟩⟩
  | addToRoom _ hq =>
    rename_i c₀ r₀ rest _
    by_cases heq : c = c₀ ∧ r = r₀
    · obtain ⟨rfl, rfl⟩ := heq
      exact .inr (.inl ⟨by simp [hq], mem_addToRoom_self hlife.maps hc⟩)
    · refine .inl ⟨fun h => ?_, mem_addToRoom_of_mem⟩
      exact (mem_addToRoom h).resolve_right fun h => heq ⟨h.1, h.2.1⟩
  | removeFromRoom _ hq =>
    rename_i c₀ r₀ rest _
    by_cases heq : r = r₀ ∧ c = c₀
    · obtain ⟨rfl, rfl⟩ := heq
      refine .inr (.inr ⟨by simp [hq], fun h => ?_⟩)
      exact ((mem_removeFromRoom hlife.maps).mp h).2 ⟨rfl, rfl⟩
    · left
      rw [mem_removeFromRoom hlife.maps]
      exact ⟨And.left, fun h => ⟨h, heq⟩⟩
  | _ => exact .inl Iff.rfl

/-- A pending command stays pending until it takes effect. -/
theorem HubMove.mem_pending {hub : Hub} (h : HubMove s hub) (hlife : Life s.hub s.thread)
    (hc : c ∈ s.hub.maps.clients) :
    ((c, r) ∈ s.hub.join → (c, r) ∈ hub.join ∨ c ∈ hub.maps.rooms.members r) ∧
      ((c, r) ∈ s.hub.leave → (c, r) ∈ hub.leave ∨ c ∉ hub.maps.rooms.members r) := by
  cases h with
  | join _ hq =>
    refine ⟨fun h => .inl ?_, .inl⟩
    rcases offer_eq_some hq with rfl | rfl
    · exact List.mem_append_left _ h
    · exact h
  | leave _ hq =>
    refine ⟨.inl, fun h => .inl ?_⟩
    rcases offer_eq_some hq with rfl | rfl
    · exact List.mem_append_left _ h
    · exact h
  | addToRoom _ hq =>
    refine ⟨fun h => ?_, .inl⟩
    rw [hq] at h
    rcases List.mem_cons.mp h with heq | h
    · cases heq
      exact .inr (mem_addToRoom_self hlife.maps hc)
    · exact .inl h
  | removeFromRoom _ hq =>
    refine ⟨.inl, fun h => ?_⟩
    rw [hq] at h
    rcases List.mem_cons.mp h with heq | h
    · cases heq
      exact .inr fun h => ((mem_removeFromRoom hlife.maps).mp h).2 ⟨rfl, rfl⟩
    · exact .inl h
  | _ => exact ⟨.inl, .inl⟩

/-- A step that hands over no command of `c` for `r`. -/
theorem Bound.step {b : Bool} (h : Bound s c r b) (hmove : Move parse s a s')
    (hlife : Life s.hub s.thread) (hjoin : (c, r) ∈ s'.hub.join → (c, r) ∈ s.hub.join)
    (hleave : (c, r) ∈ s'.hub.leave → (c, r) ∈ s.hub.leave) : Bound s' c r b where
  join hj := h.join (hjoin hj)
  leave hl := h.leave (hleave hl)
  early hreg := h.early fun hreg' => hreg (hmove.registered hlife hreg')
  rooms hj hl hc := by
    have hhub : HubMove s s'.hub := hmove.hub
    rcases hmove.mem_clients hc with hold | hold
    · have hpend := hhub.mem_pending (r := r) hlife hold
      rcases hhub.mem_rooms (r := r) hlife hold hc with hiff | ⟨hj', hmem⟩ | ⟨hl', hmem⟩
      · by_cases hj' : (c, r) ∈ s.hub.join
        · rw [h.join hj']
          simpa using (hpend.1 hj').resolve_left hj
        · by_cases hl' : (c, r) ∈ s.hub.leave
          · rw [h.leave hl']
            simpa using (hpend.2 hl').resolve_left hl
          · rw [hiff]
            exact h.rooms hj' hl' hold
      · simpa [h.join hj'] using hmem
      · simpa [h.leave hl'] using hmem
    · -- the registration of `c` has just been processed
      have hnew : c ∉ s.hub.maps.clients := fun hcl => (hlife.clients c hcl).2 hold
      rw [h.early fun hreg => hreg.2 hold]
      have hout : c ∉ s'.hub.maps.rooms.members r := by
        intro hmem
        rcases hmove.mem_rooms hlife hmem with hin | ⟨-, hcl⟩
        · exact hnew ((hlife.maps.rooms r c).mp hin).1
        · exact hnew hcl
      simpa using hout

/-! ## The goroutine of the connection -/

/-- A goroutine that is not about to hand over a command for `r` hands over none. -/
theorem Move.untouched (hmove : Move parse s a s')
    (h : ∀ o k, s.thread c = .running (.op o k) → ¬ Touches r o) :
    ((c, r) ∈ s'.hub.join → (c, r) ∈ s.hub.join) ∧
      ((c, r) ∈ s'.hub.leave → (c, r) ∈ s.hub.leave) := by
  refine ⟨fun hmem => (hmove.mem_join hmem).resolve_right ?_,
    fun hmem => (hmove.mem_leave hmem).resolve_right ?_⟩
  · rintro ⟨k, hk⟩
    exact h _ k hk (.inl rfl)
  · rintro ⟨k, hk⟩
    exact h _ k hk (.inr rfl)

/-- A goroutine that is about to hand over a command stays where it is until it
    does so. -/
theorem Move.still {o : ConnOp} {k : o.Res → ConnProc Unit} (hmove : Move parse s a s')
    (hc : s.thread c = .running (.op o k)) (ho : Touches r o) :
    (s'.thread c = s.thread c ∧ ((c, r) ∈ s'.hub.join → (c, r) ∈ s.hub.join) ∧
      ((c, r) ∈ s'.hub.leave → (c, r) ∈ s.hub.leave)) ∨ ∃ env, a = .perform c env := by
  have hother : ∀ {c₀ : Client} {t t₀ : Thread}, s.thread c₀ = t₀ →
      (∀ o k, t₀ = .running (.op o k) → ¬ Touches r o) →
      Function.update s.thread c₀ t c = s.thread c := by
    intro c₀ t t₀ h₀ hno
    refine Function.update_of_ne ?_ _ _
    rintro rfl
    exact hno o k (h₀.symm.trans hc) ho
  by_cases hact : ∃ env, a = .perform c env
  · exact .inr hact
  · left
    have hne : ∀ {c₀ env}, a = .perform c₀ env → c ≠ c₀ := by
      rintro c₀ env rfl rfl
      exact hact ⟨env, rfl⟩
    cases hmove with
    | quiet hsame =>
      rw [hsame.thread, hsame.hub]
      exact ⟨rfl, id, id⟩
    | accept h => exact ⟨hother h (by simp), id, id⟩
    | read h => exact ⟨hother h (by simp), id, id⟩
    | readError h => exact ⟨hother h (by simp), id, id⟩
    | unregister h _ => exact ⟨hother h (by simp), id, id⟩
    | call _ => exact ⟨Function.update_of_ne (hne rfl) _ _, id, id⟩
    | sendError _ =>
      show Function.update (s.enqueue _ _).thread _ _ c = _ ∧
        (_ ∈ (s.enqueue _ _).hub.join → _) ∧ (_ ∈ (s.enqueue _ _).hub.leave → _)
      rw [enqueue_thread, enqueue_hub]
      exact ⟨Function.update_of_ne (hne rfl) _ _, id, id⟩
    | register _ _ => exact ⟨Function.update_of_ne (hne rfl) _ _, id, id⟩
    | join _ hq =>
      refine ⟨Function.update_of_ne (hne rfl) _ _, fun h => ?_, id⟩
      refine (mem_offer hq h).resolve_right fun heq => ?_
      cases heq
      exact hne rfl rfl
    | leave _ hq =>
      refine ⟨Function.update_of_ne (hne rfl) _ _, id, fun h => ?_⟩
      refine (mem_offer hq h).resolve_right fun heq => ?_
      cases heq
      exact hne rfl rfl
    | typingStart _ => exact ⟨Function.update_of_ne (hne rfl) _ _, id, id⟩
    | typingStop _ => exact ⟨Function.update_of_ne (hne rfl) _ _, id, id⟩
    | receiveReady h _ _ =>
      refine ⟨hother h ?_, id, id⟩
      intro o' k' heq
      cases heq
      simp [Touches]
    | timeout h =>
      refine ⟨hother h ?_, id, id⟩
      intro o' k' heq
      cases heq
      simp [Touches]
    | hubJoin _ hq =>
      refine ⟨rfl, fun h => ?_, id⟩
      rw [hq]
      exact List.mem_cons_of_mem _ h
    | hubLeave _ hq =>
      refine ⟨rfl, id, fun h => ?_⟩
      rw [hq]
      exact List.mem_cons_of_mem _ h
    | closeSend _ =>
      rw [closeSend_thread]
      rcases closeSend_hub (s := s) _ _ with heq | heq <;> rw [heq] <;> exact ⟨rfl, id, id⟩
    | brokerApply _ =>
      rw [brokerApply_thread, brokerApply_hub]
      exact ⟨rfl, id, id⟩
    | _ => exact ⟨rfl, id, id⟩

theorem offer_running {α : Type} {cap : ℕ} {q q' : List α} {x : α}
    (h : offer false cap q x = some q') : q' = q ++ [x] := by
  unfold offer at h
  split at h
  · cases h
    exact push_eq_some ‹_›
  · cases h

/-- `Hub.Join` and `Hub.Leave`. -/
theorem step_command {joins : Bool} {k : (command r joins).Res → ConnProc Unit}
    {env : (o : EnvOp) → o.Res} (hs : s.step parse (.perform c env) = some s')
    (hc : s.thread c = .running (.op (command r joins) k)) (hdone : s.hub.done = false) :
    (∃ res, s'.thread c = .running (k res)) ∧ s'.hub.maps = s.hub.maps ∧
      s'.hub.join = s.hub.join ++ (if joins then [(c, r)] else []) ∧
      s'.hub.leave = s.hub.leave ++ (if joins then [] else [(c, r)]) := by
  have hact : s.perform c env = some s' := by
    unfold Server.step at hs
    split_ifs at hs
    exact hs
  cases joins with
  | true =>
    have hc : s.thread c = .running (.op (.join r) k) := hc
    simp only [Server.perform, hc, hdone] at hact
    obtain ⟨q, hq, rfl⟩ := Option.map_eq_some_iff.mp hact
    refine ⟨⟨(), by simp [Server.resume]⟩, rfl, offer_running hq, ?_⟩
    exact (List.append_nil _).symm
  | false =>
    have hc : s.thread c = .running (.op (.leave r) k) := hc
    simp only [Server.perform, hc, hdone] at hact
    obtain ⟨q, hq, rfl⟩ := Option.map_eq_some_iff.mp hact
    refine ⟨⟨(), by simp [Server.resume]⟩, rfl, ?_, offer_running hq⟩
    exact (List.append_nil _).symm

/-- The goroutine of `c` hands over no command for `r`, or it has yet to hand over
    the command of the last frame. -/
def Answering (w : Watched) (c : Client) (r : UUID) (b : Bool) : Prop :=
  ((∀ p, w.server.thread c = .running p → p.Never Proc.Always (Touches r)) ∧ w.last c r = b) ∨
    ∃ p, w.server.thread c = .running p ∧
      p.Owes (Granted c r) (Touches r) (command r (w.last c r))

structure InOrder (c : Client) (r : UUID) (w : Watched) : Prop where
  life : Life w.server.hub w.server.thread
  bound : ∃ b, Bound w.server c r b ∧ Answering w c r b

theorem step_read {data : Option InboundEnvelope} (hs : s.step parse (.read c data) = some s') :
    (∃ u, s.thread c = .running (.ret u)) ∧ s'.thread c = .running (dispatch parse c data) := by
  have hact : s.act parse (.read c data) = some s' := by
    unfold Server.step at hs
    split_ifs at hs
    exact hs
  simp only [Server.act] at hact
  split at hact
  · rename_i u hc
    cases hact
    exact ⟨⟨u, hc⟩, by simp [Server.resume]⟩
  · cases hact

/-- The step reads a frame of `c` for `r`, or the last frame is the same. -/
theorem noteFrame_cases (parse : String → Option UUID) (last : Client → UUID → Bool) (a : Action)
    (c : Client) (r : UUID) :
    (∃ data joins, a = .read c data ∧ frameFor parse data = some (r, joins) ∧
      noteFrame parse last a c r = joins) ∨
    ((∀ data joins, a = .read c data → frameFor parse data ≠ some (r, joins)) ∧
      noteFrame parse last a c r = last c r) := by
  cases a with
  | read c₀ data =>
    cases hframe : frameFor parse data with
    | none =>
      refine .inr ⟨fun data' joins' heq => ?_, by simp only [noteFrame, hframe]⟩
      cases heq
      simp [hframe]
    | some f =>
      obtain ⟨r₀, joins⟩ := f
      simp only [noteFrame, hframe]
      by_cases hc : c = c₀
      · subst hc
        by_cases hr : r = r₀
        · subst hr
          exact .inl ⟨data, joins, rfl, hframe, by simp⟩
        · refine .inr ⟨fun data' joins' heq hframe' => ?_, by simp [hr]⟩
          cases heq
          rw [hframe] at hframe'
          cases hframe'
          exact hr rfl
      · refine .inr ⟨fun data' joins' heq => ?_, by simp [hc]⟩
        cases heq
        exact absurd rfl hc
  | _ => exact .inr ⟨by simp, rfl⟩

theorem InTurn.granted {o : ConnOp} {res : o.Res} {k : o.Res → ConnProc Unit}
    (hok : InTurn c r s a) (hc : s.thread c = .running (.op o k)) (h : s.Grants a c o res) :
    Granted c r o res := by
  cases o with
  | call o =>
    cases o with
    | getMembership r' u =>
      rintro rfl rfl
      obtain ⟨env, ha, rfl⟩ := h
      exact hok.member env k ha hc
    | _ => trivial
  | ensure kd r' =>
    cases kd with
    | room =>
      rintro rfl
      rcases h with ⟨n, hwait, hready⟩ | ⟨ha, -⟩
      · cases res with
        | ok u => rfl
        | error e => exact absurd hready (hok.answered k n e hc hwait)
      · exact absurd hc (hok.patient k ha)
    | user => trivial
  | _ => trivial

/-- A goroutine that owes nothing goes on, or reads the next frame for `r`. -/
theorem InOrder.idle {w : Watched} {b : Bool} (hlife : Life w.server.hub w.server.thread)
    (hbound : Bound w.server c r b)
    (hnever : ∀ p, w.server.thread c = .running p → p.Never Proc.Always (Touches r))
    (hlast : w.last c r = b) (hs : w.server.step parse a = some s') :
    InOrder c r ⟨s', noteFrame parse w.last a⟩ := by
  have hmove := (Server.step_move hs).2
  have hun := hmove.untouched (c := c) (r := r) fun o k hc => (hnever _ hc).not
  refine ⟨hmove.life hlife, b, hbound.step hmove hlife hun.1 hun.2, ?_⟩
  rcases noteFrame_cases parse w.last a c r with ⟨data, joins, rfl, hframe, hnote⟩ |
    ⟨hother, hnote⟩
  · have howes := dispatch_owes (c := c) hframe
    rw [← hnote] at howes
    exact .inr ⟨_, (step_read hs).2, howes⟩
  · refine .inl ⟨fun p hp => ?_, hnote.trans hlast⟩
    have hp : s'.thread c = .running p := hp
    have ht : ThreadMove parse w.server a c (w.server.thread c) (s'.thread c) := hmove.thread c
    rw [hp] at ht
    generalize hold : w.server.thread c = old at ht
    cases ht with
    | same => exact hnever p hold
    | accept _ => exact handshake_never_touches c r
    | read ha => exact dispatch_never_touches fun joins => hother _ joins ha
    | next res _ => exact (hnever _ hold).next trivial

/-- The command of the last frame is handed over. -/
theorem Bound.command {joins : Bool} {k : (command r joins).Res → ConnProc Unit}
    {env : (o : EnvOp) → o.Res} (hlife : Life s.hub s.thread)
    (hok : InTurn c r s (.perform c env))
    (hc : s.thread c = .running (.op (Websocket.command r joins) k))
    (hs : s.step parse (.perform c env) = some s') :
    Bound s' c r joins ∧ ∃ res, s'.thread c = .running (k res) := by
  have hmove := (Server.step_move hs).2
  cases joins with
  | true =>
    obtain ⟨hfree, hreg, hdone⟩ := hok.join env k rfl hc
    obtain ⟨hthread, -, hjoin, hleave⟩ := step_command hs hc hdone
    simp only [if_true, List.append_nil] at hjoin hleave
    refine ⟨⟨fun _ => rfl, fun h => ?_, fun h => ?_, fun h => ?_⟩, hthread⟩
    · rw [hleave] at h
      exact absurd h hfree
    · exact absurd (hmove.registered hlife hreg) h
    · rw [hjoin] at h
      simp at h
  | false =>
    obtain ⟨hfree, hdone⟩ := hok.leave env k rfl hc
    obtain ⟨hthread, -, hjoin, hleave⟩ := step_command hs hc hdone
    simp only [Bool.false_eq_true, if_false, List.append_nil] at hjoin hleave
    refine ⟨⟨fun h => ?_, fun _ => rfl, fun _ => rfl, fun _ h => ?_⟩, hthread⟩
    · rw [hjoin] at h
      exact absurd h hfree
    · rw [hleave] at h
      simp at h

/-- A goroutine that owes the command of the last frame hands it over in the end. -/
theorem InOrder.owing {w : Watched} {b : Bool} {p : ConnProc Unit}
    (hlife : Life w.server.hub w.server.thread) (hbound : Bound w.server c r b)
    (hp : w.server.thread c = .running p)
    (howes : p.Owes (Granted c r) (Touches r) (command r (w.last c r)))
    (hok : InTurn c r w.server a) (hs : w.server.step parse a = some s') :
    InOrder c r ⟨s', noteFrame parse w.last a⟩ := by
  have hmove := (Server.step_move hs).2
  cases p with
  | ret u => exact False.elim howes
  | op o k =>
    have hnote : noteFrame parse w.last a c r = w.last c r := by
      rcases noteFrame_cases parse w.last a c r with ⟨data, joins, rfl, -⟩ | ⟨-, hnote⟩
      · obtain ⟨⟨u, hu⟩, -⟩ := step_read hs
        rw [hp] at hu
        cases hu
      · exact hnote
    have hkeeps : (Proc.op o k).Owes (Granted c r) (Touches r)
        (command r (noteFrame parse w.last a c r)) := by
      rw [hnote]
      exact howes
    rcases howes with ⟨rfl, hrest⟩ | ⟨hno, hnext⟩
    · have htouch : Touches r (command r (w.last c r)) := by
        cases w.last c r with
        | true => exact .inl rfl
        | false => exact .inr rfl
      rcases hmove.still hp htouch with ⟨hsame, hjoin, hleave⟩ | ⟨env, rfl⟩
      · exact ⟨hmove.life hlife, b, hbound.step hmove hlife hjoin hleave,
          .inr ⟨_, hsame.trans hp, hkeeps⟩⟩
      · obtain ⟨hbound', res, hthread⟩ := Bound.command hlife hok hp hs
        refine ⟨hmove.life hlife, _, hbound', .inl ⟨fun q hq => ?_, rfl⟩⟩
        have hq : s'.thread c = .running q := hq
        rw [hthread] at hq
        cases hq
        exact hrest res
    · have hun := hmove.untouched (c := c) (r := r) fun o' k' hc => by
        rw [hp] at hc
        cases hc
        exact hno
      refine ⟨hmove.life hlife, b, hbound.step hmove hlife hun.1 hun.2, .inr ?_⟩
      show ∃ q, s'.thread c = .running q ∧ q.Owes _ _ (command r (noteFrame parse w.last a c r))
      rw [hnote]
      have ht : ThreadMove parse w.server a c (w.server.thread c) (s'.thread c) := hmove.thread c
      rw [hp] at ht
      generalize hnew : s'.thread c = new at ht
      cases ht with
      | same => exact ⟨_, rfl, .inr ⟨hno, hnext⟩⟩
      | next res hres => exact ⟨_, rfl, hnext res (hok.granted hp hres)⟩

theorem InOrder.step {w w' : Watched} (h : InOrder c r w) (hok : InTurn c r w.server a)
    (hs : w.step parse a = some w') : InOrder c r w' := by
  obtain ⟨s', hs', rfl⟩ := Option.map_eq_some_iff.mp hs
  obtain ⟨b, hbound, ⟨hnever, hlast⟩ | ⟨p, hp, howes⟩⟩ := h.bound
  · exact InOrder.idle h.life hbound hnever hlast hs'
  · exact InOrder.owing h.life hbound hp howes hok hs'

theorem inOrder_new (c : Client) (r : UUID) : InOrder c r Watched.new where
  life := life_new
  bound := by
    refine ⟨false, ⟨?_, ?_, fun _ => rfl, ?_⟩, .inl ⟨?_, rfl⟩⟩
    · simp [Watched.new, Server.new, Hub.new]
    · simp [Watched.new, Server.new, Hub.new]
    · simp [Watched.new, Server.new, Hub.new]
    · simp [Watched.new, Server.new]

/-- In a run in which `c` hands over its commands for room `r` one at a time, whenever
    none of them is pending and `c` dispatches no frame, `c` is in the room exactly if
    its last frame for the room was a join. -/
theorem rooms_follow_frames (parse : String → Option UUID) (c : Client) (r : UUID) (w : Watched)
    (hrun : Reach (Watched.step parse) (fun w => InTurn c r w.server) Watched.new w)
    (hjoin : w.server.hub.join = []) (hleave : w.server.hub.leave = [])
    (hidle : ∀ o k, w.server.thread c ≠ .running (.op o k))
    (hc : c ∈ w.server.hub.maps.clients) :
    c ∈ w.server.hub.maps.rooms.members r ↔ w.last c r = true := by
  have hinv : InOrder c r w :=
    hrun.invariant (InOrder c r) (fun _ _ _ h hok hs => h.step hok hs) (inOrder_new c r)
  obtain ⟨b, hbound, ⟨-, hlast⟩ | ⟨p, hp, howes⟩⟩ := hinv.bound
  · rw [hlast]
    exact hbound.rooms (by simp [hjoin]) (by simp [hleave]) hc
  · cases p with
    | ret u => exact False.elim howes
    | op o k => exact absurd hp (hidle o k)

/-! ## Two frames -/

/-- The state after some actions of a server that just started. -/
def watchedAfter (as : List Action) : Watched :=
  (exec (Watched.step parseId) Watched.new as).getD Watched.new

/-- `c` sends `room.join`, and its goroutine is done with it. -/
def sendsJoin (c : Client) : List Action :=
  ensured c ++ [.perform c answers, .perform c answers]

/-- `c` sends `room.leave`, and its goroutine is done with it. -/
def sendsLeave (c : Client) : List Action :=
  [.read c (frame "room.leave"), .perform c answers, .perform c answers]

/-- The Hub reads the two channels in the order of the frames. -/
def joinThenLeave : List Action :=
  connect early ++ sendsJoin early ++ [.hubJoin] ++ sendsLeave early ++ [.hubLeave, .hubTask []]

/-- The Hub reads the leave first. -/
def leaveFirst : List Action :=
  connect early ++ sendsJoin early ++ sendsLeave early ++ [.hubLeave, .hubJoin]

/-- The Broker has not put an error on the `ready` channel of `early`. -/
def readyOk (s : Server) : Bool :=
  match s.waiting early with
  | none => true
  | some n =>
    match s.broker.ready n with
    | some (.error _) => false
    | _ => true

/-- The store finds the member, and the Broker reports no error. -/
def served (s : Server) (a : Action) : Bool :=
  readyOk s && match a with
    | .perform _ env => (env (.getMembership 5 1)).toBool
    | .timeout _ => false
    | _ => true

/-- No opposite command of `early` is pending. -/
def inTurn (s : Server) (a : Action) : Bool :=
  served s a && match s.thread early with
    | .running (.op (.join _) _) => (early, 5) ∉ s.hub.leave &&
      early ∉ s.hub.register && !s.hub.done
    | .running (.op (.leave _) _) => (early, 5) ∉ s.hub.join && !s.hub.done
    | _ => true

theorem served_of_check {w : Watched} {a : Action} (h : served w.server a = true) :
    Served early 5 w.server a := by
  unfold served at h
  rw [Bool.and_eq_true] at h
  refine ⟨?_, ?_, ?_⟩
  · rintro env k rfl -
    cases hres : env (.getMembership 5 early.userID) with
    | ok m => exact ⟨m, rfl⟩
    | error e =>
      have hok : (env (.getMembership 5 1)).toBool = true := h.2
      rw [show (1 : UUID) = early.userID from rfl, hres] at hok
      cases hok
  · intro k n e _ hwait hready
    have hok := h.1
    simp [readyOk, hwait, hready] at hok
  · rintro k rfl
    cases h.2

theorem inTurn_of_check (w : Watched) (a : Action) (h : inTurn w.server a = true) :
    InTurn early 5 w.server a := by
  unfold inTurn at h
  rw [Bool.and_eq_true] at h
  refine ⟨served_of_check h.1, ?_, ?_⟩
  · intro env k _ hc
    have hok := h.2
    simp only [hc, Bool.and_eq_true, decide_eq_true_eq, Bool.not_eq_true'] at hok
    refine ⟨hok.1.1, ⟨⟨by simp [hc], fun heq => ?_⟩, hok.1.2⟩, hok.2⟩
    rw [hc] at heq
    cases heq
  · intro env k _ hc
    have hok := h.2
    simpa [hc] using hok

theorem rooms_follow_frames_left :
    (watchedAfter joinThenLeave).server.hub.join = [] ∧
      early ∉ (watchedAfter joinThenLeave).server.hub.maps.rooms.members 5 := by
  have hexec : exec (Watched.step parseId) Watched.new joinThenLeave =
      some (watchedAfter joinThenLeave) := rfl
  have hrun := Reach.of_exec (meets_of_checks inTurn_of_check rfl) hexec
  have hiff := rooms_follow_frames parseId early 5 _ hrun rfl rfl
    (fun o k h => by cases h) (by decide)
  exact ⟨rfl, fun hmem => by cases hiff.mp hmem⟩

/-- The last frame of the connection is a leave, all commands have been processed,
    and the connection is in the room. -/
theorem leave_overtakes_join :
    Reach (Watched.step parseId) (fun w => Served early 5 w.server) Watched.new
        (watchedAfter leaveFirst) ∧
      (watchedAfter leaveFirst).server.hub.join = [] ∧
      (watchedAfter leaveFirst).server.hub.leave = [] ∧
      (∀ o k, (watchedAfter leaveFirst).server.thread early ≠ .running (.op o k)) ∧
      early ∈ (watchedAfter leaveFirst).server.hub.maps.clients ∧
      early ∈ (watchedAfter leaveFirst).server.hub.maps.rooms.members 5 ∧
      (watchedAfter leaveFirst).last early 5 = false := by
  have hexec : exec (Watched.step parseId) Watched.new leaveFirst =
      some (watchedAfter leaveFirst) := rfl
  have hchecks : checks (Watched.step parseId) (fun w => served w.server) Watched.new
      leaveFirst = true := rfl
  refine ⟨Reach.of_exec (meets_of_checks (fun _ _ => served_of_check) hchecks) hexec, rfl, rfl, ?_,
    by decide, by decide, rfl⟩
  intro o k h
  cases h

end ConvoyChat.Websocket
