import ConvoyChat.Frontend.WebSocket
import ConvoyChat.System.World

/-!
# Tabs and servers

The backend and any number of browser tabs, which talk to it through sockets: frames
on their way to a server, events on their way to a tab, and the answers to
`GET /rooms`. A connection that no tab has opened belongs to some other client,
which sends what it likes.

`user.left` of a room is published when a connection in it disconnects or sends
`room.leave`, although its user stays a member, and every other tab of that user
takes it for the end of the membership: it leaves the room as well.

* `Keeps`: all that has to stay true for a tab to stay in a room, and
  `WebMove.keeps`: nothing but the tab's own `user.left` breaks it.
* `joined_tab_keeps_room`: the runs in which the tab routes no such event.
* `closed_tab_evicts_other`: one of two tabs is closed, and the other one leaves.
-/

namespace ConvoyChat.System

open ConvoyChat.Lib ConvoyChat.Store ConvoyChat.Handlers ConvoyChat.Websocket ConvoyChat.Frontend

structure Web where
  world : World
  tabs : ℕ → Provider
  /-- the tab that opened a socket -/
  owner : Conn → Option ℕ
  /-- frames on their way to the server -/
  outbox : Conn → List InboundEnvelope
  /-- events on their way to the client -/
  inbox : Conn → List Event

inductive WebAction
  | world (a : WorldAction)
  /-- `new WebSocket`, and the server accepts it -/
  | connect (t : ℕ) (conn : Conn)
  | onopen (t : ℕ) (conn : Conn)
  | onmessage (t : ℕ) (conn : Conn)
  /-- the current socket stops to be `OPEN` -/
  | closing (t : ℕ)
  | onclose (t : ℕ) (conn : Conn)
  | reconcile (t : ℕ)
  /-- another hook sends a frame -/
  | send (t : ℕ) (frame : InboundEnvelope)
  /-- the backend answers `GET /rooms` -/
  | listRooms (t : ℕ)
  | receiveRooms (t : ℕ) (ids : List UUID)
  | cleanup (t : ℕ)
  | unmount (t : ℕ)

/-- Every tab is logged in, as `user t`, and has done nothing yet. -/
def Web.start (users : List User) (user : ℕ → UUID) : Web :=
  ⟨World.start users, fun t => Provider.new (user t), fun _ => none, fun _ => [], fun _ => []⟩

/-- Tab `t` becomes `out.1` and sends the frames `out.2` on its socket. -/
def Web.put (x : Web) (t : ℕ) (out : Provider × List InboundEnvelope) : Web :=
  { x with
    tabs := Function.update x.tabs t out.1
    outbox := match (x.tabs t).ws with
      | none => x.outbox
      | some conn => Function.update x.outbox conn (x.outbox conn ++ out.2) }

section

variable (parse : String → Option UUID) (format : UUID → String) (stamps : ℕ → Stamp)

/-- A step of the backend: what it reads from the socket of a tab was sent by the
    tab, and what it writes there is on its way to the tab. -/
def Web.worldStep (x : Web) (a : WorldAction) : Option Web :=
  match a with
  | .server i (.read c data) =>
    match x.owner (i, c), x.outbox (i, c) with
    | none, _ => (x.world.step parse stamps a).map fun w => { x with world := w }
    | some _, [] => none
    | some _, frame :: rest =>
      if data = some frame then
        (x.world.step parse stamps a).map fun w =>
          { x with world := w, outbox := Function.update x.outbox (i, c) rest }
      else none
  | .server i (.write c) =>
    (x.world.step parse stamps a).map fun w =>
      { x with
        world := w
        inbox := Function.update x.inbox (i, c)
          (x.inbox (i, c) ++ ((x.world.servers i).send c).buffer.head?.toList) }
  | a => (x.world.step parse stamps a).map fun w => { x with world := w }

/-- A step of tab `t`. -/
def Web.tabStep (x : Web) (t : ℕ) (out : Provider × List InboundEnvelope) : Option Web :=
  if (x.tabs t).mounted then some (x.put t out) else none

def Web.step (x : Web) : WebAction → Option Web
  | .world a => x.worldStep parse stamps a
  | .connect t conn =>
    if (x.tabs t).mounted && (x.owner conn).isNone && conn.2.userID = (x.tabs t).userID then
      (x.world.step parse stamps (.server conn.1 (.accept conn.2))).map fun w =>
        { x with
          world := w
          owner := Function.update x.owner conn (some t) }.put t ((x.tabs t).connect conn, [])
    else none
  | .onopen t conn =>
    if conn ∈ (x.tabs t).attached then x.tabStep t ((x.tabs t).onopen format conn) else none
  | .onmessage t conn =>
    match x.inbox conn with
    | [] => none
    | event :: rest =>
      if conn ∈ (x.tabs t).attached then
        { x with inbox := Function.update x.inbox conn rest }.tabStep t
          ((x.tabs t).routeEvent format event)
      else none
  | .closing t => x.tabStep t ({ x.tabs t with ready := false }, [])
  | .onclose t conn =>
    if conn ∈ (x.tabs t).attached then x.tabStep t ((x.tabs t).onclose conn, []) else none
  | .reconcile t => x.tabStep t ((x.tabs t).reconcile format)
  | .send t frame =>
    if frame.type ≠ "room.join" ∧ frame.type ≠ "room.leave" then
      x.tabStep t (x.tabs t, (x.tabs t).send frame)
    else none
  | .listRooms t =>
    x.tabStep t ({ x.tabs t with
      responses := (x.tabs t).responses ++
        [(Store.listRoomsForUser (x.tabs t).userID x.world.backend.db).map Room.id] }, [])
  | .receiveRooms t ids =>
    if ids ∈ (x.tabs t).responses then
      x.tabStep t ({ x.tabs t with
        rooms := some ids
        responses := (x.tabs t).responses.erase ids }, [])
    else none
  | .cleanup t => x.tabStep t ((x.tabs t).cleanup, [])
  | .unmount t => x.tabStep t ({ (x.tabs t).cleanup with mounted := false }, [])

end

/-! ## What a step of the backend does here -/

variable {parse : String → Option UUID} {format : UUID → String} {stamps : ℕ → Stamp}
  {x x' : Web} {a : WorldAction} {t : ℕ} {conn : Conn} {r : UUID}

/-- A step of the backend takes frames off the wires and leaves the tabs alone. -/
structure WorldMove (parse : String → Option UUID) (stamps : ℕ → Stamp) (x x' : Web)
    (a : WorldAction) : Prop where
  world : x.world.step parse stamps a = some x'.world
  tabs : x'.tabs = x.tabs
  owner : x'.owner = x.owner
  outbox : ∀ conn, ∀ f ∈ x'.outbox conn, f ∈ x.outbox conn
  reads : ∀ conn data, a = .server conn.1 (.read conn.2 data) → (x.owner conn).isSome = true →
    ∃ f ∈ x.outbox conn, data = some f

theorem map_world {w : Option World} {f : World → Web} (h : w.map f = some x') :
    ∃ w', w = some w' ∧ f w' = x' :=
  Option.map_eq_some_iff.mp h

theorem worldStep_move (h : x.worldStep parse stamps a = some x') :
    WorldMove parse stamps x x' a := by
  unfold Web.worldStep at h
  split at h
  · rename_i i c data
    split at h
    · rename_i howner
      obtain ⟨w, hw, rfl⟩ := map_world h
      refine ⟨hw, rfl, rfl, fun _ _ hf => hf, fun conn data' hread hown => ?_⟩
      cases hread
      rw [howner] at hown
      cases hown
    · cases h
    · rename_i t' frame rest howner hout
      split_ifs at h with hdata
      obtain ⟨w, hw, rfl⟩ := map_world h
      refine ⟨hw, rfl, rfl, fun conn f hf => ?_, fun conn data' hread _ => ?_⟩
      · by_cases hconn : conn = (i, c)
        · subst hconn
          rw [hout]
          exact List.mem_cons_of_mem _ (by simpa using hf)
        · simpa [hconn] using hf
      · obtain ⟨i', c'⟩ := conn
        cases hread
        exact ⟨frame, by simp [hout], hdata⟩
  · obtain ⟨w, hw, rfl⟩ := map_world h
    exact ⟨hw, rfl, rfl, fun _ _ hf => hf, fun _ _ hread => by cases hread⟩
  · rename_i hnot _
    obtain ⟨w, hw, rfl⟩ := map_world h
    exact ⟨hw, rfl, rfl, fun _ _ hf => hf, fun conn data hread => absurd hread (hnot _ _ _)⟩

/-! ## What a step of a tab does -/

/-- The steps of a tab, by what becomes of it and what it sends. -/
inductive TabMove (format : UUID → String) (x : Web) :
    WebAction → ℕ → Provider × List InboundEnvelope → Prop
  | onopen {t : ℕ} {conn : Conn} :
      TabMove format x (.onopen t conn) t ((x.tabs t).onopen format conn)
  | onmessage {t : ℕ} {conn : Conn} {event : Event} {rest : List Event}
      (h : x.inbox conn = event :: rest) :
      TabMove format x (.onmessage t conn) t ((x.tabs t).routeEvent format event)
  | closing {t : ℕ} : TabMove format x (.closing t) t ({ x.tabs t with ready := false }, [])
  | onclose {t : ℕ} {conn : Conn} :
      TabMove format x (.onclose t conn) t ((x.tabs t).onclose conn, [])
  | reconcile {t : ℕ} : TabMove format x (.reconcile t) t ((x.tabs t).reconcile format)
  | send {t : ℕ} {frame : InboundEnvelope} (h : frame.type ≠ "room.leave") :
      TabMove format x (.send t frame) t (x.tabs t, (x.tabs t).send frame)
  | listRooms {t : ℕ} :
      TabMove format x (.listRooms t) t ({ x.tabs t with
        responses := (x.tabs t).responses ++
          [(Store.listRoomsForUser (x.tabs t).userID x.world.backend.db).map Room.id] }, [])
  | receiveRooms {t : ℕ} {ids : List UUID} (h : ids ∈ (x.tabs t).responses) :
      TabMove format x (.receiveRooms t ids) t ({ x.tabs t with
        rooms := some ids
        responses := (x.tabs t).responses.erase ids }, [])
  | cleanup {t : ℕ} : TabMove format x (.cleanup t) t ((x.tabs t).cleanup, [])
  | unmount {t : ℕ} :
      TabMove format x (.unmount t) t ({ (x.tabs t).cleanup with mounted := false }, [])

/-- One step of the whole. -/
inductive WebMove (parse : String → Option UUID) (format : UUID → String) (stamps : ℕ → Stamp)
    (x : Web) : WebAction → Web → Prop
  | world {a : WorldAction} {x' : Web} (h : WorldMove parse stamps x x' a) :
      WebMove parse format stamps x (.world a) x'
  | connect {t : ℕ} {conn : Conn} {w : World} (howner : x.owner conn = none)
      (hw : x.world.step parse stamps (.server conn.1 (.accept conn.2)) = some w) :
      WebMove parse format stamps x (.connect t conn)
        ({ x with
          world := w
          owner := Function.update x.owner conn (some t) }.put t ((x.tabs t).connect conn, []))
  | tab {a : WebAction} {t : ℕ} {out : Provider × List InboundEnvelope} {inbox : Conn → List Event}
      (h : TabMove format x a t out) :
      WebMove parse format stamps x a ({ x with inbox }.put t out)

theorem tabStep_move {b : WebAction} {out : Provider × List InboundEnvelope}
    {inbox : Conn → List Event} (hmove : TabMove format x b t out)
    (h : { x with inbox }.tabStep t out = some x') : WebMove parse format stamps x b x' := by
  unfold Web.tabStep at h
  split_ifs at h
  cases h
  exact .tab hmove

theorem Web.step_move {b : WebAction} (h : x.step parse format stamps b = some x') :
    WebMove parse format stamps x b x' := by
  cases b with
  | world a => exact .world (worldStep_move h)
  | connect t conn =>
    simp only [Web.step] at h
    split_ifs at h with hcond
    obtain ⟨w, hw, rfl⟩ := map_world h
    simp only [Bool.and_eq_true, Option.isNone_iff_eq_none] at hcond
    exact .connect hcond.1.2 hw
  | onopen t conn =>
    simp only [Web.step] at h
    split_ifs at h
    exact tabStep_move .onopen h
  | onmessage t conn =>
    simp only [Web.step] at h
    split at h
    · cases h
    · rename_i event rest hinbox
      split_ifs at h
      exact tabStep_move (.onmessage hinbox) h
  | closing t => exact tabStep_move .closing h
  | onclose t conn =>
    simp only [Web.step] at h
    split_ifs at h
    exact tabStep_move .onclose h
  | reconcile t => exact tabStep_move .reconcile h
  | send t frame =>
    simp only [Web.step] at h
    split_ifs at h with hframe
    exact tabStep_move (.send hframe.2) h
  | listRooms t => exact tabStep_move .listRooms h
  | receiveRooms t ids =>
    simp only [Web.step] at h
    split_ifs at h with hids
    exact tabStep_move (.receiveRooms hids) h
  | cleanup t => exact tabStep_move .cleanup h
  | unmount t => exact tabStep_move .unmount h

theorem onclose_ws (tab : Provider) (conn : Conn) :
    (tab.onclose conn).ws = tab.ws ∨ (tab.onclose conn).ws = none := by
  unfold Provider.onclose
  split
  · exact .inl rfl
  · exact .inr rfl

/-- A step of a tab opens no socket. -/
theorem TabMove.ws {b : WebAction} {out : Provider × List InboundEnvelope}
    (h : TabMove format x b t out) : out.1.ws = (x.tabs t).ws ∨ out.1.ws = none := by
  cases h with
  | onopen => exact .inl (onopen_steady _ _).ws
  | onmessage _ => exact .inl (routeEvent_steady _ _).ws
  | closing => exact .inl rfl
  | onclose => exact onclose_ws _ _
  | reconcile => exact .inl (reconcile_steady _).ws
  | send _ => exact .inl rfl
  | listRooms => exact .inl rfl
  | receiveRooms _ => exact .inl rfl
  | cleanup => exact .inr rfl
  | unmount => exact .inr rfl

theorem onclose_userID (tab : Provider) (conn : Conn) :
    (tab.onclose conn).userID = tab.userID := by
  unfold Provider.onclose
  split <;> rfl

theorem TabMove.userID {b : WebAction} {out : Provider × List InboundEnvelope}
    (h : TabMove format x b t out) : out.1.userID = (x.tabs t).userID := by
  cases h with
  | onopen => exact (onopen_steady _ _).userID
  | onmessage _ => exact (routeEvent_steady _ _).userID
  | onclose => exact onclose_userID _ _
  | reconcile => exact (reconcile_steady _).userID
  | _ => rfl

/-! ## A tab that stays in a room -/

/-- The tab `t` stays in room `r` on its socket `conn`: nothing on its way makes it
    leave. -/
structure Keeps (parse : String → Option UUID) (x : Web) (t : ℕ) (conn : Conn) (r : UUID) :
    Prop where
  owned : x.owner conn = some t
  knows : (x.tabs t).Knows r
  frames : ∀ f ∈ x.outbox conn, ¬ LeaveFrame parse r (some f)
  inRoom : InRoom (x.world.servers conn.1) conn.2 r

/-- The sockets of a tab are its own, and every membership has its room. -/
structure WebInv (x : Web) : Prop where
  sockets : ∀ t conn, (x.tabs t).ws = some conn → x.owner conn = some t
  life : ∀ i, Life (x.world.servers i).hub (x.world.servers i).thread
  referenced : x.world.backend.db.Referenced

theorem put_tabs_self (out : Provider × List InboundEnvelope) : (x.put t out).tabs t = out.1 :=
  Function.update_self ..

theorem put_tabs_of_ne {t' : ℕ} (ht : t' ≠ t) (out : Provider × List InboundEnvelope) :
    (x.put t out).tabs t' = x.tabs t' :=
  Function.update_of_ne ht ..

/-- Frames are only added to the socket of the tab that sends. -/
theorem mem_put_outbox {out : Provider × List InboundEnvelope} {f : InboundEnvelope}
    (hf : f ∈ (x.put t out).outbox conn) :
    f ∈ x.outbox conn ∨ ((x.tabs t).ws = some conn ∧ f ∈ out.2) := by
  unfold Web.put at hf
  cases hws : (x.tabs t).ws with
  | none =>
    simp only [hws] at hf
    exact .inl hf
  | some conn' =>
    simp only [hws] at hf
    by_cases hconn : conn = conn'
    · subst hconn
      rw [Function.update_self] at hf
      exact (List.mem_append.mp hf).imp_right fun h => ⟨rfl, h⟩
    · rw [Function.update_of_ne hconn] at hf
      exact .inl hf

theorem WebInv.put {out : Provider × List InboundEnvelope} (h : WebInv x)
    (hws : ∀ conn, out.1.ws = some conn → x.owner conn = some t) : WebInv (x.put t out) := by
  refine ⟨fun t' conn hconn => ?_, h.life, h.referenced⟩
  by_cases ht : t' = t
  · subst ht
    rw [put_tabs_self] at hconn
    exact hws conn hconn
  · rw [put_tabs_of_ne ht] at hconn
    exact h.sockets t' conn hconn

/-- A step of a tab: its own only if it spares the room. -/
theorem Keeps.put {t' : ℕ} {out : Provider × List InboundEnvelope} (h : Keeps parse x t conn r)
    (hinv : WebInv x) (hknows : t' = t → out.1.Knows r)
    (hframes : t' = t → ∀ f ∈ out.2, ¬ LeaveFrame parse r (some f)) :
    Keeps parse (x.put t' out) t conn r := by
  refine ⟨h.owned, ?_, fun f hf => ?_, h.inRoom⟩
  · by_cases ht : t = t'
    · subst ht
      rw [put_tabs_self]
      exact hknows rfl
    · rw [put_tabs_of_ne ht]
      exact h.knows
  · rcases mem_put_outbox hf with hold | ⟨hws, hnew⟩
    · exact h.frames f hold
    · have howner : some t = some t' := h.owned.symm.trans (hinv.sockets t' conn hws)
      exact hframes (Option.some.inj howner).symm f hnew

theorem WebInv.tab {b : WebAction} {out : Provider × List InboundEnvelope}
    {inbox : Conn → List Event} (h : WebInv x) (hmove : TabMove format x b t out) :
    WebInv ({ x with inbox }.put t out) := by
  have hx : WebInv { x with inbox } := ⟨h.sockets, h.life, h.referenced⟩
  refine hx.put fun conn hconn => ?_
  rcases hmove.ws with hws | hws
  · exact h.sockets t conn (by rw [← hws]; exact hconn)
  · rw [hws] at hconn
    cases hconn

/-- A step of the backend, and a socket that nobody had. -/
theorem WebInv.accepted {w : World} (h : WebInv x) (howner : x.owner conn = none)
    (hw : x.world.step parse stamps a = some w) :
    WebInv { x with world := w, owner := Function.update x.owner conn (some t) } := by
  refine ⟨fun t' conn' hconn' => ?_, fun i => life_reach (World.step_server hw i) (h.life i),
    World.step_referenced hw h.referenced⟩
  have hold : x.owner conn' = some t' := h.sockets t' conn' hconn'
  have hne : conn' ≠ conn := by
    rintro rfl
    rw [howner] at hold
    cases hold
  show Function.update x.owner conn (some t) conn' = some t'
  rw [Function.update_of_ne hne]
  exact hold

theorem WebMove.webInv {b : WebAction} (hmove : WebMove parse format stamps x b x')
    (h : WebInv x) : WebInv x' := by
  cases hmove with
  | world hm =>
    refine ⟨?_, fun i => life_reach (World.step_server hm.world i) (h.life i),
      World.step_referenced hm.world h.referenced⟩
    rw [hm.tabs, hm.owner]
    exact h.sockets
  | connect howner hw =>
    refine (h.accepted howner hw).put fun conn' hconn' => ?_
    cases hconn'
    exact Function.update_self ..
  | tab hm => exact h.tab hm

theorem webInv_start (users : List User) (user : ℕ → UUID) : WebInv (Web.start users user) where
  sockets _ _ h := by cases h
  life _ := life_new
  referenced m hm := by cases hm

theorem webInv_reach {ok : Web → WebAction → Prop}
    (hrun : Reach (Web.step parse format stamps) ok x x') (h : WebInv x) : WebInv x' :=
  hrun.invariant WebInv (fun _ _ _ hinv _ hs => (Web.step_move hs).webInv hinv) h

/-! ## The step and the run -/

/-- The user of tab `t` is a member of `r` after the step. -/
def StaysMember (parse : String → Option UUID) (format : UUID → String) (stamps : ℕ → Stamp)
    (t : ℕ) (r : UUID) (x : Web) (b : WebAction) : Prop :=
  ∀ x', x.step parse format stamps b = some x' → Active x'.world.backend.db r (x.tabs t).userID

/-- The user stays a member of `r`, and tab `t` does not route a `user.left` of its
    own user in `r`. -/
def Undisturbed (parse : String → Option UUID) (format : UUID → String) (stamps : ℕ → Stamp)
    (t : ℕ) (r : UUID) (x : Web) (b : WebAction) : Prop :=
  StaysMember parse format stamps t r x b ∧
    ∀ conn, b = .onmessage t conn →
      (x.inbox conn).head? ≠ some (.room (.userLeft (x.tabs t).userID r))

/-- Tab `t` has joined room `r` on its socket `conn` and is not about to leave it:
    the Hub has the connection in the room, the tab has the room in
    `joinedRoomsRef` and in every rooms list that it has or is about to get, and no
    `room.leave` of its own is under way. -/
structure Joined (parse : String → Option UUID) (x : Web) (t : ℕ) (conn : Conn) (r : UUID) :
    Prop where
  mounted : (x.tabs t).mounted = true
  member : Active x.world.backend.db r (x.tabs t).userID
  inHub : conn.2 ∈ (x.world.servers conn.1).hub.maps.rooms.members r
  notLeaving : ¬ Leaving (x.world.servers conn.1) conn.2 r
  owned : x.owner conn = some t
  knows : (x.tabs t).Knows r
  frames : ∀ f ∈ x.outbox conn, ¬ LeaveFrame parse r (some f)

theorem Joined.keeps (h : Joined parse x t conn r) (hinv : WebInv x) :
    Keeps parse x t conn r := by
  have hlife := hinv.life conn.1
  have hclient := ((hlife.maps.rooms r conn.2).mp h.inHub).1
  exact ⟨h.owned, h.knows, h.frames,
    ⟨hlife, hlife.clients conn.2 hclient, h.notLeaving, fun _ => h.inHub⟩⟩

/-- What a step of tab `t` itself does to a room that it keeps. -/
theorem TabMove.knows (hround : ∀ r, parse (format r) = some r) {b : WebAction}
    {out : Provider × List InboundEnvelope} (hmove : TabMove format x b t out)
    (hknows : (x.tabs t).Knows r) (hmember : Active x.world.backend.db r (x.tabs t).userID)
    (href : x.world.backend.db.Referenced) (hok : Undisturbed parse format stamps t r x b) :
    out.1.Knows r ∧ ∀ f ∈ out.2, ¬ LeaveFrame parse r (some f) := by
  have hnone : ∀ f ∈ ([] : List InboundEnvelope), ¬ LeaveFrame parse r (some f) := by simp
  cases hmove with
  | onopen => exact (onopen_spares _ _).knows (onopen_steady _ _) hknows
  | onmessage hinbox =>
    rename_i conn event rest
    have hother : event ≠ .room (.userLeft (x.tabs t).userID r) := by
      intro heq
      exact hok.2 conn rfl (by rw [hinbox, heq]; rfl)
    exact (routeEvent_spares hround hother).knows (routeEvent_steady _ _) hknows
  | closing => exact ⟨⟨hknows.joined, hknows.listed, hknows.answered⟩, hnone⟩
  | onclose => exact ⟨hknows.onclose _, hnone⟩
  | reconcile =>
    exact (reconcile_spares hround hknows.listed).knows (reconcile_steady _) hknows
  | send hframe => exact ⟨hknows, send_spares (not_leaveFrame_of_type hframe)⟩
  | listRooms =>
    obtain ⟨m, hm, hact⟩ := hmember
    refine ⟨⟨hknows.joined, hknows.listed, fun ids hids => ?_⟩, hnone⟩
    rcases List.mem_append.mp hids with hids | hids
    · exact hknows.answered ids hids
    · rw [List.mem_singleton.mp hids]
      exact mem_listRoomsForUser href hm hact
  | receiveRooms hids =>
    refine ⟨⟨hknows.joined, fun ids' heq => ?_, fun ids' hids' => ?_⟩, hnone⟩
    · cases heq
      exact hknows.answered _ hids
    · exact hknows.answered ids' (List.mem_of_mem_erase hids')
  | cleanup => exact ⟨⟨hknows.joined, hknows.listed, hknows.answered⟩, hnone⟩
  | unmount => exact ⟨⟨fun hm => (by cases hm), hknows.listed, hknows.answered⟩, hnone⟩

/-- Nothing but a `user.left` of its own makes the tab leave. -/
theorem WebMove.keeps (hround : ∀ r, parse (format r) = some r) {b : WebAction}
    (hmove : WebMove parse format stamps x b x') (hinv : WebInv x)
    (hmember : Active x.world.backend.db r (x.tabs t).userID)
    (hok : Undisturbed parse format stamps t r x b) (h : Keeps parse x t conn r) :
    Keeps parse x' t conn r := by
  cases hmove with
  | world hm =>
    refine ⟨?_, ?_, fun f hf => h.frames f (hm.outbox conn f hf), ?_⟩
    · rw [hm.owner]
      exact h.owned
    · rw [hm.tabs]
      exact h.knows
    · refine World.step_inRoom hm.world (fun data hread => ?_) h.inRoom
      obtain ⟨f, hf, rfl⟩ := hm.reads conn data hread (by rw [h.owned]; rfl)
      exact h.frames f hf
  | connect howner hw =>
    rename_i t' conn' w
    have hne : conn ≠ conn' := by
      rintro rfl
      have hnone : some t = none := h.owned.symm.trans howner
      cases hnone
    have howned : Function.update x.owner conn' (some t') conn = some t := by
      rw [Function.update_of_ne hne]
      exact h.owned
    have hin : InRoom (w.servers conn.1) conn.2 r :=
      World.step_inRoom hw (by simp) h.inRoom
    have hx : Keeps parse { x with
        world := w
        owner := Function.update x.owner conn' (some t') } t conn r :=
      ⟨howned, h.knows, h.frames, hin⟩
    refine hx.put (hinv.accepted howner hw) (fun ht => ?_) (by simp)
    subst ht
    exact ⟨h.knows.joined, h.knows.listed, h.knows.answered⟩
  | tab hm =>
    rename_i t' out inbox
    have hx : Keeps parse { x with inbox } t conn r := ⟨h.owned, h.knows, h.frames, h.inRoom⟩
    have hinv' : WebInv { x with inbox } := ⟨hinv.sockets, hinv.life, hinv.referenced⟩
    have hself : t' = t → out.1.Knows r ∧ ∀ f ∈ out.2, ¬ LeaveFrame parse r (some f) := by
      rintro rfl
      exact hm.knows hround h.knows hmember hinv.referenced hok
    exact hx.put hinv' (fun ht => (hself ht).1) (fun ht => (hself ht).2)

theorem WebMove.userID {b : WebAction} (hmove : WebMove parse format stamps x b x') :
    (x'.tabs t).userID = (x.tabs t).userID := by
  cases hmove with
  | world hm => rw [hm.tabs]
  | connect howner hw =>
    rename_i t' conn' w
    by_cases ht : t = t'
    · subst ht
      rw [put_tabs_self]
      rfl
    · rw [put_tabs_of_ne ht]
  | tab hm =>
    rename_i t' out inbox
    by_cases ht : t = t'
    · subst ht
      rw [put_tabs_self]
      exact hm.userID
    · rw [put_tabs_of_ne ht]

/-- In every run in which the user stays a member and the tab routes no `user.left`
    of its own user in the room, a tab that has joined the room keeps it in
    `joinedRoomsRef`, and its connection stays in `Hub.rooms` as long as the Hub has
    it, whatever the other connections of the user do. -/
theorem joined_tab_keeps_room (parse : String → Option UUID) (format : UUID → String)
    (stamps : ℕ → Stamp) (hround : ∀ r, parse (format r) = some r) (users : List User)
    (user : ℕ → UUID) (x₁ x₂ : Web) (t : ℕ) (conn : Conn) (r : UUID)
    (hstart : Reach (Web.step parse format stamps) Unguarded (Web.start users user) x₁)
    (hjoined : Joined parse x₁ t conn r)
    (hrun : Reach (Web.step parse format stamps) (Undisturbed parse format stamps t r) x₁ x₂) :
    (conn.2 ∈ (x₂.world.servers conn.1).hub.maps.clients →
        conn.2 ∈ (x₂.world.servers conn.1).hub.maps.rooms.members r) ∧
      ((x₂.tabs t).mounted = true → r ∈ (x₂.tabs t).joinedRooms) := by
  have hinv : WebInv x₁ := webInv_reach hstart (webInv_start users user)
  have hkeeps : WebInv x₂ ∧ Active x₂.world.backend.db r (x₂.tabs t).userID ∧
      Keeps parse x₂ t conn r := by
    refine hrun.invariant (fun x => WebInv x ∧ Active x.world.backend.db r (x.tabs t).userID ∧
      Keeps parse x t conn r) ?_ ⟨hinv, hjoined.member, hjoined.keeps hinv⟩
    rintro x b x' ⟨hinv, hmember, hkeeps⟩ hok hs
    have hmove := Web.step_move hs
    refine ⟨hmove.webInv hinv, ?_, hmove.keeps hround hinv hmember hok hkeeps⟩
    rw [hmove.userID]
    exact hok.1 x' hs
  exact ⟨hkeeps.2.2.inRoom.stays, hkeeps.2.2.knows.joined⟩

/-! ## Two tabs of one user -/

def firstConn : Conn := (0, ⟨0, 1, "ada"⟩)

def secondConn : Conn := (0, ⟨1, 1, "ada"⟩)

/-- Steps of server 0. -/
def serverSteps (as : List Action) : List WebAction := (onServer as).map .world

/-- The event that Redis has forwarded goes to the clients in `order`. -/
def delivered (order : List Client) : List Action :=
  [.brokerReceive .room, .brokerForward, .hubBroadcast .room order] ++
    order.map fun _ => .hubTask []

/-- Tab `t` connects, learns that its user is in room 5, and joins it; `order` are
    the clients that are told. -/
def openTab (t : ℕ) (conn : Conn) (order : List Client) : List WebAction :=
  [.connect t conn] ++ serverSteps (connect conn.2).tail ++
    [.listRooms t, .receiveRooms t [5], .onopen t conn, .reconcile t] ++
    serverSteps ([.read conn.2 (some (joinFrame spell 5))] ++ (ensured conn.2).tail ++
      joined conn.2 ++ delivered order ++ [.write firstConn.2]) ++
    [.onmessage 0 firstConn]

/-- User 1 creates the room and has it open in two tabs. -/
def twoTabs : List WebAction :=
  (requested 0 (.createRoom 1 (some ⟨"channel", "five", none, "", none, []⟩)) 1).map .world ++
    openTab 0 firstConn [firstConn.2] ++ openTab 1 secondConn [firstConn.2, secondConn.2]

/-- The second tab is closed, and its `user.left` gets to the first one. -/
def secondCloses : List WebAction :=
  [.unmount 1] ++ serverSteps ([.readError secondConn.2, .unregister secondConn.2,
    .hubUnregister [5], .hubTask [], .hubTask [], .offlineTake, .offlinePerform answers] ++
    delivered [firstConn.2] ++ [.write firstConn.2])

/-- The first tab routes it and leaves the room. -/
def firstLeaves : List WebAction :=
  [.onmessage 0 firstConn] ++ serverSteps [.read firstConn.2 (some (leaveFrame spell 5)),
    .perform firstConn.2 answers, .hubLeave]

/-- The state after some actions. -/
def webAfter (bs : List WebAction) : Web :=
  (exec (Web.step unspell spell fiveStamps) (Web.start [⟨1, "ada"⟩] fun _ => 1) bs).getD
    (Web.start [] fun _ => 0)

/-- Both tabs have the room open; then the second one is gone; then the first one has
    reacted. -/
def bothJoined : Web := webAfter twoTabs

def secondClosed : Web := webAfter (twoTabs ++ secondCloses)

def firstLeft : Web := webAfter (twoTabs ++ secondCloses ++ firstLeaves)

/-- `StaysMember`, evaluated. -/
def staysMember (t : ℕ) (r : UUID) (x : Web) (b : WebAction) : Bool :=
  match x.step unspell spell fiveStamps b with
  | some x' => x'.world.backend.db.members.any (·.isActiveRow r (x.tabs t).userID)
  | none => true

/-- `Undisturbed`, evaluated. -/
def undisturbed (t : ℕ) (r : UUID) (x : Web) (b : WebAction) : Bool :=
  staysMember t r x b &&
    match b with
    | .onmessage _ conn =>
      (x.inbox conn).head? ≠ some (.room (.userLeft (x.tabs t).userID r))
    | _ => true

theorem staysMember_of_check (t : ℕ) (r : UUID) (x : Web) (b : WebAction)
    (h : staysMember t r x b = true) : StaysMember unspell spell fiveStamps t r x b := by
  intro x' hx'
  unfold staysMember at h
  rw [hx', List.any_eq_true] at h
  exact h

theorem undisturbed_of_check (t : ℕ) (r : UUID) (x : Web) (b : WebAction)
    (h : undisturbed t r x b = true) : Undisturbed unspell spell fiveStamps t r x b := by
  unfold undisturbed at h
  rw [Bool.and_eq_true] at h
  refine ⟨staysMember_of_check t r x b h.1, ?_⟩
  rintro conn rfl
  exact of_decide_eq_true h.2

theorem reach_bothJoined :
    Reach (Web.step unspell spell fiveStamps) Unguarded (Web.start [⟨1, "ada"⟩] fun _ => 1)
      bothJoined := by
  have hexec : exec (Web.step unspell spell fiveStamps) (Web.start [⟨1, "ada"⟩] fun _ => 1)
      twoTabs = some bothJoined := rfl
  exact Reach.of_exec (meets_unguarded _ _ twoTabs) hexec

theorem joined_bothJoined : Joined unspell bothJoined 0 firstConn 5 := by
  have hthread : (bothJoined.world.servers 0).thread firstConn.2 = .running (.ret ()) := rfl
  have hleave : (bothJoined.world.servers 0).hub.leave = [] := rfl
  have hrooms : (bothJoined.tabs 0).rooms = some [5] := rfl
  have hresponses : (bothJoined.tabs 0).responses = [] := rfl
  have houtbox : bothJoined.outbox firstConn = [] := rfl
  refine ⟨rfl, by decide, by decide, ?_, rfl, ⟨fun _ => by decide, ?_, ?_⟩, ?_⟩
  · rintro (hmem | ⟨p, hp, hcan⟩)
    · have hmem : (firstConn.2, 5) ∈ (bothJoined.world.servers 0).hub.leave := hmem
      rw [hleave] at hmem
      cases hmem
    · have hp : (bothJoined.world.servers 0).thread firstConn.2 = .running p := hp
      rw [hthread] at hp
      cases hp
      exact hcan
  · intro ids hids
    rw [hrooms] at hids
    cases hids
    decide
  · simp [hresponses]
  · simp [houtbox]

theorem joined_tab_keeps_room_unrouted :
    secondClosed.inbox firstConn = [.room (.userLeft 1 5)] ∧
      firstConn.2 ∈ (secondClosed.world.servers 0).hub.maps.rooms.members 5 ∧
      5 ∈ (secondClosed.tabs 0).joinedRooms := by
  have hexec : exec (Web.step unspell spell fiveStamps) bothJoined secondCloses =
      some secondClosed := rfl
  have hrun := Reach.of_exec (meets_of_checks (undisturbed_of_check 0 5) rfl) hexec
  have hkeeps := joined_tab_keeps_room unspell spell fiveStamps unspell_spell _ _ bothJoined
    secondClosed 0 firstConn 5 reach_bothJoined joined_bothJoined hrun
  exact ⟨rfl, hkeeps.1 (by decide), hkeeps.2 rfl⟩

/-- The user stays a member all the time, and the second tab is closed: the first one
    drops the room, and the Hub removes its connection from it. -/
theorem closed_tab_evicts_other :
    Reach (Web.step unspell spell fiveStamps) Unguarded (Web.start [⟨1, "ada"⟩] fun _ => 1)
        bothJoined ∧
      Joined unspell bothJoined 0 firstConn 5 ∧
      secondConn.2 ∈ (bothJoined.world.servers 0).hub.maps.rooms.members 5 ∧
      Reach (Web.step unspell spell fiveStamps) (StaysMember unspell spell fiveStamps 0 5)
        bothJoined firstLeft ∧
      firstConn.2 ∈ (firstLeft.world.servers 0).hub.maps.clients ∧
      firstConn.2 ∉ (firstLeft.world.servers 0).hub.maps.rooms.members 5 ∧
      (firstLeft.tabs 0).mounted = true ∧ 5 ∉ (firstLeft.tabs 0).joinedRooms := by
  have hexec : exec (Web.step unspell spell fiveStamps) bothJoined (secondCloses ++ firstLeaves) =
      some firstLeft := rfl
  have hrun := Reach.of_exec (meets_of_checks (staysMember_of_check 0 5) rfl) hexec
  exact ⟨reach_bothJoined, joined_bothJoined, by decide, hrun, by decide, by decide, rfl, by decide⟩

end ConvoyChat.System
