import ConvoyChat.Websocket.Holders

/-!
# The socket of a tab

Model of `WebSocketProvider` (`frontend/hooks/useWebSocket.tsx`) as far as it
decides which rooms the tab is joined to: the current socket, `joinedRoomsRef`, the
ids of the rooms list that `useRooms` holds, and the frames that joining and leaving
send. A function returns the tab after it and the frames that it sends on the
current socket, in order.

The caches of messages, presence and the unread badges are not read by any of these
functions and are left out, as are the frames that other hooks send through `send`.
`format` is `uuid.UUID.String`, the spelling of an id on the wire.

* `Steady`: joining and leaving rooms changes neither the lists nor the socket.
* `Spares`: the tab keeps a room and sends no frame that leaves it; each function has
  one lemma that says when it does.
-/

namespace ConvoyChat.Frontend

open ConvoyChat.Handlers ConvoyChat.Websocket

/-- A socket: the server at its other end and the connection there. -/
abbrev Conn := ℕ × Client

inductive ConnStatus
  | connecting
  | open
  | closed
deriving DecidableEq, Repr

/-- The state of `WebSocketProvider` in one tab. -/
structure Provider where
  userID : UUID
  mounted : Bool
  /-- `wsRef.current` -/
  ws : Option Conn
  /-- its `readyState` is `OPEN` -/
  ready : Bool
  /-- the sockets whose handlers are set -/
  attached : List Conn
  status : ConnStatus
  /-- `joinedRoomsRef.current`, in the order of insertion -/
  joinedRooms : List UUID
  /-- the ids in `useRooms().data` -/
  rooms : Option (List UUID)
  /-- answers to `GET /rooms` on their way -/
  responses : List (List UUID)
deriving DecidableEq, Repr

/-- A tab of a user who is logged in. -/
def Provider.new (userID : UUID) : Provider :=
  ⟨userID, true, none, false, [], .connecting, [], none, []⟩

section

variable (format : UUID → String)

def joinFrame (roomId : UUID) : InboundEnvelope := ⟨"room.join", format roomId, "", "", "", "", ""⟩

def leaveFrame (roomId : UUID) : InboundEnvelope :=
  ⟨"room.leave", format roomId, "", "", "", "", ""⟩

/-- Model of `send` (lines 103–110). -/
def Provider.send (tab : Provider) (frame : InboundEnvelope) : List InboundEnvelope :=
  if tab.ready then [frame] else []

/-- Model of `joinRoom` (lines 159–168). -/
def Provider.joinRoom (tab : Provider) (roomId : UUID) : Provider × List InboundEnvelope :=
  ({ tab with
      joinedRooms := if roomId ∈ tab.joinedRooms then tab.joinedRooms
        else tab.joinedRooms ++ [roomId] },
    tab.send (joinFrame format roomId))

/-- Model of `leaveRoom` (lines 170–176). -/
def Provider.leaveRoom (tab : Provider) (roomId : UUID) : Provider × List InboundEnvelope :=
  ({ tab with joinedRooms := tab.joinedRooms.filter (· ≠ roomId) },
    tab.send (leaveFrame format roomId))

/-- The part of `routeEvent` (lines 210–383) that touches the joined rooms: the
    `user.left` of the tab's own user. -/
def Provider.routeEvent (tab : Provider) (event : Event) : Provider × List InboundEnvelope :=
  match event with
  | .room (.userLeft userID roomID) =>
    if userID = tab.userID then tab.leaveRoom format roomID else (tab, [])
  | _ => (tab, [])

/-- Model of `connect` from its `new WebSocket` on (lines 435–437). -/
def Provider.connect (tab : Provider) (ws : Conn) : Provider :=
  { tab with
    ws := some ws
    ready := false
    attached := tab.attached ++ [ws]
    status := .connecting }

/-- Model of `onopen` (lines 439–467), up to the `presence.update` at its end. -/
def Provider.onopen (tab : Provider) (ws : Conn) : Provider × List InboundEnvelope :=
  if tab.ws ≠ some ws then (tab, [])
  else ({ tab with ready := true, status := .open }, tab.joinedRooms.map (joinFrame format))

/-- Model of `onclose` (lines 479–484). -/
def Provider.onclose (tab : Provider) (ws : Conn) : Provider :=
  if tab.ws ≠ some ws then tab
  else { tab with ws := none, ready := false, status := .closed }

/-- The cleanup of the connection effect (lines 495–507). -/
def Provider.cleanup (tab : Provider) : Provider :=
  { tab with
    ws := none
    ready := false
    attached := tab.attached.filter fun ws => some ws ≠ tab.ws }

/-- `desired.forEach(…)` of the reconcile effect. -/
def Provider.joinMissing (tab : Provider) : List UUID → Provider × List InboundEnvelope
  | [] => (tab, [])
  | id :: rest =>
    if id ∈ tab.joinedRooms then tab.joinMissing rest
    else
      ((Provider.joinMissing (tab.joinRoom format id).1 rest).1,
        (tab.joinRoom format id).2 ++ (Provider.joinMissing (tab.joinRoom format id).1 rest).2)

/-- `toLeave.forEach(…)` of the reconcile effect. -/
def Provider.leaveAll (tab : Provider) : List UUID → Provider × List InboundEnvelope
  | [] => (tab, [])
  | id :: rest =>
    ((Provider.leaveAll (tab.leaveRoom format id).1 rest).1,
      (tab.leaveRoom format id).2 ++ (Provider.leaveAll (tab.leaveRoom format id).1 rest).2)

/-- Model of the reconcile effect (lines 517–530). -/
def Provider.reconcile (tab : Provider) : Provider × List InboundEnvelope :=
  match tab.status, tab.rooms with
  | .open, some desired =>
    let joined := tab.joinMissing format desired
    let left := joined.1.leaveAll format (joined.1.joinedRooms.filter (· ∉ desired))
    (left.1, joined.2 ++ left.2)
  | _, _ => (tab, [])

end

/-! ## What joining and leaving do not change -/

/-- Only the joined rooms and the state of the socket differ. -/
structure Steady (tab tab' : Provider) : Prop where
  userID : tab'.userID = tab.userID
  mounted : tab'.mounted = tab.mounted
  ws : tab'.ws = tab.ws
  rooms : tab'.rooms = tab.rooms
  responses : tab'.responses = tab.responses

variable {parse : String → Option UUID} {format : UUID → String} {r roomId : UUID}
  {tab tab₁ tab₂ : Provider}

theorem Steady.refl (tab : Provider) : Steady tab tab := ⟨rfl, rfl, rfl, rfl, rfl⟩

theorem Steady.trans (h : Steady tab tab₁) (h' : Steady tab₁ tab₂) : Steady tab tab₂ where
  userID := h'.userID.trans h.userID
  mounted := h'.mounted.trans h.mounted
  ws := h'.ws.trans h.ws
  rooms := h'.rooms.trans h.rooms
  responses := h'.responses.trans h.responses

theorem joinRoom_steady (tab : Provider) : Steady tab (tab.joinRoom format roomId).1 :=
  ⟨rfl, rfl, rfl, rfl, rfl⟩

theorem leaveRoom_steady (tab : Provider) : Steady tab (tab.leaveRoom format roomId).1 :=
  ⟨rfl, rfl, rfl, rfl, rfl⟩

theorem routeEvent_steady (tab : Provider) (e : Event) :
    Steady tab (tab.routeEvent format e).1 := by
  unfold Provider.routeEvent
  split
  · split
    · exact leaveRoom_steady tab
    · exact .refl tab
  · exact .refl tab

theorem onopen_steady (tab : Provider) (conn : Conn) :
    Steady tab (tab.onopen format conn).1 := by
  unfold Provider.onopen
  split
  · exact .refl tab
  · exact ⟨rfl, rfl, rfl, rfl, rfl⟩

theorem joinMissing_steady (ids : List UUID) (tab : Provider) :
    Steady tab (tab.joinMissing format ids).1 := by
  induction ids generalizing tab with
  | nil => exact .refl tab
  | cons id rest ih =>
    unfold Provider.joinMissing
    split
    · exact ih tab
    · exact (joinRoom_steady tab).trans (ih _)

theorem leaveAll_steady (ids : List UUID) (tab : Provider) :
    Steady tab (tab.leaveAll format ids).1 := by
  induction ids generalizing tab with
  | nil => exact .refl tab
  | cons id rest ih => exact (leaveRoom_steady tab).trans (ih _)

theorem reconcile_steady (tab : Provider) : Steady tab (tab.reconcile format).1 := by
  unfold Provider.reconcile
  split
  · exact (joinMissing_steady _ tab).trans (leaveAll_steady _ _)
  · exact .refl tab

/-! ## Keeping a room -/

/-- The tab keeps room `r`, and no frame that it sends leaves it. -/
structure Spares (parse : String → Option UUID) (r : UUID) (tab : Provider)
    (out : Provider × List InboundEnvelope) : Prop where
  joined : r ∈ tab.joinedRooms → r ∈ out.1.joinedRooms
  frames : ∀ f ∈ out.2, ¬ LeaveFrame parse r (some f)

theorem Spares.refl (tab : Provider) : Spares parse r tab (tab, []) := ⟨id, by simp⟩

theorem Spares.trans {out out' : Provider × List InboundEnvelope} (h : Spares parse r tab out)
    (h' : Spares parse r out.1 out') : Spares parse r tab (out'.1, out.2 ++ out'.2) where
  joined hr := h'.joined (h.joined hr)
  frames f hf := by
    rcases List.mem_append.mp hf with hf | hf
    · exact h.frames f hf
    · exact h'.frames f hf

theorem not_leaveFrame_of_type {f : InboundEnvelope} (h : f.type ≠ "room.leave") :
    ¬ LeaveFrame parse r (some f) := by
  rintro ⟨env, heq, htype, -⟩
  cases heq
  exact h htype

theorem joinFrame_spares : ¬ LeaveFrame parse r (some (joinFrame format roomId)) :=
  not_leaveFrame_of_type (by simp [joinFrame])

theorem send_spares {frame : InboundEnvelope} (h : ¬ LeaveFrame parse r (some frame)) :
    ∀ f ∈ tab.send frame, ¬ LeaveFrame parse r (some f) := by
  intro f hf
  unfold Provider.send at hf
  split at hf
  · cases List.mem_singleton.mp hf
    exact h
  · cases hf

theorem joinRoom_spares (tab : Provider) : Spares parse r tab (tab.joinRoom format roomId) := by
  refine ⟨fun hr => ?_, send_spares joinFrame_spares⟩
  show r ∈ if roomId ∈ tab.joinedRooms then tab.joinedRooms else tab.joinedRooms ++ [roomId]
  split
  · exact hr
  · exact List.mem_append_left _ hr

theorem onopen_spares (tab : Provider) (conn : Conn) :
    Spares parse r tab (tab.onopen format conn) := by
  unfold Provider.onopen
  split
  · exact .refl tab
  · refine ⟨id, fun f hf => ?_⟩
    obtain ⟨id, -, rfl⟩ := List.mem_map.mp hf
    exact joinFrame_spares

theorem joinMissing_spares (ids : List UUID) (tab : Provider) :
    Spares parse r tab (tab.joinMissing format ids) := by
  induction ids generalizing tab with
  | nil => exact .refl tab
  | cons id rest ih =>
    unfold Provider.joinMissing
    split
    · exact ih tab
    · exact (joinRoom_spares tab).trans (ih _)

section

variable (hround : ∀ r, parse (format r) = some r)
include hround

theorem leaveFrame_spares (hne : roomId ≠ r) :
    ¬ LeaveFrame parse r (some (leaveFrame format roomId)) := by
  rintro ⟨env, heq, -, hparse⟩
  cases heq
  have hid : parse (leaveFrame format roomId).roomID = some roomId := hround roomId
  rw [hid] at hparse
  exact hne (Option.some.inj hparse)

theorem leaveRoom_spares (hne : roomId ≠ r) (tab : Provider) :
    Spares parse r tab (tab.leaveRoom format roomId) := by
  refine ⟨fun hr => ?_, send_spares (leaveFrame_spares hround hne)⟩
  show r ∈ tab.joinedRooms.filter (· ≠ roomId)
  rw [List.mem_filter]
  exact ⟨hr, by simpa using Ne.symm hne⟩

/-- Only the `user.left` of the tab's own user in room `r` makes it leave `r`. -/
theorem routeEvent_spares {e : Event} (he : e ≠ .room (.userLeft tab.userID r)) :
    Spares parse r tab (tab.routeEvent format e) := by
  unfold Provider.routeEvent
  split
  · rename_i userID roomID
    split_ifs with hu
    · subst hu
      refine leaveRoom_spares hround (fun hr => he ?_) tab
      rw [hr]
    · exact .refl tab
  · exact .refl tab

theorem leaveAll_spares {ids : List UUID} (hr : r ∉ ids) (tab : Provider) :
    Spares parse r tab (tab.leaveAll format ids) := by
  induction ids generalizing tab with
  | nil => exact .refl tab
  | cons id rest ih =>
    rw [List.mem_cons, not_or] at hr
    exact (leaveRoom_spares hround (Ne.symm hr.1) tab).trans (ih hr.2 _)

/-- The reconcile effect leaves no room of the list. -/
theorem reconcile_spares (hrooms : ∀ ids, tab.rooms = some ids → r ∈ ids) :
    Spares parse r tab (tab.reconcile format) := by
  unfold Provider.reconcile
  split
  · rename_i desired _ hdesired
    have hr : r ∈ desired := hrooms desired hdesired
    refine (joinMissing_spares desired tab).trans (leaveAll_spares hround ?_ _)
    rw [List.mem_filter]
    rintro ⟨-, hnot⟩
    exact absurd hr (by simpa using hnot)
  · exact .refl tab

end

/-- The tab has joined room `r`, and every rooms list that it has or is about to get
    holds `r`. -/
structure Provider.Knows (tab : Provider) (r : UUID) : Prop where
  joined : tab.mounted = true → r ∈ tab.joinedRooms
  listed : ∀ ids, tab.rooms = some ids → r ∈ ids
  answered : ∀ ids ∈ tab.responses, r ∈ ids

theorem Spares.knows {out : Provider × List InboundEnvelope} (h : Spares parse r tab out)
    (hsteady : Steady tab out.1) (hknows : tab.Knows r) :
    out.1.Knows r ∧ ∀ f ∈ out.2, ¬ LeaveFrame parse r (some f) := by
  refine ⟨⟨fun hm => h.joined (hknows.joined ?_), ?_, ?_⟩, h.frames⟩
  · rw [← hsteady.mounted]
    exact hm
  · rw [hsteady.rooms]
    exact hknows.listed
  · rw [hsteady.responses]
    exact hknows.answered

theorem Provider.Knows.onclose (h : tab.Knows r) (conn : Conn) : (tab.onclose conn).Knows r := by
  unfold Provider.onclose
  split
  · exact h
  · exact ⟨h.joined, h.listed, h.answered⟩

end ConvoyChat.Frontend
