import ConvoyChat.Websocket.Delivery

/-!
# Several servers on one Redis

Any number of servers share one Redis. A publication on the channel of a room is
recorded in `published`, whoever makes it. Redis forwards each publication of a
channel at most once to each connection that is subscribed then, in the order of
the channel, and may leave out any of them: `cursor` is where the connection stands
in the channel. Everything else a server does is a step of `Server.act`.

`queued` and `written` record, for every connection of every server, what was put on
its send queue (with the room it came from) and what `writePump` has written.

* `fleet_delivers_in_order`: the events of a room that are placed on the queue of a
  client, and those that it receives, are publications of the room, each one at most
  once and in the order they were published, and the client is in the room when the
  Hub places one.
-/

namespace ConvoyChat.System

open ConvoyChat.Lib ConvoyChat.Websocket

structure Fleet where
  servers : ℕ → Server
  /-- the publications on the channel of each room so far -/
  published : UUID → List Event
  /-- the first publication of the channel that Redis may still forward to the server -/
  cursor : ℕ → UUID → ℕ
  queued : ℕ → Client → List QueueEntry
  written : ℕ → Client → List Event

inductive FleetAction
  | publish (r : UUID) (e : Event)
  /-- Redis forwards the `i`-th publication of the room to server `n` -/
  | forward (n : ℕ) (r : UUID) (i : ℕ)
  | server (n : ℕ) (a : Action)

def Fleet.new : Fleet where
  servers := fun _ => Server.new
  published := fun _ => []
  cursor := fun _ _ => 0
  queued := fun _ _ => []
  written := fun _ _ => []

/-- A step of server `n`, with what it places and writes. -/
def Fleet.advance (f : Fleet) (n : ℕ) (a : Action) (s : Server) : Fleet :=
  { f with
    servers := Function.update f.servers n s
    queued := Function.update f.queued n fun c => f.queued n c ++ (f.servers n).placesOn a c
    written := Function.update f.written n fun c => f.written n c ++ (f.servers n).writesTo a c }

/-- Redis forwards a publication on the channel of a room. -/
def arrivesInRoom : Action → Bool
  | .arrive .room _ _ => true
  | _ => false

def Fleet.step (parse : String → Option UUID) (f : Fleet) : FleetAction → Option Fleet
  | .publish r e =>
    some { f with published := Function.update f.published r (f.published r ++ [e]) }
  | .forward n r i =>
    match (f.published r)[i]? with
    | none => none
    | some e =>
      if f.cursor n r ≤ i then
        ((f.servers n).step parse (.arrive .room r e)).map fun s =>
          { f with
            servers := Function.update f.servers n s
            cursor := Function.update f.cursor n (Function.update (f.cursor n) r (i + 1)) }
      else none
  | .server n a =>
    -- room events reach a server by `forward` only
    if arrivesInRoom a then none else ((f.servers n).step parse a).map (f.advance n a)

/-- The events of room `r` placed on the send queue of `c` at server `n`. -/
def Fleet.placed (f : Fleet) (n : ℕ) (c : Client) (r : UUID) : List Event :=
  ofRoom r (f.queued n c)

/-- Those of them that `c` has received. -/
def Fleet.received (f : Fleet) (n : ℕ) (c : Client) (r : UUID) : List Event :=
  ofRoom r ((f.queued n c).take (f.written n c).length)

/-- What holds of every connection in every state. -/
structure Fleet.Inv (f : Fleet) : Prop where
  aimed : ∀ n, Aimed (f.servers n)
  buffer : ∀ n c, (f.queued n c).map (·.2) = f.written n c ++ ((f.servers n).send c).buffer
  order : ∀ n c r, (f.placed n c r ++ (f.servers n).pending c r).Sublist
    ((f.published r).take (f.cursor n r))

theorem Fleet.inv_new : Fleet.new.Inv where
  aimed _ := aimed_new
  buffer _ _ := rfl
  order _ _ _ := List.Sublist.refl _

variable {parse : String → Option UUID} {f f' : Fleet}

theorem Fleet.Inv.publish (h : f.Inv) (r : UUID) (e : Event) :
    Fleet.Inv { f with published := Function.update f.published r (f.published r ++ [e]) } where
  aimed := h.aimed
  buffer := h.buffer
  order n c r' := by
    refine (h.order n c r').trans ?_
    by_cases hr : r' = r
    · subst hr
      show ((f.published r').take (f.cursor n r')).Sublist
        ((Function.update f.published r' (f.published r' ++ [e]) r').take (f.cursor n r'))
      rw [Function.update_self]
      exact ((List.prefix_append _ _).take _).sublist
    · show ((f.published r').take _).Sublist ((Function.update f.published r _ r').take _)
      rw [Function.update_of_ne hr]

/-- Redis goes on in the channel and never back. -/
theorem take_sublist_snoc {l : List Event} {i k : ℕ} {e : Event} (hk : k ≤ i)
    (he : l[i]? = some e) :
    (l.take k ++ [e]).Sublist (l.take (i + 1)) := by
  rw [List.take_add_one, he]
  exact ((List.take_prefix_take_left hk).sublist).append (List.Sublist.refl _)

theorem Fleet.Inv.forward (h : f.Inv) {n : ℕ} {r : UUID} {i : ℕ} {e : Event} {s : Server}
    (he : (f.published r)[i]? = some e) (hi : f.cursor n r ≤ i)
    (hs : (f.servers n).step parse (.arrive .room r e) = some s) :
    Fleet.Inv { f with
      servers := Function.update f.servers n s
      cursor := Function.update f.cursor n (Function.update (f.cursor n) r (i + 1)) } := by
  obtain ⟨-, hmove⟩ := Server.step_move hs
  have hact : (f.servers n).act parse (.arrive .room r e) = some s := by
    unfold Server.step at hs
    split_ifs at hs
    exact hs
  refine ⟨fun m => ?_, fun m c => ?_, fun m c r' => ?_⟩
  · by_cases hm : m = n
    · subst hm
      simpa using hmove.aimed (h.aimed m)
    · simpa [hm] using h.aimed m
  · by_cases hm : m = n
    · subst hm
      have hbuf := Server.act_buffer (c := c) hact
      simp only [Server.writesTo, Server.placesOn, List.nil_append, List.map_nil,
        List.append_nil] at hbuf
      simpa [hbuf] using h.buffer m c
    · simpa [hm] using h.buffer m c
  · by_cases hm : m = n
    · subst hm
      have hold := h.order m c r'
      have hpend := arrive_pending (c := c) (r := r') hact
      simp only [Fleet.placed, Function.update_self, hpend, ← List.append_assoc]
      by_cases hr : r' = r
      · subst hr
        simp only [Function.update_self, if_true]
        exact (hold.append (List.Sublist.refl _)).trans (take_sublist_snoc hi he)
      · rw [if_neg (Ne.symm hr), List.append_nil, Function.update_of_ne hr]
        exact hold
    · simpa [hm, Fleet.placed] using h.order m c r'

theorem Fleet.Inv.advance (h : f.Inv) {n : ℕ} {a : Action} {s : Server}
    (ha : ∀ id e, a ≠ .arrive .room id e) (hs : (f.servers n).step parse a = some s) :
    (f.advance n a s).Inv := by
  obtain ⟨-, hmove⟩ := Server.step_move hs
  have hact : (f.servers n).act parse a = some s := by
    unfold Server.step at hs
    split_ifs at hs
    exact hs
  refine ⟨fun m => ?_, fun m c => ?_, fun m c r => ?_⟩
  · by_cases hm : m = n
    · subst hm
      simpa [Fleet.advance] using hmove.aimed (h.aimed m)
    · simpa [Fleet.advance, hm] using h.aimed m
  · by_cases hm : m = n
    · subst hm
      have hbuf := Server.act_buffer (c := c) hact
      simp only [Fleet.advance, Function.update_self, List.map_append, h.buffer m c,
        List.append_assoc, hbuf]
    · simpa [Fleet.advance, hm] using h.buffer m c
  · by_cases hm : m = n
    · subst hm
      have hpend := Server.act_pending (c := c) (r := r) hact (h.aimed m).life ha
      have hof : ofRoom r (f.queued m c ++ (f.servers m).placesOn a c) =
          f.placed m c r ++ ofRoom r ((f.servers m).placesOn a c) := List.filterMap_append
      simp only [Fleet.placed, Fleet.advance, Function.update_self, hof, List.append_assoc]
      exact ((List.Sublist.refl _).append hpend).trans (h.order m c r)
    · simpa [Fleet.advance, Fleet.placed, hm] using h.order m c r

/-- A step of the fleet: a publication, a forwarded one, or a step of one server. -/
theorem Fleet.step_cases {a : FleetAction} (h : f.step parse a = some f') :
    (∃ r e, f' = { f with published := Function.update f.published r (f.published r ++ [e]) }) ∨
    (∃ n r i e s, (f.published r)[i]? = some e ∧ f.cursor n r ≤ i ∧
      (f.servers n).step parse (.arrive .room r e) = some s ∧
      f' = { f with
        servers := Function.update f.servers n s
        cursor := Function.update f.cursor n (Function.update (f.cursor n) r (i + 1)) }) ∨
    (∃ n b s, (∀ id e, b ≠ .arrive .room id e) ∧ (f.servers n).step parse b = some s ∧
      f' = f.advance n b s) := by
  cases a with
  | publish r e =>
    cases h
    exact .inl ⟨_, _, rfl⟩
  | forward n r i =>
    simp only [Fleet.step] at h
    cases he : (f.published r)[i]? with
    | none =>
      rw [he] at h
      cases h
    | some e =>
      simp only [he] at h
      split_ifs at h with hi
      obtain ⟨s, hs, rfl⟩ := Option.map_eq_some_iff.mp h
      exact .inr (.inl ⟨n, r, i, e, s, he, hi, hs, rfl⟩)
  | server n b =>
    simp only [Fleet.step] at h
    split_ifs at h with hb
    obtain ⟨s, hs, rfl⟩ := Option.map_eq_some_iff.mp h
    refine .inr (.inr ⟨n, b, s, ?_, hs, rfl⟩)
    rintro id e rfl
    exact hb rfl

theorem Fleet.Inv.step {a : FleetAction} (h : f.Inv) (hs : f.step parse a = some f') : f'.Inv := by
  rcases Fleet.step_cases hs with ⟨r, e, rfl⟩ | ⟨n, r, i, e, s, he, hi, hact, rfl⟩ |
    ⟨n, b, s, hb, hact, rfl⟩
  · exact h.publish r e
  · exact h.forward he hi hact
  · exact h.advance hb hact

theorem Fleet.inv_reach (hrun : Reach (Fleet.step parse) Unguarded Fleet.new f) : f.Inv :=
  hrun.invariant Fleet.Inv (fun _ _ _ h _ hs => h.step hs) Fleet.inv_new

/-- The queue of a client is what was placed on it less what was written, in order. -/
theorem Fleet.Inv.written_eq (h : f.Inv) (n : ℕ) (c : Client) :
    f.written n c = ((f.queued n c).take (f.written n c).length).map (·.2) := by
  rw [List.map_take, h.buffer n c, List.take_left]

theorem ofRoom_take (r : UUID) (q : List QueueEntry) (k : ℕ) :
    (ofRoom r (q.take k)).Sublist (ofRoom r q) :=
  (List.take_sublist k q).filterMap _

/-- What a step adds to the queue of `c` for room `r`, it adds while `c` is in the
    room. -/
theorem Fleet.Inv.placed_member (h : f.Inv) {a : FleetAction} (hs : f.step parse a = some f')
    {n : ℕ} {c : Client} {r : UUID} {e : Event} {new : List QueueEntry}
    (hnew : f'.queued n c = f.queued n c ++ new) (he : (some r, e) ∈ new) :
    c ∈ (f.servers n).hub.maps.rooms.members r := by
  rcases Fleet.step_cases hs with ⟨r', e', rfl⟩ | ⟨m, r', i, e', s, -, -, -, rfl⟩ |
    ⟨m, b, s, -, -, rfl⟩
  · have hnil : new = [] := by simpa using hnew
    simp [hnil] at he
  · have hnil : new = [] := by simpa using hnew
    simp [hnil] at he
  · by_cases hm : n = m
    · subst hm
      have hnew' : (f.servers n).placesOn b c = new := by
        simpa [Fleet.advance] using hnew
      exact Websocket.placed_member (h.aimed n) (hnew' ▸ he)
    · have hnil : new = [] := by simpa [Fleet.advance, hm] using hnew
      simp [hnil] at he

/-- In every run of any number of servers on one Redis, for every client and every
    room: the room events placed on the send queue of the client are publications
    of the room, each one at most once and in the order of the publications; what
    the client has received is a beginning of what was placed there; and the Hub
    places an event of the room only while the client is in the room. -/
theorem fleet_delivers_in_order (parse : String → Option UUID) (f : Fleet)
    (hrun : Reach (Fleet.step parse) Unguarded Fleet.new f) (n : ℕ) (c : Client) (r : UUID) :
    (f.placed n c r).Sublist (f.published r) ∧
    (f.received n c r).Sublist (f.published r) ∧
    f.written n c = ((f.queued n c).take (f.written n c).length).map (·.2) ∧
    ∀ a f' new e, f.step parse a = some f' → f'.queued n c = f.queued n c ++ new →
      (some r, e) ∈ new → c ∈ (f.servers n).hub.maps.rooms.members r := by
  have hinv : f.Inv := Fleet.inv_reach hrun
  have hplaced : (f.placed n c r).Sublist (f.published r) :=
    ((List.sublist_append_left _ _).trans (hinv.order n c r)).trans (List.take_sublist _ _)
  refine ⟨hplaced, (ofRoom_take r _ _).trans hplaced, hinv.written_eq n c, ?_⟩
  intro a f' new e hs hnew he
  exact hinv.placed_member hs hnew he

/-- Another member starts and stops typing in room 5. -/
def typing (isTyping : Bool) : Event := .userTyping 2 5 isTyping

/-- `early` joins room 5 at server 0; two events are published there, the first one
    goes all the way to the connection, the second one to its queue. -/
def typingRun : List FleetAction :=
  ((connect early ++ ensured early ++ joined early).map (.server 0)) ++
    [.publish 5 (typing true), .forward 0 5 0, .publish 5 (typing false), .forward 0 5 1,
      .server 0 (.brokerReceive .room), .server 0 .brokerForward,
      .server 0 (.hubBroadcast .room [early]), .server 0 (.hubTask []), .server 0 (.write early),
      .server 0 (.brokerReceive .room), .server 0 .brokerForward,
      .server 0 (.hubBroadcast .room [early]), .server 0 (.hubTask [])]

/-- The fleet after these actions. -/
def fleetAfter (as : List FleetAction) : Fleet :=
  (exec (Fleet.step parseId) Fleet.new as).getD Fleet.new

theorem fleet_delivers_in_order_typing :
    (fleetAfter typingRun).placed 0 early 5 = [typing true, typing false] ∧
      (fleetAfter typingRun).received 0 early 5 = [typing true] ∧
      [typing true, typing false].Sublist ((fleetAfter typingRun).published 5) := by
  have hexec : exec (Fleet.step parseId) Fleet.new typingRun = some (fleetAfter typingRun) := rfl
  have hrun := Reach.of_exec (meets_unguarded _ _ typingRun) hexec
  exact ⟨by decide, by decide, (fleet_delivers_in_order parseId _ hrun 0 early 5).1⟩

end ConvoyChat.System
