import ConvoyChat.System.Resynced

/-!
# Reactions, on the server and in the cache

`ToggleReaction` adds or deletes a row of `message_reactions`, and its handler publishes
which of the two it was (`internal/handlers/reactions.go` lines 97–124). The server groups
the rows when a page is read; a client that holds the groups edits them in `applyReaction`
at every event. Here the calls on one message come one after another, and their events
reach the client in that order, each any number of times in a row.

* `reactions_follow`: from a grouping of the server on, the groups of the client are
  those of the rows after every event.
-/

namespace ConvoyChat.System

open ConvoyChat.Lib ConvoyChat.Store ConvoyChat.Frontend

/-- The message on the server and in the cache, and the last event. -/
structure Reacting where
  tables : MessageTables
  data : Option MessagesData
  last : Option (UUID × String × ReactionAction)

inductive ReactingAction
  /-- `ToggleReaction` is called, and its event is applied if there is one -/
  | toggle (now : Time) (rowID userID : UUID) (emoji : String)
  /-- the last event is delivered once more -/
  | again
deriving DecidableEq, Repr

section

variable (w : Wire) (messageID : UUID)

/-- The `message.reaction` branch of `routeEvent`. -/
def Reacting.deliver (s : Reacting) (e : UUID × String × ReactionAction) : Reacting :=
  { s with
    data := applyReaction s.data (w.uuidText messageID) (w.uuidText e.1) e.2.1 e.2.2
    last := some e }

def Reacting.step (s : Reacting) : ReactingAction → Option Reacting
  | .toggle now rowID userID emoji =>
    match toggleReaction now rowID messageID userID emoji s.tables with
    | .ok (added, tables) =>
      some ({ s with tables }.deliver w messageID (userID, emoji,
        if added then .added else .removed))
    | .error _ => some s
  | .again => s.last.map (s.deliver w messageID)

/-- A row of `message_reactions` says so. -/
def reactedTo (t : MessageTables) (userId emoji : String) : Bool :=
  t.reactions.any fun r => r.messageID = messageID && w.uuidText r.userID = userId &&
    r.emoji = emoji

/-- One group for each emoji, and the users of the groups are those of the rows. -/
def Represents (t : MessageTables) (groups : List ReactionGroup) : Prop :=
  GroupsOk groups ∧ ∀ userId emoji, hasReacted groups userId emoji =
    reactedTo w messageID t userId emoji

/-- Every copy of the message in the cache represents the rows, and the last event has
    been applied. -/
structure ReactInv (s : Reacting) : Prop where
  distinct : (s.tables.reactions.map Reaction.key).Nodup
  copies : ∀ x ∈ (pagesOf s.data).flatten, x.id = w.uuidText messageID →
    Represents w messageID s.tables x.reactions
  last : ∀ u e action, s.last = some (u, e, action) →
    reactedTo w messageID s.tables (w.uuidText u) e = decide (action = .added)

end

section

variable {w : Wire} {messageID : UUID} {s s' : Reacting} {t t' : MessageTables} {now : Time}
  {rowID userID : UUID} {emoji : String} {added : Bool}

/-- A toggle changes whether the user has reacted, and nothing else. -/
theorem reactedTo_toggle (h : toggleReaction now rowID messageID userID emoji t = .ok (added, t'))
    (u e : String) : reactedTo w messageID t' u e =
      (Change.reaction (w.uuidText userID) emoji (if added then .added else .removed)).react u e
        (reactedTo w messageID t u e) := by
  obtain ⟨m, hm, rfl⟩ := (rowsOf_toggle h).message
  obtain ⟨f, -, hf⟩ := wrote_toggle (w := w) h
  obtain ⟨hid, hstored⟩ := hf m hm
  rw [if_pos rfl] at hstored
  have hreacted := congrArg (fun v => Shown.reacted v u e) hstored
  dsimp only [stored] at hreacted
  rw [hid] at hreacted
  exact hreacted

/-- An event is applied to groups that represent the rows before its toggle, or after. -/
theorem Represents.react {groups : List ReactionGroup} (h : GroupsOk groups) {u : UUID}
    {action : ReactionAction}
    (hrows : ∀ x y, reactedTo w messageID t x y =
      (Change.reaction (w.uuidText u) emoji action).react x y (hasReacted groups x y)) :
    Represents w messageID t (react groups (w.uuidText u) emoji action) := by
  obtain ⟨hok, hreact⟩ := react_spec h (w.uuidText u) emoji action
  exact ⟨hok, fun x y => (hreact x y).trans (hrows x y).symm⟩

theorem mem_deliver {e : UUID × String × ReactionAction} {x : ChatMessage}
    (hx : x ∈ (pagesOf (s.deliver w messageID e).data).flatten)
      (hid : x.id = w.uuidText messageID) :
    ∃ y ∈ (pagesOf s.data).flatten, y.id = w.uuidText messageID ∧
      x.reactions = react y.reactions (w.uuidText e.1) e.2.1 e.2.2 := by
  rw [Reacting.deliver, applyReaction, flatten_patchMessages] at hx
  obtain ⟨y, hy, rfl⟩ := List.mem_map.mp hx
  have hyid : y.id = w.uuidText messageID := by
    unfold patchReaction at hid
    split_ifs at hid
    · exact hid
    · exact hid
  refine ⟨y, hy, hyid, ?_⟩
  rw [patchReaction, if_neg (not_not.mpr hyid)]

theorem ReactInv.toggle (h : ReactInv w messageID s)
    (ht : toggleReaction now rowID messageID userID emoji s.tables = .ok (added, t)) :
    ReactInv w messageID
      ({ s with tables := t }.deliver w messageID (userID, emoji,
        if added then .added else .removed)) := by
  refine ⟨(rowsOf_toggle ht).distinct h.distinct, fun x hx hid => ?_, fun u e action hlast => ?_⟩
  · obtain ⟨y, hy, hyid, hreactions⟩ := mem_deliver hx hid
    obtain ⟨hok, hrows⟩ := h.copies y hy hyid
    rw [hreactions]
    refine Represents.react hok fun u e => ?_
    rw [hrows]
    exact reactedTo_toggle ht u e
  · cases hlast
    show reactedTo w messageID t (w.uuidText userID) emoji = _
    rw [reactedTo_toggle ht, Change.react, if_pos ⟨rfl, rfl⟩]

/-- The rows have it already when an event comes again. -/
theorem ReactInv.again (h : ReactInv w messageID s) {e : UUID × String × ReactionAction}
    (hlast : s.last = some e) : ReactInv w messageID (s.deliver w messageID e) := by
  obtain ⟨u, emoji, action⟩ := e
  have hrow := h.last u emoji action hlast
  refine ⟨h.distinct, fun x hx hid => ?_, fun u' e' action' hlast' => ?_⟩
  · obtain ⟨y, hy, hyid, hreactions⟩ := mem_deliver hx hid
    obtain ⟨hok, hrows⟩ := h.copies y hy hyid
    rw [hreactions]
    refine Represents.react hok fun x' y' => ?_
    rw [hrows, Change.react]
    split_ifs with hxy
    · rw [← hxy.1, ← hxy.2]
      exact hrow
    · rfl
  · cases hlast'
    exact hrow

theorem ReactInv.step {a : ReactingAction} (h : ReactInv w messageID s)
    (hs : s.step w messageID a = some s') : ReactInv w messageID s' := by
  cases a with
  | toggle now rowID userID emoji =>
    simp only [Reacting.step] at hs
    split at hs
    · cases hs
      exact h.toggle ‹_›
    · cases hs
      exact h
  | again =>
    obtain ⟨e, hlast, rfl⟩ := Option.map_eq_some_iff.mp hs
    exact h.again hlast

/-- From a grouping of `ListReactionsForMessages` on, the reactions of the message in
    the cache are those that are stored, after every event. -/
theorem reactions_follow {ids : List UUID} {data : Option MessagesData}
    (hdistinct : (t.reactions.map Reaction.key).Nodup) (hmem : messageID ∈ ids)
    (hlisted : ∀ x ∈ (pagesOf data).flatten, x.id = w.uuidText messageID →
      x.reactions = ((listReactionsForMessages ids t.reactions messageID).getD []).map w.group)
    (hrun : Reach (Reacting.step w messageID) Unguarded ⟨t, data, none⟩ s) :
    ∀ x ∈ (pagesOf s.data).flatten, x.id = w.uuidText messageID →
      Represents w messageID s.tables x.reactions := by
  have hstart : ReactInv w messageID ⟨t, data, none⟩ := by
    refine ⟨hdistinct, fun x hx hid => ?_, fun u e action hlast => by cases hlast⟩
    rw [hlisted x hx hid]
    exact listed_reactions hdistinct hmem
  exact (hrun.invariant (ReactInv w messageID) (fun _ _ _ h _ hs => h.step hs) hstart).copies

end

/-! ## Two users and one emoji -/

/-- Message 10, to which user 2 has reacted. -/
def likedMessage : MessageTables where
  messages := [⟨10, 5, 1, "hello", .text, none, none, 1, 1⟩]
  users := [⟨1, "ada", none⟩, ⟨2, "bob", none⟩]
  reads := []
  reactions := [⟨20, 10, 2, "+1", 2⟩]
  message_id := by decide
  author := by decide

def likedCache : Option MessagesData :=
  some ⟨(((listRoomMessages likedMessage 5 PAGE_SIZE none).map sampleWire.message) :: []), [none]⟩

/-- User 1 reacts too, and user 2 takes the reaction back; both events come twice. -/
def likedToggles : List ReactingAction :=
  [.toggle 3 21 1 "+1", .again, .toggle 4 22 2 "+1", .again]

def likedAfter : Reacting :=
  (exec (Reacting.step sampleWire 10) ⟨likedMessage, likedCache, none⟩ likedToggles).getD
    ⟨likedMessage, none, none⟩

theorem reactions_follow_toggles :
    (pagesOf likedAfter.data).flatten.map (·.reactions) = [[⟨"+1", 1, [spell 1]⟩]] ∧
      ∀ x ∈ (pagesOf likedAfter.data).flatten, x.id = spell 10 →
        Represents sampleWire 10 likedAfter.tables x.reactions := by
  refine ⟨by decide, ?_⟩
  have hrun :
      Reach (Reacting.step sampleWire 10) Unguarded ⟨likedMessage, likedCache, none⟩ likedAfter :=
    Reach.of_exec (meets_unguarded _ _ likedToggles) rfl
  have hmem : (10 : UUID) ∈ [10] := List.mem_singleton_self 10
  exact reactions_follow (by decide) hmem (by decide) hrun

end ConvoyChat.System
