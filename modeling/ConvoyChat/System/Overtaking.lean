import ConvoyChat.Lib.Registers
import ConvoyChat.System.Resynced

/-!
# Concurrent edits and toggles

`EditMessage` and `ToggleReaction` commit their statement first and publish their event
afterwards (`internal/handlers/messages.go` lines 341–366, `reactions.go` lines 98–124),
and no event carries the place of its commit: of two requests the one that commits first
may publish last. Every event overwrites the content, or one reaction, in the cache.

* `converges_iff`: a client that applies every event ends with what is stored if and
  only if the last write of each in the order of the publications is the last one in
  the order of the commits.
* `edits_overtake`: two edits of which the first one is published last.
-/

namespace ConvoyChat.System

open ConvoyChat.Lib ConvoyChat.Store ConvoyChat.Frontend

/-- The content that an event writes to message `id`. -/
def editOf (id : UUID) : LiveEvent → Option String
  | .messageEdited messageID content _ => if messageID = id then some content else none
  | _ => none

/-- What an event does to one reaction to message `id`. -/
def reactionOf (id userID : UUID) (emoji : String) : LiveEvent → Option ReactionAction
  | .messageReaction messageID u e action =>
    if messageID = id ∧ u = userID ∧ e = emoji then some action else none
  | _ => none

/-- The event of an `EditMessage` or a `ToggleReaction`. -/
def LiveEvent.IsUpdate : LiveEvent → Prop
  | .messageEdited _ _ _ => True
  | .messageReaction _ _ _ _ => True
  | _ => False

/-- The room, with its events in the order of their commits and of their publications. -/
structure Traced where
  sync : RoomSync
  committed : List LiveEvent
  published : List LiveEvent

section

variable (w : Wire) (roomID : UUID) (uid : String)

/-- A commit adds its event at the end of `pending`. -/
def Traced.step (t : Traced) (a : SyncAction) : Option Traced :=
  (t.sync.step w roomID uid a).map fun after =>
    match a with
    | .publish i => ⟨after, t.committed, t.published ++ t.sync.pending[i]?.toList⟩
    | _ => ⟨after, t.committed ++ after.pending.drop t.sync.pending.length, t.published⟩

/-- `EditMessage` and `ToggleReaction` requests, with their publications in any order;
    the client applies the events. -/
def Concurrent (_ : Traced) : SyncAction → Prop
  | .edit _ _ _ => True
  | .toggle _ _ _ _ _ => True
  | .toggleRaced _ _ _ => True
  | .publish _ => True
  | .deliver => True
  | _ => False

/-- The client holds message `m` as it is stored, and no event is under way. -/
structure Settled (t : Traced) (m : Message) : Prop where
  pending : t.sync.pending = []
  queue : t.sync.queue = []
  committed : t.committed = []
  published : t.published = []
  row : m ∈ t.sync.tables.messages
  live : m.deletedAt = none
  held : ∃ x ∈ t.sync.confirmed, x.id = w.uuidText m.id
  cached : ∀ x ∈ t.sync.confirmed, x.id = w.uuidText m.id →
    GroupsOk x.reactions ∧ shown x = stored w t.sync.tables m

/-- What is stored of message `id` is `v` with the committed changes, and what is cached
    becomes `v` with the published ones. -/
structure Diverging (v : Shown) (id : UUID) (t : Traced) : Prop where
  perm : t.committed.Perm (t.published ++ t.sync.pending)
  updates : ∀ e ∈ t.committed, e.IsUpdate
  queued : ∀ e ∈ t.sync.queue, e ∈ t.published
  row : ∃ m ∈ t.sync.tables.messages, m.id = id ∧
    stored w t.sync.tables m = v.replay (changes w id t.committed)
  held : ∃ x ∈ t.sync.confirmed, x.id = w.uuidText id
  cached : ∀ x ∈ t.sync.confirmed, x.id = w.uuidText id →
    GroupsOk x.reactions ∧
      (shown x).replay (changes w id t.sync.queue) = v.replay (changes w id t.published)

end

variable {w : Wire} {roomID : UUID} {uid : String} {t t' : Traced} {id : UUID} {v : Shown}
  {e : LiveEvent} {c : Change} {events : List LiveEvent} {m : Message}

/-! ## What a sequence of events leaves -/

theorem change_of_update (he : e.IsUpdate) : ∃ c, LiveEvent.change w e = some c := by
  cases e with
  | messageNew row user clientID => cases he
  | _ => exact ⟨_, rfl⟩

theorem replay_concat (hid : e.about = id) (hc : LiveEvent.change w e = some c) :
    v.replay (changes w id (events ++ [e])) = (v.replay (changes w id events)).change c := by
  rw [changes_append, changes_of_change hc, if_pos hid, replay_append]
  rfl

theorem replay_concat_of_ne (hid : e.about ≠ id) (hc : LiveEvent.change w e = some c) :
    v.replay (changes w id (events ++ [e])) = v.replay (changes w id events) := by
  rw [changes_append, changes_of_change hc, if_neg hid, List.append_nil]

/-- A field that each update of the message writes, or leaves as it is, ends with the last
    write. -/
theorem replay_field {β : Type} (P : Shown → Prop) (field : Shown → β)
    {write : LiveEvent → Option β}
    (hwrite : ∀ e c v, P v → e.IsUpdate → e.about = id → LiveEvent.change w e = some c →
      P (v.change c) ∧ field (v.change c) = (write e).getD (field v))
    (hother : ∀ e, e.about ≠ id → write e = none) (hv : P v) (h : ∀ e ∈ events, e.IsUpdate) :
    P (v.replay (changes w id events)) ∧
      field (v.replay (changes w id events)) = (lastWrite write events).getD (field v) := by
  induction events using List.reverseRecOn with
  | nil => exact ⟨hv, rfl⟩
  | append_singleton events e ih =>
    obtain ⟨hP, hfield⟩ := ih fun x hx => h x (List.mem_append_left _ hx)
    have he := h e (by simp)
    obtain ⟨c, hc⟩ := change_of_update he
    rw [lastWrite_concat]
    by_cases hid : e.about = id
    · obtain ⟨hP', hfield'⟩ := hwrite e c _ hP he hid hc
      rw [replay_concat hid hc, hfield', hfield]
      refine ⟨hP', ?_⟩
      cases write e with
      | none => rfl
      | some b => rfl
    · rw [replay_concat_of_ne hid hc, hother e hid]
      exact ⟨hP, hfield⟩

/-- Edits and reactions leave a message undeleted, with the content of the last edit. -/
theorem replay_content (w : Wire) (id : UUID) (hlive : v.body.deletedAt = none)
    (h : ∀ e ∈ events, e.IsUpdate) :
    (v.replay (changes w id events)).body.deletedAt = none ∧
      (v.replay (changes w id events)).body.content =
        (lastWrite (fun e => (editOf id e).map some) events).getD v.body.content := by
  apply replay_field (fun v => v.body.deletedAt = none) fun v => v.body.content
  · intro e c v hdeleted he hid hc
    cases e with
    | messageEdited messageID content editedAt =>
      cases hc
      have hid : messageID = id := hid
      simp [Shown.change, Body.change, editOf, hid, isFalsy, hdeleted]
    | messageReaction messageID userID emoji action =>
      cases hc
      simpa [Shown.change, Body.change, editOf] using hdeleted
    | _ => cases he
  · intro e hid
    cases e with
    | messageEdited messageID content editedAt =>
      have hid : messageID ≠ id := hid
      simp [editOf, hid]
    | _ => rfl
  · exact hlive
  · exact h

/-- They leave each reaction as the last event about it has it. -/
theorem replay_reaction (w : Wire) (id : UUID) (v : Shown) (h : ∀ e ∈ events, e.IsUpdate)
    (userID : UUID) (emoji : String) :
    (v.replay (changes w id events)).reacted (w.uuidText userID) emoji =
      (lastWrite (fun e => (reactionOf id userID emoji e).map fun action =>
        decide (action = .added)) events).getD (v.reacted (w.uuidText userID) emoji) := by
  refine And.right (replay_field (fun _ => True) (fun v => v.reacted (w.uuidText userID) emoji)
    ?_ ?_ trivial h)
  · intro e c v _ he hid hc
    refine ⟨trivial, ?_⟩
    cases e with
    | messageEdited messageID content editedAt =>
      cases hc
      rfl
    | messageReaction messageID u e action =>
      cases hc
      have hid : messageID = id := hid
      by_cases hue : u = userID ∧ e = emoji
      · simp [Shown.change, Change.react, reactionOf, hid, hue.1, hue.2]
      · have hne : ¬ (w.uuidText u = w.uuidText userID ∧ e = emoji) := by
          rw [w.uuid_inj.eq_iff]
          exact hue
        simp [Shown.change, Change.react, reactionOf, hue, hne]
    | _ => cases he
  · intro e hid
    cases e with
    | messageReaction messageID u e action =>
      have hid : messageID ≠ id := hid
      simp [reactionOf, hid]
    | _ => rfl

/-! ## One step -/

/-- A statement is committed. -/
theorem Diverging.commit (h : Diverging w v id t) {tables : MessageTables}
    (hwrote : Wrote w t.sync.tables tables e.about c) (hc : LiveEvent.change w e = some c)
    (he : e.IsUpdate) :
    Diverging w v id ⟨t.sync.commit tables e,
      t.committed ++ (t.sync.commit tables e).pending.drop t.sync.pending.length, t.published⟩ := by
  have hdrop : (t.sync.commit tables e).pending.drop t.sync.pending.length = [e] :=
    List.drop_left
  rw [hdrop]
  refine ⟨?_, ?_, h.queued, ?_, h.held, h.cached⟩
  · show (t.committed ++ [e]).Perm (t.published ++ (t.sync.pending ++ [e]))
    rw [← List.append_assoc]
    exact h.perm.append_right [e]
  · intro x hx
    rcases List.mem_append.mp hx with hx | hx
    · exact h.updates x hx
    · rw [List.mem_singleton.mp hx]
      exact he
  · obtain ⟨f, hmessages, hf⟩ := hwrote
    obtain ⟨m, hm, hid, hstored⟩ := h.row
    obtain ⟨hfid, hfstored⟩ := hf m hm
    refine ⟨f m, ?_, hfid.trans hid, ?_⟩
    · show f m ∈ tables.messages
      rw [hmessages]
      exact List.mem_map_of_mem hm
    · show stored w tables (f m) = _
      rw [hfstored, hid, hstored]
      by_cases habout : e.about = id
      · rw [if_pos habout.symm, replay_concat habout hc]
      · rw [if_neg (Ne.symm habout), replay_concat_of_ne habout hc]

/-- An event is published, whichever it is. -/
theorem Diverging.publish (h : Diverging w v id t) {i : ℕ} (hi : t.sync.pending[i]? = some e) :
    Diverging w v id ⟨{ t.sync with
      pending := t.sync.pending.eraseIdx i
      queue := t.sync.queue ++ [e] }, t.committed, t.published ++ [e]⟩ := by
  obtain ⟨hlt, rfl⟩ := List.getElem?_eq_some_iff.mp hi
  refine ⟨?_, h.updates, ?_, h.row, h.held, ?_⟩
  · show t.committed.Perm (t.published ++ [t.sync.pending[i]] ++ t.sync.pending.eraseIdx i)
    rw [List.append_assoc, List.singleton_append]
    exact h.perm.trans ((List.getElem_cons_eraseIdx_perm hlt).symm.append_left _)
  · intro x hx
    rcases List.mem_append.mp hx with hx | hx
    · exact List.mem_append_left _ (h.queued x hx)
    · exact List.mem_append_right _ hx
  · intro x hx hid
    obtain ⟨hgroups, hreplay⟩ := h.cached x hx hid
    refine ⟨hgroups, ?_⟩
    show (shown x).replay (changes w id (t.sync.queue ++ [t.sync.pending[i]])) =
      v.replay (changes w id (t.published ++ [t.sync.pending[i]]))
    rw [changes_append, changes_append, replay_append, replay_append, hreplay]

/-- The client applies the oldest event of its queue. -/
theorem Diverging.deliver (h : Diverging w v id t) {rest : List LiveEvent}
    (hqueue : t.sync.queue = e :: rest) :
    Diverging w v id ⟨{ t.sync with queue := rest }.updateCache (w.update uid e), t.committed,
      t.published⟩ := by
  have hmem : e ∈ t.committed := by
    refine h.perm.mem_iff.mpr (List.mem_append_left _ (h.queued e ?_))
    rw [hqueue]
    exact List.mem_cons_self
  obtain ⟨c, hc⟩ := change_of_update (w := w) (h.updates e hmem)
  have hflat : (pagesOf ((w.update uid e).apply t.sync.query).data).flatten =
      (pagesOf t.sync.query.data).flatten.map (c.patch (w.uuidText e.about)) := by
    rw [apply_update hc]
    exact flatten_patchMessages _ _
  refine ⟨h.perm, h.updates, ?_, h.row, ?_, ?_⟩
  · intro x hx
    refine h.queued x ?_
    rw [hqueue]
    exact List.mem_cons_of_mem _ hx
  · obtain ⟨x, hx, hid⟩ := h.held
    obtain ⟨hx, hstatus⟩ := mem_confirmed.mp hx
    refine ⟨c.patch (w.uuidText e.about) x, mem_confirmed.mpr ⟨?_, ?_⟩, ?_⟩
    · show _ ∈ (pagesOf ((w.update uid e).apply t.sync.query).data).flatten
      rw [hflat]
      exact List.mem_map_of_mem hx
    · rw [patch_status, hstatus]
    · rw [patch_id, hid]
  · intro x' hx' hid
    obtain ⟨hx', hstatus⟩ := mem_confirmed.mp hx'
    have hx' : x' ∈ (pagesOf ((w.update uid e).apply t.sync.query).data).flatten := hx'
    rw [hflat] at hx'
    obtain ⟨x, hx, rfl⟩ := List.mem_map.mp hx'
    rw [patch_status] at hstatus
    rw [patch_id] at hid
    obtain ⟨hgroups, hreplay⟩ := h.cached x (mem_confirmed.mpr ⟨hx, hstatus⟩) hid
    rw [hqueue, changes_cons, changes_of_change hc, replay_append] at hreplay
    show _ ∧ (shown _).replay (changes w id rest) = _
    by_cases habout : e.about = id
    · obtain ⟨hshown, hgroups'⟩ :=
        shown_patch (c := c) (hid.trans (congrArg w.uuidText habout.symm))
        hgroups
      rw [if_pos habout] at hreplay
      rw [hshown]
      exact ⟨hgroups', hreplay⟩
    · have hother : x.id ≠ w.uuidText e.about := by
        rw [hid]
        exact fun heq => habout (w.uuid_inj heq).symm
      rw [if_neg habout] at hreplay
      rw [patch_other hother]
      exact ⟨hgroups, hreplay⟩

theorem diverging_step {a : SyncAction} (h : Diverging w v id t) (hok : Concurrent t a)
    (hs : t.step w roomID uid a = some t') : Diverging w v id t' := by
  obtain ⟨after, hafter, rfl⟩ := Option.map_eq_some_iff.mp hs
  cases step_move hafter with
  | edit hedit => exact h.commit (wrote_edit hedit) rfl trivial
  | toggle htoggle => exact h.commit (wrote_toggle htoggle) rfl trivial
  | toggleRaced hheld => exact h.commit (wrote_raced hheld) rfl trivial
  | publish hi _ =>
    simp only [hi]
    exact h.publish hi
  | @deliver e rest hqueue =>
    have hnone : ({ t.sync with queue := rest }.updateCache (w.update uid e)).pending.drop
        t.sync.pending.length = [] := List.drop_length
    dsimp only
    rw [hnone, List.append_nil]
    exact h.deliver hqueue
  | _ => cases hok

theorem Settled.diverging (h : Settled w t m) : Diverging w (stored w t.sync.tables m) m.id t where
  perm := by rw [h.committed, h.published, h.pending]; exact .nil
  updates e he := by rw [h.committed] at he; cases he
  queued e he := by rw [h.queue] at he; cases he
  row := ⟨m, h.row, rfl, by rw [h.committed]; rfl⟩
  held := h.held
  cached x hx hid := by
    obtain ⟨hgroups, hshown⟩ := h.cached x hx hid
    rw [h.queue, h.published, hshown]
    exact ⟨hgroups, rfl⟩

/-! ## Convergence -/

theorem stored_reacted (tables : MessageTables) (m : Message) (userID : UUID) (emoji : String) :
    (stored w tables m).reacted (w.uuidText userID) emoji =
      tables.reactions.any (isReaction m.id userID emoji) := by
  refine congrArg (List.any tables.reactions) (funext fun r => ?_)
  simp [isReaction, w.uuid_inj.eq_iff]

theorem added_injective : Function.Injective fun action : ReactionAction =>
    decide (action = .added) := by
  intro a b hab
  cases a with
  | added => cases b with
    | added => rfl
    | removed => cases hab
  | removed => cases b with
    | added => cases hab
    | removed => rfl

/-- For every order in which `EditMessage` and `ToggleReaction` requests commit, publish
    and are applied: at the end the cached message has the content that is stored if and
    only if the last edit of it that was published has the content of the last one that
    was committed, and the reactions that are stored if and only if for each user and
    emoji the last toggle that was published did the same as the last one committed. -/
theorem converges_iff (hstart : Settled w t m)
    (hrun : Reach (Traced.step w roomID uid) Concurrent t t') (hpending : t'.sync.pending = [])
    (hqueue : t'.sync.queue = []) :
    ∃ m' ∈ t'.sync.tables.messages, m'.id = m.id ∧ m'.deletedAt = none ∧
      (∃ x ∈ t'.sync.confirmed, x.id = w.uuidText m.id) ∧
      ∀ x ∈ t'.sync.confirmed, x.id = w.uuidText m.id →
        (x.content = some m'.content ↔
          lastWrite (editOf m.id) t'.published = lastWrite (editOf m.id) t'.committed) ∧
        ((∀ userID emoji, hasReacted x.reactions (w.uuidText userID) emoji =
            t'.sync.tables.reactions.any (isReaction m.id userID emoji)) ↔
          ∀ userID emoji, lastWrite (reactionOf m.id userID emoji) t'.published =
            lastWrite (reactionOf m.id userID emoji) t'.committed) := by
  have h : Diverging w (stored w t.sync.tables m) m.id t' :=
    hrun.invariant (Diverging w (stored w t.sync.tables m) m.id)
      (fun _ _ _ h hok hs => diverging_step h hok hs) hstart.diverging
  have hperm : t'.published.Perm t'.committed := by
    have hall := h.perm
    rw [hpending, List.append_nil] at hall
    exact hall.symm
  have hpublished : ∀ e ∈ t'.published, e.IsUpdate := fun e he =>
    h.updates e (hperm.mem_iff.mp he)
  have hlive : (stored w t.sync.tables m).body.deletedAt = none := by simp [stored, hstart.live]
  obtain ⟨m', hm', hid, hrow⟩ := h.row
  -- the stored message
  obtain ⟨hdeleted, hcontent⟩ := replay_content w m.id hlive h.updates
  rw [← hrow] at hdeleted hcontent
  have hdeleted : m'.deletedAt = none := by simpa [stored] using hdeleted
  refine ⟨m', hm', hid, hdeleted, h.held, fun x hx hxid => ?_⟩
  -- the cached one
  obtain ⟨-, hshown⟩ := h.cached x hx hxid
  rw [hqueue] at hshown
  have hshown : shown x = (stored w t.sync.tables m).replay (changes w m.id t'.published) := hshown
  constructor
  · have hx := (replay_content w m.id hlive hpublished).2
    rw [← hshown] at hx
    have hleft : x.content = some m'.content ↔
        (shown x).body.content = (stored w t'.sync.tables m').body.content := by
      simp [shown, stored, hdeleted]
    rw [hleft, hx, hcontent, getD_lastWrite_iff _ _ hperm, lastWrite_map, lastWrite_map]
    exact (Option.map_injective (Option.some_injective _)).eq_iff
  · refine forall_congr' fun userID => forall_congr' fun emoji => ?_
    have hx := replay_reaction w m.id (stored w t.sync.tables m) hpublished userID emoji
    have hm := replay_reaction w m.id (stored w t.sync.tables m) h.updates userID emoji
    rw [← hshown] at hx
    rw [← hrow, stored_reacted, hid] at hm
    have hx : hasReacted x.reactions (w.uuidText userID) emoji = _ := hx
    rw [hx, hm, getD_lastWrite_iff _ _ hperm, lastWrite_map, lastWrite_map]
    exact (Option.map_injective added_injective).eq_iff

/-! ## Two runs -/

/-- Message 1 is loaded and the client has joined. -/
def tracedStart : Traced :=
  ⟨syncAfter ([.insert 1 1 1 "helo" .text "" false, .load 0] ++ fetchPage ++ [.subscribe]), [], []⟩

abbrev tracedStep : Traced → SyncAction → Option Traced := Traced.step sampleWire 5 (spell 1)

def tracedAfter (as : List SyncAction) : Traced := (exec tracedStep tracedStart as).getD tracedStart

def editedTwice : List SyncAction := [.edit 2 1 "hello", .edit 3 1 "hello!"]

def toggledTwice : List SyncAction := [.toggle 2 7 1 1 "+1", .toggle 3 8 1 1 "+1"]

def inOrder : List SyncAction := [.publish 0, .publish 0, .deliver, .deliver]

def overtaking : List SyncAction := [.publish 1, .publish 0, .deliver, .deliver]

theorem tracedStart_settled :
    Settled sampleWire tracedStart ⟨1, 5, 1, "helo", .text, none, none, 1, 1⟩ := by
  have hconfirmed : tracedStart.sync.confirmed =
      [sampleWire.message ⟨⟨1, 5, ⟨1, "alice", none⟩, some "helo", .text, none, none, 1, 1⟩, [],
        []⟩] :=
    rfl
  refine ⟨rfl, rfl, rfl, rfl, List.mem_singleton.mpr rfl, rfl, ?_, ?_⟩
  · rw [hconfirmed]
    exact ⟨_, List.mem_singleton.mpr rfl, rfl⟩
  · rw [hconfirmed]
    intro x hx _
    rw [List.mem_singleton.mp hx]
    exact ⟨⟨List.nodup_nil, by simp [Wire.message], by simp [Wire.message]⟩, rfl⟩

/-- Whether a step is one of the two requests, of a publication or of the client. -/
def concurrent (_ : Traced) : SyncAction → Bool
  | .edit _ _ _ => true
  | .toggle _ _ _ _ _ => true
  | .toggleRaced _ _ _ => true
  | .publish _ => true
  | .deliver => true
  | _ => false

theorem concurrent_of_check (t : Traced) (a : SyncAction) (h : concurrent t a = true) :
    Concurrent t a := by
  cases a with
  | edit now id content => trivial
  | toggle now rowID id userID emoji => trivial
  | toggleRaced id userID emoji => trivial
  | publish i => trivial
  | deliver => trivial
  | _ => cases h

theorem converges_in_order :
    (tracedAfter (editedTwice ++ inOrder)).sync.confirmed.map (·.id) = [spell 1] ∧
      ∀ x ∈ (tracedAfter (editedTwice ++ inOrder)).sync.confirmed, x.id = spell 1 →
        x.content = some "hello!" := by
  have hexec : exec tracedStep tracedStart (editedTwice ++ inOrder) =
      some (tracedAfter (editedTwice ++ inOrder)) := rfl
  have hrun := Reach.of_exec (meets_of_checks concurrent_of_check rfl) hexec
  obtain ⟨m, hm, -, -, -, h⟩ := converges_iff tracedStart_settled hrun rfl rfl
  have hm : m ∈ [(⟨1, 5, 1, "hello!", .text, some 3, none, 1, 3⟩ : Message)] := hm
  rw [List.mem_singleton.mp hm] at h
  refine ⟨by decide, fun x hx hid => ?_⟩
  exact (h x hx hid).1.mpr rfl

/-- Of two edits, and of two toggles, the one that commits first is published last: the
    client ends with the content of the first edit, and with a reaction that is not
    stored. -/
theorem edits_overtake :
    (Reach tracedStep Concurrent tracedStart (tracedAfter (editedTwice ++ overtaking)) ∧
      (tracedAfter (editedTwice ++ overtaking)).sync.pending = [] ∧
      (tracedAfter (editedTwice ++ overtaking)).sync.queue = [] ∧
      (tracedAfter (editedTwice ++ overtaking)).sync.tables.messages.map
        (fun m => (m.id, m.content)) = [(1, "hello!")] ∧
      (tracedAfter (editedTwice ++ overtaking)).sync.confirmed.map
        (fun x => (x.id, x.content)) = [(spell 1, some "hello")]) ∧
    Reach tracedStep Concurrent tracedStart (tracedAfter (toggledTwice ++ overtaking)) ∧
      (tracedAfter (toggledTwice ++ overtaking)).sync.pending = [] ∧
      (tracedAfter (toggledTwice ++ overtaking)).sync.queue = [] ∧
      (tracedAfter (toggledTwice ++ overtaking)).sync.tables.reactions = [] ∧
      (tracedAfter (toggledTwice ++ overtaking)).sync.confirmed.map
        (fun x => (x.id, x.reactions)) = [(spell 1, [⟨"+1", 1, [spell 1]⟩])] := by
  have hedits : exec tracedStep tracedStart (editedTwice ++ overtaking) =
      some (tracedAfter (editedTwice ++ overtaking)) := rfl
  have htoggles : exec tracedStep tracedStart (toggledTwice ++ overtaking) =
      some (tracedAfter (toggledTwice ++ overtaking)) := rfl
  refine ⟨⟨Reach.of_exec (meets_of_checks concurrent_of_check rfl) hedits, rfl, rfl, by decide,
    by decide⟩, Reach.of_exec (meets_of_checks concurrent_of_check rfl) htoggles, rfl, rfl, rfl,
    by decide⟩

end ConvoyChat.System
