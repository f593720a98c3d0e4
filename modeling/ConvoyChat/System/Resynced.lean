import ConvoyChat.System.Served
import ConvoyChat.System.Web

/-!
# A cache that keeps up with the server

`resyncRoom` merges the rows it fetched with `upsertMessages`, which skips every row
whose id is held: a change that the client missed is not repaired by any resync.

A copy of a message (cached, in a page that is being fetched, or in a `message.new`
under way) is up to date when the events that are still under way turn it into what is
stored. This survives a step exactly when the step takes no event away that some copy
needed.

* `cache_current`: in every run without such a step, once all events are applied every
  confirmed message of the cache shows what is stored.
* `deleted_while_away`: a message that is deleted while the client is away is shown with
  its content after a resync whose page has the deleted row.
-/

namespace ConvoyChat.System

open ConvoyChat.Lib ConvoyChat.Store ConvoyChat.Frontend

section

variable (w : Wire)

/-- The change that an event reports; `message.new` reports none. -/
def LiveEvent.change : LiveEvent → Option Change
  | .messageNew _ _ _ => none
  | .messageEdited _ content editedAt => some (.edited content (w.timeText editedAt))
  | .messageDeleted _ deletedAt => some (.deleted (w.timeText deletedAt))
  | .messageReadBy _ userID => some (.readBy (w.uuidText userID))
  | .messageReaction _ userID emoji action => some (.reaction (w.uuidText userID) emoji action)

/-- The changes of message `id` among `events`. -/
def changes (id : UUID) (events : List LiveEvent) : List Change :=
  (events.filter fun e => e.about = id).filterMap (LiveEvent.change w)

/-- What a `message.new` shows. -/
def asSent (row : Message) : Shown :=
  ⟨⟨some row.content, none, none⟩, fun _ => false, fun _ _ => false⟩

namespace RoomSync

/-- The events under way, in the order in which they will be applied if no publication
    overtakes another. -/
def under (s : RoomSync) : List LiveEvent := s.queue ++ s.pending

/-- The messages of the cache without a `status`. -/
def confirmed (s : RoomSync) : List ChatMessage :=
  (pagesOf s.query.data).flatten.filter fun x => x.status.isNone

end RoomSync

/-- The rows of a page under way, with the number of statements that filled them. -/
def FetchStage.copies : FetchStage → List (ℕ × ChatMessage)
  | .asked => []
  | .listed rows => rows.map fun row => (1, w.message row)
  | .readBy rows => rows.map fun row => (2, w.message row)
  | .answered rows => rows.map fun row => (3, w.message row)

/-- The messages that a fetch has read and not merged yet. -/
def Fetch.copies (f : Fetch) : List (ℕ × ChatMessage) :=
  f.collected.map (fun x => (3, x)) ++ f.stage.copies w

variable (s : RoomSync)

/-- The events `left` turn a copy `v` of message `id` into the same as all the events
    under way do, as far as the copy is filled. -/
def Alike (left : List LiveEvent) (id : UUID) (k : ℕ) (v : Shown) : Prop :=
  (v.replay (changes w id left)).Agree k (v.replay (changes w id s.under))

/-- The merge of the resync `f` will skip `x`, whose id is held. -/
def Skipped (f : Fetch) (x : ChatMessage) : Prop :=
  f.lastSeen.isSome ∧ ∃ y ∈ s.confirmed, y.id = x.id

/-- No row in a page under way needs an event that is not among `left`. -/
def FetchedAlike (left : List LiveEvent) : Prop :=
  ∀ n f, s.fetches n = some f → ∀ c ∈ f.copies w, ∀ m ∈ s.tables.messages,
    w.uuidText m.id = c.2.id → Alike w s left m.id c.1 (shown c.2) ∨ Skipped s f c.2

/-- No copy of a message needs an event that is not among `left`: neither one the
    client holds, nor one under way, nor the row itself, which a page may read next. -/
structure MadeUp (left : List LiveEvent) : Prop where
  row : ∀ m ∈ s.tables.messages, Alike w s left m.id 3 (stored w s.tables m)
  cached : ∀ m ∈ s.tables.messages, ∀ x ∈ s.confirmed, w.uuidText m.id = x.id →
    Alike w s left m.id 3 (shown x)
  fetched : FetchedAlike w s left
  announced : ∀ row user clientID rest, .messageNew row user clientID :: rest <:+ left →
    ∃ rest', .messageNew row user clientID :: rest' <:+ s.under ∧
      (asSent row).replay (changes w row.id rest) =
        (asSent row).replay (changes w row.id rest')

/-- The steps that take no needed event away: a publication that overtakes another one
    or fails, the end of the connection, and an event that is applied while a page is
    under way that was read before it; moreover no `message.new` overwrites a confirmed
    message by its nonce. -/
def KeepsUp : SyncAction → Prop
  | .publish i => ∀ e, s.pending[i]? = some e →
    MadeUp w s (s.queue ++ e :: s.pending.eraseIdx i)
  | .lose i => MadeUp w s (s.queue ++ s.pending.eraseIdx i)
  | .unsubscribe => MadeUp w s s.pending
  | .deliver => FetchedAlike w s (s.queue.tail ++ s.pending) ∧
    ∀ row user clientID, s.queue.head? = some (.messageNew row user clientID) →
      ∀ x ∈ s.confirmed, x.id ≠ clientID
  | _ => True

/-- `x` shows what is stored of its message. -/
def Current (t : MessageTables) (x : ChatMessage) : Prop :=
  ∃ m ∈ t.messages, w.uuidText m.id = x.id ∧ shown x = stored w t m ∧ GroupsOk x.reactions

/-! ## The invariant -/

/-- The events under way bring a copy up to date, as far as it is filled. -/
def Tracked (k : ℕ) (x : ChatMessage) : Prop :=
  ∃ m ∈ s.tables.messages, w.uuidText m.id = x.id ∧
    ((shown x).replay (changes w m.id s.under)).Agree k (stored w s.tables m)

/-- What the statements executed so far have filled in. -/
structure Filled (k : ℕ) (x : ChatMessage) : Prop where
  status : x.status = none
  readBy : k < 2 → x.readBy = []
  reactions : k < 3 → x.reactions = []
  groups : k = 3 → GroupsOk x.reactions

structure Synced : Prop where
  distinct : (s.tables.reactions.map Reaction.key).Nodup
  reads : ∀ r ∈ s.tables.reads, ∃ m ∈ s.tables.messages, m.id = r.messageID
  reactions : ∀ r ∈ s.tables.reactions, ∃ m ∈ s.tables.messages, m.id = r.messageID
  about : ∀ e ∈ s.under, ∃ m ∈ s.tables.messages, m.id = e.about
  row : ∀ m ∈ s.tables.messages,
    (stored w s.tables m).replay (changes w m.id s.under) = stored w s.tables m
  announced : ∀ row user clientID rest, .messageNew row user clientID :: rest <:+ s.under →
    ∃ m ∈ s.tables.messages, m.id = row.id ∧
      (asSent row).replay (changes w row.id rest) = stored w s.tables m
  cached : ∀ x ∈ s.confirmed, Tracked w s 3 x ∧ GroupsOk x.reactions
  fetched : ∀ n f, s.fetches n = some f → ∀ c ∈ f.copies w,
    Filled c.1 c.2 ∧ (Tracked w s c.1 c.2 ∨ Skipped s f c.2)

end

variable {w : Wire} {s s' : RoomSync} {id : UUID} {events : List LiveEvent} {e : LiveEvent}
  {c : Change} {k : ℕ} {x : ChatMessage} {roomID : UUID} {uid : String}

theorem changes_append (id : UUID) (a b : List LiveEvent) :
    changes w id (a ++ b) = changes w id a ++ changes w id b := by
  rw [changes, List.filter_append, List.filterMap_append]
  rfl

theorem changes_of_new (he : LiveEvent.change w e = none) (id : UUID) : changes w id [e] = [] := by
  by_cases hid : e.about = id
  · simp [changes, hid, he]
  · simp [changes, hid]

theorem changes_of_change (he : LiveEvent.change w e = some c) (id : UUID) :
    changes w id [e] = if e.about = id then [c] else [] := by
  by_cases hid : e.about = id
  · simp [changes, hid, he]
  · simp [changes, hid]

theorem changes_cons (id : UUID) (e : LiveEvent) (events : List LiveEvent) :
    changes w id (e :: events) = changes w id [e] ++ changes w id events :=
  changes_append id [e] events

theorem changes_none (h : ∀ e ∈ events, e.about ≠ id) : changes w id events = [] := by
  rw [changes, List.filter_eq_nil_iff.mpr]
  · rfl
  · intro e he
    simpa using h e he

/-- An event with what follows it, when one event is added at the end. -/
theorem suffix_concat_cases {α : Type*} {a b : α} {rest l : List α} (h : a :: rest <:+ l ++ [b]) :
    a = b ∧ rest = [] ∨ ∃ before, rest = before ++ [b] ∧ a :: before <:+ l := by
  rcases List.suffix_concat_iff.mp h with hnil | ⟨tail, htail, hsuffix⟩
  · cases hnil
  · cases tail with
    | nil => exact .inl (by simpa using htail)
    | cons x tail =>
      obtain ⟨rfl, rfl⟩ : a = x ∧ rest = tail ++ [b] := by
        simpa using htail
      exact .inr ⟨tail, rfl, hsuffix⟩

/-- What the invariant says of the copies in the cache and in the pages under way, after a step
    that reaches neither and leaves tracked copies tracked. -/
theorem Synced.copies (h : Synced w s) (after : RoomSync) (hquery : after.query = s.query)
    (hfetches : after.fetches = s.fetches)
    (htracked : ∀ {k x}, Tracked w s k x → Tracked w after k x) :
    (∀ x ∈ after.confirmed, Tracked w after 3 x ∧ GroupsOk x.reactions) ∧
      ∀ n f, after.fetches n = some f → ∀ c ∈ f.copies w,
        Filled c.1 c.2 ∧ (Tracked w after c.1 c.2 ∨ Skipped after f c.2) := by
  have hconfirmed : after.confirmed = s.confirmed := by
    rw [RoomSync.confirmed, RoomSync.confirmed, hquery]
  constructor
  · intro x hx
    rw [hconfirmed] at hx
    obtain ⟨hx, hgroups⟩ := h.cached x hx
    exact ⟨htracked hx, hgroups⟩
  · intro n f hf c hc
    rw [hfetches] at hf
    obtain ⟨hfilled, hc | hskip⟩ := h.fetched n f hf c hc
    · exact ⟨hfilled, .inl (htracked hc)⟩
    · rw [Skipped, ← hconfirmed] at hskip
      exact ⟨hfilled, .inr hskip⟩

/-! ## Events that are published, or lost -/

/-- A step that takes no needed event away. -/
theorem Synced.left (h : Synced w s) {queue pending : List LiveEvent} (subscribed : Bool)
    (hleft : MadeUp w s (queue ++ pending)) (hsub : ∀ e ∈ queue ++ pending, e ∈ s.under) :
    Synced w { s with pending, subscribed, queue } where
  distinct := h.distinct
  reads := h.reads
  reactions := h.reactions
  about e he := h.about e (hsub e he)
  row m hm := (agree_three (hleft.row m hm)).trans (h.row m hm)
  announced row user clientID rest hrest := by
    obtain ⟨rest', hrest', heq⟩ := hleft.announced row user clientID rest hrest
    obtain ⟨m, hm, hid, hstored⟩ := h.announced row user clientID rest' hrest'
    exact ⟨m, hm, hid, heq.trans hstored⟩
  cached x hx := by
    obtain ⟨⟨m, hm, hid, htracked⟩, hgroups⟩ := h.cached x hx
    exact ⟨⟨m, hm, hid, (hleft.cached m hm x hx hid).trans htracked⟩, hgroups⟩
  fetched n f hf c hc := by
    obtain ⟨hfilled, htracked | hskip⟩ := h.fetched n f hf c hc
    · obtain ⟨m, hm, hid, hagree⟩ := htracked
      rcases hleft.fetched n f hf c hc m hm hid with halike | hskip
      · exact ⟨hfilled, .inl ⟨m, hm, hid, halike.trans hagree⟩⟩
      · exact ⟨hfilled, .inr hskip⟩
    · exact ⟨hfilled, .inr hskip⟩

/-! ## Writes -/

/-- A tracked copy stays tracked when a change is written and its event is under way. -/
theorem Tracked.commit {t : MessageTables} (hwrote : Wrote w s.tables t e.about c)
    (he : LiveEvent.change w e = some c) (h : Tracked w s k x) : Tracked w (s.commit t e) k x := by
  obtain ⟨m, hm, hid, hagree⟩ := h
  obtain ⟨f, hmessages, hf⟩ := hwrote
  obtain ⟨hfid, hstored⟩ := hf m hm
  refine ⟨f m, ?_, by rw [hfid, hid], ?_⟩
  · show f m ∈ t.messages
    rw [hmessages]
    exact List.mem_map_of_mem hm
  · have hunder : (s.commit t e).under = s.under ++ [e] := (List.append_assoc _ _ _).symm
    rw [hunder, hfid, changes_append, changes_of_change he, replay_append]
    show Shown.Agree k _ (stored w t (f m))
    rw [hstored]
    by_cases habout : m.id = e.about
    · rw [if_pos habout.symm, if_pos habout]
      exact hagree.change c
    · rw [if_neg (Ne.symm habout), if_neg habout]
      exact hagree

/-- A write whose event is under way from then on. -/
theorem Synced.commit (h : Synced w s) {t : MessageTables} (hwrote : Wrote w s.tables t e.about c)
    (he : LiveEvent.change w e = some c) (hc : c ≠ .deleted "")
    (hrows : RowsOf e.about s.tables t) : Synced w (s.commit t e) := by
  have hunder : (s.commit t e).under = s.under ++ [e] := (List.append_assoc _ _ _).symm
  obtain ⟨f, hmessages, hf⟩ := id hwrote
  have hkeep : ∀ {id : UUID}, (∃ m ∈ s.tables.messages, m.id = id) →
      ∃ m ∈ t.messages, m.id = id := by
    rintro id ⟨m, hm, rfl⟩
    rw [hmessages]
    exact ⟨f m, List.mem_map_of_mem hm, (hf m hm).1⟩
  obtain ⟨hcached, hfetched⟩ := h.copies (s.commit t e) rfl rfl fun htracked =>
    htracked.commit hwrote he
  refine ⟨hrows.distinct h.distinct, ?_, ?_, ?_, ?_, ?_, hcached, hfetched⟩
  · intro r hr
    rcases hrows.reads r hr with hr | hid
    · exact hkeep (h.reads r hr)
    · rw [hid]
      exact hkeep hrows.message
  · intro r hr
    rcases hrows.reactions r hr with hr | hid
    · exact hkeep (h.reactions r hr)
    · rw [hid]
      exact hkeep hrows.message
  · intro e' he'
    rw [hunder] at he'
    rcases List.mem_append.mp he' with he' | he'
    · exact hkeep (h.about e' he')
    · rw [List.mem_singleton.mp he']
      exact hkeep hrows.message
  · intro m' hm'
    obtain ⟨m, hm, rfl⟩ : ∃ m ∈ s.tables.messages, f m = m' := by
      have hm' : m' ∈ t.messages := hm'
      rw [hmessages] at hm'
      exact List.mem_map.mp hm'
    obtain ⟨hfid, hstored⟩ := hf m hm
    rw [hunder, hfid, changes_append, changes_of_change he]
    show Shown.replay (stored w t (f m)) _ = stored w t (f m)
    rw [hstored]
    by_cases habout : m.id = e.about
    · rw [if_pos habout.symm, if_pos habout]
      exact replay_replayed (h.row m hm) hc
    · rw [if_neg (Ne.symm habout), if_neg habout, List.append_nil]
      exact h.row m hm
  · intro row user clientID rest hrest
    rw [hunder] at hrest
    -- the new event is the last one, and no `message.new`
    rcases suffix_concat_cases hrest with ⟨rfl, -⟩ | ⟨rest, rfl, hbefore⟩
    · cases he
    obtain ⟨m, hm, hid, hstored⟩ := h.announced row user clientID rest hbefore
    refine ⟨f m, ?_, by rw [(hf m hm).1, hid], ?_⟩
    · show f m ∈ t.messages
      rw [hmessages]
      exact List.mem_map_of_mem hm
    · show _ = stored w t (f m)
      rw [changes_append, changes_of_change he, replay_append, hstored, (hf m hm).2, ← hid]
      by_cases habout : m.id = e.about
      · rw [if_pos habout.symm, if_pos habout]
        rfl
      · rw [if_neg (Ne.symm habout), if_neg habout]
        rfl

/-- A new row of `messages`. -/
theorem Synced.insert (h : Synced w s) {t : MessageTables} {row : Message}
    (hfresh : ∀ m ∈ s.tables.messages, m.id ≠ row.id)
    (hmessages : t.messages = s.tables.messages ++ [row]) (hreads : t.reads = s.tables.reads)
    (hreactions : t.reactions = s.tables.reactions) : Synced w { s with tables := t } := by
  have hstored : ∀ m, stored w t m = stored w s.tables m := by
    intro m
    simp only [stored, hreads, hreactions]
  have hkeep : ∀ {m : Message}, m ∈ s.tables.messages → m ∈ t.messages := by
    intro m hm
    rw [hmessages]
    exact List.mem_append_left _ hm
  have htracked : ∀ {k x}, Tracked w s k x → Tracked w { s with tables := t } k x := by
    rintro k x ⟨m, hm, hid, hagree⟩
    refine ⟨m, hkeep hm, hid, ?_⟩
    show Shown.Agree k _ (stored w t m)
    rw [hstored]
    exact hagree
  obtain ⟨hcached, hfetched⟩ := h.copies { s with tables := t } rfl rfl htracked
  refine ⟨?_, ?_, ?_, ?_, ?_, ?_, hcached, hfetched⟩
  · show (t.reactions.map _).Nodup
    rw [hreactions]
    exact h.distinct
  · intro r hr
    have hr : r ∈ t.reads := hr
    rw [hreads] at hr
    obtain ⟨m, hm, hid⟩ := h.reads r hr
    exact ⟨m, hkeep hm, hid⟩
  · intro r hr
    have hr : r ∈ t.reactions := hr
    rw [hreactions] at hr
    obtain ⟨m, hm, hid⟩ := h.reactions r hr
    exact ⟨m, hkeep hm, hid⟩
  · intro e he
    obtain ⟨m, hm, hid⟩ := h.about e he
    exact ⟨m, hkeep hm, hid⟩
  · intro m hm
    show Shown.replay (stored w t m) _ = stored w t m
    rw [hstored]
    have hm : m ∈ t.messages := hm
    rw [hmessages] at hm
    rcases List.mem_append.mp hm with hm | hm
    · exact h.row m hm
    · -- no event is about the new message
      rw [List.mem_singleton.mp hm]
      show Shown.replay _ (changes w row.id s.under) = _
      rw [changes_none fun e he habout => ?_]
      · rfl
      · obtain ⟨m', hm', hid⟩ := h.about e he
        exact hfresh m' hm' (hid.trans habout)
  · intro row' user clientID rest hrest
    obtain ⟨m, hm, hid, heq⟩ := h.announced row' user clientID rest hrest
    exact ⟨m, hkeep hm, hid, heq.trans (hstored m).symm⟩

/-- What is stored of a message that nobody has edited, read or reacted to. -/
theorem stored_new (h : Synced w s) {row : Message}
    (hfresh : ∀ m ∈ s.tables.messages, m.id ≠ row.id) (hedited : row.editedAt = none)
    (hdeleted : row.deletedAt = none) : stored w s.tables row = asSent row := by
  have hreads : (stored w s.tables row).readBy = fun _ => false := by
    funext u
    refine List.any_eq_false.mpr fun r hr => ?_
    obtain ⟨m, hm, hid⟩ := h.reads r hr
    have hne : r.messageID ≠ row.id := fun heq => hfresh m hm (hid.trans heq)
    simp [hne]
  have hreacts : (stored w s.tables row).reacted = fun _ _ => false := by
    funext u e
    refine List.any_eq_false.mpr fun r hr => ?_
    obtain ⟨m, hm, hid⟩ := h.reactions r hr
    have hne : r.messageID ≠ row.id := fun heq => hfresh m hm (hid.trans heq)
    simp [hne]
  refine agree_three ⟨fun _ => ?_, fun _ => hreads, fun _ => hreacts⟩
  simp [stored, asSent, hedited, hdeleted]

/-- The `message.new` of a message that no other event under way is about. -/
theorem Synced.announce (h : Synced w s) {row : Message} (user : ConvoyChat.UserSummary)
    (clientID : String) (hrow : row ∈ s.tables.messages)
    (hstored : stored w s.tables row = asSent row) :
    Synced w { s with pending := s.pending ++ [.messageNew row user clientID] } := by
  have hunder : RoomSync.under { s with pending := s.pending ++ [.messageNew row user clientID] } =
      s.under ++ [.messageNew row user clientID] := (List.append_assoc _ _ _).symm
  have hchanges : ∀ id, changes w id (s.under ++ [.messageNew row user clientID]) =
      changes w id s.under := by
    intro id
    rw [changes_append, changes_of_new (by rfl), List.append_nil]
  have htracked : ∀ {k x}, Tracked w s k x →
      Tracked w { s with pending := s.pending ++ [.messageNew row user clientID] } k x := by
    rintro k x ⟨m, hm, hid, hagree⟩
    refine ⟨m, hm, hid, ?_⟩
    rw [hunder, hchanges]
    exact hagree
  obtain ⟨hcached, hfetched⟩ := h.copies
    { s with pending := s.pending ++ [.messageNew row user clientID] } rfl rfl htracked
  refine ⟨h.distinct, h.reads, h.reactions, ?_, ?_, ?_, hcached, hfetched⟩
  · intro e he
    rw [hunder] at he
    rcases List.mem_append.mp he with he | he
    · exact h.about e he
    · rw [List.mem_singleton.mp he]
      exact ⟨row, hrow, rfl⟩
  · intro m hm
    rw [hunder, hchanges]
    exact h.row m hm
  · intro row' user' clientID' rest hrest
    rw [hunder] at hrest
    rcases suffix_concat_cases hrest with ⟨heq, rfl⟩ | ⟨tail, rfl, hsuffix⟩
    · cases heq
      exact ⟨row, hrow, rfl, hstored.symm⟩
    · rw [changes_append, changes_of_new (by rfl), List.append_nil]
      exact h.announced row' user' clientID' tail hsuffix

/-! ## The events under way -/

/-- A publication leaves the events under way as they are, but for their order. -/
theorem mem_under_publish {i : ℕ} {e : LiveEvent} (hi : s.pending[i]? = some e) (x : LiveEvent) :
    x ∈ (s.queue ++ [e]) ++ s.pending.eraseIdx i ↔ x ∈ s.under := by
  obtain ⟨hlt, rfl⟩ := List.getElem?_eq_some_iff.mp hi
  rw [RoomSync.under, List.append_assoc, List.singleton_append, List.mem_append, List.mem_append,
    (List.getElem_cons_eraseIdx_perm hlt).mem_iff]

theorem mem_under_lose {i : ℕ} {x : LiveEvent} (hx : x ∈ s.queue ++ s.pending.eraseIdx i) :
    x ∈ s.under := by
  rcases List.mem_append.mp hx with hx | hx
  · exact List.mem_append_left _ hx
  · exact List.mem_append_right _ (List.mem_of_mem_eraseIdx hx)

theorem mem_under_tail {e x : LiveEvent} {rest : List LiveEvent} (hqueue : s.queue = e :: rest)
    (hx : x ∈ rest ++ s.pending) : x ∈ s.under := by
  rw [RoomSync.under, hqueue]
  exact List.mem_cons_of_mem _ hx

/-! ## The cache -/

theorem mem_confirmed : x ∈ s.confirmed ↔ x ∈ (pagesOf s.query.data).flatten ∧ x.status = none := by
  rw [RoomSync.confirmed, List.mem_filter, Option.isNone_iff_eq_none]

/-- An update of the cache that keeps the ids of the confirmed messages. -/
theorem Synced.cache (h : Synced w s) {query : RoomQuery}
    (hkeep : ∀ x ∈ s.confirmed, ∃ y ∈ RoomSync.confirmed { s with query }, y.id = x.id)
    (hcached : ∀ x ∈ RoomSync.confirmed { s with query }, Tracked w s 3 x ∧ GroupsOk x.reactions) :
    Synced w { s with query } where
  distinct := h.distinct
  reads := h.reads
  reactions := h.reactions
  about := h.about
  row := h.row
  announced := h.announced
  cached := hcached
  fetched n f hf c hc := by
    obtain ⟨hfilled, htracked | ⟨hresync, y, hy, hid⟩⟩ := h.fetched n f hf c hc
    · exact ⟨hfilled, .inl htracked⟩
    · obtain ⟨z, hz, hzid⟩ := hkeep y hy
      exact ⟨hfilled, .inr ⟨hresync, z, hz, hzid.trans hid⟩⟩

/-- An update of the cache that changes bubbles only. -/
theorem Synced.bubbles (h : Synced w s) {query : RoomQuery}
    (hsame : ∀ x, x ∈ RoomSync.confirmed { s with query } ↔ x ∈ s.confirmed) :
    Synced w { s with query } :=
  h.cache (fun x hx => ⟨x, (hsame x).mpr hx, rfl⟩) fun x hx => h.cached x ((hsame x).mp hx)

/-- A patch that only touches messages with a `status`, and leaves them one. -/
theorem mem_confirmed_patch {patch : ChatMessage → ChatMessage}
    (hconf : ∀ m, m.status = none → patch m = m)
    (hstatus : ∀ m, m.status ≠ none → (patch m).status ≠ none) (x : ChatMessage) :
    x ∈ RoomSync.confirmed
      { s with query := { s.query with data := patchMessages patch s.query.data } } ↔
      x ∈ s.confirmed := by
  rw [mem_confirmed, mem_confirmed, flatten_patchMessages, List.mem_map]
  constructor
  · rintro ⟨⟨m, hm, rfl⟩, hx⟩
    by_cases hnone : m.status = none
    · rw [hconf m hnone]
      exact ⟨hm, hnone⟩
    · exact absurd hx (hstatus m hnone)
  · rintro ⟨hx, hnone⟩
    exact ⟨⟨x, hx, hconf x hnone⟩, hnone⟩

/-- `markFailed` or `markSending`. -/
theorem Synced.restatus (h : Synced w s) (clientId : String) (old new : SendStatus) :
    Synced w { s with query := { s.query with
      data := patchMessages
        (fun m => if m.id = clientId &&
          m.status = some old then { m with status := some new } else m)
        s.query.data } } := by
  refine h.bubbles (mem_confirmed_patch ?_ ?_)
  · intro m hm
    simp [hm]
  · intro m hm
    split_ifs
    · simp
    · exact hm

/-- An optimistic bubble. -/
theorem Synced.sent (h : Synced w s) {bubble : ChatMessage} (hstatus : bubble.status ≠ none) :
    Synced w (s.updateCache (.sent bubble uid)) := by
  refine h.bubbles fun x => ?_
  have hflat : (pagesOf (some (upsertMessages s.query.data [⟨bubble, none⟩] uid))).flatten =
      (applyOne (pagesOf s.query.data) ⟨bubble, none⟩ uid).flatten := upsertMessages_flatten _ _ _
  rw [mem_confirmed, mem_confirmed]
  show x ∈ (pagesOf (some (upsertMessages s.query.data [⟨bubble, none⟩] uid))).flatten ∧ _ ↔ _
  rw [hflat]
  constructor
  · rintro ⟨hx, hnone⟩
    rcases mem_applyOne hx with hx | rfl
    · exact ⟨hx, hnone⟩
    · exact absurd hnone hstatus
  · rintro ⟨hx, hnone⟩
    exact ⟨confirmed_applyOne hx hnone nofun, hnone⟩

/-! ## Events that are applied -/

theorem madeUp_of_changes {left : List LiveEvent}
    (h : ∀ id, changes w id left = changes w id s.under)
    (hnew : ∀ row user clientID rest, .messageNew row user clientID :: rest <:+ left →
      .messageNew row user clientID :: rest <:+ s.under) : MadeUp w s left := by
  have halike : ∀ id k v, Alike w s left id k v := by
    intro id k v
    rw [Alike, h]
    exact agree_rfl
  exact ⟨fun m _ => halike _ _ _, fun m _ x _ _ => halike _ _ _,
    fun n f _ c _ m _ _ => .inl (halike _ _ _),
    fun row user clientID rest hrest => ⟨rest, hnew row user clientID rest hrest, rfl⟩⟩

theorem change_of_mem_changes (hc : c ∈ changes w id events) : c ≠ .deleted "" := by
  obtain ⟨e, -, he⟩ := List.mem_filterMap.mp hc
  rintro rfl
  cases e with
  | messageDeleted id deletedAt =>
    simp only [LiveEvent.change, Option.some.injEq, Change.deleted.injEq] at he
    exact w.time_ne deletedAt he
  | _ => simp [LiveEvent.change] at he

/-- `routeEvent` patches the message that the event is about. -/
theorem apply_update (he : LiveEvent.change w e = some c) (q : RoomQuery) :
    (w.update uid e).apply q =
      { q with data := patchMessages (c.patch (w.uuidText e.about)) q.data } := by
  cases e with
  | messageNew row user clientID => cases he
  | _ =>
    cases he
    rfl

theorem Synced.deliverChange (h : Synced w s) {rest : List LiveEvent} (hqueue : s.queue = e :: rest)
    (he : LiveEvent.change w e = some c) (hfetched : FetchedAlike w s (rest ++ s.pending)) :
    Synced w ({ s with queue := rest }.updateCache (w.update uid e)) := by
  have hunder : s.under = e :: (rest ++ s.pending) := by
    rw [RoomSync.under, hqueue]
    rfl
  have hchanges : ∀ id, changes w id s.under =
      (if e.about = id then [c] else []) ++ changes w id (rest ++ s.pending) := by
    intro id
    rw [hunder, changes_cons, changes_of_change he]
  have hflat : (pagesOf ((w.update uid e).apply s.query).data).flatten =
      (pagesOf s.query.data).flatten.map (c.patch (w.uuidText e.about)) := by
    rw [apply_update he]
    exact flatten_patchMessages _ _
  refine ⟨h.distinct, h.reads, h.reactions, ?_, ?_, ?_, ?_, ?_⟩
  · intro e' he'
    exact h.about e' (mem_under_tail hqueue he')
  · intro m hm
    have hrow := h.row m hm
    rw [hchanges, replay_append] at hrow
    have hidem := replay_idem ((stored w s.tables m).replay (if e.about = m.id then [c] else []))
      fun d (hd : d ∈ changes w m.id (rest ++ s.pending)) => change_of_mem_changes hd
    rw [hrow] at hidem
    exact hidem
  · intro row user clientID rest' hrest
    refine h.announced row user clientID rest' ?_
    rw [hunder]
    exact hrest.trans (List.suffix_cons e _)
  · intro x' hx'
    obtain ⟨hmem, hstatus⟩ := mem_confirmed.mp hx'
    have hmem : x' ∈ (pagesOf ((w.update uid e).apply s.query).data).flatten := hmem
    rw [hflat] at hmem
    obtain ⟨x, hx, rfl⟩ := List.mem_map.mp hmem
    rw [patch_status] at hstatus
    obtain ⟨⟨m, hm, hid, hagree⟩, hgroups⟩ := h.cached x (mem_confirmed.mpr ⟨hx, hstatus⟩)
    rw [hchanges, replay_append] at hagree
    by_cases habout : e.about = m.id
    · have hxid : x.id = w.uuidText e.about := by rw [habout, hid]
      obtain ⟨hshown, hgroups'⟩ := shown_patch (c := c) hxid hgroups
      refine ⟨⟨m, hm, by rw [patch_id, hid], ?_⟩, hgroups'⟩
      rw [if_pos habout] at hagree
      rw [hshown]
      exact hagree
    · have hxid : x.id ≠ w.uuidText e.about := by
        intro heq
        rw [← hid] at heq
        exact habout (w.uuid_inj heq).symm
      rw [patch_other hxid]
      rw [if_neg habout] at hagree
      exact ⟨⟨m, hm, hid, hagree⟩, hgroups⟩
  · intro n f hf cp hcp
    have hskip : Skipped s f cp.2 →
        Skipped ({ s with queue := rest }.updateCache (w.update uid e)) f cp.2 := by
      rintro ⟨hresync, y, hy, hyid⟩
      obtain ⟨hy, hnone⟩ := mem_confirmed.mp hy
      refine ⟨hresync, c.patch (w.uuidText e.about) y, mem_confirmed.mpr ⟨?_, ?_⟩, ?_⟩
      · show _ ∈ (pagesOf ((w.update uid e).apply s.query).data).flatten
        rw [hflat]
        exact List.mem_map_of_mem hy
      · rw [patch_status, hnone]
      · rw [patch_id, hyid]
    obtain ⟨hfilled, ⟨m, hm, hid, hagree⟩ | hsk⟩ := h.fetched n f hf cp hcp
    · rcases hfetched n f hf cp hcp m hm hid with halike | hsk
      · exact ⟨hfilled, .inl ⟨m, hm, hid, halike.trans hagree⟩⟩
      · exact ⟨hfilled, .inr (hskip hsk)⟩
    · exact ⟨hfilled, .inr (hskip hsk)⟩

theorem Synced.deliverNew (h : Synced w s) {rest : List LiveEvent} {row : Message}
    {user : ConvoyChat.UserSummary} {clientID : String}
    (hqueue : s.queue = .messageNew row user clientID :: rest)
    (hnonce : ∀ x ∈ s.confirmed, x.id ≠ clientID) :
    Synced w
      ({ s with queue := rest }.updateCache (w.update uid (.messageNew row user clientID))) := by
  have hunder : s.under = .messageNew row user clientID :: (rest ++ s.pending) := by
    rw [RoomSync.under, hqueue]
    rfl
  have hchanges : ∀ id, changes w id (rest ++ s.pending) = changes w id s.under := by
    intro id
    rw [hunder, changes_cons, changes_of_new (by rfl), List.nil_append]
  -- the message is merged, and then the event is gone
  have hmerged : Synced w (s.updateCache (w.update uid (.messageNew row user clientID))) := by
    cases hdata : s.query.data with
    | none =>
      refine h.bubbles fun x => ?_
      rw [mem_confirmed, mem_confirmed]
      simp only [Wire.update, CacheUpdate.apply, hdata, Option.map_none]
    | some d =>
      have hflat :
        (pagesOf ((w.update uid (.messageNew row user clientID)).apply s.query).data).flatten =
          (applyOne (pagesOf s.query.data) ⟨w.wsMessageToChat row user, some clientID⟩
            uid).flatten := by
        simp only [Wire.update, CacheUpdate.apply, hdata, Option.map_some]
        exact upsertMessages_flatten _ _ _
      refine h.cache (fun x hx => ⟨x, ?_, rfl⟩) fun x hx => ?_
      · obtain ⟨hmem, hstatus⟩ := mem_confirmed.mp hx
        refine mem_confirmed.mpr ⟨?_, hstatus⟩
        show x ∈
          (pagesOf ((w.update uid (.messageNew row user clientID)).apply s.query).data).flatten
        rw [hflat]
        refine confirmed_applyOne hmem hstatus ?_
        intro heq
        exact hnonce x hx (Option.some.inj heq).symm
      · obtain ⟨hmem, hstatus⟩ := mem_confirmed.mp hx
        have hmem : x ∈ (pagesOf ((w.update uid (.messageNew row user clientID)).apply
          s.query).data).flatten := hmem
        rw [hflat] at hmem
        rcases mem_applyOne hmem with hold | rfl
        · exact h.cached x (mem_confirmed.mpr ⟨hold, hstatus⟩)
        · obtain ⟨m, hm, hid, hstored⟩ := h.announced row user clientID (rest ++ s.pending)
            ⟨[], hunder.symm⟩
          refine ⟨⟨m, hm, congrArg w.uuidText hid, ?_⟩, ⟨List.nodup_nil, nofun, nofun⟩⟩
          rw [← hchanges, hid, ← hstored]
          exact agree_rfl
  refine hmerged.left s.subscribed (madeUp_of_changes hchanges ?_) ?_
  · intro row' user' clientID' rest' hrest
    show _ <:+ s.under
    rw [hunder]
    exact hrest.trans (List.suffix_cons _ _)
  · intro e' he'
    exact mem_under_tail hqueue he'

/-! ## Fetches -/

/-- A fetch starts, goes on or ends. -/
theorem Synced.setFetch (h : Synced w s) (n : ℕ) {f' : Option Fetch}
    (hf' : ∀ f, f' = some f → ∀ c ∈ f.copies w,
      Filled c.1 c.2 ∧ (Tracked w s c.1 c.2 ∨ Skipped s f c.2)) : Synced w (s.setFetch n f') where
  distinct := h.distinct
  reads := h.reads
  reactions := h.reactions
  about := h.about
  row := h.row
  announced := h.announced
  cached := h.cached
  fetched j f hf := by
    have hf : Function.update s.fetches n f' j = some f := hf
    by_cases hj : j = n
    · rw [hj, Function.update_self] at hf
      exact hf' f hf
    · rw [Function.update_of_ne hj] at hf
      exact h.fetched j f hf

theorem Synced.endFetch (h : Synced w s) (n : ℕ) : Synced w (s.setFetch n none) := by
  refine h.setFetch n fun f hf => ?_
  cases hf

/-- A fetch asks for its first page. -/
theorem Synced.startFetch (h : Synced w s) (n : ℕ) (lastSeen : Option String) :
    Synced w (s.setFetch n (some ⟨lastSeen, [], none, 0, .asked⟩)) := by
  refine h.setFetch n fun f hf c hc => ?_
  cases hf
  cases hc

/-- A statement of the request of fetch `n`. -/
theorem Synced.advance (h : Synced w s) {n : ℕ} {f : Fetch} {stage : FetchStage}
    (hf : s.fetches n = some f) (hstage : ∀ c ∈ stage.copies w,
      Filled c.1 c.2 ∧ (Tracked w s c.1 c.2 ∨ Skipped s f c.2)) :
    Synced w (s.setFetch n (some { f with stage })) := by
  refine h.setFetch n fun g hg c hc => ?_
  cases hg
  rcases List.mem_append.mp hc with hc | hc
  · exact h.fetched n f hf c (List.mem_append_left _ hc)
  · exact hstage c hc

/-- What is stored is not altered by the events under way. -/
theorem Synced.agree (h : Synced w s) {m : Message} (hm : m ∈ s.tables.messages) {v : Shown}
    (hv : v.Agree k (stored w s.tables m)) :
    (v.replay (changes w m.id s.under)).Agree k (stored w s.tables m) := by
  have hreplay := hv.replay (changes w m.id s.under)
  rw [h.row m hm] at hreplay
  exact hreplay

theorem Synced.list (h : Synced w s) {n : ℕ} {f : Fetch} (hf : s.fetches n = some f) :
    Synced w (s.setFetch n (some { f with stage := .listed (s.listPage w roomID f) })) := by
  refine h.advance hf fun c hc => ?_
  obtain ⟨row, hrow, rfl⟩ := List.mem_map.mp hc
  obtain ⟨m, hm, hid, hagree, hreadBy, hreactions⟩ := served_list (w := w) hrow
  refine ⟨⟨rfl, fun _ => by simp [Wire.message, hreadBy],
    fun _ => by simp [Wire.message, hreactions], nofun⟩,
    .inl ⟨m, hm, congrArg w.uuidText hid, h.agree hm hagree⟩⟩

theorem Synced.readReceipts (h : Synced w s) {n : ℕ} {f : Fetch} {rows : List HistoryMessage}
    (hf : s.fetches n = some f) (hst : f.stage = .listed rows) :
    Synced w
      (s.setFetch n (some { f with stage := .readBy (fillReadBy s.tables.reads rows) })) := by
  refine h.advance hf fun c hc => ?_
  obtain ⟨row', hrow', rfl⟩ := List.mem_map.mp hc
  obtain ⟨row, hrow, heq, hfill⟩ := served_readBy (w := w) hrow'
  have hold := h.fetched n f hf (1, w.message row) (List.mem_append_right _ (by
    rw [hst]
    exact List.mem_map_of_mem hrow))
  obtain ⟨hfilled, htracked⟩ := hold
  have hnil : row.readBy = [] := List.map_eq_nil_iff.mp (hfilled.readBy (by omega))
  have hreactions : row'.reactions = row.reactions := by rw [heq]
  have hid : row'.id = row.id := by rw [heq]
  have hbody : (shown (w.message row')).body = (shown (w.message row)).body := by rw [heq]; rfl
  refine ⟨⟨rfl, fun hk => by omega, fun _ => ?_, nofun⟩, ?_⟩
  · show row'.reactions.map w.group = []
    rw [hreactions]
    exact hfilled.reactions (by omega)
  · rcases htracked with ⟨m, hm, hmid, hagree⟩ | ⟨hresync, y, hy, hyid⟩
    · have hrowid : m.id = row.id := w.uuid_inj hmid
      refine .inl ⟨m, hm, hmid.trans (congrArg w.uuidText hid.symm), fun hk => ?_, fun hk => ?_, ?_⟩
      · rw [replay_body, hbody, ← replay_body]
        exact hagree.1 (by omega)
      · funext u
        rw [replay_readBy, hfill hnil m hrowid, ← replay_readBy, h.row m hm]
      · intro hk
        omega
    · exact .inr ⟨hresync, y, hy, hyid.trans (congrArg w.uuidText hid.symm)⟩

theorem Synced.readReactions (h : Synced w s) {n : ℕ} {f : Fetch} {rows : List HistoryMessage}
    (hf : s.fetches n = some f) (hst : f.stage = .readBy rows) :
    Synced w (s.setFetch n
      (some { f with stage := .answered (fillReactions s.tables.reactions rows) })) := by
  refine h.advance hf fun c hc => ?_
  obtain ⟨row', hrow', rfl⟩ := List.mem_map.mp hc
  obtain ⟨row, hrow, heq, hfill⟩ := served_reactions (w := w) h.distinct hrow'
  have hold := h.fetched n f hf (2, w.message row) (List.mem_append_right _ (by
    rw [hst]
    exact List.mem_map_of_mem hrow))
  obtain ⟨hfilled, htracked⟩ := hold
  have hnil : row.reactions = [] := List.map_eq_nil_iff.mp (hfilled.reactions (by omega))
  obtain ⟨hgroups, hreacted⟩ := hfill hnil
  have hid : row'.id = row.id := by rw [heq]
  have hbody : (shown (w.message row')).body = (shown (w.message row)).body := by rw [heq]; rfl
  have hread : (shown (w.message row')).readBy = (shown (w.message row)).readBy := by
    rw [heq]; rfl
  refine ⟨⟨rfl, fun hk => by omega, fun hk => by omega, fun _ => hgroups⟩, ?_⟩
  rcases htracked with ⟨m, hm, hmid, hagree⟩ | ⟨hresync, y, hy, hyid⟩
  · have hrowid : m.id = row.id := w.uuid_inj hmid
    refine .inl ⟨m, hm, hmid.trans (congrArg w.uuidText hid.symm), fun _ => ?_, fun _ => ?_,
      fun _ => ?_⟩
    · rw [replay_body, hbody, ← replay_body]
      exact hagree.1 (by omega)
    · funext u
      rw [replay_readBy, hread, ← replay_readBy, hagree.2.1 (by omega)]
    · funext u e
      rw [replay_reacted, hreacted m hrowid, ← replay_reacted, h.row m hm]
  · exact .inr ⟨hresync, y, hy, hyid.trans (congrArg w.uuidText hid.symm)⟩

/-- The merge that ends a resync. -/
theorem Synced.merge (h : Synced w s) (n : ℕ) {f : Fetch} {collected : List ChatMessage}
    (hcollected : ∀ x ∈ collected, Filled 3 x ∧ (Tracked w s 3 x ∨ Skipped s f x)) :
    Synced w (s.merge uid n collected) := by
  unfold RoomSync.merge
  split_ifs with hnil
  · exact h.endFetch n
  · have hflat : (pagesOf (some (upsertMessages s.query.data
        (collected.map fun message => ⟨message, none⟩) uid))).flatten =
        (applyAll (pagesOf s.query.data) (collected.map fun message => ⟨message, none⟩)
          uid).flatten :=
      upsertMessages_flatten _ _ _
    have hnonce : ∀ inc ∈ collected.map fun message => (⟨message, none⟩ : IncomingMessage),
        inc.clientId = none := by
      intro inc hinc
      obtain ⟨x, -, rfl⟩ := List.mem_map.mp hinc
      rfl
    have hmerged : Synced w (s.updateCache
        (.resynced (collected.map fun message => ⟨message, none⟩) uid)) := by
      refine h.cache (fun x hx => ⟨x, ?_, rfl⟩) fun x hx => ?_
      · obtain ⟨hmem, hstatus⟩ := mem_confirmed.mp hx
        refine mem_confirmed.mpr ⟨?_, hstatus⟩
        show x ∈ (pagesOf (some (upsertMessages s.query.data
          (collected.map fun message => ⟨message, none⟩) uid))).flatten
        rw [hflat]
        exact confirmed_applyAll hnonce hmem hstatus
      · obtain ⟨hmem, hstatus⟩ := mem_confirmed.mp hx
        have hmem : x ∈ (pagesOf (some (upsertMessages s.query.data
          (collected.map fun message => ⟨message, none⟩) uid))).flatten := hmem
        rw [hflat] at hmem
        refine good_applyAll (P := fun x => Tracked w s 3 x ∧ GroupsOk x.reactions) hnonce ?_ ?_ x
          hmem hstatus
        · intro y hy hystatus
          exact h.cached y (mem_confirmed.mpr ⟨hy, hystatus⟩)
        · intro inc hinc
          obtain ⟨y, hy, rfl⟩ := List.mem_map.mp hinc
          obtain ⟨hfilled, htracked | ⟨-, z, hz, hzid⟩⟩ := hcollected y hy
          · exact .inl ⟨htracked, hfilled.groups rfl⟩
          · obtain ⟨hz, hzstatus⟩ := mem_confirmed.mp hz
            exact .inr ⟨z, hz, hzstatus, hzid⟩
    exact hmerged.endFetch n

theorem Fetch.mem_copies {f : Fetch} {rows : List HistoryMessage} (hst : f.stage = .answered rows)
    {row : HistoryMessage} (hrow : row ∈ rows) : (3, w.message row) ∈ f.copies w := by
  refine List.mem_append_right _ ?_
  rw [hst]
  exact List.mem_map_of_mem hrow

/-- A page of a resync arrives. -/
theorem Synced.receivePage (h : Synced w s) {n : ℕ} {f : Fetch} {rows : List HistoryMessage}
    {lastSeen : String} (hf : s.fetches n = some f) (hst : f.stage = .answered rows) :
    Synced w (s.receivePage uid n f lastSeen (rows.map w.message)) := by
  have hcopies := h.fetched n f hf
  have hcollected : ∀ x ∈ f.collected ++ rows.map w.message,
      Filled 3 x ∧ (Tracked w s 3 x ∨ Skipped s f x) := by
    intro x hx
    rcases List.mem_append.mp hx with hx | hx
    · exact hcopies (3, x) (List.mem_append_left _ (List.mem_map_of_mem hx))
    · obtain ⟨row, hrow, rfl⟩ := List.mem_map.mp hx
      exact hcopies _ (Fetch.mem_copies hst hrow)
  simp only [RoomSync.receivePage]
  cases hlast : (rows.map w.message).getLast? with
  | none => exact h.merge n hcollected
  | some oldest =>
    dsimp only
    split_ifs with hend
    · exact h.merge n hcollected
    · -- the next page is asked for
      refine h.setFetch n fun g hg c hc => ?_
      cases hg
      rcases List.mem_append.mp hc with hc | hc
      · obtain ⟨x, hx, rfl⟩ := List.mem_map.mp hc
        obtain ⟨hfilled, htracked | ⟨-, y, hy, hyid⟩⟩ := hcollected x hx
        · exact ⟨hfilled, .inl htracked⟩
        · exact ⟨hfilled, .inr ⟨rfl, y, hy, hyid⟩⟩
      · cases hc

/-- The page of the initial query arrives. -/
theorem Synced.loaded (h : Synced w s) {n : ℕ} {f : Fetch} {rows : List HistoryMessage}
    (hf : s.fetches n = some f) (hst : f.stage = .answered rows) (hseen : f.lastSeen = none)
    (hdata : s.query.data = none) :
    Synced w ((s.updateCache (.fetched ⟨[rows.map w.message], [none]⟩)).setFetch n none) := by
  refine Synced.endFetch (h.cache (fun x hx => ?_) fun x hx => ?_) n
  · obtain ⟨hx, -⟩ := mem_confirmed.mp hx
    simp [hdata, pagesOf] at hx
  · obtain ⟨hx, -⟩ := mem_confirmed.mp hx
    obtain ⟨row, hrow, rfl⟩ : ∃ row ∈ rows, w.message row = x := by
      simpa [CacheUpdate.apply, pagesOf] using hx
    obtain ⟨hfilled, htracked | ⟨hresync, -⟩⟩ := h.fetched n f hf _ (Fetch.mem_copies hst hrow)
    · exact ⟨htracked, hfilled.groups rfl⟩
    · rw [hseen] at hresync
      cases hresync

/-! ## Runs -/

theorem Synced.start (users : List ConvoyChat.UserSummary) : Synced w (RoomSync.start users) where
  distinct := List.nodup_nil
  reads := nofun
  reactions := nofun
  about := nofun
  row := nofun
  announced row user clientID rest hrest := by
    have hnil := List.suffix_nil.mp hrest
    cases hnil
  cached := nofun
  fetched := nofun

theorem Synced.insertLive (h : Synced w s) {now : Time} {id userID : UUID}
    {content clientID : String} {messageType : MessageType} {t : MessageTables}
    (user : ConvoyChat.UserSummary)
    (hinsert : insertMessage now id roomID userID content messageType s.tables = .ok t) :
    Synced w (s.commit t (.messageNew
      ⟨id, roomID, userID, content, messageType, none, none, now, now⟩ user clientID)) := by
  obtain ⟨hfresh, hmessages, hreads, hreactions⟩ := insertMessage_ok hinsert
  have hrow : Synced w { s with tables := t } := h.insert hfresh hmessages hreads hreactions
  refine hrow.announce user clientID ?_ ?_
  · show _ ∈ t.messages
    rw [hmessages]
    exact List.mem_append_right _ (List.mem_singleton_self _)
  · have hnew : stored w s.tables
        ⟨id, roomID, userID, content, messageType, none, none, now, now⟩ = asSent _ :=
      stored_new h hfresh rfl rfl
    rw [← hnew]
    simp only [stored, hreads, hreactions]

/-- An event goes from `pending` to the queue, unless it overtakes one that is needed. -/
theorem Synced.publish (h : Synced w s) {i : ℕ} {e : LiveEvent} (hi : s.pending[i]? = some e)
    (hok : KeepsUp w s (.publish i)) :
    Synced w { s with pending := s.pending.eraseIdx i, queue := s.queue ++ [e] } := by
  have hleft := hok e hi
  rw [show s.queue ++ e :: s.pending.eraseIdx i = s.queue ++ [e] ++ s.pending.eraseIdx i by simp]
    at hleft
  exact h.left s.subscribed hleft fun x hx => (mem_under_publish hi x).mp hx

theorem Synced.deliver (h : Synced w s) {e : LiveEvent} {rest : List LiveEvent}
    (hqueue : s.queue = e :: rest) (hok : KeepsUp w s .deliver) :
    Synced w ({ s with queue := rest }.updateCache (w.update uid e)) := by
  obtain ⟨hfetched, hnonce⟩ := hok
  rw [hqueue] at hfetched hnonce
  cases hchange : LiveEvent.change w e with
  | some c => exact h.deliverChange hqueue hchange hfetched
  | none =>
    cases e with
    | messageNew row user clientID => exact h.deliverNew hqueue (hnonce row user clientID rfl)
    | _ => simp [LiveEvent.change] at hchange

/-- Every step that takes no needed event away keeps the invariant. -/
theorem synced_step {a : SyncAction} (h : Synced w s) (hok : KeepsUp w s a)
    (hs : s.step w roomID uid a = some s') : Synced w s' := by
  cases step_move hs with
  | insertLive hinsert _ => exact h.insertLive _ hinsert
  | insertSilent hinsert _ =>
    obtain ⟨hfresh, hmessages, hreads, hreactions⟩ := insertMessage_ok hinsert
    exact h.insert hfresh hmessages hreads hreactions
  | edit hedit => exact h.commit (wrote_edit hedit) rfl nofun (rowsOf_edit hedit)
  | @delete _ _ deletedAt _ hdelete =>
    refine h.commit (wrote_delete hdelete) rfl ?_ (rowsOf_delete hdelete)
    intro heq
    exact w.time_ne deletedAt (Change.deleted.inj heq)
  | markRead hread => exact h.commit (wrote_read hread) rfl nofun (rowsOf_read hread)
  | toggle htoggle => exact h.commit (wrote_toggle htoggle) rfl nofun (rowsOf_toggle htoggle)
  | toggleRaced hheld =>
    exact h.commit (wrote_raced hheld) rfl nofun (rowsOf_raced h.reactions hheld)
  | publish hi _ => exact h.publish hi hok
  | lose _ => exact h.left s.subscribed hok fun x hx => mem_under_lose hx
  | subscribe =>
    exact h.left true (madeUp_of_changes (fun _ => rfl) fun _ _ _ _ hrest => hrest) fun _ he => he
  | unsubscribe => exact h.left false hok fun e he => List.mem_append_right _ he
  | deliver hqueue => exact h.deliver hqueue hok
  | send _ hstatus => exact h.sent (Option.isSome_iff_ne_none.mp hstatus)
  | @sendFailed clientId => exact h.restatus clientId .sending .failed
  | @retried clientId =>
    simp only [RoomSync.updateCache, CacheUpdate.apply]
    split_ifs
    · exact h.restatus clientId .failed .sending
    · exact h
  | load _ _ => exact h.startFetch _ _
  | @resync n _ =>
    rcases resyncRoom_cases s n with hsame | ⟨lastSeen, -, hstart⟩
    · rw [hsame]
      exact h
    · rw [hstart]
      exact h.startFetch _ _
  | list hf _ => exact h.list hf
  | readReceipts hf hst => exact h.readReceipts hf hst
  | readReactions hf hst => exact h.readReactions hf hst
  | receivePage hf hst _ => exact h.receivePage hf hst
  | loaded hf hst hseen hdata => exact h.loaded hf hst hseen hdata
  | loadedBefore _ _ => exact h.endFetch _
  | fail _ => exact h.endFetch _

/-- In every run in which no step takes an event away that some copy of its message
    needs: once all events are applied, every confirmed message of the cache shows what
    is stored, whether it came with a page of a resync or not. -/
theorem cache_current {users : List ConvoyChat.UserSummary}
    (hrun : Reach (RoomSync.step w roomID uid) (KeepsUp w) (RoomSync.start users) s)
    (hqueue : s.queue = []) (hpending : s.pending = []) :
    ∀ x ∈ s.confirmed, Current w s.tables x := by
  have h : Synced w s := hrun.invariant (Synced w)
    (fun _ _ _ h hok hs => synced_step h hok hs) (Synced.start users)
  intro x hx
  obtain ⟨⟨m, hm, hid, hagree⟩, hgroups⟩ := h.cached x hx
  refine ⟨m, hm, hid, ?_, hgroups⟩
  have hunder : s.under = [] := by rw [RoomSync.under, hqueue, hpending]; rfl
  rw [hunder] at hagree
  exact agree_three hagree

/-! ## Two runs -/

/-- The RFC 3339 text of a time below 10. -/
def stampText (t : Time) : String :=
  String.ofList ("2026-07-05T15:30:0".toList ++ (Nat.toDigits 10 t ++ ['Z']))

def unstamp (text : String) : Option Time :=
  some (Nat.ofDigitChars 10 (text.toList.drop 18).dropLast 0)

theorem unstamp_stampText (t : Time) : unstamp (stampText t) = some t := by
  have hprefix : "2026-07-05T15:30:0".toList.length = 18 := by decide
  unfold unstamp stampText
  rw [String.toList_ofList, List.drop_left' hprefix]
  simp

theorem stampText_ne (t : Time) : stampText t ≠ "" := by
  unfold stampText
  rw [Ne, ← String.toList_inj, String.toList_ofList, String.toList_empty]
  exact List.append_ne_nil_of_right_ne_nil _
    (List.append_ne_nil_of_right_ne_nil _ (List.cons_ne_nil _ _))

def sampleWire : Wire where
  uuidText := spell
  timeText := stampText
  parseTime := unstamp
  uuid_inj a b h := by
    have hspell := unspell_spell a
    rw [h, unspell_spell] at hspell
    exact (Option.some.inj hspell).symm
  time_ne := stampText_ne
  parse_time := unstamp_stampText

/-- Room 5, read by user 1. -/
abbrev sampleStep : RoomSync → SyncAction → Option RoomSync := RoomSync.step sampleWire 5 (spell 1)

abbrev sampleStart : RoomSync := RoomSync.start [⟨1, "alice", none⟩]

def syncAfter (as : List SyncAction) : RoomSync := (exec sampleStep sampleStart as).getD sampleStart

/-- The three statements of a page, and its arrival. -/
def fetchPage : List SyncAction := [.list 0, .readReceipts 0, .readReactions 0, .receive 0]

/-- Message 1 is loaded and edited. -/
def loadedAndEdited : List SyncAction :=
  [.insert 1 1 1 "helo" .text "" false, .load 0] ++ fetchPage ++
    [.subscribe, .edit 2 1 "hello", .publish 0]

/-- While the client is away, message 2 is sent. -/
def missedMessage : List SyncAction :=
  [.unsubscribe, .insert 3 2 1 "missed" .text "" true, .lose 0, .subscribe, .resync 0] ++ fetchPage

/-- Conditions under which a step takes no needed event away: the oldest event is
    published, a `message.new` alone is lost, nothing is on its way when the connection
    ends, and a `message.new` is applied. -/
def keepsUp (s : RoomSync) : SyncAction → Bool
  | .publish i => i = 0
  | .lose i =>
    match s.queue, s.pending with
    | [], [.messageNew _ _ _] => i = 0
    | _, _ => false
  | .unsubscribe => s.queue.isEmpty
  | .deliver =>
    match s.queue with
    | .messageNew _ _ clientID :: _ => s.confirmed.all fun x => x.id ≠ clientID
    | _ => false
  | _ => true

theorem keepsUp_of_check (s : RoomSync) (a : SyncAction) (h : keepsUp s a = true) :
    KeepsUp w s a := by
  cases a with
  | publish i =>
    obtain rfl : i = 0 := by simpa [keepsUp] using h
    intro e he
    cases hpending : s.pending with
    | nil => simp [hpending] at he
    | cons e' rest =>
      obtain rfl : e' = e := by simpa [hpending] using he
      have hunder : s.queue ++ e' :: (e' :: rest).eraseIdx 0 = s.under := by
        rw [RoomSync.under, hpending]
        rfl
      rw [hunder]
      exact madeUp_of_changes (fun _ => rfl) fun _ _ _ _ hrest => hrest
  | lose i =>
    simp only [keepsUp] at h
    split at h
    · rename_i row user clientID hqueue hpending
      obtain rfl : i = 0 := by simpa using h
      have hunder : s.under = [.messageNew row user clientID] := by
        rw [RoomSync.under, hqueue, hpending]
        rfl
      show MadeUp w s (s.queue ++ s.pending.eraseIdx 0)
      rw [hqueue, hpending]
      refine madeUp_of_changes (fun id => ?_) fun _ _ _ _ hrest => ?_
      · rw [hunder, changes_of_new (by rfl)]
        rfl
      · cases List.suffix_nil.mp hrest
    · cases h
  | unsubscribe =>
    have hqueue : s.queue = [] := by simpa [keepsUp] using h
    have hunder : s.under = s.pending := by
      rw [RoomSync.under, hqueue]
      rfl
    refine madeUp_of_changes (fun _ => by rw [hunder]) fun _ _ _ _ hrest => ?_
    rw [hunder]
    exact hrest
  | deliver =>
    simp only [keepsUp] at h
    split at h
    · rename_i row user clientID rest hqueue
      constructor
      · intro n f _ c _ m _ _
        refine .inl ?_
        rw [Alike, RoomSync.under, hqueue, List.cons_append, changes_cons m.id (.messageNew _ _ _),
          changes_of_new (by rfl)]
        exact agree_rfl
      · intro row' user' clientID' hhead x hx
        rw [hqueue] at hhead
        cases hhead
        simpa using List.all_eq_true.mp h x hx
    · cases h
  | _ => trivial

theorem cache_current_missed :
    (syncAfter (loadedAndEdited ++ .deliver :: missedMessage)).confirmed.map
        (fun x => (x.id, x.content)) = [(spell 2, some "missed"), (spell 1, some "hello")] ∧
      ∀ x ∈ (syncAfter (loadedAndEdited ++ .deliver :: missedMessage)).confirmed,
        Current sampleWire (syncAfter (loadedAndEdited ++ .deliver :: missedMessage)).tables x := by
  have hbefore : Reach sampleStep (KeepsUp sampleWire) sampleStart (syncAfter loadedAndEdited) := by
    have hexec : exec sampleStep sampleStart loadedAndEdited = some (syncAfter loadedAndEdited) :=
      rfl
    exact Reach.of_exec (meets_of_checks keepsUp_of_check rfl) hexec
  -- the edit is applied while no page is under way
  have hedit : KeepsUp sampleWire (syncAfter loadedAndEdited) .deliver := by
    have hidle : (syncAfter loadedAndEdited).fetches = fun _ => none := by
      funext n
      cases n with
      | zero => rfl
      | succ n => rfl
    refine ⟨fun n f hf => ?_, nofun⟩
    rw [hidle] at hf
    cases hf
  have hdeliver : sampleStep (syncAfter loadedAndEdited) .deliver =
      some (syncAfter (loadedAndEdited ++ [.deliver])) := rfl
  have hafter : Reach sampleStep (KeepsUp sampleWire) (syncAfter (loadedAndEdited ++ [.deliver]))
      (syncAfter (loadedAndEdited ++ .deliver :: missedMessage)) := by
    have hexec : exec sampleStep (syncAfter (loadedAndEdited ++ [.deliver])) missedMessage =
        some (syncAfter (loadedAndEdited ++ .deliver :: missedMessage)) := rfl
    exact Reach.of_exec (meets_of_checks keepsUp_of_check rfl) hexec
  have hrun := (hbefore.trans (Reach.single hedit hdeliver)).trans hafter
  exact ⟨by decide, cache_current hrun rfl rfl⟩

/-- While the client is away, message 1 is deleted; it comes back and resyncs. -/
def awayWhileDeleted : List SyncAction :=
  [.insert 1 1 1 "secret" .text "" false, .load 0] ++ fetchPage ++
    [.delete 2 1, .lose 0, .subscribe, .resync 0, .list 0, .readReceipts 0, .readReactions 0]

/-- The page of the resync has the deleted row, without its content; after the merge
    the cache shows the message as it was. -/
theorem deleted_while_away :
    Reach sampleStep Unguarded sampleStart (syncAfter awayWhileDeleted) ∧
      (∃ f rows, (syncAfter awayWhileDeleted).fetches 0 = some f ∧ f.lastSeen.isSome ∧
        f.stage = .answered rows ∧ rows.map (fun m => (m.id, m.content, m.deletedAt)) =
          [(1, none, some 2)]) ∧
      sampleStep (syncAfter awayWhileDeleted) (.receive 0) =
        some (syncAfter (awayWhileDeleted ++ [.receive 0])) ∧
      (syncAfter (awayWhileDeleted ++ [.receive 0])).fetches 0 = none ∧
      (syncAfter (awayWhileDeleted ++ [.receive 0])).queue = [] ∧
      (syncAfter (awayWhileDeleted ++ [.receive 0])).pending = [] ∧
      ∃ x ∈ (syncAfter (awayWhileDeleted ++ [.receive 0])).confirmed, x.id = spell 1 ∧
        x.content = some "secret" ∧ x.deletedAt = none ∧
        ¬ Current sampleWire (syncAfter (awayWhileDeleted ++ [.receive 0])).tables x := by
  have hexec : exec sampleStep sampleStart awayWhileDeleted = some (syncAfter awayWhileDeleted) :=
    rfl
  have hmessages : (syncAfter (awayWhileDeleted ++ [.receive 0])).tables.messages =
      [⟨1, 5, 1, "secret", .text, none, some 2, 1, 2⟩] := rfl
  refine ⟨Reach.of_exec (meets_unguarded _ _ _) hexec, ⟨_, _, rfl, rfl, rfl, by decide⟩,
    rfl, rfl, rfl, rfl, ?_⟩
  cases hconfirmed : (syncAfter (awayWhileDeleted ++ [.receive 0])).confirmed with
  | nil => exact absurd (congrArg List.length hconfirmed) (by decide)
  | cons x rest =>
    have hx : (x.id, x.content, x.deletedAt) = (spell 1, some "secret", none) := by
      have hhead : (syncAfter (awayWhileDeleted ++ [.receive 0])).confirmed.head?.map
          (fun x => (x.id, x.content, x.deletedAt)) =
            some (spell 1, some "secret", none) := by decide
      rw [hconfirmed] at hhead
      exact Option.some.inj hhead
    obtain ⟨hid, hcontent, hdeleted⟩ : x.id = spell 1 ∧ x.content = some "secret" ∧
        x.deletedAt = none := by simpa using hx
    refine ⟨x, List.mem_cons_self, hid, hcontent, hdeleted, ?_⟩
    rintro ⟨m, hm, -, hshown, -⟩
    rw [hmessages, List.mem_singleton] at hm
    have hbody := congrArg (fun v => v.body.deletedAt) hshown
    rw [hm] at hbody
    simp [shown, stored, hdeleted] at hbody

end ConvoyChat.System
