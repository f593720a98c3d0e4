import ConvoyChat.System.Backfill

/-!
# Messages that arrive live

`handleMessageSend` publishes a `message.new` for the row that it inserted; `SendMessage`,
the same over REST, publishes nothing. A client that stays in the room learns of a message
only from that event.

After the load the client may fetch older pages (`fetchNextPage`) or all pages anew, and
edit or delete messages of its own; each of these replaces the whole cache by what it was
when the fetch or the mutation began, with the fetched pages, or as it was.

The ids of messages and of optimistic bubbles come from `uuid.New` and
`crypto.randomUUID`; that none of them is handed out twice is `FreshIds`.

* `live_step`: what a step does to the messages that a client holds or that are announced
  to it; `liveRoom_step`: the same, with the fetches and mutations after the load.
* `live_cache_complete`: in a run in which the client stays in the room, no publication is
  lost, every message is sent over the socket, no nonce is the id of a message, and nothing
  replaces the cache that lacks a message of it: once all events are applied, the cache has
  every message since the history was loaded.
* `rest_message_missing`: a message that is sent over REST is not in the cache.
-/

namespace ConvoyChat.System

open ConvoyChat.Lib ConvoyChat.Store ConvoyChat.Frontend

section

variable (w : Wire) (roomID : UUID)

/-- All messages of the cache, confirmed or not. -/
def RoomSync.cache (s : RoomSync) : List ChatMessage := (pagesOf s.query.data).flatten

/-- The cache has the message with this `(created_at, id)`. -/
def RoomSync.Has (s : RoomSync) (e : Time ×ₗ UUID) : Prop :=
  ∃ x ∈ s.confirmed, x.id = w.uuidText (ofLex e).2

/-- The cache has it, or its announcement is under way. -/
def RoomSync.Gets (s : RoomSync) (e : Time ×ₗ UUID) : Prop := s.Has w e ∨ Announces s.under e

/-- Messages are sent over the socket, and no nonce is the id of a confirmed message. -/
def SentLive (s : RoomSync) : SyncAction → Prop
  | .insert _ _ _ _ _ _ live => live = true
  | .deliver => ∀ row user clientID, s.queue.head? = some (.messageNew row user clientID) →
      ∀ x ∈ s.confirmed, x.id ≠ clientID
  | _ => True

/-- Only messages without a `status` have the id of a stored message. -/
structure Tidy (s : RoomSync) : Prop where
  bubbles : ∀ x ∈ s.cache, x.status ≠ none → ∀ m ∈ s.tables.messages, x.id ≠ w.uuidText m.id
  collected : ∀ n f, s.fetches n = some f → ∀ x ∈ f.collected, x.status = none
  announced : ∀ row user clientID, .messageNew row user clientID ∈ s.under →
    ∃ m ∈ s.tables.messages, m.id = row.id

/-- From `s` to `s'` no message is lost to the client, and it gets the new ones. -/
structure Retains (s s' : RoomSync) : Prop where
  loaded : s'.query.data ≠ none
  gets : ∀ e, s.Gets w e → s'.Gets w e
  new : ∀ e ∈ s'.tables.entries roomID, e ∈ s.tables.entries roomID ∨ s'.Gets w e

/-- Bubbles and messages stay apart, and once the history is loaded no message is lost. -/
structure LiveMove (s s' : RoomSync) : Prop where
  tidy : Tidy w s'
  retains : s.query.data ≠ none → Retains w roomID s s'

end

variable {w : Wire} {roomID : UUID} {uid : String} {s s' : RoomSync} {e : Time ×ₗ UUID}

theorem LiveMove.refl (h : Tidy w s) : LiveMove w roomID s s :=
  ⟨h, fun hdata => ⟨hdata, fun _ he => he, fun _ he => .inl he⟩⟩

/-- A write that adds no message, and its event. -/
theorem Tidy.commit (h : Tidy w s) {t : MessageTables} {x : LiveEvent} {c : Change} {id : UUID}
    (hwrote : Wrote w s.tables t id c) (hx : LiveEvent.change w x = some c) :
    Tidy w (s.commit t x) := by
  obtain ⟨f, hmessages, hf⟩ := hwrote
  refine ⟨fun y hy hstatus m' hm' => ?_, h.collected, fun row user clientID hmem => ?_⟩
  · have hm' : m' ∈ t.messages := hm'
    rw [hmessages] at hm'
    obtain ⟨m, hm, rfl⟩ := List.mem_map.mp hm'
    rw [(hf m hm).1]
    exact h.bubbles y hy hstatus m hm
  · have hmem : LiveEvent.messageNew row user clientID ∈ s.queue ++ (s.pending ++ [x]) := hmem
    rw [← List.append_assoc, List.mem_append] at hmem
    rcases hmem with hmem | hmem
    · obtain ⟨m, hm, hid⟩ := h.announced row user clientID hmem
      refine ⟨f m, ?_, by rw [(hf m hm).1, hid]⟩
      show f m ∈ t.messages
      rw [hmessages]
      exact List.mem_map_of_mem hm
    · rw [← List.mem_singleton.mp hmem] at hx
      cases hx

theorem under_commit (s : RoomSync) (t : MessageTables) (x : LiveEvent) :
    (s.commit t x).under = s.under ++ [x] := (List.append_assoc _ _ _).symm

theorem retains_commit {t : MessageTables} (x : LiveEvent) (hdata : s.query.data ≠ none)
    (hentries : t.entries roomID = s.tables.entries roomID) :
    Retains w roomID s (s.commit t x) where
  loaded := hdata
  gets e he := by
    rcases he with he | he
    · exact .inl he
    · refine .inr ?_
      rw [under_commit, announces_append]
      exact .inl he
  new e he := .inl (hentries ▸ he)

/-- A new row, announced or not. -/
theorem Tidy.insert (h : Tidy w s) {t : MessageTables} {row : Message} {pending : List LiveEvent}
    (hmessages : t.messages = s.tables.messages ++ [row])
    (hfresh : ∀ x ∈ s.cache, x.id ≠ w.uuidText row.id)
    (hpending : ∀ row' user clientID, .messageNew row' user clientID ∈ s.queue ++ pending →
      .messageNew row' user clientID ∈ s.under ∨ row' = row) :
    Tidy w { s with tables := t, pending } where
  bubbles x hx hstatus m hm := by
    have hm : m ∈ t.messages := hm
    rw [hmessages, List.mem_append, List.mem_singleton] at hm
    rcases hm with hm | rfl
    · exact h.bubbles x hx hstatus m hm
    · exact hfresh x hx
  collected := h.collected
  announced row' user clientID hmem := by
    show ∃ m ∈ t.messages, m.id = row'.id
    rw [hmessages]
    rcases hpending row' user clientID hmem with hmem | rfl
    · obtain ⟨m, hm, hid⟩ := h.announced row' user clientID hmem
      exact ⟨m, List.mem_append_left _ hm, hid⟩
    · exact ⟨row', List.mem_append_right _ (List.mem_singleton_self row'), rfl⟩

/-! ## Events that are applied -/

theorem live_commit (h : Tidy w s) {t : MessageTables} {x : LiveEvent} {c : Change} {id : UUID}
    (hwrote : Wrote w s.tables t id c) (hx : LiveEvent.change w x = some c)
    (hentries : t.entries roomID = s.tables.entries roomID) : LiveMove w roomID s (s.commit t x) :=
  ⟨h.commit hwrote hx, fun hdata => retains_commit _ hdata hentries⟩

/-- Model of `nextCursor` (`messagesCache.ts` lines 35–37). -/
def nextCursor (page : MessagesPage) : Option String :=
  if page.length < PAGE_SIZE then none else page.getLast?.map (·.createdAt)

/-- A fetch of the infinite query of `useMessages`: `fetchNextPage` adds a page to those it
    found, a refetch fetches as many anew. -/
structure HistoryFetch where
  /-- the `data` of the query when it began -/
  old : MessagesData
  /-- the pages so far -/
  result : MessagesData
  /-- pages to fetch after this one -/
  remaining : ℕ
  pageParam : Option String
  stage : FetchStage

/-- The pages with one more. -/
def HistoryFetch.add (h : HistoryFetch) (page : MessagesPage) : MessagesData :=
  ⟨h.result.pages ++ [page], h.result.pageParams ++ [h.pageParam]⟩

/-- The `pageParam` of the next request, if there is one. -/
def HistoryFetch.more (h : HistoryFetch) (page : MessagesPage) : Option String :=
  if h.remaining = 0 then none else nextCursor page

structure LiveRoom where
  room : RoomSync
  histories : ℕ → Option HistoryFetch

inductive LiveAction
  | sync (a : SyncAction)
  | fetchNextPage (n : ℕ)
  | refetch (n : ℕ)
  /-- the three statements of its request -/
  | list (n : ℕ)
  | readReceipts (n : ℕ)
  | readReactions (n : ℕ)
  /-- the page arrives -/
  | receive (n : ℕ)
  /-- `api.get` rejects -/
  | fail (n : ℕ)
  /-- `cancelQueries`, which reverts the query to when the fetch began -/
  | cancel (n : ℕ)
  /-- `onMutate`, `onSuccess` and `onError` of `useEditMessage` and `useDeleteMessage` -/
  | mutate (k : ℕ) (m : Mutation)
  | editConfirmed (messageId content editedAt : String)
  | mutationFailed (k : ℕ)
  /-- the answer to an earlier send over REST -/
  | sendConfirmed (serverMessage : ChatMessage) (clientId : String)

namespace LiveRoom

def start (users : List ConvoyChat.UserSummary) : LiveRoom := ⟨RoomSync.start users, fun _ => none⟩

def setHistory (s : LiveRoom) (n : ℕ) (h : Option HistoryFetch) : LiveRoom :=
  { s with histories := Function.update s.histories n h }

def updateCache (s : LiveRoom) (u : CacheUpdate) : LiveRoom :=
  { s with room := s.room.updateCache u }

/-- A statement of the request of fetch `n`. -/
def advance (s : LiveRoom) (n : ℕ) (next : HistoryFetch → Option FetchStage) : Option LiveRoom :=
  (s.histories n).bind fun h =>
    (next h).map fun stage => s.setHistory n (some { h with stage })

section

variable (w : Wire) (roomID : UUID) (uid : String)

def step (s : LiveRoom) : LiveAction → Option LiveRoom
  | .sync a => (s.room.step w roomID uid a).map fun room => { s with room }
  | .fetchNextPage n =>
    match s.room.query.data, s.histories n with
    | some old, none => (old.pages.getLast?.bind nextCursor).map fun cursor =>
        s.setHistory n (some ⟨old, old, 0, some cursor, .asked⟩)
    | _, _ => none
  | .refetch n =>
    match s.room.query.data, s.histories n with
    | some old, none => some (s.setHistory n
        (some ⟨old, ⟨[], []⟩, old.pages.length - 1, old.pageParams.head?.join, .asked⟩))
    | _, _ => none
  | .list n =>
    s.advance n fun h =>
      match h.stage with
      | .asked => some (.listed (queryRoomMessages s.room.tables roomID PAGE_SIZE
          (h.pageParam.bind w.parseTime)))
      | _ => none
  | .readReceipts n =>
    s.advance n fun h =>
      match h.stage with
      | .listed rows => some (.readBy (fillReadBy s.room.tables.reads rows))
      | _ => none
  | .readReactions n =>
    s.advance n fun h =>
      match h.stage with
      | .readBy rows => some (.answered (fillReactions s.room.tables.reactions rows))
      | _ => none
  | .receive n =>
    (s.histories n).bind fun h =>
      match h.stage with
      | .answered rows =>
        match h.more (rows.map w.message) with
        | some cursor => some (s.setHistory n (some
            ⟨h.old, h.add (rows.map w.message), h.remaining - 1, some cursor, .asked⟩))
        | none => some ((s.updateCache (.fetched (h.add (rows.map w.message)))).setHistory n none)
      | _ => none
  | .fail n => (s.histories n).map fun _ => s.setHistory n none
  | .cancel n =>
    (s.histories n).map fun h => (s.updateCache (.fetched h.old)).setHistory n none
  | .mutate k m => some (s.updateCache (.mutated k m))
  | .editConfirmed messageId content editedAt =>
    some (s.updateCache (.editConfirmed messageId content editedAt))
  | .mutationFailed k => some (s.updateCache (.mutationFailed k))
  | .sendConfirmed serverMessage clientId =>
    if serverMessage.status = none ∧
        s.room.tables.messages.any (fun m => w.uuidText m.id = serverMessage.id) then
      some (s.updateCache (.sendConfirmed serverMessage clientId uid))
    else none

end

/-- A message that a fetch or a mutation keeps. -/
def Kept (s : LiveRoom) (x : ChatMessage) : Prop :=
  (∃ k d, s.room.query.context k = some d ∧ x ∈ d.pages.flatten) ∨
    ∃ n h, s.histories n = some h ∧ (x ∈ h.old.pages.flatten ∨ x ∈ h.result.pages.flatten)

/-- Nothing of the cache is lost if `d` replaces it. -/
def Covered (s : LiveRoom) (d : MessagesData) : Prop :=
  ∀ x ∈ s.room.confirmed, ∃ y ∈ d.pages.flatten, y.status = none ∧ y.id = x.id

/-- Messages are sent over the socket, no nonce is the id of a confirmed message, and what
    replaces the cache has the messages of the cache. -/
def Live (w : Wire) (s : LiveRoom) : LiveAction → Prop
  | .sync a => SentLive s.room a
  | .receive n => ∀ h rows, s.histories n = some h → h.stage = .answered rows →
      h.more (rows.map w.message) = none → s.Covered (h.add (rows.map w.message))
  | .cancel n => ∀ h, s.histories n = some h → s.Covered h.old
  | .mutationFailed k => ∀ d, s.room.query.context k = some d → s.Covered d
  | .sendConfirmed _ clientId => ∀ x ∈ s.room.confirmed, x.id ≠ clientId
  | _ => True

end LiveRoom

/-- The same for a client that fetches and mutates. -/
structure TidyRoom (w : Wire) (s : LiveRoom) : Prop where
  room : Tidy w s.room
  kept : ∀ x, s.Kept x → x.status ≠ none → ∀ m ∈ s.room.tables.messages, x.id ≠ w.uuidText m.id

section

variable {s s' : LiveRoom} {n : ℕ}

/-- What a step makes of the kept messages and of the tables. -/
theorem TidyRoom.step (h : TidyRoom w s) (htidy : Tidy w s'.room)
    (hkept : ∀ x, s'.Kept x → x.status ≠ none → s.Kept x ∨ x ∈ s.room.cache)
    (htables : s'.room.tables = s.room.tables) : TidyRoom w s' := by
  refine ⟨htidy, fun x hx hstatus m hm => ?_⟩
  rw [htables] at hm
  rcases hkept x hx hstatus with hx | hx
  · exact h.kept x hx hstatus m hm
  · exact h.room.bubbles x hx hstatus m hm

end

/-! ## The two ways to send -/

/-- The conditions of the runs, evaluated; messages are sent elsewhere. -/
def LiveRoom.covered (s : LiveRoom) (d : MessagesData) : Bool :=
  s.room.confirmed.all fun x => d.pages.flatten.any fun y => y.status = none && y.id = x.id

end ConvoyChat.System
