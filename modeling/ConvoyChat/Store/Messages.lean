import ConvoyChat.Lib.Keyset
import ConvoyChat.Models
import Mathlib.Data.List.Sort
import Mathlib.Data.Prod.Lex

/-!
# Message history

Models of `internal/store/messages.go` (`ListRoomMessages`), of the batch reads of
`read_receipts.go` and `reactions.go`, and of the client's walk through the
history of a room with `nextCursor` (`frontend/lib/messagesCache.ts` lines 35–37).

The listing is ordered by `(created_at, id)`, but the cursor of the next page is
`created_at` alone: rows that share it with the last row of a full page are
skipped.

* `map_entry_listRoomMessages`: a page, row by row, is a page of the listing.
* `historyRead_iff`: the walk returns every message exactly once if and only if no
  full page ends between two messages of the same `created_at`.
* `tied_message_skipped`: the second of two messages written in one microsecond is
  never returned with pages of one row.
-/

namespace ConvoyChat.Store

open ConvoyChat.Lib

/-- A row of `message_read_receipts`. -/
structure ReadReceipt where
  id : UUID
  messageID : UUID
  userID : UUID
  readAt : Time
deriving DecidableEq, Repr

/-- A row of `message_reactions`. -/
structure Reaction where
  id : UUID
  messageID : UUID
  userID : UUID
  emoji : String
  createdAt : Time
deriving DecidableEq, Repr

/-- `models.MessageReactionSummary`. -/
structure MessageReactionSummary where
  emoji : String
  count : ℕ
  userIDs : List UUID
deriving DecidableEq, Repr

/-- A `models.MessageWithAuthor` as the history serves it, with the lists `ReadBy`
    and `Reactions`. -/
structure HistoryMessage extends MessageWithAuthor where
  readBy : List UUID
  reactions : List MessageReactionSummary
deriving DecidableEq, Repr

/-- The tables the history is read from, `users` with the columns of a
    `UserSummary`. `messages.id` is the primary key and `messages.user_id` refers
    to a user. -/
structure MessageTables where
  messages : List Message
  users : List UserSummary
  reads : List ReadReceipt
  reactions : List Reaction
  message_id : (messages.map (·.id)).Nodup
  author : ∀ m ∈ messages, ∃ u ∈ users, u.id = m.userID

/-- Model of `scanMessageWithAuthor` (lines 29–48): the content of a deleted
    message is not served. -/
def scanMessageWithAuthor (m : Message) (u : UserSummary) : HistoryMessage where
  id := m.id
  roomID := m.roomID
  user := u
  content := if m.deletedAt.isNone then some m.content else none
  messageType := m.messageType
  editedAt := m.editedAt
  deletedAt := m.deletedAt
  createdAt := m.createdAt
  updatedAt := m.updatedAt
  readBy := []
  reactions := []

/-- `FROM messages m JOIN users u ON u.id = m.user_id`; `users.id` is the primary
    key, so at most one row joins. -/
def joinAuthor (users : List UserSummary) (m : Message) : Option HistoryMessage :=
  (users.find? fun u => u.id = m.userID).map (scanMessageWithAuthor m)

/-- Model of `ListReadByForMessages` (`read_receipts.go` lines 30–61). -/
def listReadByForMessages (messageIDs : List UUID) (reads : List ReadReceipt) :
    UUID → Option (List UUID) :=
  ((reads.filter fun row => messageIDs.contains row.messageID).insertionSort fun a b =>
      toLex (a.messageID, a.readAt) ≤ toLex (b.messageID, b.readAt)).foldl
    (fun result row => Function.update result row.messageID
      (some ((result row.messageID).getD [] ++ [row.userID])))
    fun _ => none

/-- One row of the loop of `ListReactionsForMessages`: `positions` holds the index
    of the summary of this emoji, if there is one. -/
def addReaction (groups : List MessageReactionSummary) (userID : UUID) (emoji : String) :
    List MessageReactionSummary :=
  match groups.findIdx? fun g => g.emoji = emoji with
  | some pos =>
    groups.modify pos fun g => { g with count := g.count + 1, userIDs := g.userIDs ++ [userID] }
  | none => groups ++ [⟨emoji, 1, [userID]⟩]

/-- Model of `ListReactionsForMessages` (`reactions.go` lines 57–108). -/
def listReactionsForMessages (messageIDs : List UUID) (reactions : List Reaction) :
    UUID → Option (List MessageReactionSummary) :=
  ((reactions.filter fun row => messageIDs.contains row.messageID).insertionSort fun a b =>
      toLex (a.messageID, a.createdAt) ≤ toLex (b.messageID, b.createdAt)).foldl
    (fun result row => Function.update result row.messageID
      (some (addReaction ((result row.messageID).getD []) row.userID row.emoji)))
    fun _ => none

/-- `(created_at, id)`, the order of the listing. -/
def messageEntry (m : Message) : Time ×ₗ UUID := toLex (m.createdAt, m.id)

/-- The same pair of a served row. -/
def HistoryMessage.entry (m : HistoryMessage) : Time ×ₗ UUID := toLex (m.createdAt, m.id)

/-- `$2 IS NULL OR m.created_at < $2`. -/
def isBefore (before : Option Time) (createdAt : Time) : Bool :=
  match before with
  | none => true
  | some t => createdAt < t

/-- The query of `ListRoomMessages` (lines 73–79). -/
def queryRoomMessages (t : MessageTables) (roomID : UUID) (limit : ℕ) (before : Option Time) :
    List HistoryMessage :=
  (((t.messages.filter fun m => m.roomID = roomID && isBefore before m.createdAt).filterMap
    (joinAuthor t.users)).insertionSort fun a b => b.entry ≤ a.entry).take limit

/-- Model of `ListRoomMessages` (lines 72–121). -/
def listRoomMessages (t : MessageTables) (roomID : UUID) (limit : ℕ) (before : Option Time) :
    List HistoryMessage :=
  let messages := queryRoomMessages t roomID limit before
  let ids := messages.map (·.id)
  let readByMessage := listReadByForMessages ids t.reads
  let reactionsByMessage := listReactionsForMessages ids t.reactions
  messages.map fun m =>
    { m with
      readBy := (readByMessage m.id).getD m.readBy
      reactions := (reactionsByMessage m.id).getD m.reactions }

/-- The walk through the history of a room: fetch without a cursor, then before
    the last message of each page, until a page is short (`cursorAfter` is the
    client's `nextCursor`). `tables i` are the tables at the `i`-th fetch. -/
def readHistory (tables : ℕ → MessageTables) (roomID : UUID) (limit fuel : ℕ) :
    Option (List (List HistoryMessage)) :=
  fetchPages (·.createdAt) limit (fun i before => listRoomMessages (tables i) roomID limit before)
    fuel 0 none

/-! ## The listing of a room -/

/-- The messages of a room, as pairs `(created_at, id)`. -/
def MessageTables.entries (t : MessageTables) (roomID : UUID) : List (Time ×ₗ UUID) :=
  (t.messages.filter fun m => m.roomID = roomID).map messageEntry

/-- The listing of the room: its messages in descending `(created_at, id)` order. -/
def MessageTables.listing (t : MessageTables) (roomID : UUID) : List (Time ×ₗ UUID) :=
  (t.entries roomID).insertionSort (· ≥ ·)

/-- From `t` to `t'` the room got newer messages only; what is stored with its
    messages apart from `created_at` and `id` may have changed. -/
def Grown (t t' : MessageTables) (roomID : UUID) : Prop :=
  ∃ newer, (t'.entries roomID).Perm (t.entries roomID ++ newer) ∧
    ∀ e ∈ newer, ∀ e' ∈ t.entries roomID, (ofLex e').1 ≤ (ofLex e).1

/-- The walk ends, and returns every message that was in the room at the first
    fetch exactly once and nothing else, in descending `(created_at, id)` order. -/
def HistoryRead (tables : ℕ → MessageTables) (roomID : UUID) (limit : ℕ) : Prop :=
  ∃ n, ∀ fuel, n ≤ fuel → ∃ pages, readHistory tables roomID limit fuel = some pages ∧
    (pages.flatten.map (·.id)).Perm
      (((tables 0).messages.filter fun m => m.roomID = roomID).map (·.id)) ∧
    pages.flatten.Pairwise fun a b => b.entry < a.entry

theorem entry_joinAuthor {users : List UserSummary} {m : Message} {row : HistoryMessage}
    (h : joinAuthor users m = some row) : row.entry = messageEntry m := by
  obtain ⟨u, -, rfl⟩ := Option.map_eq_some_iff.mp h
  rfl

/-- The rows of a page are messages of the room. -/
theorem mem_queryRoomMessages {t : MessageTables} {roomID : UUID} {limit : ℕ} {before : Option Time}
    {row : HistoryMessage} (h : row ∈ queryRoomMessages t roomID limit before) :
    ∃ m ∈ t.messages, m.roomID = roomID ∧ ∃ u, scanMessageWithAuthor m u = row := by
  have hmem := (List.mem_insertionSort _).mp (List.mem_of_mem_take h)
  obtain ⟨m, hm, hjoin⟩ := List.mem_filterMap.mp hmem
  obtain ⟨u, -, rfl⟩ := Option.map_eq_some_iff.mp hjoin
  obtain ⟨hm, hroom⟩ := List.mem_filter.mp hm
  simp only [Bool.and_eq_true, decide_eq_true_eq] at hroom
  exact ⟨m, hm, hroom.1, u, rfl⟩

/-- Every message joins its author. -/
theorem map_entry_filterMap_joinAuthor {users : List UserSummary} {messages : List Message}
    (h : ∀ m ∈ messages, ∃ u ∈ users, u.id = m.userID) :
    (messages.filterMap (joinAuthor users)).map (·.entry) = messages.map messageEntry := by
  induction messages with
  | nil => rfl
  | cons m messages ih =>
    obtain ⟨u, hu, hid⟩ := h m List.mem_cons_self
    obtain ⟨row, hrow⟩ : ∃ row, joinAuthor users m = some row := by
      cases hfind : users.find? fun u => u.id = m.userID with
      | some u' => exact ⟨_, by rw [joinAuthor, hfind]; rfl⟩
      | none =>
        rw [List.find?_eq_none] at hfind
        exact absurd hid (by simpa using hfind u hu)
    rw [List.filterMap_cons_some hrow, List.map_cons, List.map_cons, entry_joinAuthor hrow,
      ih fun m' hm' => h m' (List.mem_cons_of_mem _ hm')]

theorem listing_perm (t : MessageTables) (roomID : UUID) :
    (t.listing roomID).Perm (t.entries roomID) := List.perm_insertionSort _ _

theorem listing_sorted (t : MessageTables) (roomID : UUID) :
    (t.listing roomID).Pairwise (· ≥ ·) := List.pairwise_insertionSort _ _

/-- The ids of the room, through their entries. -/
theorem map_snd_listing (t : MessageTables) (roomID : UUID) :
    ((t.listing roomID).map fun e => (ofLex e).2).Perm
      ((t.messages.filter fun m => m.roomID = roomID).map (·.id)) := by
  have hmap : ((t.entries roomID).map fun e => (ofLex e).2) =
      (t.messages.filter fun m => m.roomID = roomID).map (·.id) := by
    rw [MessageTables.entries, List.map_map]
    rfl
  exact hmap ▸ (listing_perm t roomID).map _

theorem nodup_map_snd_listing (t : MessageTables) (roomID : UUID) :
    ((t.listing roomID).map fun e => (ofLex e).2).Nodup := by
  rw [(map_snd_listing t roomID).nodup_iff]
  exact t.message_id.sublist (List.filter_sublist.map _)

theorem entry_eq_of_snd (t : MessageTables) {roomID : UUID} {e e' : Time ×ₗ UUID}
    (he : e ∈ t.listing roomID) (he' : e' ∈ t.listing roomID) (hid : (ofLex e).2 = (ofLex e').2) :
    e = e' :=
  List.inj_on_of_nodup_map (nodup_map_snd_listing t roomID) he he' hid

/-- Sorting and then filtering is filtering and then sorting. -/
theorem filter_insertionSort (p : Time ×ₗ UUID → Bool) (l : List (Time ×ₗ UUID)) :
    (l.insertionSort (· ≥ ·)).filter p = (l.filter p).insertionSort (· ≥ ·) := by
  refine List.Perm.eq_of_pairwise' (r := (· ≥ ·)) ?_ (List.pairwise_insertionSort _ _) ?_
  · exact (List.pairwise_insertionSort _ _).sublist List.filter_sublist
  · exact ((List.perm_insertionSort _ _).filter p).trans (List.perm_insertionSort _ _).symm

/-- A page, row by row: the first `limit` messages of the listing below the
    cursor. -/
theorem map_entry_queryRoomMessages (t : MessageTables) (roomID : UUID) (limit : ℕ)
    (before : Option Time) :
    (queryRoomMessages t roomID limit before).map (·.entry) =
      ((t.listing roomID).filter fun e => isBefore before (ofLex e).1).take limit := by
  have hauthor : ∀ m ∈ t.messages.filter (fun m => m.roomID = roomID &&
    isBefore before m.createdAt),
      ∃ u ∈ t.users, u.id = m.userID :=
    fun m hm => t.author m (List.mem_of_mem_filter hm)
  rw [queryRoomMessages, List.map_take,
    List.map_insertionSort _ (· ≥ ·) _ _ fun _ _ _ _ => Iff.rfl,
    map_entry_filterMap_joinAuthor hauthor, MessageTables.listing, filter_insertionSort,
    MessageTables.entries, List.filter_map, List.filter_filter]
  congr 3
  refine List.filter_congr fun m _ => ?_
  rw [Bool.and_comm]
  rfl

theorem map_entry_listRoomMessages (t : MessageTables) (roomID : UUID) (limit : ℕ)
    (before : Option Time) :
    (listRoomMessages t roomID limit before).map (·.entry) =
      ((t.listing roomID).filter fun e => isBefore before (ofLex e).1).take limit := by
  rw [← map_entry_queryRoomMessages, listRoomMessages, List.map_map]
  rfl

/-! ## The walk -/

/-- `created_at` of an entry. -/
def entryTime (e : Time ×ₗ UUID) : Time := (ofLex e).1

theorem listing_descending (t : MessageTables) (roomID : UUID) :
    Descending entryTime (t.listing roomID) := by
  refine (listing_sorted t roomID).imp ?_
  intro a b hab
  exact Prod.Lex.monotone_fst _ _ hab

section Page

variable {t : MessageTables} {roomID : UUID} {limit : ℕ} {before : Option Time}

theorem page_descending : Descending entryTime
    ((queryRoomMessages t roomID limit before).map (·.entry)) := by
  rw [map_entry_queryRoomMessages]
  exact (listing_descending t roomID).sublist ((List.take_sublist _ _).trans List.filter_sublist)

/-- A page lists messages of the room that are before the cursor. -/
theorem entry_mem_page {row : HistoryMessage} (h : row ∈ queryRoomMessages t roomID limit before) :
    row.entry ∈ t.entries roomID ∧ isBefore before row.createdAt = true := by
  have hmem : row.entry ∈ (queryRoomMessages t roomID limit before).map (·.entry) :=
    List.mem_map_of_mem h
  rw [map_entry_queryRoomMessages] at hmem
  obtain ⟨hmem, hbefore⟩ := List.mem_filter.mp (List.mem_of_mem_take hmem)
  exact ⟨(listing_perm t roomID).mem_iff.mp hmem, hbefore⟩

theorem oldest_le {row oldest : HistoryMessage}
    (hlast : (queryRoomMessages t roomID limit before).getLast? = some oldest)
    (h : row ∈ queryRoomMessages t roomID limit before) : oldest.createdAt ≤ row.createdAt := by
  have hentry : ((queryRoomMessages t roomID limit before).map (·.entry)).getLast? =
      some oldest.entry := by
    rw [List.getLast?_map, hlast]
    rfl
  exact page_descending.getLast?_le hentry (List.mem_map_of_mem h)

/-- A message before the cursor is on the page, or the page is full and the message is
    not newer than its last row. -/
theorem mem_page_or (hlimit : 0 < limit) {e : Time ×ₗ UUID} (he : e ∈ t.entries roomID)
    (hbefore : isBefore before (entryTime e) = true) :
    (∃ row ∈ queryRoomMessages t roomID limit before, row.entry = e) ∨
      limit ≤ (queryRoomMessages t roomID limit before).length ∧
        ∃ oldest, (queryRoomMessages t roomID limit before).getLast? = some oldest ∧
          entryTime e ≤ oldest.createdAt := by
  have hmem : e ∈ (t.listing roomID).filter fun e => isBefore before (ofLex e).1 :=
    List.mem_filter.mpr ⟨(listing_perm t roomID).mem_iff.mpr he, hbefore⟩
  have hsorted : Descending entryTime
      ((t.listing roomID).filter fun e => isBefore before (ofLex e).1) :=
    (listing_descending t roomID).sublist List.filter_sublist
  have hpage := map_entry_queryRoomMessages t roomID limit before
  rcases hsorted.mem_take_or hlimit hmem with hmem | ⟨hlen, last, hlast, hle⟩
  · rw [← hpage] at hmem
    exact .inl (List.mem_map.mp hmem)
  · rw [← hpage, List.length_map] at hlen
    rw [← hpage, List.getLast?_map] at hlast
    obtain ⟨oldest, holdest, rfl⟩ := Option.map_eq_some_iff.mp hlast
    exact .inr ⟨hlen.ge, oldest, holdest, hle⟩

end Page

/-- Below a message of the first listing, the later listings are the first one. -/
theorem Grown.filter_listing {t t' : MessageTables} {roomID : UUID} (h : Grown t t' roomID)
    {e : Time ×ₗ UUID} (he : e ∈ t.listing roomID) :
    (t'.listing roomID).filter (fun x => entryTime x < entryTime e) =
      (t.listing roomID).filter fun x => entryTime x < entryTime e := by
  obtain ⟨newer, hperm, hnewer⟩ := h
  have hnone : newer.filter (fun x => entryTime x < entryTime e) = [] := by
    rw [List.filter_eq_nil_iff]
    intro x hx
    have hle : entryTime e ≤ entryTime x := hnewer x hx e ((listing_perm t roomID).mem_iff.mp he)
    simpa using hle
  have hfilter := hperm.filter fun x => decide (entryTime x < entryTime e)
  rw [List.filter_append, hnone, List.append_nil] at hfilter
  refine List.Perm.eq_of_pairwise' (r := (· ≥ ·)) ?_ ?_ ?_
  · exact (listing_sorted t' roomID).sublist List.filter_sublist
  · exact (listing_sorted t roomID).sublist List.filter_sublist
  · exact (((listing_perm t' roomID).filter _).trans hfilter).trans
      ((listing_perm t roomID).filter _).symm

theorem serves_listing {tables : ℕ → MessageTables} {roomID : UUID} (limit : ℕ)
    (hgrown : ∀ i, Grown (tables 0) (tables i) roomID) :
    Serves entryTime limit ((tables 0).listing roomID)
      fun i before => (listRoomMessages (tables i) roomID limit before).map (·.entry) where
  first := by
    rw [map_entry_listRoomMessages]
    congr 1
    exact List.filter_eq_self.mpr fun _ _ => rfl
  next i e he := by
    rw [map_entry_listRoomMessages, ← (hgrown (i + 1)).filter_listing he]
    rfl

/-- The walk, on the entries of the messages. -/
theorem map_readHistory (tables : ℕ → MessageTables) (roomID : UUID) (limit fuel : ℕ) :
    (readHistory tables roomID limit fuel).map (List.map (List.map (·.entry))) =
      fetchPages entryTime limit
        (fun i before => (listRoomMessages (tables i) roomID limit before).map (·.entry)) fuel
          0 none := by
  have hkey : ∀ m : HistoryMessage, entryTime m.entry = m.createdAt := fun _ => rfl
  exact fetchPages_map hkey limit _ fuel 0 none

theorem map_snd_entry (rows : List HistoryMessage) :
    (rows.map (·.entry)).map (fun e => (ofLex e).2) = rows.map (·.id) := by
  rw [List.map_map]
  rfl

/-- Walking back through a room to which only newer messages are added, page by
    page before the `created_at` of the last message, returns every message of the
    first fetch exactly once in descending order, and ends, if and only if no full
    page ends between two messages of the same `created_at`. -/
theorem historyRead_iff (tables : ℕ → MessageTables) (roomID : UUID) (limit : ℕ)
    (hlimit : 1 ≤ limit) (hgrown : ∀ i, Grown (tables 0) (tables i) roomID) :
    HistoryRead tables roomID limit ↔ Apart entryTime limit ((tables 0).listing roomID) := by
  have hserves := serves_listing limit hgrown
  have hdesc := listing_descending (tables 0) roomID
  have hnodup : ((tables 0).listing roomID).Nodup :=
    List.Nodup.of_map _ (nodup_map_snd_listing (tables 0) roomID)
  constructor
  · -- a tied boundary loses a message, whose id then is not among those returned
    rintro ⟨n, hread⟩
    by_contra htied
    obtain ⟨lost, hlost, hmiss⟩ := fetchPages_misses hlimit hserves hdesc hnodup htied
    obtain ⟨pages, hpages, hids, -⟩ := hread n le_rfl
    have hentries := map_readHistory tables roomID limit n
    rw [hpages] at hentries
    have hmem : (ofLex lost).2 ∈ pages.flatten.map (·.id) :=
      hids.mem_iff.mpr ((map_snd_listing _ _).mem_iff.mp (List.mem_map_of_mem hlost))
    obtain ⟨x, hx, hid⟩ := List.mem_map.mp hmem
    have hxflat : x.entry ∈ (pages.map (List.map (·.entry))).flatten := by
      rw [← List.map_flatten]
      exact List.mem_map_of_mem hx
    have hxrows := fetchPages_subset hserves hentries.symm x.entry hxflat
    have hsame : x.entry = lost := entry_eq_of_snd (tables 0) hxrows hlost hid
    exact hmiss n _ hentries.symm (hsame ▸ hxflat)
  · intro hapart
    refine ⟨((tables 0).listing roomID).length + 1, fun fuel hfuel => ?_⟩
    obtain ⟨entries, hentries, hflat⟩ := fetchPages_flatten hlimit hserves hdesc hapart hfuel
    rw [← map_readHistory] at hentries
    obtain ⟨pages, hpages, rfl⟩ := Option.map_eq_some_iff.mp hentries
    rw [← List.map_flatten] at hflat
    refine ⟨pages, hpages, ?_, ?_⟩
    · rw [← map_snd_entry, hflat]
      exact map_snd_listing _ _
    · rw [← List.pairwise_map (f := HistoryMessage.entry) (R := fun a b => b < a), hflat]
      exact ((listing_sorted _ _).and hnodup).imp fun h => lt_of_le_of_ne h.1 h.2.symm

/-- A message of room 5. -/
def historyRow (id : UUID) (createdAt : Time) : Message where
  id := id
  roomID := 5
  userID := 1
  content := "hi"
  messageType := .text
  editedAt := none
  deletedAt := none
  createdAt := createdAt
  updatedAt := createdAt

/-- Three messages, written at different times. -/
def quietTables : MessageTables where
  messages := [historyRow 1 10, historyRow 2 20, historyRow 3 30]
  users := [⟨1, "alice", none⟩]
  reads := []
  reactions := []
  message_id := by decide
  author := by decide

/-- The same tables after a fourth message. -/
def grownTables : MessageTables where
  messages := [historyRow 1 10, historyRow 2 20, historyRow 3 30, historyRow 4 40]
  users := [⟨1, "alice", none⟩]
  reads := []
  reactions := []
  message_id := by decide
  author := by decide

/-- The fourth message arrives between the first fetch and the second. -/
def growing (i : ℕ) : MessageTables := if i = 0 then quietTables else grownTables

theorem growing_grown (i : ℕ) : Grown (growing 0) (growing i) 5 := by
  cases i with
  | zero => exact ⟨[], by simp, by simp⟩
  | succ i =>
    show Grown quietTables grownTables 5
    exact ⟨[toLex (40, 4)], by decide, by decide⟩

theorem historyRead_iff_growing : 1 ≤ 2 ∧ HistoryRead growing 5 2 := by
  refine ⟨by decide, (historyRead_iff growing 5 2 (by decide) growing_grown).mpr ?_⟩
  intro k a b ha hb
  have hlisting : (growing 0).listing 5 = [toLex (30, 3), toLex (20, 2), toLex (10, 1)] := by decide
  rw [hlisting] at ha hb
  have hk : k = 0 := by
    obtain ⟨hlen, -⟩ := List.getElem?_eq_some_iff.mp hb
    simp only [List.length_cons, List.length_nil] at hlen
    omega
  subst hk
  cases ha
  cases hb
  decide

/-- Two messages written in the same microsecond. -/
def tiedTables : MessageTables where
  messages := [historyRow 1 10, historyRow 2 10]
  users := [⟨1, "alice", none⟩]
  reads := []
  reactions := []
  message_id := by decide
  author := by decide

/-- With pages of one message the walk returns the second of them and ends; the
    first one is before no cursor. -/
theorem tied_message_skipped :
    ¬ ∀ (tables : ℕ → MessageTables) (roomID : UUID) (limit : ℕ), 1 ≤ limit →
      (∀ i, Grown (tables 0) (tables i) roomID) → HistoryRead tables roomID limit := by
  intro h
  obtain ⟨n, hread⟩ := h (fun _ => tiedTables) 5 1 le_rfl fun _ => ⟨[], by simp, by simp⟩
  obtain ⟨pages, hpages, hids, -⟩ := hread (n + 2) (by omega)
  have hwalk : readHistory (fun _ => tiedTables) 5 1 (n + 2) =
      some [listRoomMessages tiedTables 5 1 none, []] := by rfl
  rw [hwalk] at hpages
  cases hpages
  revert hids
  decide

end ConvoyChat.Store
