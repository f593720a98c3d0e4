import ConvoyChat.Lib.Grouping
import ConvoyChat.Lib.Rows
import ConvoyChat.Store.Messages

/-!
# Writes to the messages of a room

Models of `InsertMessage`, `SoftDeleteMessage`, `EditMessage`
(`internal/store/messages.go`), `ToggleReaction` (`reactions.go`) and
`MarkMessageRead` (`read_receipts.go`), each one statement, and of the three
statements of `ListRoomMessages` one by one.

* `listRoomMessages_eq`: `ListRoomMessages` is these three on the same tables.
* `listReadByForMessages_perm`, `listReactionsForMessages_eq`: what they list for a
  message of the page.
-/

namespace ConvoyChat.Store

open ConvoyChat.Lib

/-- The tables after an update of messages that keeps their ids and authors. -/
def MessageTables.updateMessages (t : MessageTables) (p : Message → Bool) (f : Message → Message)
    (hid : ∀ m, (f m).id = m.id) (hauthor : ∀ m, (f m).userID = m.userID) : MessageTables where
  messages := updateWhere p f t.messages
  users := t.users
  reads := t.reads
  reactions := t.reactions
  message_id := by
    rw [map_updateWhere hid]
    exact t.message_id
  author m' hm' := by
    obtain ⟨m, hm, rfl⟩ := mem_updateWhere.mp hm'
    split_ifs
    · rw [hauthor]
      exact t.author m hm
    · exact t.author m hm

/-- Model of `InsertMessage` (lines 52–65). -/
def insertMessage (now : Time) (id roomID userID : UUID) (content : String)
    (messageType : MessageType) (t : MessageTables) : Except StoreErr MessageTables :=
  if h : (∀ m ∈ t.messages, m.id ≠ id) ∧ ∃ u ∈ t.users, u.id = userID then
    .ok { t with
      messages := t.messages ++ [⟨id, roomID, userID, content, messageType, none, none, now, now⟩]
      message_id := by
        exact nodup_map_append_singleton t.message_id h.1
      author := by
        intro m hm
        rcases List.mem_append.mp hm with hm | hm
        · exact t.author m hm
        · rw [List.mem_singleton.mp hm]
          exact h.2 }
  else .error .internal

theorem insertMessage_ok {now : Time} {id roomID userID : UUID} {content : String}
    {messageType : MessageType} {t t' : MessageTables}
    (h : insertMessage now id roomID userID content messageType t = .ok t') :
    (∀ m ∈ t.messages, m.id ≠ id) ∧ t'.messages =
        t.messages ++ [⟨id, roomID, userID, content, messageType, none, none, now, now⟩] ∧
      t'.reads = t.reads ∧ t'.reactions = t.reactions := by
  unfold insertMessage at h
  split_ifs at h with hok
  cases h
  exact ⟨hok.1, rfl, rfl, rfl⟩

/-- Model of `GetMessageByID` (lines 126–143). -/
def getMessageByID (id : UUID) (t : MessageTables) : Except StoreErr Message :=
  match t.messages.find? fun m => m.id = id with
  | some m => .ok m
  | none => .error .notFound

/-- `WHERE id = $1 AND deleted_at IS NULL`. -/
def isLive (id : UUID) (m : Message) : Bool := m.id = id && m.deletedAt.isNone

/-- Model of `SoftDeleteMessage` (lines 150–161). -/
def softDeleteMessage (now : Time) (id : UUID) (t : MessageTables) :
    Except StoreErr (Time × MessageTables) :=
  if t.messages.any (isLive id) then
    .ok (now, t.updateMessages (isLive id)
      (fun m => { m with deletedAt := some now, updatedAt := now }) (fun _ => rfl) fun _ => rfl)
  else .error .notFound

/-- Model of `EditMessage` (lines 170–185). -/
def editMessage (now : Time) (id : UUID) (content : String) (t : MessageTables) :
    Except StoreErr (Time × MessageTables) :=
  if t.messages.any (isLive id) then
    .ok (now, t.updateMessages (isLive id)
      (fun m => { m with content, editedAt := some now, updatedAt := now }) (fun _ => rfl)
      fun _ => rfl)
  else .error .notFound

/-- `WHERE message_id = $1 AND user_id = $2 AND emoji = $3`. -/
def isReaction (messageID userID : UUID) (emoji : String) (r : Reaction) : Bool :=
  r.messageID = messageID && r.userID = userID && r.emoji = emoji

/-- Model of `ToggleReaction` (`reactions.go` lines 28–51): whether it was added. The
    message must exist. -/
def toggleReaction (now : Time) (id messageID userID : UUID) (emoji : String) (t : MessageTables) :
    Except StoreErr (Bool × MessageTables) :=
  if t.messages.any fun m => m.id = messageID then
    if t.reactions.any (isReaction messageID userID emoji) then
      .ok (false, { t with
        reactions := t.reactions.filter fun r => !isReaction messageID userID emoji r })
    else .ok (true, { t with reactions := t.reactions ++ [⟨id, messageID, userID, emoji, now⟩] })
  else .error .internal

/-- Model of `MarkMessageRead` (`read_receipts.go` lines 14–25): whether it was read
    before. The message must exist. -/
def markMessageRead (now : Time) (id messageID userID : UUID) (t : MessageTables) :
    Except StoreErr (Bool × MessageTables) :=
  if t.messages.any fun m => m.id = messageID then
    if t.reads.any fun r => r.messageID = messageID && r.userID = userID then .ok (true, t)
    else .ok (false, { t with reads := t.reads ++ [⟨id, messageID, userID, now⟩] })
  else .error .internal

/-- The key of `message_reactions`: `UNIQUE (message_id, user_id, emoji)`. -/
def Reaction.key (r : Reaction) : UUID × UUID × String := (r.messageID, r.userID, r.emoji)

/-- From `t` to `t'` at most rows of the message `id` were added, and the key of
    `message_reactions` is respected. -/
structure RowsOf (id : UUID) (t t' : MessageTables) : Prop where
  message : ∃ m ∈ t.messages, m.id = id
  reads : ∀ r ∈ t'.reads, r ∈ t.reads ∨ r.messageID = id
  reactions : ∀ r ∈ t'.reactions, r ∈ t.reactions ∨ r.messageID = id
  distinct : (t.reactions.map Reaction.key).Nodup → (t'.reactions.map Reaction.key).Nodup

section RowsOf

variable {now : Time} {rowID id userID : UUID} {content emoji : String} {t t' : MessageTables}

theorem message_of_isLive (h : t.messages.any (isLive id) = true) :
    ∃ m ∈ t.messages, m.id = id := by
  obtain ⟨m, hm, hlive⟩ := List.any_eq_true.mp h
  simp only [isLive, Bool.and_eq_true, decide_eq_true_eq] at hlive
  exact ⟨m, hm, hlive.1⟩

theorem rowsOf_edit {editedAt : Time} (h : editMessage now id content t = .ok (editedAt, t')) :
    RowsOf id t t' := by
  unfold editMessage at h
  split_ifs at h with hlive
  cases h
  exact ⟨message_of_isLive hlive, fun _ hr => .inl hr, fun _ hr => .inl hr, fun h => h⟩

theorem rowsOf_delete {deletedAt : Time} (h : softDeleteMessage now id t = .ok (deletedAt, t')) :
    RowsOf id t t' := by
  unfold softDeleteMessage at h
  split_ifs at h with hlive
  cases h
  exact ⟨message_of_isLive hlive, fun _ hr => .inl hr, fun _ hr => .inl hr, fun h => h⟩

theorem rowsOf_read {already : Bool}
    (h : markMessageRead now rowID id userID t = .ok (already, t')) :
    RowsOf id t t' := by
  unfold markMessageRead at h
  split_ifs at h with hmessage hread
  · cases h
    exact ⟨by simpa using hmessage, fun _ hr => .inl hr, fun _ hr => .inl hr, fun h => h⟩
  · cases h
    refine ⟨by simpa using hmessage, fun r hr => ?_, fun _ hr => .inl hr, fun h => h⟩
    rcases List.mem_append.mp hr with hr | hr
    · exact .inl hr
    · rw [List.mem_singleton.mp hr]
      exact .inr rfl

theorem rowsOf_toggle {added : Bool}
    (h : toggleReaction now rowID id userID emoji t = .ok (added, t')) :
    RowsOf id t t' := by
  unfold toggleReaction at h
  split_ifs at h with hmessage hheld
  · cases h
    refine ⟨by simpa using hmessage, fun _ hr => .inl hr,
      fun r hr => .inl (List.mem_filter.mp hr).1, fun h => ?_⟩
    exact h.sublist (List.filter_sublist.map _)
  · cases h
    refine ⟨by simpa using hmessage, fun _ hr => .inl hr, fun r hr => ?_,
      fun h => nodup_map_append_singleton h fun r hr heq => hheld ?_⟩
    · rcases List.mem_append.mp hr with hr | hr
      · exact .inl hr
      · rw [List.mem_singleton.mp hr]
        exact .inr rfl
    · simp only [Reaction.key, Prod.mk.injEq] at heq
      exact List.any_eq_true.mpr ⟨r, hr, by simp [isReaction, heq.1, heq.2.1, heq.2.2]⟩

theorem rowsOf_raced (h : ∀ r ∈ t.reactions, ∃ m ∈ t.messages, m.id = r.messageID)
    (hheld : t.reactions.any (isReaction id userID emoji) = true) : RowsOf id t t := by
  obtain ⟨r, hr, hkey⟩ := List.any_eq_true.mp hheld
  simp only [isReaction, Bool.and_eq_true, decide_eq_true_eq] at hkey
  refine ⟨?_, fun _ hr => .inl hr, fun _ hr => .inl hr, fun h => h⟩
  rw [← hkey.1.1]
  exact h r hr

/-- An update that keeps the rooms, times and ids of messages keeps the entries. -/
theorem entries_updateMessages {p : Message → Bool} {f : Message → Message}
    {hid : ∀ m, (f m).id = m.id} {hauthor : ∀ m, (f m).userID = m.userID} (roomID : UUID)
    (hroom : ∀ m, (f m).roomID = m.roomID) (hentry : ∀ m, messageEntry (f m) = messageEntry m) :
    (t.updateMessages p f hid hauthor).entries roomID = t.entries roomID := by
  show ((updateWhere p f t.messages).filter _).map _ = (t.messages.filter _).map _
  induction t.messages with
  | nil => rfl
  | cons m messages ih =>
    have hm : (if p m then f m else m).roomID = m.roomID ∧
        messageEntry (if p m then f m else m) = messageEntry m := by
      split_ifs
      · exact ⟨hroom m, hentry m⟩
      · exact ⟨rfl, rfl⟩
    rw [updateWhere_cons, List.filter_cons, List.filter_cons, hm.1]
    by_cases hin : m.roomID = roomID
    · rw [if_pos (decide_eq_true hin), if_pos (decide_eq_true hin), List.map_cons,
        List.map_cons, hm.2, ih]
    · rw [if_neg (by simpa using hin), if_neg (by simpa using hin), ih]

theorem entries_edit {editedAt : Time} (roomID : UUID)
    (h : editMessage now id content t = .ok (editedAt, t')) :
    t'.entries roomID = t.entries roomID := by
  unfold editMessage at h
  split_ifs at h
  cases h
  exact entries_updateMessages roomID (fun _ => rfl) fun _ => rfl

theorem entries_delete {deletedAt : Time} (roomID : UUID)
    (h : softDeleteMessage now id t = .ok (deletedAt, t')) :
    t'.entries roomID = t.entries roomID := by
  unfold softDeleteMessage at h
  split_ifs at h
  cases h
  exact entries_updateMessages roomID (fun _ => rfl) fun _ => rfl

theorem entries_read {already : Bool} (roomID : UUID)
    (h : markMessageRead now rowID id userID t = .ok (already, t')) :
    t'.entries roomID = t.entries roomID := by
  unfold markMessageRead at h
  split_ifs at h <;> cases h <;> rfl

theorem entries_toggle {added : Bool} (roomID : UUID)
    (h : toggleReaction now rowID id userID emoji t = .ok (added, t')) :
    t'.entries roomID = t.entries roomID := by
  unfold toggleReaction at h
  split_ifs at h <;> cases h <;> rfl

theorem entries_insert {roomID : UUID} {messageType : MessageType}
    (h : insertMessage now id roomID userID content messageType t = .ok t') :
    t'.entries roomID = t.entries roomID ++ [toLex (now, id)] := by
  obtain ⟨-, hmessages, -, -⟩ := insertMessage_ok h
  rw [MessageTables.entries, hmessages, List.filter_append, List.map_append]
  simp [MessageTables.entries, messageEntry]

end RowsOf

/-! ## The statements of `ListRoomMessages` -/

/-- The second statement of `ListRoomMessages`, for the rows of the first one. -/
def fillReadBy (reads : List ReadReceipt) (rows : List HistoryMessage) : List HistoryMessage :=
  rows.map fun m =>
    { m with readBy := (listReadByForMessages (rows.map (·.id)) reads m.id).getD m.readBy }

/-- The third statement of `ListRoomMessages`. -/
def fillReactions (reactions : List Reaction) (rows : List HistoryMessage) : List HistoryMessage :=
  rows.map fun m =>
    { m with
      reactions := (listReactionsForMessages (rows.map (·.id)) reactions m.id).getD m.reactions }

theorem map_id_fillReadBy (reads : List ReadReceipt) (rows : List HistoryMessage) :
    (fillReadBy reads rows).map (·.id) = rows.map (·.id) := by
  rw [fillReadBy, List.map_map]
  rfl

/-- `ListRoomMessages` when nothing is written in between. -/
theorem listRoomMessages_eq (t : MessageTables) (roomID : UUID) (limit : ℕ) (before : Option Time) :
    listRoomMessages t roomID limit before =
      fillReactions t.reactions (fillReadBy t.reads (queryRoomMessages t roomID limit before)) := by
  rw [fillReactions, map_id_fillReadBy, fillReadBy, List.map_map]
  rfl

theorem foldl_readBy (l : List ReadReceipt) (result : UUID → Option (List UUID)) (id : UUID) :
    ((l.foldl (fun (result : UUID → Option (List UUID)) (row : ReadReceipt) =>
      Function.update result row.messageID
        (some ((result row.messageID).getD [] ++ [row.userID]))) result) id).getD [] =
      (result id).getD [] ++ (l.filter fun row => row.messageID = id).map (·.userID) := by
  rw [foldl_updateKey (·.messageID) fun users (row : ReadReceipt) => users ++ [row.userID],
    List.foldl_append_eq_append, ← List.flatMap_def, List.map_eq_flatMap]

/-- The rows of one message among those of a page. -/
theorem filter_page_perm {ρ : Type*} {r : ρ → ρ → Prop} [DecidableRel r] {key : ρ → UUID}
    {ids : List UUID} {id : UUID} (hid : id ∈ ids) (rows : List ρ) :
    (((rows.filter fun row => ids.contains (key row)).insertionSort r).filter
      fun row => key row = id).Perm (rows.filter fun row => key row = id) := by
  refine ((List.perm_insertionSort r _).filter _).trans ?_
  rw [List.filter_filter]
  refine List.Perm.of_eq (List.filter_congr fun row _ => ?_)
  by_cases hkey : key row = id
  · simp [hkey, hid]
  · simp [hkey]

/-- The readers that a page lists for a message of it. -/
theorem listReadByForMessages_perm {ids : List UUID} {id : UUID} (hid : id ∈ ids)
    (reads : List ReadReceipt) :
    ((listReadByForMessages ids reads id).getD []).Perm
      ((reads.filter fun row => row.messageID = id).map (·.userID)) := by
  rw [listReadByForMessages, foldl_readBy]
  exact (filter_page_perm hid reads).map _

/-- The reactions that a page lists for a message of it are added one by one. -/
theorem listReactionsForMessages_eq {ids : List UUID} {id : UUID} (hid : id ∈ ids)
    (reactions : List Reaction) :
    ∃ rows : List Reaction, rows.Perm (reactions.filter fun row => row.messageID = id) ∧
      (listReactionsForMessages ids reactions id).getD [] =
        rows.foldl (fun groups row => addReaction groups row.userID row.emoji) [] := by
  rw [listReactionsForMessages, foldl_updateKey (·.messageID) fun groups (row : Reaction) =>
    addReaction groups row.userID row.emoji]
  exact ⟨_, filter_page_perm hid reactions, rfl⟩

end ConvoyChat.Store
