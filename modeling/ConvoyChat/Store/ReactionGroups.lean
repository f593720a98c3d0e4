import ConvoyChat.Lib.Grouping
import ConvoyChat.Store.MessageWrites

/-!
# The grouping loop of the reactions

`ListReactionsForMessages` (`internal/store/reactions.go` lines 57–108) scans rows
`(message_id, user_id, emoji)` and keeps, in `positions`, the index at which the summary of a
message and an emoji landed in the slice of that message. The slices grow while rows of other
messages and emojis come in between. An index out of range would panic.

* `Indexed.nextRow`: one row keeps `positions` in step with the slices.
* `groupRows_grouped`: on rows in any order the loop does not panic, and its map groups the rows.
* `groupRows_listed`: the history reads the result of this loop.
-/

namespace ConvoyChat.Store

open ConvoyChat.Lib

/-! ## The loop -/

/-- What is scanned from a row. -/
structure ReactionRow where
  messageID : UUID
  userID : UUID
  emoji : String
deriving DecidableEq, Repr

/-- `emojiKey`. -/
structure EmojiKey where
  messageID : UUID
  emoji : String
deriving DecidableEq, Repr

/-- The maps `result` and `positions`. -/
structure GroupState where
  result : UUID → Option (List MessageReactionSummary)
  positions : EmojiKey → Option ℕ

def GroupState.empty : GroupState := ⟨fun _ => none, fun _ => none⟩

/-- `Count++` and the append to `UserIDs` (lines 93–94). -/
def MessageReactionSummary.addUser (userID : UUID) (g : MessageReactionSummary) :
    MessageReactionSummary :=
  { g with count := g.count + 1, userIDs := g.userIDs ++ [userID] }

/-- One row of the loop (lines 84–103), `none` if it panics. -/
def groupRow (s : GroupState) (row : ReactionRow) : Option GroupState :=
  -- A missing key reads as the nil slice.
  let groups := (s.result row.messageID).getD []
  match s.positions ⟨row.messageID, row.emoji⟩ with
  | some pos =>
    if pos < groups.length then
      some { s with
        result := Function.update s.result row.messageID
          (some (groups.modify pos (·.addUser row.userID))) }
    else none
  | none =>
    let groups := groups ++ [⟨row.emoji, 1, [row.userID]⟩]
    some ⟨Function.update s.result row.messageID (some groups),
      Function.update s.positions ⟨row.messageID, row.emoji⟩ (some (groups.length - 1))⟩

/-- The loop over the rows. -/
def groupRows (rows : List ReactionRow) : Option (UUID → Option (List MessageReactionSummary)) :=
  (rows.foldlM groupRow GroupState.empty).map (·.result)

/-! ## The index map -/

variable {done rows : List ReactionRow} {row : ReactionRow} {s : GroupState} {id : UUID}
  {gs : List MessageReactionSummary}

/-- The emojis and users of the rows of one message. -/
def rowsOf (rows : List ReactionRow) (id : UUID) : List (String × UUID) :=
  (rows.filter fun row => row.messageID = id).map fun row => (row.emoji, row.userID)

/-- The summary of an emoji with these users. -/
def summary (emoji : String) (userIDs : List UUID) : MessageReactionSummary :=
  ⟨emoji, userIDs.length, userIDs⟩

theorem rowsOf_concat_self :
    rowsOf (done ++ [row]) row.messageID = rowsOf done row.messageID ++
      [(row.emoji, row.userID)] := by
  simp [rowsOf]

theorem rowsOf_concat_of_ne (h : id ≠ row.messageID) :
    rowsOf (done ++ [row]) id = rowsOf done id := by
  simp [rowsOf, Ne.symm h]

theorem mem_rowsOf {emoji : String} {userID : UUID} :
    (emoji, userID) ∈ rowsOf rows id ↔ ⟨id, userID, emoji⟩ ∈ rows := by
  simp only [rowsOf, List.mem_map, List.mem_filter, decide_eq_true_eq, Prod.mk.injEq]
  constructor
  · rintro ⟨⟨m, u, e⟩, ⟨hmem, rfl⟩, rfl, rfl⟩
    exact hmem
  · intro hmem
    exact ⟨_, ⟨hmem, rfl⟩, rfl, rfl⟩

theorem rowsOf_nodup (h : rows.Nodup) (id : UUID) : (rowsOf rows id).Nodup := by
  refine (h.filter _).map_on fun a ha b hb heq => ?_
  obtain ⟨m, u, e⟩ := a
  obtain ⟨m', u', e'⟩ := b
  have hm : m = id := of_decide_eq_true (List.mem_filter.mp ha).2
  have hm' : m' = id := of_decide_eq_true (List.mem_filter.mp hb).2
  obtain ⟨rfl, rfl⟩ := Prod.mk.inj heq
  rw [hm, hm']

/-- After the rows `done`, the slice of a message holds the groups of its rows, and `positions`
    the index of each of its emojis among them. -/
structure Indexed (done : List ReactionRow) (s : GroupState) : Prop where
  result : ∀ id, s.result id =
    if rowsOf done id = [] then none else some (groups summary (rowsOf done id))
  positions : ∀ key : EmojiKey,
    s.positions key = (groupKeys (rowsOf done key.messageID)).idxOf? key.emoji

theorem indexed_empty : Indexed [] GroupState.empty where
  result _ := rfl
  positions _ := rfl

theorem Indexed.getD_result (h : Indexed done s) (id : UUID) :
    (s.result id).getD [] = groups summary (rowsOf done id) := by
  rw [h.result]
  split_ifs with hnil
  · rw [hnil]
    rfl
  · rfl

/-- A new row changes the slice and the positions of its own message alone. -/
theorem Indexed.extend (h : Indexed done s) {gs : List MessageReactionSummary}
    {positions : EmojiKey → Option ℕ}
    (hgs : gs = groups summary (rowsOf (done ++ [row]) row.messageID))
    (hself : ∀ emoji, positions ⟨row.messageID, emoji⟩ =
      (groupKeys (rowsOf (done ++ [row]) row.messageID)).idxOf? emoji)
    (hother : ∀ key : EmojiKey, key.messageID ≠ row.messageID → positions key = s.positions key) :
    Indexed (done ++ [row]) ⟨Function.update s.result row.messageID (some gs), positions⟩ where
  result id := by
    dsimp only
    by_cases hid : id = row.messageID
    · subst hid
      have hne : rowsOf (done ++ [row]) row.messageID ≠ [] := by
        rw [rowsOf_concat_self]
        simp
      rw [Function.update_self, if_neg hne, hgs]
    · rw [Function.update_of_ne hid, rowsOf_concat_of_ne hid]
      exact h.result id
  positions key := by
    dsimp only
    by_cases hid : key.messageID = row.messageID
    · rw [hid, ← hself, ← hid]
    · rw [hother key hid, rowsOf_concat_of_ne hid]
      exact h.positions key

/-- One row: no index is out of range, and `positions` follows the slices. -/
theorem Indexed.nextRow (h : Indexed done s) (row : ReactionRow) :
    ∃ s', groupRow s row = some s' ∧ Indexed (done ++ [row]) s' := by
  have hslice := h.getD_result row.messageID
  have hkey := h.positions ⟨row.messageID, row.emoji⟩
  dsimp only at hkey
  unfold groupRow
  dsimp only
  rw [hslice]
  cases hpos : s.positions ⟨row.messageID, row.emoji⟩ with
  | some pos =>
    rw [hpos] at hkey
    obtain ⟨hlt, -, -⟩ := List.idxOf?_eq_some_iff.mp hkey.symm
    have hmem := mem_groupKeys_of_idxOf hkey.symm
    have hrange : pos < (groups summary (rowsOf done row.messageID)).length := by
      rw [groups, List.length_map]
      exact hlt
    dsimp only
    rw [if_pos hrange]
    refine ⟨_, rfl, h.extend ?_ (fun emoji => ?_) fun _ _ => rfl⟩
    · rw [rowsOf_concat_self, groups_concat_of_idxOf (·.addUser row.userID) ?_ hkey.symm]
      simp [summary, MessageReactionSummary.addUser]
    · rw [rowsOf_concat_self, groupKeys_concat_of_mem hmem]
      exact h.positions _
  | none =>
    rw [hpos] at hkey
    have hnew : row.emoji ∉ groupKeys (rowsOf done row.messageID) :=
      List.idxOf?_eq_none_iff.mp hkey.symm
    refine ⟨_, rfl, h.extend ?_ (fun emoji => ?_) fun key hkey => ?_⟩
    · rw [rowsOf_concat_self, groups_concat_of_notMem hnew]
      rfl
    · rw [rowsOf_concat_self, idxOf?_groupKeys_concat hnew]
      by_cases hemoji : emoji = row.emoji
      · rw [if_pos hemoji, hemoji, Function.update_self, groups, List.length_append,
          List.length_map, List.length_singleton, Nat.add_sub_cancel]
      · have hne : (⟨row.messageID, emoji⟩ : EmojiKey) ≠ ⟨row.messageID, row.emoji⟩ := by
          simpa using hemoji
        rw [if_neg hemoji, Function.update_of_ne hne]
        exact h.positions _
    · refine Function.update_of_ne ?_ _ _
      rintro rfl
      exact hkey rfl

/-- The whole loop. -/
theorem Indexed.foldlM (h : Indexed done s) (rows : List ReactionRow) :
    ∃ s', rows.foldlM groupRow s = some s' ∧ Indexed (done ++ rows) s' := by
  induction rows generalizing done s with
  | nil => exact ⟨s, rfl, by rwa [List.append_nil]⟩
  | cons row rows ih =>
    obtain ⟨m, hm, hnext⟩ := h.nextRow row
    obtain ⟨s', hs', hdone⟩ := ih hnext
    refine ⟨s', ?_, ?_⟩
    · rw [List.foldlM_cons, hm]
      exact hs'
    · rwa [List.append_assoc] at hdone

/-- The loop returns the groups of each message that has rows. -/
theorem groupRows_eq (rows : List ReactionRow) :
    groupRows rows = some fun id =>
      if rowsOf rows id = [] then none else some (groups summary (rowsOf rows id)) := by
  obtain ⟨s, hs, hindexed⟩ := indexed_empty.foldlM rows
  rw [groupRows, hs, Option.map_some, funext hindexed.result]
  rfl

/-! ## What the map holds -/

/-- The rows that a map stands for. -/
def flattened (result : UUID → Option (List MessageReactionSummary)) : Set ReactionRow :=
  {row | ∃ gs, result row.messageID = some gs ∧ ∃ g ∈ gs, g.emoji = row.emoji ∧
    row.userID ∈ g.userIDs}

/-- The slice `gs` groups the rows of the message `id`. -/
structure Summarises (rows : List ReactionRow) (id : UUID) (gs : List MessageReactionSummary) :
    Prop where
  distinct : (gs.map (·.emoji)).Nodup
  emojis : ∀ emoji, emoji ∈ gs.map (·.emoji) ↔ ∃ row ∈ rows, row.messageID = id ∧ row.emoji = emoji
  /-- The summaries stand in the order of the first rows of their emojis. -/
  order : gs.Pairwise fun g g' =>
    ((rows.filter fun row => row.messageID = id).map (·.emoji)).idxOf g.emoji <
      ((rows.filter fun row => row.messageID = id).map (·.emoji)).idxOf g'.emoji
  users : ∀ g ∈ gs, g.userIDs =
    (rows.filter fun row => row.messageID = id ∧ row.emoji = g.emoji).map (·.userID)
  once : ∀ g ∈ gs, g.userIDs.Nodup
  count : ∀ g ∈ gs, g.count = g.userIDs.length

theorem map_fst_rowsOf (rows : List ReactionRow) (id : UUID) :
    (rowsOf rows id).map (·.1) = (rows.filter fun row => row.messageID = id).map (·.emoji) := by
  rw [rowsOf, List.map_map]
  rfl

theorem valuesAt_rowsOf (rows : List ReactionRow) (id : UUID) (emoji : String) :
    valuesAt (rowsOf rows id) emoji =
      (rows.filter fun row => row.messageID = id ∧ row.emoji = emoji).map (·.userID) := by
  rw [valuesAt, rowsOf, List.filter_map, List.map_map, List.filter_filter]
  congr 1
  refine List.filter_congr fun row _ => ?_
  simp [Bool.and_comm]

theorem map_emoji_groups (l : List (String × UUID)) :
    (groups summary l).map (·.emoji) = groupKeys l := by
  rw [groups, List.map_map]
  exact List.map_id _

theorem mem_groups_summary {l : List (String × UUID)} {emoji : String} {userID : UUID} :
    (∃ g ∈ groups summary l, g.emoji = emoji ∧ userID ∈ g.userIDs) ↔ (emoji, userID) ∈ l := by
  constructor
  · rintro ⟨g, hg, rfl, huser⟩
    obtain ⟨emoji, -, rfl⟩ := List.mem_map.mp hg
    exact mem_valuesAt.mp huser
  · intro hmem
    exact ⟨_, List.mem_map_of_mem (mem_groupKeys.mpr ⟨userID, hmem⟩), rfl, mem_valuesAt.mpr hmem⟩

theorem rowsOf_eq_nil : rowsOf rows id = [] ↔ ∀ row ∈ rows, row.messageID ≠ id := by
  rw [rowsOf, List.map_eq_nil_iff, List.filter_eq_nil_iff]
  simp

theorem summarises_groups (h : rows.Nodup) (id : UUID) :
    Summarises rows id (groups summary (rowsOf rows id)) where
  distinct := by
    rw [map_emoji_groups]
    exact groupKeys_nodup _
  emojis emoji := by
    rw [map_emoji_groups, mem_groupKeys]
    constructor
    · rintro ⟨userID, hmem⟩
      exact ⟨_, mem_rowsOf.mp hmem, rfl, rfl⟩
    · rintro ⟨row, hmem, rfl, rfl⟩
      exact ⟨row.userID, mem_rowsOf.mpr hmem⟩
  order := by
    rw [groups, List.pairwise_map, ← map_fst_rowsOf]
    exact groupKeys_pairwise _
  users g hg := by
    obtain ⟨emoji, -, rfl⟩ := List.mem_map.mp hg
    exact valuesAt_rowsOf rows id emoji
  once g hg := by
    obtain ⟨emoji, -, rfl⟩ := List.mem_map.mp hg
    exact valuesAt_nodup (rowsOf_nodup h id) emoji
  count g hg := by
    obtain ⟨emoji, -, rfl⟩ := List.mem_map.mp hg
    rfl

/-- `result` groups `rows`. -/
structure Grouped (rows : List ReactionRow) (result : UUID → Option (List MessageReactionSummary)) :
    Prop where
  absent : ∀ id, result id = none ↔ ∀ row ∈ rows, row.messageID ≠ id
  slices : ∀ id gs, result id = some gs → Summarises rows id gs
  flattened : flattened result = {row | row ∈ rows}

theorem mem_flattened {result : UUID → Option (List MessageReactionSummary)}
    (h : ∀ id, result id =
      if rowsOf rows id = [] then none else some (groups summary (rowsOf rows id)))
    (row : ReactionRow) : row ∈ flattened result ↔ row ∈ rows := by
  have hrow : (row.emoji, row.userID) ∈ rowsOf rows row.messageID ↔ row ∈ rows := mem_rowsOf
  rw [← hrow, ← mem_groups_summary]
  show (∃ gs, result row.messageID = some gs ∧ _) ↔ _
  rw [h]
  constructor
  · rintro ⟨gs, hgs, hmem⟩
    split_ifs at hgs
    cases hgs
    exact hmem
  · intro hmem
    have hne : rowsOf rows row.messageID ≠ [] := List.ne_nil_of_mem (mem_groups_summary.mp hmem)
    exact ⟨_, if_neg hne, hmem⟩

/-- The loop does not panic, and its map groups the rows. -/
theorem groupRows_grouped (rows : List ReactionRow) (h : rows.Nodup) :
    ∃ result, groupRows rows = some result ∧ Grouped rows result := by
  refine ⟨_, groupRows_eq rows, fun id => ?_, fun id gs hgs => ?_, ?_⟩
  · rw [← rowsOf_eq_nil]
    simp
  · split_ifs at hgs
    cases hgs
    exact summarises_groups h id
  · exact Set.ext (mem_flattened fun _ => rfl)

/-- Two messages and two emojis, whose rows come in turns. -/
def interleaved : List ReactionRow :=
  [⟨1, 10, "👍"⟩, ⟨2, 10, "🎉"⟩, ⟨1, 11, "🎉"⟩, ⟨1, 11, "👍"⟩, ⟨2, 11, "🎉"⟩, ⟨1, 10, "🎉"⟩]

theorem groupRows_interleaved :
    ((groupRows interleaved).map fun result => (result 1, result 2, result 3)) =
        some (some [⟨"👍", 2, [10, 11]⟩, ⟨"🎉", 2, [11, 10]⟩], some [⟨"🎉", 2, [10, 11]⟩], none) ∧
      ∃ result, groupRows interleaved = some result ∧ Grouped interleaved result :=
  ⟨rfl, groupRows_grouped interleaved (by decide)⟩

/-! ## The history -/

def Reaction.scan (r : Reaction) : ReactionRow := ⟨r.messageID, r.userID, r.emoji⟩

/-- The query of `ListReactionsForMessages` (lines 63–67). -/
def queryReactions (messageIDs : List UUID) (reactions : List Reaction) : List Reaction :=
  (reactions.filter fun row => messageIDs.contains row.messageID).insertionSort fun a b =>
    toLex (a.messageID, a.createdAt) ≤ toLex (b.messageID, b.createdAt)

/-- The index that `positions` holds is where the emoji is found. -/
theorem Indexed.positions_eq (h : Indexed done s) (id : UUID) (emoji : String) :
    s.positions ⟨id, emoji⟩ = ((s.result id).getD []).findIdx? fun g => g.emoji = emoji := by
  rw [h.positions, h.getD_result, groups, List.findIdx?_map]
  rfl

theorem Indexed.groupRow_result (h : Indexed done s) (row : ReactionRow) :
    (groupRow s row).map (·.result) = some (Function.update s.result row.messageID
      (some (addReaction ((s.result row.messageID).getD []) row.userID row.emoji))) := by
  have hpos := h.positions_eq row.messageID row.emoji
  unfold groupRow addReaction
  dsimp only
  rw [← hpos]
  cases hidx : s.positions ⟨row.messageID, row.emoji⟩ with
  | some pos =>
    rw [hidx] at hpos
    have hlt := (List.findIdx?_eq_some_iff_getElem.mp hpos.symm).1
    dsimp only
    rw [if_pos hlt]
    rfl
  | none => rfl

theorem Indexed.foldlM_result (h : Indexed done s) (l : List Reaction) :
    ((l.map Reaction.scan).foldlM groupRow s).map (·.result) =
      some (l.foldl (fun (result : UUID → Option (List MessageReactionSummary)) row =>
        Function.update result row.messageID (some (addReaction ((result row.messageID).getD [])
          row.userID row.emoji))) s.result) := by
  induction l generalizing done s with
  | nil => rfl
  | cons r l ih =>
    obtain ⟨m, hm, hnext⟩ := h.nextRow r.scan
    have hresult := h.groupRow_result r.scan
    rw [hm, Option.map_some, Option.some.injEq] at hresult
    rw [List.map_cons, List.foldlM_cons, hm, List.foldl_cons]
    show ((l.map Reaction.scan).foldlM groupRow m).map (·.result) = _
    rw [ih hnext, hresult]
    rfl

/-- `ListReactionsForMessages`, as the history reads it, is the loop over its query. -/
theorem groupRows_listed (messageIDs : List UUID) (reactions : List Reaction) :
    groupRows ((queryReactions messageIDs reactions).map Reaction.scan) =
      some (listReactionsForMessages messageIDs reactions) :=
  indexed_empty.foldlM_result _

end ConvoyChat.Store
