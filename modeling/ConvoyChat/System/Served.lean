import ConvoyChat.System.RoomSync

/-!
# What the server stores of a message

What the tables say a message should show (`stored`), what each write of a room does
to it, and what the rows of a page show of it after each statement of
`ListRoomMessages`.

* `wrote_edit`, `wrote_delete`, `wrote_read`, `wrote_toggle`: a write performs, on what
  is stored of its message, the change that its event reports, and nothing else.
* `served_list`, `served_readBy`, `served_reactions`: a page shows what is stored when
  the statement is executed.
-/

namespace ConvoyChat.System

open ConvoyChat.Lib ConvoyChat.Store ConvoyChat.Frontend

variable (w : Wire)

/-- What a client should show of the row `m` of `messages`. -/
def stored (t : MessageTables) (m : Message) : Shown where
  body := ⟨if m.deletedAt.isNone then some m.content else none, m.editedAt.map w.timeText,
    m.deletedAt.map w.timeText⟩
  readBy userId := t.reads.any fun r => r.messageID = m.id && w.uuidText r.userID = userId
  reacted userId emoji := t.reactions.any fun r =>
    r.messageID = m.id && w.uuidText r.userID = userId && r.emoji = emoji

/-- From `t` to `t'`, the change `c` of message `id` was written. -/
def Wrote (t t' : MessageTables) (id : UUID) (c : Change) : Prop :=
  ∃ f : Message → Message, t'.messages = t.messages.map f ∧ ∀ m ∈ t.messages, (f m).id = m.id ∧
    stored w t' (f m) = if m.id = id then (stored w t m).change c else stored w t m

variable {w} {t t' : MessageTables} {now : Time} {rowID id userID : UUID} {content emoji : String}

/-! ## Writes -/

/-- An update of the live row of a message. -/
theorem wrote_live {f : Message → Message} {hid : ∀ m, (f m).id = m.id}
    {hauthor : ∀ m, (f m).userID = m.userID} {c : Change} (hlive : t.messages.any (isLive id))
    (hbody : ∀ m, m.deletedAt = none → (stored w t (f m)).body = (stored w t m).body.change c)
    (hread : ∀ u b, c.read u b = b) (hreact : ∀ u e b, c.react u e b = b) :
    Wrote w t (t.updateMessages (isLive id) f hid hauthor) id c := by
  have hsame : ∀ m, (stored w t m).readBy = ((stored w t m).change c).readBy ∧
      (stored w t m).reacted = ((stored w t m).change c).reacted := fun m =>
    ⟨funext fun u => (hread u _).symm, funext fun u => funext fun e => (hreact u e _).symm⟩
  refine ⟨fun m => if isLive id m then f m else m, rfl, fun m hm => ?_⟩
  dsimp only
  refine ⟨?_, ?_⟩
  · split_ifs
    · exact hid m
    · rfl
  · obtain ⟨live, hlive, hlives⟩ := List.any_eq_true.mp hlive
    obtain ⟨hlid, hldel⟩ : live.id = id ∧ live.deletedAt = none := by simpa [isLive] using hlives
    by_cases hmid : m.id = id
    · -- the live row is the only one with this id
      obtain rfl : m = live :=
        List.inj_on_of_nodup_map t.message_id hm hlive (hmid.trans hlid.symm)
      rw [if_pos hlives, if_pos hmid]
      have hreads : (stored w t (f m)).readBy = (stored w t m).readBy := by
        simp only [stored, hid]
      have hreacts : (stored w t (f m)).reacted = (stored w t m).reacted := by
        simp only [stored, hid]
      refine agree_three ⟨fun _ => hbody m hldel, fun _ => ?_, fun _ => ?_⟩
      · exact hreads.trans (hsame m).1
      · exact hreacts.trans (hsame m).2
    · rw [if_neg (by simp [isLive, hmid]), if_neg hmid]
      rfl

theorem wrote_edit {editedAt : Time} (h : editMessage now id content t = .ok (editedAt, t')) :
    Wrote w t t' id (.edited content (w.timeText editedAt)) := by
  unfold editMessage at h
  split_ifs at h with hlive
  cases h
  refine wrote_live hlive (fun m hdel => ?_) (fun _ _ => rfl) fun _ _ _ => rfl
  simp [stored, Body.change, hdel, isFalsy]

theorem wrote_delete {deletedAt : Time} (h : softDeleteMessage now id t = .ok (deletedAt, t')) :
    Wrote w t t' id (.deleted (w.timeText deletedAt)) := by
  unfold softDeleteMessage at h
  split_ifs at h with hlive
  cases h
  refine wrote_live hlive (fun m hdel => ?_) (fun _ _ => rfl) fun _ _ _ => rfl
  simp [stored, Body.change, hdel, isFalsy]

/-- A write to the readers and reactions of a message. -/
theorem wrote_rows {reads : List ReadReceipt} {reactions : List Reaction} {c : Change}
    (hbody : ∀ b : Body, b.change c = b)
    (hread : ∀ m ∈ t.messages, ∀ u, (stored w { t with reads, reactions } m).readBy u =
      if m.id = id then c.read u ((stored w t m).readBy u) else (stored w t m).readBy u)
    (hreact : ∀ m ∈ t.messages, ∀ u e, (stored w { t with reads, reactions } m).reacted u e =
      if m.id = id then c.react u e ((stored w t m).reacted u e) else (stored w t m).reacted u e) :
    Wrote w t { t with reads, reactions } id c := by
  refine ⟨fun m => m, (List.map_id _).symm, fun m hm => ⟨rfl, ?_⟩⟩
  refine agree_three ⟨fun _ => ?_, fun _ => ?_, fun _ => ?_⟩
  · split_ifs
    · exact (hbody _).symm
    · rfl
  · funext u
    rw [hread m hm]
    split_ifs <;> rfl
  · funext u e
    rw [hreact m hm]
    split_ifs <;> rfl

theorem wrote_read (h : markMessageRead now rowID id userID t = .ok (false, t')) :
    Wrote w t t' id (.readBy (w.uuidText userID)) := by
  unfold markMessageRead at h
  split_ifs at h with hmessage hread
  · cases h
  cases h
  refine wrote_rows (fun _ => rfl) (fun m _ u => ?_) fun m _ u e => ?_
  · by_cases hid : m.id = id
    · simp [stored, Change.read, hid]
    · simp [stored, hid, Ne.symm hid]
  · split_ifs <;> rfl

theorem wrote_toggle {added : Bool}
    (h : toggleReaction now rowID id userID emoji t = .ok (added, t')) :
    Wrote w t t' id (.reaction (w.uuidText userID) emoji (if added then .added else .removed)) := by
  unfold toggleReaction at h
  split_ifs at h with hmessage hheld
  · -- the reaction is removed
    cases h
    refine wrote_rows (fun _ => rfl) (fun m _ u => ?_) fun m _ u e => ?_
    · split_ifs <;> rfl
    · simp only [stored, List.any_filter]
      by_cases hid : m.id = id
      · rw [if_pos hid]
        by_cases hue : w.uuidText userID = u ∧ emoji = e
        · obtain ⟨rfl, rfl⟩ := hue
          simp only [Change.react, and_self, if_true, Bool.false_eq_true, if_false]
          refine List.any_eq_false.mpr fun r _ => ?_
          simp [isReaction, hid, w.uuid_inj.eq_iff]
          tauto
        · simp only [Change.react, if_neg hue]
          refine List.any_congr rfl fun r => ?_
          rw [Bool.eq_iff_iff]
          simp only [isReaction, Bool.and_eq_true, Bool.not_eq_true', decide_eq_true_eq,
            Bool.and_eq_false_iff, decide_eq_false_iff_not]
          constructor
          · exact fun h => h.2
          · rintro ⟨⟨h₁, h₂⟩, h₃⟩
            refine ⟨?_, ⟨h₁, h₂⟩, h₃⟩
            by_contra hcon
            push Not at hcon
            exact hue ⟨by rw [← hcon.1.2, h₂], by rw [← hcon.2, h₃]⟩
      · rw [if_neg hid]
        refine List.any_congr rfl fun r => ?_
        by_cases hr : r.messageID = m.id
        · simp [isReaction, hr, hid]
        · simp [hr]
  · -- it is added
    cases h
    refine wrote_rows (fun _ => rfl) (fun m _ u => ?_) fun m _ u e => ?_
    · split_ifs <;> rfl
    · simp only [stored, List.any_append]
      by_cases hid : m.id = id
      · by_cases hue : w.uuidText userID = u ∧ emoji = e
        · simp [Change.react, hid, hue]
        · have hno : (decide (w.uuidText userID = u) && decide (emoji = e)) = false := by
            simpa using hue
          simp [Change.react, hid, hue, hno]
      · simp [hid, Ne.symm hid]

/-- A reaction that is stored already. -/
theorem wrote_raced (h : t.reactions.any (isReaction id userID emoji) = true) :
    Wrote w t t id (.reaction (w.uuidText userID) emoji .added) := by
  show Wrote w t { t with reads := t.reads, reactions := t.reactions } id _
  refine wrote_rows (fun _ => rfl) (fun m _ u => ?_) fun m _ u e => ?_
  · split_ifs <;> rfl
  · by_cases hid : m.id = id
    · rw [if_pos hid]
      by_cases hue : w.uuidText userID = u ∧ emoji = e
      · obtain ⟨rfl, rfl⟩ := hue
        simp only [Change.react, and_self, if_true, decide_true]
        obtain ⟨r, hr, hrs⟩ := List.any_eq_true.mp h
        refine List.any_eq_true.mpr ⟨r, hr, ?_⟩
        simp only [isReaction, Bool.and_eq_true, decide_eq_true_eq] at hrs
        simp [hrs.1.1, hrs.1.2, hrs.2, hid]
      · simp only [Change.react, if_neg hue]
    · rw [if_neg hid]

/-! ## Pages -/

variable {groups : List MessageReactionSummary}

/-- The reaction of a user who has not reacted so yet is added by the server as the
    client adds it. -/
theorem map_group_addReaction
    (hnew : hasReacted (groups.map w.group) (w.uuidText userID) emoji = false) :
    (addReaction groups userID emoji).map w.group =
      react (groups.map w.group) (w.uuidText userID) emoji .added := by
  have hfind : (groups.map w.group).findIdx? (fun g => g.emoji = emoji) =
      groups.findIdx? fun g => g.emoji = emoji := by
    rw [List.findIdx?_map]
    rfl
  rcases findIdx?_emoji (groups.map w.group) emoji with ⟨hidx, -⟩ | ⟨a, g, b, hsplit, hg, -, hidx⟩
  · simp only [addReaction, react, hidx, ← hfind]
    simp [Wire.group]
  · have hmem : g.userIds.contains (w.uuidText userID) = false := by
      rw [hsplit, hasReacted_append, hasReacted_cons] at hnew
      simpa [hg] using (Bool.or_eq_false_iff.mp (Bool.or_eq_false_iff.mp hnew).2).1
    obtain ⟨a', rest, rfl, rfl, hrest⟩ := List.map_eq_append_iff.mp hsplit
    obtain ⟨g', b', rfl, rfl, rfl⟩ := List.map_eq_cons_iff.mp hrest
    simp only [addReaction, react, ← hfind, hidx]
    rw [hsplit]
    have hget : (((a'.map w.group) ++ w.group g' :: b'.map w.group)[(a'.map w.group).length]?.map
        (·.userIds)).getD [] = (w.group g').userIds := by simp
    rw [hget, if_neg (by simpa using hmem), modify_append_length, List.length_map,
      modify_append_length]
    simp [Wire.group]

theorem foldl_addReaction {rows : List Reaction} (hok : GroupsOk (groups.map w.group))
    (hnodup : (rows.map fun r => (r.userID, r.emoji)).Nodup)
    (hnew : ∀ r ∈ rows, hasReacted (groups.map w.group) (w.uuidText r.userID) r.emoji = false) :
    GroupsOk ((rows.foldl (fun groups row => addReaction groups row.userID row.emoji) groups).map
        w.group) ∧
      ∀ u e, hasReacted ((rows.foldl (fun groups row => addReaction groups row.userID row.emoji)
          groups).map w.group) u e =
        (hasReacted (groups.map w.group) u e ||
          rows.any fun r => w.uuidText r.userID = u && r.emoji = e) := by
  induction rows generalizing groups with
  | nil => exact ⟨hok, fun u e => by simp⟩
  | cons row rows ih =>
    rw [List.map_cons, List.nodup_cons] at hnodup
    have hadd := map_group_addReaction (hnew row List.mem_cons_self)
    obtain ⟨hok', hreact⟩ := react_spec hok (w.uuidText row.userID) row.emoji .added
    rw [← hadd] at hok' hreact
    have hnew' : ∀ r ∈ rows, hasReacted ((addReaction groups row.userID row.emoji).map w.group)
        (w.uuidText r.userID) r.emoji = false := by
      intro r hr
      rw [hreact, Change.react, if_neg]
      · exact hnew r (List.mem_cons_of_mem _ hr)
      · rintro ⟨huser, hemoji⟩
        refine hnodup.1 (List.mem_map.mpr ⟨r, hr, ?_⟩)
        rw [← hemoji, w.uuid_inj huser]
    obtain ⟨hgroups, hhas⟩ := ih hok' hnodup.2 hnew'
    refine ⟨hgroups, fun u e => ?_⟩
    rw [List.foldl_cons, hhas, hreact, List.any_cons]
    by_cases hue : w.uuidText row.userID = u ∧ row.emoji = e
    · simp [Change.react, hue]
    · have hno : (decide (w.uuidText row.userID = u) && decide (row.emoji = e)) = false := by
        simpa using hue
      simp [Change.react, hue, hno]

/-- The rows of the first statement. -/
theorem served_list {roomID : UUID} {limit : ℕ} {before : Option Time} {row : HistoryMessage}
    (h : row ∈ queryRoomMessages t roomID limit before) :
    ∃ m ∈ t.messages, m.id = row.id ∧ (shown (w.message row)).Agree 1 (stored w t m) ∧
      row.readBy = [] ∧ row.reactions = [] := by
  obtain ⟨m, hm, -, user, rfl⟩ := mem_queryRoomMessages h
  refine ⟨m, hm, rfl, ⟨fun _ => rfl, ?_, ?_⟩, rfl, rfl⟩
  · intro hk
    omega
  · intro hk
    omega

/-- The readers that the second statement adds. -/
theorem served_readBy {rows : List HistoryMessage} {row' : HistoryMessage}
    (h : row' ∈ fillReadBy t.reads rows) :
    ∃ row ∈ rows, row' = { row with readBy := row'.readBy } ∧ (row.readBy = [] → ∀ m : Message,
      m.id = row.id → (shown (w.message row')).readBy = (stored w t m).readBy) := by
  obtain ⟨row, hrow, rfl⟩ := List.mem_map.mp h
  refine ⟨row, hrow, rfl, fun hnil m hid => ?_⟩
  have hperm := listReadByForMessages_perm (List.mem_map_of_mem (f := (·.id)) hrow) t.reads
  funext u
  simp only [shown, Wire.message, stored, hnil, hid]
  rw [Bool.eq_iff_iff, List.contains_iff_mem, (hperm.map w.uuidText).mem_iff, List.any_eq_true]
  simp only [List.mem_map, List.mem_filter, decide_eq_true_eq, Bool.and_eq_true]
  constructor
  · rintro ⟨userID, ⟨r, ⟨hr, hrid⟩, rfl⟩, rfl⟩
    exact ⟨r, hr, hrid, rfl⟩
  · rintro ⟨r, hr, hrid, rfl⟩
    exact ⟨r.userID, ⟨r, ⟨hr, hrid⟩, rfl⟩, rfl⟩

/-- `ListReactionsForMessages` groups the reactions that are stored. -/
theorem listed_reactions (hdistinct : (t.reactions.map Reaction.key).Nodup) {ids : List UUID}
    (hid : id ∈ ids) :
    GroupsOk (((listReactionsForMessages ids t.reactions id).getD []).map w.group) ∧
      ∀ u e, hasReacted (((listReactionsForMessages ids t.reactions id).getD []).map w.group) u e =
        t.reactions.any fun r => r.messageID = id && w.uuidText r.userID = u && r.emoji = e := by
  obtain ⟨rs, hperm, heq⟩ := listReactionsForMessages_eq hid t.reactions
  have hnodup : (rs.map fun r => (r.userID, r.emoji)).Nodup := by
    rw [(hperm.map _).nodup_iff]
    refine List.Nodup.map_on ?_ ((List.Nodup.of_map _ hdistinct).filter _)
    intro a ha b hb hab
    obtain ⟨ha, haid⟩ := List.mem_filter.mp ha
    obtain ⟨hb, hbid⟩ := List.mem_filter.mp hb
    refine List.inj_on_of_nodup_map hdistinct ha hb ?_
    rw [Prod.mk.injEq] at hab
    simp only [decide_eq_true_eq] at haid hbid
    rw [Reaction.key, Reaction.key, haid, hbid, hab.1, hab.2]
  have hstart : GroupsOk (([] : List MessageReactionSummary).map w.group) :=
    ⟨List.nodup_nil, by simp, by simp⟩
  obtain ⟨hgroups, hhas⟩ := foldl_addReaction hstart hnodup fun _ _ => rfl
  rw [← heq] at hgroups hhas
  refine ⟨hgroups, fun u e => (hhas u e).trans ?_⟩
  show rs.any _ = _
  rw [Bool.eq_iff_iff, List.any_eq_true, List.any_eq_true]
  simp only [hperm.mem_iff, List.mem_filter, decide_eq_true_eq, Bool.and_eq_true, and_assoc]

/-- The reactions that the third statement adds. -/
theorem served_reactions
    (hdistinct : (t.reactions.map Reaction.key).Nodup)
    {rows : List HistoryMessage} {row' : HistoryMessage}
      (h : row' ∈ fillReactions t.reactions rows) :
    ∃ row ∈ rows, row' = { row with reactions := row'.reactions } ∧ (row.reactions = [] →
      GroupsOk (w.message row').reactions ∧ ∀ m : Message, m.id = row.id →
        (shown (w.message row')).reacted = (stored w t m).reacted) := by
  obtain ⟨row, hrow, rfl⟩ := List.mem_map.mp h
  refine ⟨row, hrow, rfl, fun hnil => ?_⟩
  obtain ⟨hgroups, hhas⟩ :=
    listed_reactions (w := w) hdistinct (List.mem_map_of_mem (f := (·.id)) hrow)
  simp only [hnil]
  refine ⟨hgroups, fun m hid => ?_⟩
  funext u e
  refine (hhas u e).trans ?_
  rw [← hid]
  rfl

end ConvoyChat.System
