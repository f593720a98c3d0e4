import ConvoyChat.Frontend.Shown

/-!
# Laws of the in-place patches

Live events, optimistic updates and timeouts apply the six patches of
`frontend/lib/messagesCache.ts` (lines 149–301) to every loaded cache, repeatedly and in any
order.

* `patch_frame`: a patch changes its own fields of its target.
* `patch_idempotent`, `patch_comm_of_target`, `patch_comm_of_kind`: repeating and
  reordering.
* `patches_content`: a deleted message keeps its content.
* `patch_laws`: the same for whole caches.
-/

namespace ConvoyChat.Frontend

/-! ## The operations -/

/-- A call of one of the six patches, with its arguments. -/
inductive CacheOp
  | markFailed (clientId : String)
  | markSending (clientId : String)
  | markDeleted (messageId deletedAt : String)
  | applyEdit (messageId content editedAt : String)
  | addReadReceipt (messageId userId : String)
  | applyReaction (messageId userId emoji : String) (action : ReactionAction)
deriving DecidableEq, Repr

inductive OpKind
  | markFailed
  | markSending
  | markDeleted
  | applyEdit
  | addReadReceipt
  | applyReaction
deriving DecidableEq, Repr

namespace CacheOp

def kind : CacheOp → OpKind
  | .markFailed _ => .markFailed
  | .markSending _ => .markSending
  | .markDeleted _ _ => .markDeleted
  | .applyEdit _ _ _ => .applyEdit
  | .addReadReceipt _ _ => .addReadReceipt
  | .applyReaction _ _ _ _ => .applyReaction

/-- The id of the messages that are patched. -/
def target : CacheOp → String
  | .markFailed clientId => clientId
  | .markSending clientId => clientId
  | .markDeleted messageId _ => messageId
  | .applyEdit messageId _ _ => messageId
  | .addReadReceipt messageId _ => messageId
  | .applyReaction messageId _ _ _ => messageId

def run (data : Option MessagesData) : CacheOp → Option MessagesData
  | .markFailed clientId => Frontend.markFailed data clientId
  | .markSending clientId => Frontend.markSending data clientId
  | .markDeleted messageId deletedAt => Frontend.markDeleted data messageId deletedAt
  | .applyEdit messageId content editedAt => Frontend.applyEdit data messageId content editedAt
  | .addReadReceipt messageId userId => Frontend.addReadReceipt data messageId userId
  | .applyReaction messageId userId emoji action =>
    Frontend.applyReaction data messageId userId emoji action

/-- What an operation does to one message. -/
def patch : CacheOp → ChatMessage → ChatMessage
  | .markFailed clientId, m =>
    if m.id = clientId && m.status = some .sending then { m with status := some .failed } else m
  | .markSending clientId, m =>
    if m.id = clientId && m.status = some .failed then { m with status := some .sending } else m
  | .markDeleted messageId deletedAt, m => maskDeleted messageId deletedAt m
  | .applyEdit messageId content editedAt, m => patchEdit messageId content editedAt m
  | .addReadReceipt messageId userId, m => patchReadBy messageId userId m
  | .applyReaction messageId userId emoji action, m => patchReaction messageId userId emoji action m

/-- `m` with the fields of the operation as they are in `m'`. -/
def withOwn : CacheOp → ChatMessage → ChatMessage → ChatMessage
  | .markFailed _, m, m' => { m with status := m'.status }
  | .markSending _, m, m' => { m with status := m'.status }
  | .markDeleted _ _, m, m' => { m with content := m'.content, deletedAt := m'.deletedAt }
  | .applyEdit _ _ _, m, m' => { m with content := m'.content, editedAt := m'.editedAt }
  | .addReadReceipt _ _, m, m' => { m with readBy := m'.readBy }
  | .applyReaction _ _ _ _, m, m' => { m with reactions := m'.reactions }

theorem run_eq (op : CacheOp) (data : Option MessagesData) :
    op.run data = patchMessages op.patch data := by
  cases op <;> rfl

end CacheOp

def ChatMessage.setReadBy (m : ChatMessage) (readBy : List String) : ChatMessage :=
  { m with readBy }

def ChatMessage.setReactions (m : ChatMessage) (reactions : List ReactionGroup) : ChatMessage :=
  { m with reactions }

/-- The operations one after another. -/
def runs (ops : List CacheOp) (data : Option MessagesData) : Option MessagesData :=
  ops.foldl (fun data op => op.run data) data

/-- The same for one message. -/
def patches (ops : List CacheOp) (m : ChatMessage) : ChatMessage :=
  ops.foldl (fun m op => op.patch m) m

/-! ## One message -/

section

variable (op a b : CacheOp) (m : ChatMessage)

theorem patch_frame : op.patch m = op.withOwn m (op.patch m) := by
  cases op <;>
    simp only [CacheOp.patch, CacheOp.withOwn, maskDeleted, patchEdit, patchReadBy,
      patchReaction] <;>
    split_ifs <;> rfl

theorem op_patch_id : (op.patch m).id = m.id := by
  rw [patch_frame]
  cases op <;> rfl

theorem patch_of_ne (h : m.id ≠ op.target) : op.patch m = m := by
  cases op with
  | applyReaction messageId userId emoji action => exact if_pos h
  | _ =>
    have hid : m.id ≠ _ := h
    simp only [CacheOp.target] at hid
    simp [CacheOp.patch, maskDeleted, patchEdit, patchReadBy, hid]

/-- Patches of different messages. -/
theorem patch_comm_of_target (h : a.target ≠ b.target) :
    a.patch (b.patch m) = b.patch (a.patch m) := by
  by_cases ha : m.id = a.target
  · have hb : m.id ≠ b.target := fun hb => h (ha.symm.trans hb)
    have hb' : (a.patch m).id ≠ b.target := by
      rw [op_patch_id]
      exact hb
    rw [patch_of_ne b m hb, patch_of_ne b _ hb']
  · have ha' : (b.patch m).id ≠ a.target := by
      rw [op_patch_id]
      exact ha
    rw [patch_of_ne a m ha, patch_of_ne a _ ha']

/-- An operation that is not a read receipt does not look at the readers. -/
theorem patch_setReadBy (h : op.kind ≠ .addReadReceipt) (readBy : List String) :
    op.patch (m.setReadBy readBy) = (op.patch m).setReadBy readBy := by
  cases op with
  | addReadReceipt messageId userId => exact absurd rfl h
  | _ =>
    simp only [CacheOp.patch, maskDeleted, patchEdit, patchReaction]
    rw [apply_ite fun x : ChatMessage => x.setReadBy readBy]
    rfl

theorem patch_readBy (h : op.kind ≠ .addReadReceipt) : (op.patch m).readBy = m.readBy := by
  have hset : op.patch m = (op.patch m).setReadBy m.readBy := patch_setReadBy op m h m.readBy
  rw [hset]
  rfl

/-- An operation that is not a reaction does not look at the reactions. -/
theorem patch_setReactions (h : op.kind ≠ .applyReaction) (reactions : List ReactionGroup) :
    op.patch (m.setReactions reactions) = (op.patch m).setReactions reactions := by
  cases op with
  | applyReaction messageId userId emoji action => exact absurd rfl h
  | _ =>
    simp only [CacheOp.patch, maskDeleted, patchEdit, patchReadBy]
    rw [apply_ite fun x : ChatMessage => x.setReactions reactions]
    rfl

theorem patch_reactions (h : op.kind ≠ .applyReaction) : (op.patch m).reactions = m.reactions := by
  have hset : op.patch m = (op.patch m).setReactions m.reactions :=
    patch_setReactions op m h m.reactions
  rw [hset]
  rfl

/-- Read receipts and reactions commute with every operation of another kind. -/
theorem patch_comm_of_kind (ha : a.kind = .addReadReceipt ∨ a.kind = .applyReaction)
    (hkind : a.kind ≠ b.kind) : a.patch (b.patch m) = b.patch (a.patch m) := by
  have hid := op_patch_id b m
  cases a with
  | addReadReceipt messageId userId =>
    have hb : b.kind ≠ .addReadReceipt := Ne.symm hkind
    have hreaders := patch_readBy b m hb
    show patchReadBy messageId userId (b.patch m) = b.patch (patchReadBy messageId userId m)
    by_cases hguard : (m.id = messageId && !m.readBy.contains userId) = true
    · have hguard' : ((b.patch m).id = messageId && !(b.patch m).readBy.contains userId) =
        true := by
        rw [hid, hreaders]
        exact hguard
      have hfirst : patchReadBy messageId userId m = m.setReadBy (m.readBy ++ [userId]) :=
        if_pos hguard
      have hlast : patchReadBy messageId userId (b.patch m) =
          (b.patch m).setReadBy ((b.patch m).readBy ++ [userId]) := if_pos hguard'
      rw [hfirst, hlast, hreaders, patch_setReadBy b m hb]
    · rw [patchReadBy, hid, hreaders, if_neg hguard, patchReadBy, if_neg hguard]
  | applyReaction messageId userId emoji action =>
    have hb : b.kind ≠ .applyReaction := Ne.symm hkind
    have hgroups := patch_reactions b m hb
    show patchReaction messageId userId emoji action (b.patch m) =
      b.patch (patchReaction messageId userId emoji action m)
    by_cases hguard : m.id ≠ messageId
    · rw [patchReaction, hid, if_pos hguard, patchReaction, if_pos hguard]
    · have hguard' : ¬ (b.patch m).id ≠ messageId := by
        rw [hid]
        exact hguard
      have hfirst : patchReaction messageId userId emoji action m =
          m.setReactions (react m.reactions userId emoji action) := if_neg hguard
      have hlast : patchReaction messageId userId emoji action (b.patch m) =
          (b.patch m).setReactions (react (b.patch m).reactions userId emoji action) :=
            if_neg hguard'
      rw [hfirst, hlast, hgroups, patch_setReactions b m hb]
  | _ => simp [CacheOp.kind] at ha

end

/-! ## Repeating a reaction -/

theorem findIdx?_middle {a b : List ReactionGroup} {g : ReactionGroup} {emoji : String}
    (ha : ∀ x ∈ a, x.emoji ≠ emoji) (hg : g.emoji = emoji) :
    (a ++ g :: b).findIdx? (fun x => x.emoji = emoji) = some a.length := by
  induction a with
  | nil => simp [List.findIdx?_cons, hg]
  | cons y a ih =>
    have hy : y.emoji ≠ emoji := ha y (by simp)
    have hrest := ih fun x hx => ha x (by simp [hx])
    simp [List.findIdx?_cons, hy, hrest]

theorem findIdx?_none {groups : List ReactionGroup} {emoji : String}
    (h : ∀ x ∈ groups, x.emoji ≠ emoji) : groups.findIdx? (fun x => x.emoji = emoji) = none := by
  rw [List.findIdx?_eq_none_iff]
  intro x hx
  simpa using h x hx

/-- The group of an emoji gains a user. -/
theorem react_added_middle {a b : List ReactionGroup} {g : ReactionGroup} {emoji : String}
    (ha : ∀ x ∈ a, x.emoji ≠ emoji) (hg : g.emoji = emoji) (userId : String) :
    react (a ++ g :: b) userId emoji .added =
      if g.userIds.contains userId then a ++ g :: b
      else a ++ { g with count := g.count + 1, userIds := g.userIds ++ [userId] } :: b := by
  have hget : ((a ++ g :: b)[a.length]?.map (·.userIds)).getD [] = g.userIds := by simp
  simp only [react, findIdx?_middle ha hg, hget, modify_append_length]

/-- The group of an emoji loses a user, and goes with its last one. -/
theorem react_removed_middle {a b : List ReactionGroup} {g : ReactionGroup} {emoji : String}
    (ha : ∀ x ∈ a, x.emoji ≠ emoji) (hg : g.emoji = emoji) (userId : String) :
    react (a ++ g :: b) userId emoji .removed =
      if !g.userIds.contains userId then a ++ g :: b
      else if (g.userIds.filter fun id => id != userId).length = 0 then a ++ b
      else a ++ { g with
        count := (g.userIds.filter fun id => id != userId).length
        userIds := g.userIds.filter fun id => id != userId } :: b := by
  have hget : ((a ++ g :: b)[a.length]?.map (·.userIds)).getD [] = g.userIds := by simp
  simp only [react, findIdx?_middle ha hg, hget, modify_append_length, eraseIdx_append_length]

theorem react_added_new {groups : List ReactionGroup} {emoji : String}
    (h : ∀ x ∈ groups, x.emoji ≠ emoji) (userId : String) :
    react groups userId emoji .added = groups ++ [⟨emoji, 1, [userId]⟩] := by
  simp only [react, findIdx?_none h]

theorem react_removed_new {groups : List ReactionGroup} {emoji : String}
    (h : ∀ x ∈ groups, x.emoji ≠ emoji) (userId : String) :
    react groups userId emoji .removed = groups := by
  simp only [react, findIdx?_none h]

/-- A reaction that is delivered again changes nothing. -/
theorem react_idempotent {groups : List ReactionGroup} (h : (groups.map (·.emoji)).Nodup)
    (userId emoji : String) (action : ReactionAction) :
    react (react groups userId emoji action) userId emoji action =
      react groups userId emoji action := by
  rcases findIdx?_emoji groups emoji with ⟨-, hnew⟩ | ⟨a, g, b, rfl, hg, ha, -⟩
  · cases action with
    | added =>
      -- the group that was added holds the user
      rw [react_added_new hnew, react_added_middle hnew rfl]
      exact if_pos (by simp)
    | removed => rw [react_removed_new hnew, react_removed_new hnew]
  · cases action with
    | added =>
      rw [react_added_middle ha hg]
      split_ifs with hmem
      · rw [react_added_middle ha hg, if_pos hmem]
      · rw [react_added_middle ha (by exact hg)]
        exact if_pos (by simp)
    | removed =>
      rw [react_removed_middle ha hg]
      split_ifs with hmem hlast
      · rw [react_removed_middle ha hg, if_pos hmem]
      · obtain ⟨-, hb⟩ := others_of_nodup h
        apply react_removed_new
        intro x hx
        rcases List.mem_append.mp hx with hx | hx
        · exact ha x hx
        · rw [← hg]
          exact hb x hx
      · rw [react_removed_middle ha (by exact hg)]
        exact if_pos (by simp)

/-! ## Repeating a patch -/

/-- A guarded change that closes its own guard, or is the same the second time. -/
theorem guarded_idempotent (guard : ChatMessage → Bool) (set : ChatMessage → ChatMessage)
    (h : ∀ x, guard (set x) = true → set (set x) = set x) (m : ChatMessage) :
    (fun x => if guard x then set x else x) (if guard m then set m else m) =
      if guard m then set m else m := by
  dsimp only
  by_cases hm : guard m = true
  · simp only [hm, if_true]
    by_cases hset : guard (set m) = true
    · rw [if_pos hset, h m hset]
    · rw [if_neg hset]
  · simp only [hm, if_false, Bool.false_eq_true]

/-- Applying a patch again changes nothing. -/
theorem patch_idempotent (op : CacheOp) {m : ChatMessage} (h : (m.reactions.map (·.emoji)).Nodup) :
    op.patch (op.patch m) = op.patch m := by
  by_cases hid : m.id = op.target
  · cases op with
    | markFailed clientId =>
      exact guarded_idempotent (fun x => x.id = clientId && x.status = some .sending)
        (fun x => { x with status := some .failed }) (by simp) m
    | markSending clientId =>
      exact guarded_idempotent (fun x => x.id = clientId && x.status = some .failed)
        (fun x => { x with status := some .sending }) (by simp) m
    | markDeleted messageId deletedAt =>
      exact guarded_idempotent (fun x => x.id = messageId && isFalsy x.deletedAt)
        (fun x => { x with content := none, deletedAt := some deletedAt }) (fun _ _ => rfl) m
    | applyEdit messageId content editedAt =>
      exact guarded_idempotent (fun x => x.id = messageId && isFalsy x.deletedAt)
        (fun x => { x with content := some content, editedAt := some editedAt }) (fun _ _ => rfl) m
    | addReadReceipt messageId userId =>
      exact guarded_idempotent (fun x => x.id = messageId && !x.readBy.contains userId)
        (fun x => { x with readBy := x.readBy ++ [userId] }) (by simp) m
    | applyReaction messageId userId emoji action =>
      have hpatch : ∀ x : ChatMessage, x.id = messageId →
          patchReaction messageId userId emoji action x =
            x.setReactions (react x.reactions userId emoji action) :=
        fun x hx => if_neg (not_not_intro hx)
      show patchReaction messageId userId emoji action
        (patchReaction messageId userId emoji action m) =
        patchReaction messageId userId emoji action m
      rw [hpatch m hid, hpatch (m.setReactions (react m.reactions userId emoji action)) hid]
      exact congrArg m.setReactions (react_idempotent h userId emoji action)
  · rw [patch_of_ne op m hid, patch_of_ne op m hid]

/-! ## Deleted messages -/

theorem patch_deleted (op : CacheOp) {m : ChatMessage} (h : isFalsy m.deletedAt = false) :
    (op.patch m).content = m.content ∧ isFalsy (op.patch m).deletedAt = false := by
  cases op with
  | markDeleted messageId deletedAt => simp [CacheOp.patch, maskDeleted, h]
  | applyEdit messageId content editedAt => simp [CacheOp.patch, patchEdit, h]
  | _ =>
    rw [patch_frame]
    exact ⟨rfl, h⟩

/-- No sequence of operations changes the content of a deleted message. -/
theorem patches_content (ops : List CacheOp) {m : ChatMessage} (h : isFalsy m.deletedAt = false) :
    (patches ops m).content = m.content := by
  induction ops generalizing m with
  | nil => rfl
  | cons op ops ih =>
    obtain ⟨hcontent, hdeleted⟩ := patch_deleted op h
    exact (ih hdeleted).trans hcontent

/-- A message that is marked as deleted has no content. -/
theorem maskDeleted_spec {m : ChatMessage} {deletedAt : String} (h : deletedAt ≠ "")
    (hm : isFalsy m.deletedAt = true ∨ m.content = none) :
    (maskDeleted m.id deletedAt m).content = none ∧
      isFalsy (maskDeleted m.id deletedAt m).deletedAt = false := by
  unfold maskDeleted
  cases hfalsy : isFalsy m.deletedAt with
  | true => simp [isFalsy, h]
  | false =>
    rw [hfalsy] at hm
    simp only [decide_true, Bool.and_false, Bool.false_eq_true, if_false]
    exact ⟨hm.resolve_left (by simp), hfalsy⟩

/-! ## The whole cache -/

/-- The message at a place of a page. -/
def heldAt (data : Option MessagesData) (page place : ℕ) : Option ChatMessage :=
  (pagesOf data)[page]?.bind fun messages => messages[place]?

/-- The page cursors, and the ids page by page. -/
def skeleton (data : Option MessagesData) : Option (List (List String) × List (Option String)) :=
  data.map fun d => (d.pages.map (List.map (·.id)), d.pageParams)

section

variable {f g : ChatMessage → ChatMessage} (data : Option MessagesData)

theorem heldAt_patchMessages (page place : ℕ) :
    heldAt (patchMessages f data) page place = (heldAt data page place).map f := by
  cases data with
  | none => rfl
  | some d =>
    simp only [heldAt, patchMessages, pagesOf, Option.map_some, List.getElem?_map]
    cases d.pages[page]? with
    | none => rfl
    | some messages => simp

theorem skeleton_patchMessages (h : ∀ m, (f m).id = m.id) :
    skeleton (patchMessages f data) = skeleton data := by
  cases data with
  | none => rfl
  | some d =>
    have hids : (fun m => (f m).id) = ChatMessage.id := funext h
    simp only [skeleton, patchMessages, Option.map_some, List.map_map]
    congr 2
    refine List.map_congr_left fun page _ => ?_
    simp only [Function.comp_apply, List.map_map]
    exact congrArg (List.map · page) hids

theorem patchMessages_comp :
    patchMessages f (patchMessages g data) = patchMessages (fun m => f (g m)) data := by
  cases data with
  | none => rfl
  | some d => simp [patchMessages, Function.comp_def]

theorem patchMessages_congr (h : ∀ m ∈ (pagesOf data).flatten, f m = g m) :
    patchMessages f data = patchMessages g data := by
  cases data with
  | none => rfl
  | some d =>
    simp only [patchMessages, Option.map_some]
    congr 2
    refine List.map_congr_left fun page hpage => List.map_congr_left fun m hm => ?_
    exact h m (List.mem_flatten_of_mem hpage hm)

theorem runs_eq (ops : List CacheOp) : runs ops data = patchMessages (patches ops) data := by
  induction ops generalizing data with
  | nil =>
    show data = patchMessages id data
    cases data with
    | none => rfl
    | some d => simp [patchMessages]
  | cons op ops ih =>
    show runs ops (op.run data) = _
    rw [ih, CacheOp.run_eq, patchMessages_comp]
    rfl

theorem heldAt_patched {page place : ℕ} {m : ChatMessage} (h : heldAt data page place = some m) :
    heldAt (patchMessages f data) page place = some (f m) := by
  rw [heldAt_patchMessages, h]
  rfl

end

/-- Each patch keeps the pages and the ids, changes its own fields of its target, and can be
    repeated. Patches of different messages commute, and a read receipt or a reaction commutes
    with every operation of another kind. A deleted message keeps its content, and one that is
    marked as deleted never has any. -/
theorem patch_laws (data : Option MessagesData)
    (hgroups : ∀ m ∈ (pagesOf data).flatten, (m.reactions.map (·.emoji)).Nodup) :
    (∀ op : CacheOp, skeleton (op.run data) = skeleton data ∧
      (∀ page place m, heldAt data page place = some m →
        ∃ m', heldAt (op.run data) page place = some m' ∧ m' = op.withOwn m m' ∧
          (m.id ≠ op.target → m' = m)) ∧
      op.run (op.run data) = op.run data) ∧
    (∀ a b : CacheOp, a.target ≠ b.target ∨
        (a.kind = .addReadReceipt ∨ a.kind = .applyReaction) ∧ a.kind ≠ b.kind →
      a.run (b.run data) = b.run (a.run data)) ∧
    (∀ ops page place m, heldAt data page place = some m → isFalsy m.deletedAt = false →
      ∃ m', heldAt (runs ops data) page place = some m' ∧ m'.content = m.content) ∧
    ∀ deletedAt ops page place m, deletedAt ≠ "" → heldAt data page place = some m →
      isFalsy m.deletedAt = true ∨ m.content = none →
      ∃ m', heldAt (runs ops (markDeleted data m.id deletedAt)) page place = some m' ∧
        m'.content = none := by
  refine ⟨fun op => ⟨?_, ?_, ?_⟩, ?_, ?_, ?_⟩
  · rw [CacheOp.run_eq]
    exact skeleton_patchMessages data (op_patch_id op)
  · intro page place m hm
    rw [CacheOp.run_eq]
    exact ⟨op.patch m, heldAt_patched data hm, patch_frame op m, patch_of_ne op m⟩
  · rw [CacheOp.run_eq, CacheOp.run_eq, patchMessages_comp]
    exact patchMessages_congr data fun m hm => patch_idempotent op (hgroups m hm)
  · intro a b hab
    simp only [CacheOp.run_eq, patchMessages_comp]
    refine patchMessages_congr data fun m _ => ?_
    rcases hab with htarget | ⟨ha, hkind⟩
    · exact patch_comm_of_target a b m htarget
    · exact patch_comm_of_kind a b m ha hkind
  · intro ops page place m hm hdeleted
    rw [runs_eq]
    exact ⟨patches ops m, heldAt_patched data hm, patches_content ops hdeleted⟩
  · intro deletedAt ops page place m htime hm hlive
    obtain ⟨hcontent, hdeleted⟩ := maskDeleted_spec htime hlive
    have hmarked : heldAt (markDeleted data m.id deletedAt) page place =
        some (maskDeleted m.id deletedAt m) := heldAt_patched data hm
    rw [runs_eq]
    exact ⟨_, heldAt_patched _ hmarked, (patches_content ops hdeleted).trans hcontent⟩

/-- An edit that arrives after the delete, twice, with a reaction in between. -/
theorem patch_laws_evidence :
    ∃ m', heldAt (runs [.applyEdit "m1" "never mind" "2026-07-05T15:31:02Z",
        .applyReaction "m1" "bob" "👍" .added, .applyEdit "m1" "never mind" "2026-07-05T15:31:02Z"]
        (markDeleted (some evidenceCache) "m1" "2026-07-05T15:31:00Z")) 0 0 = some m' ∧
      m'.content = none :=
  (patch_laws (some evidenceCache) (by decide)).2.2.2 _ _ 0 0
    (confirmedMessage "m1" "alice" "the evidence") (by decide) rfl (.inl rfl)

end ConvoyChat.Frontend
