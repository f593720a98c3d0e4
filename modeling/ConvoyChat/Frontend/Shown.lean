import ConvoyChat.Frontend.Mutations
import Mathlib.Data.List.Induction
import Mathlib.Data.List.Nodup

/-!
# What a cached message shows

The columns of a message that change after it was sent (content, `edited_at`,
`deleted_at`, the readers and the reactions), apart from the order in which the cache
lists them, and what the live events do to them.

* `shown_patch`: the patches of `messagesCache.ts` perform the change on what is shown,
  and keep the reaction groups in order.
* `replay_replayed`: a message that has seen a sequence of changes is not altered by
  seeing them again.
-/

namespace ConvoyChat.Frontend

/-- What an edit or a delete changes. -/
structure Body where
  content : Option String
  editedAt : Option String
  deletedAt : Option String
deriving DecidableEq, Repr

structure Shown where
  body : Body
  readBy : String → Bool
  /-- by user and emoji -/
  reacted : String → String → Bool

def hasReacted (groups : List ReactionGroup) (userId emoji : String) : Bool :=
  groups.any fun g => g.emoji = emoji && g.userIds.contains userId

def shown (m : ChatMessage) : Shown :=
  ⟨⟨m.content, m.editedAt, m.deletedAt⟩, fun userId => m.readBy.contains userId,
    hasReacted m.reactions⟩

/-- One group for an emoji, with its users and their number. -/
structure GroupsOk (groups : List ReactionGroup) : Prop where
  emojis : (groups.map (·.emoji)).Nodup
  counts : ∀ g ∈ groups, g.count = g.userIds.length
  users : ∀ g ∈ groups, g.userIds.Nodup ∧ g.userIds ≠ []

/-- A change of a message that an event reports. -/
inductive Change
  | edited (content editedAt : String)
  | deleted (deletedAt : String)
  | readBy (userId : String)
  | reaction (userId emoji : String) (action : ReactionAction)
deriving DecidableEq, Repr

def Body.change (b : Body) : Change → Body
  | .edited content editedAt =>
    if isFalsy b.deletedAt then { b with content := some content, editedAt := some editedAt } else b
  | .deleted deletedAt =>
    if isFalsy b.deletedAt then { b with content := none, deletedAt := some deletedAt } else b
  | _ => b

def Change.read (userId : String) (b : Bool) : Change → Bool
  | .readBy u => b || decide (u = userId)
  | _ => b

def Change.react (userId emoji : String) (b : Bool) : Change → Bool
  | .reaction u e action =>
    if u = userId ∧ e = emoji then decide (action = .added) else b
  | _ => b

def Shown.change (v : Shown) (c : Change) : Shown where
  body := v.body.change c
  readBy userId := c.read userId (v.readBy userId)
  reacted userId emoji := c.react userId emoji (v.reacted userId emoji)

/-- The patch that performs a change. -/
def Change.patch (messageId : String) : Change → ChatMessage → ChatMessage
  | .edited content editedAt => patchEdit messageId content editedAt
  | .deleted deletedAt => maskDeleted messageId deletedAt
  | .readBy userId => patchReadBy messageId userId
  | .reaction userId emoji action => patchReaction messageId userId emoji action

/-! ## Reaction groups -/

/-- The group of an emoji, if there is one. -/
theorem findIdx?_emoji (groups : List ReactionGroup) (emoji : String) :
    (groups.findIdx? (fun g => g.emoji = emoji) = none ∧ ∀ g ∈ groups, g.emoji ≠ emoji) ∨
    ∃ a g b, groups = a ++ g :: b ∧ g.emoji = emoji ∧ (∀ x ∈ a, x.emoji ≠ emoji) ∧
      groups.findIdx? (fun g => g.emoji = emoji) = some a.length := by
  induction groups with
  | nil => exact .inl ⟨rfl, by simp⟩
  | cons g groups ih =>
    by_cases hg : g.emoji = emoji
    · exact .inr ⟨[], g, groups, rfl, hg, by simp, by simp [List.findIdx?_cons, hg]⟩
    · rcases ih with ⟨hnone, hall⟩ | ⟨a, x, b, rfl, hx, ha, hidx⟩
      · refine .inl ⟨by simp [List.findIdx?_cons, hg, hnone], ?_⟩
        intro y hy
        rcases List.mem_cons.mp hy with rfl | hy
        · exact hg
        · exact hall y hy
      · refine .inr ⟨g :: a, x, b, rfl, hx, ?_, by simp [List.findIdx?_cons, hg, hidx]⟩
        intro y hy
        rcases List.mem_cons.mp hy with rfl | hy
        · exact hg
        · exact ha y hy

theorem modify_append_length {α : Type*} (a : List α) (x : α) (b : List α) (f : α → α) :
    (a ++ x :: b).modify a.length f = a ++ f x :: b := by
  induction a with
  | nil => rfl
  | cons y a ih => simpa using ih

theorem eraseIdx_append_length {α : Type*} (a : List α) (x : α) (b : List α) :
    (a ++ x :: b).eraseIdx a.length = a ++ b := by
  induction a with
  | nil => rfl
  | cons y a ih => simpa using ih

@[simp] theorem hasReacted_append (a b : List ReactionGroup) (u e : String) :
    hasReacted (a ++ b) u e = (hasReacted a u e || hasReacted b u e) := List.any_append

@[simp] theorem hasReacted_cons (g : ReactionGroup) (b : List ReactionGroup) (u e : String) :
    hasReacted (g :: b) u e = ((decide (g.emoji = e) && g.userIds.contains u) ||
      hasReacted b u e) :=
  rfl

theorem hasReacted_of_ne {groups : List ReactionGroup} {e : String} (h : ∀ g ∈ groups, g.emoji ≠ e)
    (u : String) : hasReacted groups u e = false := by
  rw [hasReacted, List.any_eq_false]
  intro g hg
  simp [h g hg]

/-- A group changes its users, and some remain. -/
theorem GroupsOk.setUsers {a b : List ReactionGroup} {g g' : ReactionGroup}
    (h : GroupsOk (a ++ g :: b)) (hemoji : g'.emoji = g.emoji)
    (hcount : g'.count = g'.userIds.length) (husers : g'.userIds.Nodup ∧ g'.userIds ≠ []) :
    GroupsOk (a ++ g' :: b) := by
  refine ⟨?_, fun x hx => ?_, fun x hx => ?_⟩
  · have hmap := h.emojis
    rw [List.map_append, List.map_cons] at hmap ⊢
    rw [hemoji]
    exact hmap
  · rcases List.mem_append.mp hx with hx | hx
    · exact h.counts x (List.mem_append_left _ hx)
    · rcases List.mem_cons.mp hx with rfl | hx
      · exact hcount
      · exact h.counts x (List.mem_append_right _ (List.mem_cons_of_mem _ hx))
  · rcases List.mem_append.mp hx with hx | hx
    · exact h.users x (List.mem_append_left _ hx)
    · rcases List.mem_cons.mp hx with rfl | hx
      · exact husers
      · exact h.users x (List.mem_append_right _ (List.mem_cons_of_mem _ hx))

theorem GroupsOk.sublist {groups groups' : List ReactionGroup} (h : GroupsOk groups)
    (hsub : groups'.Sublist groups) : GroupsOk groups' :=
  ⟨h.emojis.sublist (hsub.map _), fun g hg => h.counts g (hsub.subset hg),
    fun g hg => h.users g (hsub.subset hg)⟩

/-- A new emoji gets a group of its own. -/
theorem GroupsOk.newEmoji {groups : List ReactionGroup} {u e : String} (h : GroupsOk groups)
    (hnew : ∀ g ∈ groups, g.emoji ≠ e) : GroupsOk (groups ++ [⟨e, 1, [u]⟩]) := by
  refine ⟨?_, fun x hx => ?_, fun x hx => ?_⟩
  · rw [List.map_append, List.nodup_append]
    refine ⟨h.emojis, List.nodup_singleton _, fun x hx y hy => ?_⟩
    obtain ⟨g, hg, rfl⟩ := List.mem_map.mp hx
    rw [List.map_singleton, List.mem_singleton] at hy
    rw [hy]
    exact hnew g hg
  · rcases List.mem_append.mp hx with hx | hx
    · exact h.counts x hx
    · rw [List.mem_singleton.mp hx]
      rfl
  · rcases List.mem_append.mp hx with hx | hx
    · exact h.users x hx
    · rw [List.mem_singleton.mp hx]
      exact ⟨List.nodup_singleton _, by simp⟩

/-- No other group has the emoji of `g`. -/
theorem others_of_nodup {a b : List ReactionGroup} {g : ReactionGroup}
    (h : ((a ++ g :: b).map (·.emoji)).Nodup) :
    (∀ x ∈ a, x.emoji ≠ g.emoji) ∧ ∀ x ∈ b, x.emoji ≠ g.emoji := by
  rw [List.map_append, List.map_cons] at h
  have hnot := List.nodup_middle.mp h
  rw [List.nodup_cons, ← List.map_append] at hnot
  constructor
  · exact fun x hx heq => hnot.1 (List.mem_map.mpr ⟨x, List.mem_append_left _ hx, heq⟩)
  · exact fun x hx heq => hnot.1 (List.mem_map.mpr ⟨x, List.mem_append_right _ hx, heq⟩)

/-- The reactions with another emoji are those of the other groups, and those with this
    one are the users of its group. -/
theorem hasReacted_middle {a b : List ReactionGroup} {e : String} (ha : ∀ x ∈ a, x.emoji ≠ e)
    (hb : ∀ x ∈ b, x.emoji ≠ e) (count : Nat) (userIds : List String) (x y : String) :
    hasReacted (a ++ ⟨e, count, userIds⟩ :: b) x y =
      if e = y then userIds.contains x else hasReacted (a ++ b) x y := by
  rw [hasReacted_append, hasReacted_cons, hasReacted_append]
  split_ifs with hy
  · rw [← hy, hasReacted_of_ne ha, hasReacted_of_ne hb]
    simp
  · simp [hy]

/-- A reaction that is as the event has it. -/
theorem hasReacted_same {groups : List ReactionGroup} {u e : String} {action : ReactionAction}
    (h : hasReacted groups u e = decide (action = .added)) (x y : String) :
    hasReacted groups x y = (Change.reaction u e action).react x y (hasReacted groups x y) := by
  by_cases hxy : u = x ∧ e = y
  · obtain ⟨rfl, rfl⟩ := hxy
    simp [Change.react, h]
  · simp [Change.react, hxy]

/-- The group of the emoji changes its users as the event has it. -/
theorem hasReacted_regroup {a b : List ReactionGroup} {g : ReactionGroup} {u : String}
    {action : ReactionAction} (ha : ∀ x ∈ a, x.emoji ≠ g.emoji) (hb : ∀ x ∈ b, x.emoji ≠ g.emoji)
    {userIds : List String} (count : Nat)
    (husers : ∀ x, userIds.contains x =
      if u = x then decide (action = .added) else g.userIds.contains x) (x y : String) :
    hasReacted (a ++ { g with count, userIds } :: b) x y =
      (Change.reaction u g.emoji action).react x y (hasReacted (a ++ g :: b) x y) := by
  have hbefore : hasReacted (a ++ g :: b) x y =
      if g.emoji = y then g.userIds.contains x else hasReacted (a ++ b) x y :=
    hasReacted_middle ha hb g.count g.userIds x y
  rw [hasReacted_middle ha hb, hbefore, husers]
  by_cases hy : g.emoji = y
  · by_cases hx : u = x
    · simp [Change.react, hx, hy]
    · simp [Change.react, hx, hy]
  · simp [Change.react, hy]

/-- `react` adds or removes one reaction. -/
theorem react_spec {groups : List ReactionGroup} (h : GroupsOk groups) (u e : String)
    (action : ReactionAction) :
    GroupsOk (react groups u e action) ∧
      ∀ x y, hasReacted (react groups u e action) x y =
        (Change.reaction u e action).react x y (hasReacted groups x y) := by
  rcases findIdx?_emoji groups e with ⟨hidx, hnew⟩ | ⟨a, g, b, rfl, rfl, -, hidx⟩
  · -- there is no group of this emoji
    cases action with
    | added =>
      simp only [react, hidx]
      refine ⟨h.newEmoji hnew, fun x y => ?_⟩
      by_cases hxy : u = x ∧ e = y
      · obtain ⟨rfl, rfl⟩ := hxy
        simp [Change.react, hasReacted]
      · simp only [Change.react, if_neg hxy, hasReacted_append, hasReacted_cons, List.contains_cons]
        have hno : (decide (e = y) && (x == u || [].contains x)) = false := by
          simp only [List.contains_nil, Bool.or_false, Bool.and_eq_false_iff,
            decide_eq_false_iff_not, beq_eq_false_iff_ne, ne_eq]
          by_contra hcon
          push Not at hcon
          exact hxy ⟨hcon.2.symm, hcon.1⟩
        rw [hno]
        simp [hasReacted]
    | removed =>
      simp only [react, hidx]
      exact ⟨h, hasReacted_same (hasReacted_of_ne hnew u)⟩
  · -- `g` is the group of this emoji
    obtain ⟨ha, hb⟩ := others_of_nodup h.emojis
    have hmiddle : ∀ x y, hasReacted (a ++ g :: b) x y =
        if g.emoji = y then g.userIds.contains x else hasReacted (a ++ b) x y :=
      hasReacted_middle ha hb g.count g.userIds
    have hown : hasReacted (a ++ g :: b) u g.emoji = g.userIds.contains u := by
      rw [hmiddle, if_pos rfl]
    have hg : g ∈ a ++ g :: b := by simp
    have hget : ((a ++ g :: b)[a.length]?.map (·.userIds)).getD [] = g.userIds := by simp
    cases action with
    | added =>
      simp only [react, hidx, hget]
      split_ifs with hmem
      · exact ⟨h, hasReacted_same (hown.trans hmem)⟩
      · rw [modify_append_length]
        refine ⟨h.setUsers rfl ?_ ⟨?_, by simp⟩, hasReacted_regroup ha hb _ fun x => ?_⟩
        · simp [h.counts g hg]
        · refine List.nodup_append.mpr ⟨(h.users g hg).1, List.nodup_singleton _, ?_⟩
          intro x hx y hy
          rw [List.mem_singleton.mp hy]
          rintro rfl
          exact hmem (List.contains_iff_mem.mpr hx)
        · by_cases hx : u = x
          · simp [hx]
          · simp [hx, Ne.symm hx]
    | removed =>
      simp only [react, hidx, hget]
      split_ifs with hmem hlen
      · exact ⟨h, hasReacted_same (hown.trans (by simpa using hmem))⟩
      · -- the last user of the group
        rw [eraseIdx_append_length]
        have hsub : (a ++ b).Sublist (a ++ g :: b) :=
          List.Sublist.append_left (List.sublist_cons_self g b) a
        refine ⟨h.sublist hsub, fun x y => ?_⟩
        rw [hmiddle]
        have hall : ∀ id ∈ g.userIds, id = u := by
          intro id hid
          by_contra hne
          have hnil := List.length_eq_zero_iff.mp hlen
          rw [List.filter_eq_nil_iff] at hnil
          exact hnil id hid (by simpa using hne)
        by_cases hy : g.emoji = y
        · rw [← hy, hasReacted_append, hasReacted_of_ne ha, hasReacted_of_ne hb]
          by_cases hx : u = x
          · simp [Change.react, hx]
          · have hno : x ∉ g.userIds := fun hmem => hx (hall x hmem).symm
            simp [Change.react, hx, hno]
        · simp [Change.react, hy]
      · rw [modify_append_length]
        refine ⟨h.setUsers rfl rfl ⟨(h.users g hg).1.filter _, ?_⟩,
          hasReacted_regroup ha hb _ fun x => ?_⟩
        · exact fun hnil => hlen (List.length_eq_zero_iff.mpr hnil)
        · by_cases hx : u = x
          · simp [hx]
          · simp [hx, Ne.symm hx]

/-! ## Patches -/

variable {m : ChatMessage} {messageId : String} {c : Change}

/-- A patch performs its change on the message it is for. -/
theorem shown_patch (hid : m.id = messageId) (hok : GroupsOk m.reactions) :
    shown (c.patch messageId m) = (shown m).change c ∧
    GroupsOk (c.patch messageId m).reactions := by
  cases c with
  | edited content editedAt =>
    simp only [Change.patch, patchEdit, hid, decide_true, Bool.true_and]
    split_ifs with hfalsy
    · exact ⟨by simp [shown, Shown.change, Body.change, Change.read, Change.react, hfalsy], hok⟩
    · exact ⟨by simp [shown, Shown.change, Body.change, Change.read, Change.react, hfalsy], hok⟩
  | deleted deletedAt =>
    simp only [Change.patch, maskDeleted, hid, decide_true, Bool.true_and]
    split_ifs with hfalsy
    · exact ⟨by simp [shown, Shown.change, Body.change, Change.read, Change.react, hfalsy], hok⟩
    · exact ⟨by simp [shown, Shown.change, Body.change, Change.read, Change.react, hfalsy], hok⟩
  | readBy userId =>
    simp only [Change.patch, patchReadBy, hid, decide_true, Bool.true_and]
    split_ifs with hmem
    · refine ⟨?_, hok⟩
      simp only [shown, Shown.change, Body.change, Change.react, Change.read]
      congr 1
      funext u
      simp [eq_comm]
    · refine ⟨?_, hok⟩
      simp only [shown, Shown.change, Body.change, Change.react, Change.read]
      congr 1
      funext u
      by_cases hu : userId = u
      · subst hu
        simpa using hmem
      · simp [hu]
  | reaction userId emoji action =>
    simp only [Change.patch, patchReaction, hid, ne_eq, not_true_eq_false, if_false]
    obtain ⟨hok', hreact⟩ := react_spec hok userId emoji action
    refine ⟨?_, hok'⟩
    simp only [shown, Shown.change, Body.change, Change.read]
    congr 1
    funext x y
    exact hreact x y

theorem patch_other (hid : m.id ≠ messageId) : c.patch messageId m = m := by
  cases c with
  | reaction userId emoji action => exact if_pos hid
  | _ => simp [Change.patch, patchEdit, maskDeleted, patchReadBy, hid]

theorem patch_id (m : ChatMessage) : (c.patch messageId m).id = m.id := by
  cases c <;> simp only [Change.patch, patchEdit, maskDeleted, patchReadBy, patchReaction] <;>
    split_ifs <;> rfl

theorem patch_status (m : ChatMessage) : (c.patch messageId m).status = m.status := by
  cases c <;> simp only [Change.patch, patchEdit, maskDeleted, patchReadBy, patchReaction] <;>
    split_ifs <;> rfl

theorem patch_createdAt (m : ChatMessage) : (c.patch messageId m).createdAt = m.createdAt := by
  cases c <;> simp only [Change.patch, patchEdit, maskDeleted, patchReadBy, patchReaction] <;>
    split_ifs <;> rfl

/-! ## Seeing changes again -/

/-- What is shown after a sequence of changes. -/
def Shown.replay (v : Shown) (cs : List Change) : Shown := cs.foldl Shown.change v

theorem replay_append (v : Shown) (cs ds : List Change) :
    v.replay (cs ++ ds) = (v.replay cs).replay ds := List.foldl_append

theorem replay_body (v : Shown) (cs : List Change) :
    (v.replay cs).body = cs.foldl Body.change v.body := by
  induction cs generalizing v with
  | nil => rfl
  | cons c cs ih => exact ih (v.change c)

theorem replay_readBy (v : Shown) (cs : List Change) (u : String) :
    (v.replay cs).readBy u = cs.foldl (fun b c => c.read u b) (v.readBy u) := by
  induction cs generalizing v with
  | nil => rfl
  | cons c cs ih => exact ih (v.change c)

theorem replay_reacted (v : Shown) (cs : List Change) (u e : String) :
    (v.replay cs).reacted u e = cs.foldl (fun b c => c.react u e b) (v.reacted u e) := by
  induction cs generalizing v with
  | nil => rfl
  | cons c cs ih => exact ih (v.change c)

/-- A deleted message is not changed by edits and deletes. -/
theorem change_deleted {b : Body} (h : isFalsy b.deletedAt = false) (c : Change) :
    b.change c = b := by
  cases c <;> simp [Body.change, h]

theorem foldl_change_deleted {b : Body} (h : isFalsy b.deletedAt = false) (cs : List Change) :
    cs.foldl Body.change b = b := by
  induction cs with
  | nil => rfl
  | cons c cs ih => rw [List.foldl_cons, change_deleted h, ih]

/-- Whether a message gets deleted does not depend on its content. -/
theorem foldl_change_deletedAt {b b' : Body} (h : b.deletedAt = b'.deletedAt) (cs : List Change) :
    (cs.foldl Body.change b).deletedAt = (cs.foldl Body.change b').deletedAt := by
  induction cs generalizing b b' with
  | nil => exact h
  | cons c cs ih =>
    refine ih ?_
    cases c with
    | edited content editedAt =>
      simp only [Body.change]
      split_ifs <;> simp_all
    | deleted deletedAt =>
      simp only [Body.change, h]
      split_ifs
      · rfl
      · exact h
    | readBy userId => exact h
    | reaction userId emoji action => exact h

theorem body_replayed {b : Body} {cs : List Change} (h : cs.foldl Body.change b = b)
    (hc : c ≠ .deleted "") : (cs.foldl Body.change (b.change c)).change c = b.change c := by
  cases hdel : isFalsy b.deletedAt with
  | false =>
    rw [change_deleted hdel, foldl_change_deleted hdel, change_deleted hdel]
  | true =>
    cases c with
    | edited content editedAt =>
      have hkeep : (b.change (.edited content editedAt)).deletedAt = b.deletedAt := by
        simp [Body.change, hdel]
      have hafter := foldl_change_deletedAt hkeep cs
      rw [h] at hafter
      generalize cs.foldl Body.change (b.change (.edited content editedAt)) = b' at hafter
      simp [Body.change, hafter, hdel]
    | deleted deletedAt =>
      have hnow : isFalsy (b.change (.deleted deletedAt)).deletedAt = false := by
        simp only [Body.change, hdel, if_true]
        refine decide_eq_false ?_
        rintro rfl
        exact hc rfl
      rw [foldl_change_deleted hnow, change_deleted hnow]
    | readBy userId => exact h
    | reaction userId emoji action => exact h

theorem read_replayed {b : Bool} {u : String} {cs : List Change}
    (h : cs.foldl (fun b c => c.read u b) b = b) :
    c.read u (cs.foldl (fun b c => c.read u b) (c.read u b)) = c.read u b := by
  cases c with
  | readBy w =>
    by_cases hw : w = u
    · simp [Change.read, hw]
    · simp only [Change.read, hw, decide_false, Bool.or_false]
      exact h
  | _ => exact h

theorem react_replayed {b : Bool} {u e : String} {cs : List Change}
    (h : cs.foldl (fun b c => c.react u e b) b = b) :
    c.react u e (cs.foldl (fun b c => c.react u e b) (c.react u e b)) = c.react u e b := by
  cases c with
  | reaction w f action =>
    by_cases hw : w = u ∧ f = e
    · simp [Change.react, hw]
    · simp only [Change.react, if_neg hw]
      exact h
  | _ => exact h

/-- A message that has seen some changes and then `c` is not altered by seeing all of
    them again. -/
theorem replay_replayed {v : Shown} {cs : List Change} (h : v.replay cs = v)
    (hc : c ≠ .deleted "") : (v.change c).replay (cs ++ [c]) = v.change c := by
  have hbody : cs.foldl Body.change v.body = v.body := by rw [← replay_body, h]
  have hread : ∀ u, cs.foldl (fun b c => c.read u b) (v.readBy u) = v.readBy u := by
    intro u
    rw [← replay_readBy, h]
  have hreact : ∀ u e, cs.foldl (fun b c => c.react u e b) (v.reacted u e) = v.reacted u e := by
    intro u e
    rw [← replay_reacted, h]
  have hbodies : ((v.change c).replay (cs ++ [c])).body = (v.change c).body := by
    rw [replay_body, List.foldl_append]
    exact body_replayed hbody hc
  have hreads : ((v.change c).replay (cs ++ [c])).readBy = (v.change c).readBy := by
    funext u
    rw [replay_readBy, List.foldl_append]
    exact read_replayed (hread u)
  have hreacts : ((v.change c).replay (cs ++ [c])).reacted = (v.change c).reacted := by
    funext u e
    rw [replay_reacted, List.foldl_append]
    exact react_replayed (hreact u e)
  cases h' : (v.change c).replay (cs ++ [c]) with
  | mk body readBy reacted =>
    rw [h'] at hbodies hreads hreacts
    dsimp only at hbodies hreads hreacts
    rw [hbodies, hreads, hreacts]

/-- Seeing changes twice is the same as seeing them once. -/
theorem replay_idem (v : Shown) {cs : List Change} (hcs : ∀ c ∈ cs, c ≠ .deleted "") :
    (v.replay cs).replay cs = v.replay cs := by
  induction cs using List.reverseRecOn with
  | nil => rfl
  | append_singleton cs c ih =>
    have hrest := ih fun d hd => hcs d (List.mem_append_left _ hd)
    rw [replay_append v cs [c]]
    exact replay_replayed hrest (hcs c (by simp))

/-! ## Messages that are read in parts -/

/-- The first `k` of the three parts are the same: the body, the readers, the
    reactions. -/
def Shown.Agree (k : ℕ) (v w : Shown) : Prop :=
  (1 ≤ k → v.body = w.body) ∧ (2 ≤ k → v.readBy = w.readBy) ∧ (3 ≤ k → v.reacted = w.reacted)

theorem agree_rfl {k : ℕ} {v : Shown} : v.Agree k v := ⟨fun _ => rfl, fun _ => rfl, fun _ => rfl⟩

theorem Shown.Agree.trans {k : ℕ} {u v w : Shown} (h : u.Agree k v) (h' : v.Agree k w) :
    u.Agree k w :=
  ⟨fun hk => (h.1 hk).trans (h'.1 hk), fun hk => (h.2.1 hk).trans (h'.2.1 hk),
    fun hk => (h.2.2 hk).trans (h'.2.2 hk)⟩

theorem Shown.Agree.symm {k : ℕ} {v w : Shown} (h : v.Agree k w) : w.Agree k v :=
  ⟨fun hk => (h.1 hk).symm, fun hk => (h.2.1 hk).symm, fun hk => (h.2.2 hk).symm⟩

theorem agree_three {v w : Shown} (h : v.Agree 3 w) : v = w := by
  obtain ⟨body, readBy, reacted⟩ := v
  obtain ⟨body', readBy', reacted'⟩ := w
  obtain ⟨h₁, h₂, h₃⟩ := h
  obtain rfl : body = body' := h₁ (by omega)
  obtain rfl : readBy = readBy' := h₂ (by omega)
  obtain rfl : reacted = reacted' := h₃ (by omega)
  rfl

theorem Shown.Agree.change {k : ℕ} {v w : Shown} (h : v.Agree k w) (c : Change) :
    (v.change c).Agree k (w.change c) := by
  refine ⟨fun hk => ?_, fun hk => ?_, fun hk => ?_⟩
  · exact congrArg (·.change c) (h.1 hk)
  · funext u
    exact congrArg (fun f => c.read u (f u)) (h.2.1 hk)
  · funext u e
    exact congrArg (fun f => c.react u e (f u e)) (h.2.2 hk)

theorem Shown.Agree.replay {k : ℕ} {v w : Shown} (h : v.Agree k w) (cs : List Change) :
    (v.replay cs).Agree k (w.replay cs) := by
  induction cs generalizing v w with
  | nil => exact h
  | cons c cs ih => exact ih (h.change c)

end ConvoyChat.Frontend
