import ConvoyChat.Frontend.MessagesCache
import Mathlib.Data.List.Induction

/-!
# In-place patches of the message cache

Models of the helpers of `frontend/lib/messagesCache.ts` that change held messages
where they stand: `markFailed`, `markSending`, `markDeleted`, `applyEdit`,
`addReadReceipt`, `applyReaction` (lines 152–301), and of the reads `findMessage`
and `newestConfirmedCreatedAt`.

Each of them maps one function over the messages of a loaded cache. Whether an
unchanged cache keeps its reference is not modelled.
-/

namespace ConvoyChat.Frontend

/-- `!s` for an optional string: absent or empty. -/
def isFalsy : Option String → Bool
  | none => true
  | some s => s = ""

/-- `data.pages.map((page) => page.map(patch))`; a cache that is not loaded stays
    so. -/
def patchMessages (patch : ChatMessage → ChatMessage) (data : Option MessagesData) :
    Option MessagesData :=
  data.map fun d => { d with pages := d.pages.map (List.map patch) }

theorem flatten_patchMessages (patch : ChatMessage → ChatMessage) (data : Option MessagesData) :
    (pagesOf (patchMessages patch data)).flatten = (pagesOf data).flatten.map patch := by
  cases data with
  | none => rfl
  | some d => exact List.map_flatten.symm

/-- Model of `findMessage` (lines 76–78). -/
def findMessage (data : Option MessagesData) (id : String) : Option ChatMessage :=
  (pagesOf data).flatten.find? fun m => m.id = id

/-- Model of `markFailed` (lines 152–160). -/
def markFailed (data : Option MessagesData) (clientId : String) : Option MessagesData :=
  patchMessages (fun m =>
    if m.id = clientId && m.status = some .sending then { m with status := some .failed } else m)
      data

/-- Model of `markSending` (lines 166–174). -/
def markSending (data : Option MessagesData) (clientId : String) : Option MessagesData :=
  patchMessages (fun m =>
    if m.id = clientId && m.status = some .failed then { m with status := some .sending } else m)
      data

/-- The patch of `markDeleted`. -/
def maskDeleted (messageId deletedAt : String) (m : ChatMessage) : ChatMessage :=
  if m.id = messageId && isFalsy m.deletedAt then
    { m with content := none, deletedAt := some deletedAt }
  else m

/-- Model of `markDeleted` (lines 183–201). -/
def markDeleted (data : Option MessagesData) (messageId deletedAt : String) : Option MessagesData :=
  patchMessages (maskDeleted messageId deletedAt) data

/-- The patch of `applyEdit`. -/
def patchEdit (messageId content editedAt : String) (m : ChatMessage) : ChatMessage :=
  if m.id = messageId && isFalsy m.deletedAt then
    { m with content := some content, editedAt := some editedAt }
  else m

/-- Model of `applyEdit` (lines 213–231). -/
def applyEdit (data : Option MessagesData) (messageId content editedAt : String) :
    Option MessagesData :=
  patchMessages (patchEdit messageId content editedAt) data

/-- The patch of `addReadReceipt`. -/
def patchReadBy (messageId userId : String) (m : ChatMessage) : ChatMessage :=
  if m.id = messageId && !m.readBy.contains userId then { m with readBy := m.readBy ++ [userId] }
  else m

/-- Model of `addReadReceipt` (lines 239–256). -/
def addReadReceipt (data : Option MessagesData) (messageId userId : String) :
    Option MessagesData :=
  patchMessages (patchReadBy messageId userId) data

/-- `action: "added" | "removed"` of a `message.reaction` event. -/
inductive ReactionAction
  | added
  | removed
deriving DecidableEq, Repr

/-- The groups of a message after one reaction event (lines 276–298). -/
def react (groups : List ReactionGroup) (userId emoji : String) (action : ReactionAction) :
    List ReactionGroup :=
  match groups.findIdx? fun g => g.emoji = emoji with
  | none =>
    match action with
    | .added => groups ++ [⟨emoji, 1, [userId]⟩]
    | .removed => groups
  | some idx =>
    let userIds := (groups[idx]?.map (·.userIds)).getD []
    match action with
    | .added =>
      if userIds.contains userId then groups
      else groups.modify idx fun g =>
        { g with count := g.count + 1, userIds := g.userIds ++ [userId] }
    | .removed =>
      if !userIds.contains userId then groups
      else
        let remaining := userIds.filter fun id => id != userId
        if remaining.length = 0 then groups.eraseIdx idx
        else groups.modify idx fun g => { g with count := remaining.length, userIds := remaining }

/-- The patch of `applyReaction`. -/
def patchReaction (messageId userId emoji : String) (action : ReactionAction) (m : ChatMessage) :
    ChatMessage :=
  if m.id ≠ messageId then m else { m with reactions := react m.reactions userId emoji action }

/-- Model of `applyReaction` (lines 264–301). -/
def applyReaction (data : Option MessagesData) (messageId userId emoji : String)
    (action : ReactionAction) : Option MessagesData :=
  patchMessages (patchReaction messageId userId emoji action) data

/-- Model of `newestConfirmedCreatedAt` (lines 306–313); an empty string is falsy. -/
def newestConfirmedCreatedAt (data : Option MessagesData) : Option String :=
  (pagesOf data).flatten.foldl (fun newest m =>
    if m.status.isSome then newest
    else if isFalsy newest || newest.getD "" < m.createdAt then some m.createdAt else newest) none

/-- The anchor is the `created_at` of a confirmed message; there is none only if no
    message is confirmed. -/
theorem newestConfirmedCreatedAt_mem (data : Option MessagesData) :
    match newestConfirmedCreatedAt data with
    | some newest => ∃ m ∈ (pagesOf data).flatten, m.status = none ∧ m.createdAt = newest
    | none => ∀ m ∈ (pagesOf data).flatten, m.status ≠ none := by
  unfold newestConfirmedCreatedAt
  -- from the end of the list, the accumulator being what the messages before left
  induction (pagesOf data).flatten using List.reverseRecOn with
  | nil => simp
  | append_singleton messages m ih =>
    rw [List.foldl_append]
    simp only [List.foldl_cons, List.foldl_nil]
    generalize List.foldl _ none messages = newest at ih ⊢
    cases hstatus : m.status with
    | some status =>
      rw [if_pos (by rfl)]
      cases newest with
      | some newest =>
        obtain ⟨x, hx, hnone⟩ := ih
        exact ⟨x, List.mem_append_left _ hx, hnone⟩
      | none =>
        intro x hx
        rcases List.mem_append.mp hx with hx | hx
        · exact ih x hx
        · rw [List.mem_singleton.mp hx, hstatus]
          nofun
    | none =>
      rw [if_neg (by simp)]
      split_ifs with hnewer
      · exact ⟨m, List.mem_append_right _ (List.mem_singleton_self m), hstatus, rfl⟩
      · cases newest with
        | some newest =>
          obtain ⟨x, hx, hnone⟩ := ih
          exact ⟨x, List.mem_append_left _ hx, hnone⟩
        | none => simp [isFalsy] at hnewer

end ConvoyChat.Frontend
