import ConvoyChat.Frontend.MessagePatches
import ConvoyChat.Frontend.MergeKeeps

/-!
# Rolling back a failed edit or delete

Models of `useDeleteMessage` and `useEditMessage` (`frontend/hooks/useMessages.tsx`
lines 225–292) with everything else that writes the cache of a room: the live
events of `routeEvent` and `resyncRoom` (`useWebSocket.tsx`), the sends of
`useSendMessage`, history queries, and other mutations.

`onMutate` keeps a snapshot of the whole cache and `onError` puts it back, so a
rollback undoes every update of the window, not only the mutation.

* `rollsBack_iff`: a rollback undoes exactly the failed mutation if and only if
  there was no cache to keep, or the other updates of the window have no net effect
  on the cache from before it.
* `rollback_drops_live_message`: a message that arrives while a delete is in flight
  is gone when the delete fails.
-/

namespace ConvoyChat.Frontend

/-- A call of `mutate`: `useDeleteMessage` with the client's `deleted_at`, or
    `useEditMessage` with its `edited_at`. -/
inductive Mutation
  | delete (messageId deletedAt : String)
  | edit (messageId content editedAt : String)
deriving DecidableEq, Repr

/-- What `onMutate` writes into the cache. -/
def Mutation.optimistic : Mutation → Option MessagesData → Option MessagesData
  | .delete messageId deletedAt, old => markDeleted old messageId deletedAt
  | .edit messageId content editedAt, old => applyEdit old messageId content editedAt

/-- Model of `onMutate` after its `cancelQueries` (lines 234–238, 271–273): the new
    cache and the context `{ previous }`. -/
def onMutate (m : Mutation) (data : Option MessagesData) :
    Option MessagesData × Option MessagesData :=
  (m.optimistic data, data)

/-- Model of `onError` (lines 240–243, 280–283): the snapshot comes back, unless
    there was none. -/
def onError (previous data : Option MessagesData) : Option MessagesData :=
  match previous with
  | some previous => some previous
  | none => data

/-- The cache of the room and the contexts of the mutations that are in flight. -/
structure RoomQuery where
  data : Option MessagesData
  context : ℕ → Option MessagesData

/-- Everything that writes the cache of the room. -/
inductive CacheUpdate
  /-- `message.new` (`useWebSocket.tsx` lines 225–227), merged into a loaded cache. -/
  | messageNew (inc : IncomingMessage) (currentUserId : String)
  /-- `message.read_by` (lines 312–314). -/
  | messageReadBy (messageId userId : String)
  /-- `message.reaction` (lines 323–325). -/
  | messageReaction (messageId userId emoji : String) (action : ReactionAction)
  /-- `message.edited` (lines 335–337). -/
  | messageEdited (messageId content editedAt : String)
  /-- `message.deleted` (lines 345–347). -/
  | messageDeleted (messageId deletedAt : String)
  /-- The merge that ends `resyncRoom` (lines 152–154). -/
  | resynced (incoming : List IncomingMessage) (currentUserId : String)
  /-- The optimistic bubble of `send` (`useMessages.tsx` lines 185–187). -/
  | sent (optimistic : ChatMessage) (currentUserId : String)
  /-- The answer to a send over REST (lines 136–138). -/
  | sendConfirmed (serverMessage : ChatMessage) (clientId currentUserId : String)
  /-- `onFail` of a send over REST (line 100). -/
  | sendFailed (clientId : String)
  /-- The ack timeout of a send over the socket (lines 121–123). -/
  | ackTimeout (clientId : String)
  /-- `retry` of a failed bubble (lines 154–156). -/
  | retried (clientId : String)
  /-- A history query of the room completes: a page loaded, or a refetch. -/
  | fetched (data : MessagesData)
  /-- `removeQueries` after leaving the room (`useRooms.ts` line 87). -/
  | removed
  /-- `onMutate` of another mutation. -/
  | mutated (k : ℕ) (m : Mutation)
  /-- `onSuccess` of another edit (lines 275–279). -/
  | editConfirmed (messageId content editedAt : String)
  /-- `onError` of another mutation. -/
  | mutationFailed (k : ℕ)

/-- Perform one update. -/
def CacheUpdate.apply (s : RoomQuery) : CacheUpdate → RoomQuery
  | .messageNew inc uid => { s with data := s.data.map fun d => upsertMessages (some d) [inc] uid }
  | .messageReadBy messageId userId => { s with data := addReadReceipt s.data messageId userId }
  | .messageReaction messageId userId emoji action =>
    { s with data := applyReaction s.data messageId userId emoji action }
  | .messageEdited messageId content editedAt =>
    { s with data := applyEdit s.data messageId content editedAt }
  | .messageDeleted messageId deletedAt => { s with data := markDeleted s.data messageId deletedAt }
  | .resynced incoming uid => { s with data := some (upsertMessages s.data incoming uid) }
  | .sent optimistic uid => { s with data := some (upsertMessages s.data [⟨optimistic, none⟩] uid) }
  | .sendConfirmed serverMessage clientId uid =>
    { s with data := some (upsertMessages s.data [⟨serverMessage, some clientId⟩] uid) }
  | .sendFailed clientId => { s with data := markFailed s.data clientId }
  | .ackTimeout clientId =>
    if (findMessage s.data clientId).bind (·.status) = some .sending then
      { s with data := markFailed s.data clientId }
    else s
  | .retried clientId =>
    if (findMessage s.data clientId).bind (·.status) = some .failed then
      { s with data := markSending s.data clientId }
    else s
  | .fetched data => { s with data := some data }
  | .removed => { s with data := none }
  | .mutated k m =>
    let (data, previous) := onMutate m s.data
    ⟨data, Function.update s.context k previous⟩
  | .editConfirmed messageId content editedAt =>
    { s with data := applyEdit s.data messageId content editedAt }
  | .mutationFailed k => { s with data := onError (s.context k) s.data }

/-- Perform the updates of a window one after another. -/
def applyUpdates (updates : List CacheUpdate) (s : RoomQuery) : RoomQuery :=
  updates.foldl CacheUpdate.apply s

/-- The cache after the failed mutation `m` around the window `others`. -/
def afterRollback (m : Mutation) (others : List CacheUpdate) (s : RoomQuery) :
    Option MessagesData :=
  let (data, previous) := onMutate m s.data
  onError previous (applyUpdates others { s with data := data }).data

/-- The rollback leaves what the other updates alone make of the cache. -/
def RollsBack (m : Mutation) (others : List CacheUpdate) (s : RoomQuery) : Prop :=
  afterRollback m others s = (applyUpdates others s).data

/-- An optimistic patch does not create a cache. -/
theorem optimistic_none (m : Mutation) : m.optimistic none = none := by
  cases m <;> rfl

/-- A failed mutation leaves the snapshot, or, without a cache to begin with, what
    the window alone leaves. -/
theorem afterRollback_eq (m : Mutation) (others : List CacheUpdate) (s : RoomQuery) :
    afterRollback m others s =
      match s.data with
      | some previous => some previous
      | none => (applyUpdates others s).data := by
  cases hdata : s.data with
  | some previous => simp only [afterRollback, onMutate, onError, hdata]
  | none =>
    have hsame : { s with data := none } = s := by rw [← hdata]
    simp only [afterRollback, onMutate, onError, hdata, optimistic_none, hsame]

/-- A rollback undoes exactly the failed mutation if and only if no cache was loaded
    when the mutation began, or the other updates of the window leave the cache from
    before it as it was. -/
theorem rollsBack_iff (m : Mutation) (others : List CacheUpdate) (s : RoomQuery) :
    RollsBack m others s ↔ s.data = none ∨ (applyUpdates others s).data = s.data := by
  rw [RollsBack, afterRollback_eq]
  cases hdata : s.data with
  | some previous =>
    constructor
    · intro h
      exact .inr h.symm
    · rintro (h | h)
      · cases h
      · exact h.symm
  | none => simp

/-- A room with one loaded message and no mutation in flight. -/
def evidenceQuery : RoomQuery := ⟨some evidenceCache, fun _ => none⟩

/-- While a delete of the held message is in flight another message arrives; the
    server refuses the delete, and the rollback drops the new message. -/
theorem rollback_drops_live_message :
    ¬ RollsBack (.delete "m1" "2026-07-05T15:31:00Z")
      [.messageNew ⟨confirmedMessage "m2" "bob" "hello", none⟩ "alice"] evidenceQuery := by
  rw [RollsBack]
  decide

end ConvoyChat.Frontend
