import ConvoyChat.Store.MessageWrites
import ConvoyChat.Frontend.Shown
import ConvoyChat.Lib.Runs

/-!
# A room and the cache of one client

The messages of one room on the server, the live events on their way to a client, and
the cache of that client: `routeEvent`, the initial history query and `resyncRoom`
(`frontend/hooks/useWebSocket.tsx` lines 129–157).

A write is committed first and its event is published later (`pending`), by the same
handler; `SendMessage` publishes none. Published events reach the client in order
while its connection is in the room, and are lost with the connection. A page is read
in the three statements of `ListRoomMessages`; a fetch may fail at any point, and any
number of them may run at once. Of the sends only the optimistic bubbles are here; own
edits and deletes are not (`Frontend/Mutations.lean`).
-/

namespace ConvoyChat.System

open ConvoyChat.Lib ConvoyChat.Store ConvoyChat.Frontend

/-- The JSON texts of ids and times. -/
structure Wire where
  uuidText : UUID → String
  timeText : Time → String
  parseTime : String → Option Time
  uuid_inj : Function.Injective uuidText
  time_ne : ∀ t, timeText t ≠ ""
  parse_time : ∀ t, parseTime (timeText t) = some t

def typeText : MessageType → String
  | .text => "text"
  | .image => "image"
  | .file => "file"
  | .system => "system"

def PAGE_SIZE : ℕ := 50

def MAX_RESYNC_PAGES : ℕ := 20

/-- The events of a room that the cache of messages listens to. -/
inductive LiveEvent
  | messageNew (row : Message) (user : ConvoyChat.UserSummary) (clientID : String)
  | messageEdited (id : UUID) (content : String) (editedAt : Time)
  | messageDeleted (id : UUID) (deletedAt : Time)
  | messageReadBy (messageID userID : UUID)
  | messageReaction (messageID userID : UUID) (emoji : String) (action : ReactionAction)
deriving DecidableEq, Repr

/-- The message that an event is about. -/
def LiveEvent.about : LiveEvent → UUID
  | .messageNew row _ _ => row.id
  | .messageEdited id _ _ => id
  | .messageDeleted id _ => id
  | .messageReadBy id _ => id
  | .messageReaction id _ _ _ => id

namespace Wire

variable (w : Wire)

def user (u : ConvoyChat.UserSummary) : Frontend.UserSummary :=
  ⟨w.uuidText u.id, u.username, u.avatarURL⟩

def group (g : MessageReactionSummary) : ReactionGroup :=
  ⟨g.emoji, g.count, g.userIDs.map w.uuidText⟩

/-- A row of the history as the client reads it. -/
def message (m : HistoryMessage) : ChatMessage where
  id := w.uuidText m.id
  roomId := w.uuidText m.roomID
  user := w.user m.user
  content := m.content
  messageType := typeText m.messageType
  editedAt := m.editedAt.map w.timeText
  deletedAt := m.deletedAt.map w.timeText
  createdAt := w.timeText m.createdAt
  updatedAt := w.timeText m.updatedAt
  readBy := m.readBy.map w.uuidText
  reactions := m.reactions.map w.group

/-- `wsMessageToChat` (`messagesCache.ts` lines 44–56) of a `message.new`. -/
def wsMessageToChat (row : Message) (user : ConvoyChat.UserSummary) : ChatMessage where
  id := w.uuidText row.id
  roomId := w.uuidText row.roomID
  user := w.user user
  content := some row.content
  messageType := "text"
  createdAt := w.timeText row.createdAt
  updatedAt := w.timeText row.createdAt
  readBy := []
  reactions := []

/-- What `routeEvent` does with an event. -/
def update (currentUserId : String) : LiveEvent → CacheUpdate
  | .messageNew row user clientID =>
    .messageNew ⟨w.wsMessageToChat row user, some clientID⟩ currentUserId
  | .messageEdited id content editedAt =>
    .messageEdited (w.uuidText id) content (w.timeText editedAt)
  | .messageDeleted id deletedAt => .messageDeleted (w.uuidText id) (w.timeText deletedAt)
  | .messageReadBy id userID => .messageReadBy (w.uuidText id) (w.uuidText userID)
  | .messageReaction id userID emoji action =>
    .messageReaction (w.uuidText id) (w.uuidText userID) emoji action

end Wire

/-- Where the request for a page is. -/
inductive FetchStage
  | asked
  /-- the first statement of `ListRoomMessages` has been executed -/
  | listed (rows : List HistoryMessage)
  /-- and the second -/
  | readBy (rows : List HistoryMessage)
  /-- and the third; the page is on its way -/
  | answered (rows : List HistoryMessage)

/-- The initial query, or a call of `resyncRoom` with its local variables. -/
structure Fetch where
  /-- `none` for the initial query -/
  lastSeen : Option String
  collected : List ChatMessage
  cursor : Option String
  /-- iterations of the loop so far -/
  page : ℕ
  stage : FetchStage

structure RoomSync where
  tables : MessageTables
  /-- committed, with the event not yet published -/
  pending : List LiveEvent
  /-- the connection of the client is in the room -/
  subscribed : Bool
  queue : List LiveEvent
  query : RoomQuery
  fetches : ℕ → Option Fetch

inductive SyncAction
  /-- `InsertMessage` of `handleMessageSend`, or (not `live`) of `SendMessage` -/
  | insert (now : Time) (id userID : UUID) (content : String) (messageType : MessageType)
      (clientID : String) (live : Bool)
  | edit (now : Time) (id : UUID) (content : String)
  | delete (now : Time) (id : UUID)
  | markRead (now : Time) (rowID id userID : UUID)
  | toggle (now : Time) (rowID id userID : UUID) (emoji : String)
  /-- a toggle that found no reaction, and lost its insert to another one -/
  | toggleRaced (id userID : UUID) (emoji : String)
  /-- the `i`-th pending event reaches the connection of the client -/
  | publish (i : ℕ)
  /-- its publication fails, or the client is not in the room -/
  | lose (i : ℕ)
  | subscribe
  /-- the connection ends, with the events on their way -/
  | unsubscribe
  /-- `routeEvent` -/
  | deliver
  /-- the client writes an optimistic bubble, or changes its status -/
  | send (bubble : ChatMessage)
  | sendFailed (clientId : String)
  | retried (clientId : String)
  /-- the initial query starts -/
  | load (n : ℕ)
  /-- `resyncRoom` is called -/
  | resync (n : ℕ)
  | list (n : ℕ)
  | readReceipts (n : ℕ)
  | readReactions (n : ℕ)
  /-- the page arrives -/
  | receive (n : ℕ)
  /-- `api.get` rejects -/
  | fail (n : ℕ)

namespace RoomSync

def start (users : List ConvoyChat.UserSummary) : RoomSync where
  tables := ⟨[], users, [], [], List.nodup_nil, by simp⟩
  pending := []
  subscribed := false
  queue := []
  query := ⟨none, fun _ => none⟩
  fetches := fun _ => none

def setFetch (s : RoomSync) (n : ℕ) (f : Option Fetch) : RoomSync :=
  { s with fetches := Function.update s.fetches n f }

def updateCache (s : RoomSync) (u : CacheUpdate) : RoomSync := { s with query := u.apply s.query }

/-- A write is committed; its event is not published yet. -/
def commit (s : RoomSync) (tables : MessageTables) (e : LiveEvent) : RoomSync :=
  { s with tables, pending := s.pending ++ [e] }

section

variable (w : Wire) (roomID : UUID) (currentUserId : String)

/-- Model of `resyncRoom` up to its first request (lines 131–137). -/
def resyncRoom (s : RoomSync) (n : ℕ) : RoomSync :=
  match newestConfirmedCreatedAt s.query.data with
  | none => s
  | some lastSeen =>
    if lastSeen = "" then s else s.setFetch n (some ⟨some lastSeen, [], none, 0, .asked⟩)

/-- The end of `resyncRoom` (lines 148–154). -/
def merge (s : RoomSync) (n : ℕ) (collected : List ChatMessage) : RoomSync :=
  if collected = [] then s.setFetch n none
  else (s.updateCache (.resynced (collected.map fun message => ⟨message, none⟩)
    currentUserId)).setFetch n none

/-- The rest of an iteration of `resyncRoom` (lines 142–146). -/
def receivePage (s : RoomSync) (n : ℕ) (f : Fetch) (lastSeen : String) (page : List ChatMessage) :
    RoomSync :=
  let collected := f.collected ++ page
  match page.getLast? with
  | some oldest =>
    if page.length < PAGE_SIZE ∨ oldest.createdAt ≤ lastSeen ∨ f.page + 1 = MAX_RESYNC_PAGES then
      s.merge currentUserId n collected
    else
      s.setFetch n (some ⟨some lastSeen, collected, some oldest.createdAt, f.page + 1, .asked⟩)
  | none => s.merge currentUserId n collected

/-- The page of `ListRoomMessages` for the cursor of a fetch. -/
def listPage (s : RoomSync) (f : Fetch) : List HistoryMessage :=
  queryRoomMessages s.tables roomID PAGE_SIZE (f.cursor.bind w.parseTime)

/-- A statement of the request of fetch `n`. -/
def advance (s : RoomSync) (n : ℕ) (next : Fetch → Option FetchStage) : Option RoomSync :=
  match s.fetches n with
  | some f => (next f).map fun stage => s.setFetch n (some { f with stage })
  | none => none

def step (s : RoomSync) : SyncAction → Option RoomSync
  | .insert now id userID content messageType clientID live =>
    match insertMessage now id roomID userID content messageType s.tables,
        s.tables.users.find? fun u => u.id = userID with
    | .ok tables, some user =>
      let row : Message := ⟨id, roomID, userID, content, messageType, none, none, now, now⟩
      if live then some (s.commit tables (.messageNew row user clientID))
      else some { s with tables }
    | _, _ => none
  | .edit now id content =>
    match editMessage now id content s.tables with
    | .ok (editedAt, tables) => some (s.commit tables (.messageEdited id content editedAt))
    | .error _ => none
  | .delete now id =>
    match softDeleteMessage now id s.tables with
    | .ok (deletedAt, tables) => some (s.commit tables (.messageDeleted id deletedAt))
    | .error _ => none
  | .markRead now rowID id userID =>
    match markMessageRead now rowID id userID s.tables with
    | .ok (false, tables) => some (s.commit tables (.messageReadBy id userID))
    | _ => none
  | .toggle now rowID id userID emoji =>
    match toggleReaction now rowID id userID emoji s.tables with
    | .ok (added, tables) =>
      some (s.commit tables (.messageReaction id userID emoji (if added then .added else .removed)))
    | .error _ => none
  | .toggleRaced id userID emoji =>
    if s.tables.reactions.any (isReaction id userID emoji) then
      some (s.commit s.tables (.messageReaction id userID emoji .added))
    else none
  | .publish i =>
    match s.pending[i]? with
    | some e =>
      if s.subscribed then some { s with pending := s.pending.eraseIdx i, queue := s.queue ++ [e] }
      else none
    | none => none
  | .lose i =>
    match s.pending[i]? with
    | some _ => some { s with pending := s.pending.eraseIdx i }
    | none => none
  | .subscribe => some { s with subscribed := true }
  | .unsubscribe => some { s with subscribed := false, queue := [] }
  | .deliver =>
    match s.queue with
    | e :: rest => some ({ s with queue := rest }.updateCache (w.update currentUserId e))
    | [] => none
  | .send bubble =>
    if s.query.data.isSome ∧ bubble.status.isSome then
      some (s.updateCache (.sent bubble currentUserId))
    else none
  | .sendFailed clientId => some (s.updateCache (.sendFailed clientId))
  | .retried clientId => some (s.updateCache (.retried clientId))
  | .load n =>
    match s.query.data, s.fetches n with
    | none, none => some (s.setFetch n (some ⟨none, [], none, 0, .asked⟩))
    | _, _ => none
  | .resync n =>
    match s.fetches n with
    | none => some (s.resyncRoom n)
    | some _ => none
  | .list n =>
    s.advance n fun f =>
      match f.stage with
      | .asked => some (.listed (s.listPage w roomID f))
      | _ => none
  | .readReceipts n =>
    s.advance n fun f =>
      match f.stage with
      | .listed rows => some (.readBy (fillReadBy s.tables.reads rows))
      | _ => none
  | .readReactions n =>
    s.advance n fun f =>
      match f.stage with
      | .readBy rows => some (.answered (fillReactions s.tables.reactions rows))
      | _ => none
  | .receive n =>
    match s.fetches n with
    | some f =>
      match f.stage, f.lastSeen with
      | .answered rows, some lastSeen =>
        some (s.receivePage currentUserId n f lastSeen (rows.map w.message))
      | .answered rows, none =>
        match s.query.data with
        | none =>
          some ((s.updateCache (.fetched ⟨[rows.map w.message], [none]⟩)).setFetch n none)
        | some _ => some (s.setFetch n none)
      | _, _ => none
    | none => none
  | .fail n =>
    match s.fetches n with
    | some _ => some (s.setFetch n none)
    | none => none

end

end RoomSync

/-! ## What a step does -/

/-- The steps with what each of them needs and does. -/
inductive SyncMove (w : Wire) (roomID : UUID) (uid : String) (s : RoomSync) :
    SyncAction → RoomSync → Prop
  | insertLive {now : Time} {id userID : UUID} {content : String} {messageType : MessageType}
      {clientID : String} {tables : MessageTables} {user : ConvoyChat.UserSummary}
      (hinsert : insertMessage now id roomID userID content messageType s.tables = .ok tables)
      (huser : (s.tables.users.find? fun u => u.id = userID) = some user) :
      SyncMove w roomID uid s (.insert now id userID content messageType clientID true)
        (s.commit tables (.messageNew
          ⟨id, roomID, userID, content, messageType, none, none, now, now⟩ user clientID))
  | insertSilent {now : Time} {id userID : UUID} {content : String} {messageType : MessageType}
      {clientID : String} {tables : MessageTables} {user : ConvoyChat.UserSummary}
      (hinsert : insertMessage now id roomID userID content messageType s.tables = .ok tables)
      (huser : (s.tables.users.find? fun u => u.id = userID) = some user) :
      SyncMove w roomID uid s (.insert now id userID content messageType clientID false)
        { s with tables }
  | edit {now : Time} {id : UUID} {content : String} {editedAt : Time} {tables : MessageTables}
      (hedit : editMessage now id content s.tables = .ok (editedAt, tables)) :
      SyncMove w roomID uid s (.edit now id content)
        (s.commit tables (.messageEdited id content editedAt))
  | delete {now : Time} {id : UUID} {deletedAt : Time} {tables : MessageTables}
      (hdelete : softDeleteMessage now id s.tables = .ok (deletedAt, tables)) :
      SyncMove w roomID uid s (.delete now id) (s.commit tables (.messageDeleted id deletedAt))
  | markRead {now : Time} {rowID id userID : UUID} {tables : MessageTables}
      (hread : markMessageRead now rowID id userID s.tables = .ok (false, tables)) :
      SyncMove w roomID uid s (.markRead now rowID id userID)
        (s.commit tables (.messageReadBy id userID))
  | toggle {now : Time} {rowID id userID : UUID} {emoji : String} {added : Bool}
      {tables : MessageTables}
      (htoggle : toggleReaction now rowID id userID emoji s.tables = .ok (added, tables)) :
      SyncMove w roomID uid s (.toggle now rowID id userID emoji)
        (s.commit tables (.messageReaction id userID emoji (if added then .added else .removed)))
  | toggleRaced {id userID : UUID} {emoji : String}
      (hheld : s.tables.reactions.any (isReaction id userID emoji) = true) :
      SyncMove w roomID uid s (.toggleRaced id userID emoji)
        (s.commit s.tables (.messageReaction id userID emoji .added))
  | publish {i : ℕ} {e : LiveEvent} (hi : s.pending[i]? = some e) (hsub : s.subscribed = true) :
      SyncMove w roomID uid s (.publish i)
        { s with pending := s.pending.eraseIdx i, queue := s.queue ++ [e] }
  | lose {i : ℕ} {e : LiveEvent} (hi : s.pending[i]? = some e) :
      SyncMove w roomID uid s (.lose i) { s with pending := s.pending.eraseIdx i }
  | subscribe : SyncMove w roomID uid s .subscribe { s with subscribed := true }
  | unsubscribe : SyncMove w roomID uid s .unsubscribe { s with subscribed := false, queue := [] }
  | deliver {e : LiveEvent} {rest : List LiveEvent} (hqueue : s.queue = e :: rest) :
      SyncMove w roomID uid s .deliver ({ s with queue := rest }.updateCache (w.update uid e))
  | send {bubble : ChatMessage} (hdata : s.query.data.isSome = true)
      (hstatus : bubble.status.isSome = true) :
      SyncMove w roomID uid s (.send bubble) (s.updateCache (.sent bubble uid))
  | sendFailed {clientId : String} :
      SyncMove w roomID uid s (.sendFailed clientId) (s.updateCache (.sendFailed clientId))
  | retried {clientId : String} :
      SyncMove w roomID uid s (.retried clientId) (s.updateCache (.retried clientId))
  | load {n : ℕ} (hdata : s.query.data = none) (hf : s.fetches n = none) :
      SyncMove w roomID uid s (.load n) (s.setFetch n (some ⟨none, [], none, 0, .asked⟩))
  | resync {n : ℕ} (hf : s.fetches n = none) :
      SyncMove w roomID uid s (.resync n) (s.resyncRoom n)
  | list {n : ℕ} {f : Fetch} (hf : s.fetches n = some f) (hstage : f.stage = .asked) :
      SyncMove w roomID uid s (.list n)
        (s.setFetch n (some { f with stage := .listed (s.listPage w roomID f) }))
  | readReceipts {n : ℕ} {f : Fetch} {rows : List HistoryMessage} (hf : s.fetches n = some f)
      (hstage : f.stage = .listed rows) :
      SyncMove w roomID uid s (.readReceipts n)
        (s.setFetch n (some { f with stage := .readBy (fillReadBy s.tables.reads rows) }))
  | readReactions {n : ℕ} {f : Fetch} {rows : List HistoryMessage} (hf : s.fetches n = some f)
      (hstage : f.stage = .readBy rows) :
      SyncMove w roomID uid s (.readReactions n)
        (s.setFetch n (some { f with stage := .answered (fillReactions s.tables.reactions rows) }))
  | receivePage {n : ℕ} {f : Fetch} {rows : List HistoryMessage} {lastSeen : String}
      (hf : s.fetches n = some f) (hstage : f.stage = .answered rows)
      (hseen : f.lastSeen = some lastSeen) :
      SyncMove w roomID uid s (.receive n)
        (s.receivePage uid n f lastSeen (rows.map w.message))
  | loaded {n : ℕ} {f : Fetch} {rows : List HistoryMessage} (hf : s.fetches n = some f)
      (hstage : f.stage = .answered rows) (hseen : f.lastSeen = none)
        (hdata : s.query.data = none) :
      SyncMove w roomID uid s (.receive n)
        ((s.updateCache (.fetched ⟨[rows.map w.message], [none]⟩)).setFetch n none)
  /-- another initial query was faster -/
  | loadedBefore {n : ℕ} {f : Fetch} (hf : s.fetches n = some f) (hseen : f.lastSeen = none) :
      SyncMove w roomID uid s (.receive n) (s.setFetch n none)
  | fail {n : ℕ} {f : Fetch} (hf : s.fetches n = some f) :
      SyncMove w roomID uid s (.fail n) (s.setFetch n none)

section

variable {w : Wire} {roomID : UUID} {uid : String} {s s' : RoomSync} {n : ℕ}

theorem advance_some {next : Fetch → Option FetchStage} (h : s.advance n next = some s') :
    ∃ f stage, s.fetches n = some f ∧ next f = some stage ∧
      s' = s.setFetch n (some { f with stage }) := by
  unfold RoomSync.advance at h
  split at h
  · rename_i f hf
    obtain ⟨stage, hstage, rfl⟩ := Option.map_eq_some_iff.mp h
    exact ⟨f, stage, hf, hstage, rfl⟩
  · cases h

theorem receive_move (h : s.step w roomID uid (.receive n) = some s') :
    SyncMove w roomID uid s (.receive n) s' := by
  simp only [RoomSync.step] at h
  split at h
  · rename_i f hf
    split at h
    · rename_i rows lastSeen hstage hseen
      cases h
      exact .receivePage hf hstage hseen
    · rename_i rows hstage hseen
      split at h
      · cases h
        exact .loaded hf hstage hseen ‹_›
      · cases h
        exact .loadedBefore hf hseen
    · cases h
  · cases h

/-- A step is a `SyncMove`. -/
theorem step_move {a : SyncAction} (h : s.step w roomID uid a = some s') :
    SyncMove w roomID uid s a s' := by
  cases a with
  | insert now id userID content messageType clientID live =>
    simp only [RoomSync.step] at h
    split at h
    · rename_i tables user hinsert huser
      cases live with
      | true =>
        cases h
        exact .insertLive hinsert huser
      | false =>
        cases h
        exact .insertSilent hinsert huser
    · cases h
  | edit now id content =>
    simp only [RoomSync.step] at h
    split at h
    · cases h
      exact .edit ‹_›
    · cases h
  | delete now id =>
    simp only [RoomSync.step] at h
    split at h
    · cases h
      exact .delete ‹_›
    · cases h
  | markRead now rowID id userID =>
    simp only [RoomSync.step] at h
    split at h
    · cases h
      exact .markRead ‹_›
    · cases h
  | toggle now rowID id userID emoji =>
    simp only [RoomSync.step] at h
    split at h
    · cases h
      exact .toggle ‹_›
    · cases h
  | toggleRaced id userID emoji =>
    simp only [RoomSync.step] at h
    split_ifs at h with hheld
    cases h
    exact .toggleRaced hheld
  | publish i =>
    simp only [RoomSync.step] at h
    split at h
    · split_ifs at h with hsub
      cases h
      exact .publish ‹_› hsub
    · cases h
  | lose i =>
    simp only [RoomSync.step] at h
    split at h
    · cases h
      exact .lose ‹_›
    · cases h
  | subscribe =>
    cases h
    exact .subscribe
  | unsubscribe =>
    cases h
    exact .unsubscribe
  | deliver =>
    simp only [RoomSync.step] at h
    split at h
    · cases h
      exact .deliver ‹_›
    · cases h
  | send bubble =>
    simp only [RoomSync.step] at h
    split_ifs at h with hbubble
    cases h
    exact .send hbubble.1 hbubble.2
  | sendFailed clientId =>
    cases h
    exact .sendFailed
  | retried clientId =>
    cases h
    exact .retried
  | load n =>
    simp only [RoomSync.step] at h
    split at h
    · cases h
      exact .load ‹_› ‹_›
    · cases h
  | resync n =>
    simp only [RoomSync.step] at h
    split at h
    · cases h
      exact .resync ‹_›
    · cases h
  | list n =>
    obtain ⟨f, stage, hf, hstage, rfl⟩ := advance_some h
    split at hstage
    · cases hstage
      exact .list hf ‹_›
    · cases hstage
  | readReceipts n =>
    obtain ⟨f, stage, hf, hstage, rfl⟩ := advance_some h
    split at hstage
    · cases hstage
      exact .readReceipts hf ‹_›
    · cases hstage
  | readReactions n =>
    obtain ⟨f, stage, hf, hstage, rfl⟩ := advance_some h
    split at hstage
    · cases hstage
      exact .readReactions hf ‹_›
    · cases hstage
  | receive n => exact receive_move h
  | fail n =>
    simp only [RoomSync.step] at h
    split at h
    · cases h
      exact .fail ‹_›
    · cases h

/-- `resyncRoom` returns at once, or asks for its first page. -/
theorem resyncRoom_cases (s : RoomSync) (n : ℕ) : s.resyncRoom n = s ∨
    ∃ lastSeen, newestConfirmedCreatedAt s.query.data = some lastSeen ∧
      s.resyncRoom n = s.setFetch n (some ⟨some lastSeen, [], none, 0, .asked⟩) := by
  unfold RoomSync.resyncRoom
  split
  · exact .inl rfl
  · rename_i lastSeen hnewest
    split_ifs
    · exact .inl rfl
    · exact .inr ⟨lastSeen, hnewest, rfl⟩

end

end ConvoyChat.System
