import ConvoyChat.Handlers.ColumnTypes
import ConvoyChat.Handlers.MessageChanges
import ConvoyChat.Store.MessageWrites
import ConvoyChat.System.Sending
import ConvoyChat.System.World

/-!
# Who writes to the messages of a room

The accounts, the rooms, the messages with their reactions and receipts, and every
request and every frame in progress. Each request is a procedure over the calls of its
handler; between two calls of one request, others take any number of steps. A call may
fail, and it may fail after it has taken effect.

The other endpoints (`GET`, `/auth`) have no statement on these tables apart from the
insert of `Signup`, and `is_system_admin` is set by the command line.

* `outsider_writes_nothing`: a request or frame that begins when its user is neither an
  active member of a room nor a system admin writes nothing to that room as long as
  this remains so, apart from edits and deletions of the user's own messages.
* `kicked_member_edits`: a member who was removed can still edit.
-/

namespace ConvoyChat.System

open ConvoyChat.Lib ConvoyChat.Store ConvoyChat.Handlers ConvoyChat.Websocket

/-! ## Requests -/

/-- The calls of all handlers. -/
inductive SiteOp
  | cursor (o : CursorOp)
  | send (o : SendOp)
  | change (o : ChangeOp)
  | conn (o : ConnOp)
deriving DecidableEq, Repr

abbrev SiteOp.Res : SiteOp → Type
  | cursor o => o.Res
  | send o => o.Res
  | change o => o.Res
  | conn o => o.Res

/-- What a request is answered with; a frame has no answer. -/
inductive Reply
  | response (response : Response)
  | sent (message : MessageWithAuthor)
  | edited (response : EditMessageResponse)
  | frame
deriving DecidableEq, Repr

abbrev SiteProc := Proc SiteOp SiteOp.Res Reply

/-- The requests that write, and the frames of the connections. -/
inductive SiteRequest
  | room (req : RoomRequest)
  | sendMessage (userID : UUID) (roomParam : String) (body : Option SendMessageRequest)
    (key : String)
  | deleteMessage (userID : UUID) (messageParam : String)
  | editMessage (userID : UUID) (messageParam : String) (body : Option String)
  | toggleReaction (userID : UUID) (messageParam : String) (body : Option String)
  | markRoomRead (userID : UUID) (roomParam : String)
  | frame (c : Client) (data : Option InboundEnvelope)

def roomCaller : RoomRequest → UUID
  | .createRoom userID _ => userID
  | .inviteMember userID _ _ => userID
  | .joinChannel userID _ => userID
  | .leaveRoom userID _ => userID
  | .changeMemberRole callerID _ _ _ => callerID
  | .removeMember callerID _ _ => callerID

/-- The user a request is made by. -/
def SiteRequest.userID : SiteRequest → UUID
  | room req => roomCaller req
  | sendMessage userID _ _ _ => userID
  | deleteMessage userID _ => userID
  | editMessage userID _ _ => userID
  | toggleReaction userID _ _ => userID
  | markRoomRead userID _ => userID
  | frame c _ => c.userID

def SiteRequest.handler (parse : String → Option UUID) : SiteRequest → SiteProc
  | .room req => do
    let response ← (req.handler parse).embed (fun o => SiteOp.cursor (.room o)) fun _ res => res
    return .response response
  | .sendMessage userID roomParam body key => do
    let out ← (Handlers.sendMessage parse userID roomParam body key).embed SiteOp.send
      fun _ res => res
    match out with
    | .error response => return .response response
    | .ok message => return .sent message
  | .deleteMessage userID messageParam => do
    let response ← (Handlers.deleteMessage parse userID messageParam).embed SiteOp.change
      fun _ res => res
    return .response response
  | .editMessage userID messageParam body => do
    let out ← (Handlers.editMessage parse userID messageParam body).embed SiteOp.change
      fun _ res => res
    match out with
    | .error response => return .response response
    | .ok response => return .edited response
  | .toggleReaction userID messageParam body => do
    let response ← (Handlers.toggleReaction parse userID messageParam body).embed SiteOp.change
      fun _ res => res
    return .response response
  | .markRoomRead userID roomParam => do
    let response ← (Handlers.markRoomRead parse userID roomParam).embed SiteOp.cursor
      fun _ res => res
    return .response response
  | .frame c data => do
    let _ ← (dispatch parse c data).embed SiteOp.conn fun _ res => res
    return .frame

/-! ## The store -/

structure Site where
  accounts : List Account
  /-- rooms and memberships -/
  backend : Backend
  tables : MessageTables
  keys : IdempotencyKey → Bool
  requests : ℕ → Option SiteProc

namespace Site

/-- Nothing is stored yet. -/
def start : Site where
  accounts := []
  backend := ⟨⟨[], [], []⟩, 0, []⟩
  tables := ⟨[], [], [], [], by simp, by simp⟩
  keys _ := false
  requests _ := none

def tick (s : Site) : Site := { s with backend := { s.backend with calls := s.backend.calls + 1 } }

/-- A call that returns a result and the message tables after it, or fails. -/
def write {α : Type} (s : Site) (out : Except StoreErr (α × MessageTables)) :
    Except StoreErr α × Site :=
  match out with
  | .ok (a, t) => (.ok a, { s.tick with tables := t })
  | .error e => (.error e, s.tick)

/-- A write of a text that the column does not take. -/
def writeText {α : Type} (s : Site) (field : TextField) (text : String)
    (out : Except StoreErr (α × MessageTables)) : Except StoreErr α × Site :=
  if field.Accepts text then s.write out else (.error .internal, s.tick)

/-- `SELECT … FROM users WHERE id = $1`. -/
def account (s : Site) (userID : UUID) : Except StoreErr Account :=
  match s.accounts.find? fun a => a.id = userID with
  | some a => .ok a
  | none => .error .notFound

/-- The row that `InsertMessage` returns, joined with its author. -/
def inserted (id : UUID) (t : MessageTables) :
    Except StoreErr (MessageWithAuthor × MessageTables) :=
  match (t.messages.find? fun m => m.id = id).bind (joinAuthor t.users) with
  | some row => .ok (row.toMessageWithAuthor, t)
  | none => .error .internal

end Site

/-- What becomes of a call. -/
inductive Outcome
  | done
  /-- it is not executed -/
  | failed
  /-- it is executed, and its answer is lost -/
  | lost
  /-- a `ToggleReaction` that meets the insert of another one: `ON CONFLICT DO NOTHING` -/
  | raced
deriving DecidableEq, Repr

section

variable (parse : String → Option UUID) (stamps : ℕ → Stamp)

def Site.insertMessage (s : Site) (roomID userID : UUID) (content : String)
    (messageType : MessageType) : Except StoreErr MessageWithAuthor × Site :=
  let st := stamps s.backend.calls
  s.writeText .messageContent content do
    let t ← Store.insertMessage st.now (st.uuid 0) roomID userID content messageType s.tables
    Site.inserted (st.uuid 0) t

/-- Execute a call of `SendMessage`. -/
def serveSend (s : Site) : (o : SendOp) → o.Res × Site
  | .getMembership r u => (Store.getMembership r u s.backend.db, s.tick)
  | .reserveMessageIdempotencyKey r u k =>
    (.ok (!s.keys (r, u, k)), { s.tick with keys := Function.update s.keys (r, u, k) true })
  | .insertMessage r u content messageType => s.insertMessage stamps r u content messageType
  | .releaseMessageIdempotencyKey r u k =>
    (.ok (), { s.tick with keys := Function.update s.keys (r, u, k) false })

/-- Execute a call of the handlers that change a message. -/
def serveChange (s : Site) (outcome : Outcome) : (o : ChangeOp) → o.Res × Site
  | .getMessageByID id => (Store.getMessageByID id s.tables, s.tick)
  | .getMembership r u => (Store.getMembership r u s.backend.db, s.tick)
  | .getUserByID u => (s.account u, s.tick)
  | .softDeleteMessage id =>
    s.write (Store.softDeleteMessage (stamps s.backend.calls).now id s.tables)
  | .editMessage id content =>
    s.writeText .messageContent content
      (Store.editMessage (stamps s.backend.calls).now id content s.tables)
  | .toggleReaction id u emoji =>
    let st := stamps s.backend.calls
    if outcome = .raced ∧ s.tables.reactions.any (isReaction id u emoji) then (.ok true, s.tick)
    else s.writeText .emoji emoji (Store.toggleReaction st.now (st.uuid 0) id u emoji s.tables)
  | .publishRoomEvent _ _ => (.ok (), s.tick)

/-- Execute a call of `MarkRoomRead` or of a room handler. -/
def serveCursor (s : Site) : (o : CursorOp) → o.Res × Site
  | .room o => ((o.serve stamps s.backend).1, { s with backend := (o.serve stamps s.backend).2 })
  | .advanceLastRead r u =>
    let out := s.backend.write (Store.advanceLastRead (stamps s.backend.calls).now r u s.backend.db)
    (out.1, { s with backend := out.2 })

/-- Execute a call of a frame; the Hub, the Broker, Redis and the clock answer `env`. -/
def serveConn (s : Site) (env : (o : ConnOp) → o.Res) : (o : ConnOp) → o.Res × Site
  | .call (.getMembership r u) => (Store.getMembership r u s.backend.db, s.tick)
  | .call (.insertMessage r u content messageType) => s.insertMessage stamps r u content messageType
  | .call (.getMessageByID id) => (Store.getMessageByID id s.tables, s.tick)
  | .call (.markMessageRead id u) =>
    let st := stamps s.backend.calls
    s.write (Store.markMessageRead st.now (st.uuid 0) id u s.tables)
  | .call (.listRoomsForUser u) => (.ok (Store.listRoomsForUser u s.backend.db), s.tick)
  | o => (env o, s.tick)

/-- The error of a call that did not go through; what cannot fail answers `env`. -/
def SiteOp.failed (env : (o : ConnOp) → o.Res) : (o : SiteOp) → o.Res
  | .cursor (.room o) => System.failed o
  | .cursor (.advanceLastRead _ _) => .error .internal
  | .send (.getMembership _ _) => .error .internal
  | .send (.reserveMessageIdempotencyKey _ _ _) => .error .internal
  | .send (.insertMessage _ _ _ _) => .error .internal
  | .send (.releaseMessageIdempotencyKey _ _ _) => .error .internal
  | .change (.getMessageByID _) => .error .internal
  | .change (.getMembership _ _) => .error .internal
  | .change (.getUserByID _) => .error .internal
  | .change (.softDeleteMessage _) => .error .internal
  | .change (.editMessage _ _) => .error .internal
  | .change (.toggleReaction _ _ _) => .error .internal
  | .change (.publishRoomEvent _ _) => .error .internal
  | .conn (.call (.getMembership _ _)) => .error .internal
  | .conn (.call (.insertMessage _ _ _ _)) => .error .internal
  | .conn (.call (.getMessageByID _)) => .error .internal
  | .conn (.call (.markMessageRead _ _)) => .error .internal
  | .conn (.call (.listRoomsForUser _)) => .error .internal
  | .conn o => env o

/-- Execute a call. -/
def Site.execute (s : Site) (outcome : Outcome) (env : (o : ConnOp) → o.Res) :
    (o : SiteOp) → o.Res × Site
  | .cursor o => serveCursor stamps s o
  | .send o => serveSend stamps s o
  | .change o => serveChange stamps s outcome o
  | .conn o => serveConn stamps s env o

/-- The answer to a call, and the tables after it. -/
def Site.answer (s : Site) (outcome : Outcome) (env : (o : ConnOp) → o.Res) (o : SiteOp) :
    o.Res × Site :=
  match outcome with
  | .failed => (o.failed env, s)
  | .lost => (o.failed env, (s.execute stamps outcome env o).2)
  | _ => s.execute stamps outcome env o

inductive SiteAction
  /-- the insert of `CreateUser` -/
  | signup (account : Account)
  /-- the update of `PromoteToSystemAdmin` -/
  | promote (email : String)
  /-- a request or a frame arrives -/
  | request (n : ℕ) (req : SiteRequest)
  /-- it makes its next call -/
  | serve (n : ℕ) (outcome : Outcome) (env : (o : ConnOp) → o.Res)
  /-- the TTL of a key runs out -/
  | expire (key : IdempotencyKey)

/-- `INSERT INTO users`: ids, usernames and emails are unique. -/
def Site.addUser (s : Site) (a : Account) : Option Site :=
  if ∀ b ∈ s.accounts, b.id ≠ a.id ∧ b.username ≠ a.username ∧ b.email ≠ a.email then
    some { s with
      accounts := s.accounts ++ [{ a with isSystemAdmin := false }]
      backend := { s.backend with
        db := { s.backend.db with users := s.backend.db.users ++ [⟨a.id, a.username⟩] } }
      tables := { s.tables with
        users := s.tables.users ++ [a.summary]
        author := by
          intro m hm
          obtain ⟨u, hu, hid⟩ := s.tables.author m hm
          exact ⟨u, List.mem_append_left _ hu, hid⟩ } }
  else none

def Site.step (s : Site) : SiteAction → Option Site
  | .signup a => s.addUser a
  | .promote email =>
    some { s with
      accounts :=
        updateWhere (fun a => a.email = email) ({ · with isSystemAdmin := true }) s.accounts }
  | .request n req =>
    match s.requests n with
    | none => some { s with requests := Function.update s.requests n (some (req.handler parse)) }
    | some _ => none
  | .serve n outcome env =>
    match s.requests n with
    | some (.op o k) =>
      let out := s.answer stamps outcome env o
      some { out.2 with requests := Function.update s.requests n (some (k out.1)) }
    | _ => none
  | .expire key => some { s with keys := Function.update s.keys key false }

end

/-! ## The rows of a room -/

/-- The messages of `r`, with their reactions and receipts, are the same. -/
structure SameRoom (r : UUID) (t t' : MessageTables) : Prop where
  messages : t'.messages.filter (·.roomID = r) = t.messages.filter (·.roomID = r)
  reactions : t'.reactions.filter (fun x => !t'.isElsewhere r x.messageID) =
    t.reactions.filter fun x => !t.isElsewhere r x.messageID
  reads : t'.reads.filter (fun x => !t'.isElsewhere r x.messageID) =
    t.reads.filter fun x => !t.isElsewhere r x.messageID

/-- From `t` to `t'`, a message of `u` was edited. -/
def OwnEdit (u : UUID) (t t' : MessageTables) : Prop :=
  ∃ m ∈ t.messages, m.userID = u ∧
    ∃ now content editedAt, Store.editMessage now m.id content t = .ok (editedAt, t')

/-- From `t` to `t'`, a message of `u` was soft-deleted. -/
def OwnDelete (u : UUID) (t t' : MessageTables) : Prop :=
  ∃ m ∈ t.messages, m.userID = u ∧
    ∃ now deletedAt, Store.softDeleteMessage now m.id t = .ok (deletedAt, t')

/-- Nothing of `r` was written, own messages of `u` apart. -/
def Untouched (r u : UUID) (t t' : MessageTables) : Prop :=
  SameRoom r t t' ∨ OwnEdit u t t' ∨ OwnDelete u t t'

section

variable {r u id userID rowID roomID : UUID} {now : Time} {content emoji : String}
  {t t' : MessageTables}

theorem SameRoom.refl (t : MessageTables) : SameRoom r t t := ⟨rfl, rfl, rfl⟩

theorem isElsewhere_of (hroom : ∀ m ∈ t.messages, m.id = id → m.roomID ≠ r) :
    t.isElsewhere r id = true := by
  simpa [MessageTables.isElsewhere] using hroom

theorem sameRoom_insert {messageType : MessageType} (hroom : roomID ≠ r)
    (h : Store.insertMessage now id roomID userID content messageType t = .ok t') :
    SameRoom r t t' := by
  obtain ⟨-, hmessages, hreads, hreactions⟩ := insertMessage_ok h
  have helsewhere : ∀ id', t'.isElsewhere r id' = t.isElsewhere r id' := by
    intro id'
    rw [MessageTables.isElsewhere, MessageTables.isElsewhere, hmessages, List.any_append]
    simp [hroom]
  refine ⟨?_, ?_, ?_⟩
  · rw [hmessages, List.filter_append]
    simp [hroom]
  · simp only [hreactions, helsewhere]
  · simp only [hreads, helsewhere]

/-- An update of messages of other rooms. -/
theorem sameRoom_update {p : Message → Bool} {f : Message → Message} {hid : ∀ m, (f m).id = m.id}
    {hauthor : ∀ m, (f m).userID = m.userID} (hroom : ∀ m, (f m).roomID = m.roomID)
    (hp : ∀ m ∈ t.messages, p m = true → m.roomID ≠ r) :
    SameRoom r t (t.updateMessages p f hid hauthor) := by
  have helsewhere : ∀ id', (t.updateMessages p f hid hauthor).isElsewhere r id' =
      t.isElsewhere r id' := by
    intro id'
    show (!(t.messages.map _).any _) = !t.messages.any _
    rw [List.any_map]
    congr 2
    funext m
    simp only [Function.comp_apply]
    split_ifs
    · rw [hid, hroom]
    · rfl
  refine ⟨?_, ?_, ?_⟩
  · show (t.messages.map _).filter _ = _
    rw [List.filter_map]
    have hsame : (fun m : Message => decide (m.roomID = r)) ∘ (fun m => if p m then f m else m) =
        fun m => decide (m.roomID = r) := by
      funext m
      simp only [Function.comp_apply]
      split_ifs
      · rw [hroom]
      · rfl
    rw [hsame]
    refine (List.map_congr_left fun m hm => ?_).trans (List.map_id _)
    obtain ⟨hm, hin⟩ := List.mem_filter.mp hm
    rw [if_neg fun hpm => hp m hm hpm (by simpa using hin)]
    rfl
  · show t.reactions.filter _ = _
    simp only [helsewhere]
  · show t.reads.filter _ = _
    simp only [helsewhere]

theorem isLive_id {m : Message} (h : isLive id m = true) : m.id = id := by
  simp only [isLive, Bool.and_eq_true, decide_eq_true_eq] at h
  exact h.1

theorem sameRoom_toggle {added : Bool} (hroom : ∀ m ∈ t.messages, m.id = id → m.roomID ≠ r)
    (h : Store.toggleReaction now rowID id userID emoji t = .ok (added, t')) : SameRoom r t t' := by
  have helsewhere := isElsewhere_of hroom
  unfold Store.toggleReaction at h
  split_ifs at h
  · cases h
    refine ⟨rfl, ?_, rfl⟩
    show (t.reactions.filter _).filter (fun x : Reaction => !t.isElsewhere r x.messageID) = _
    rw [List.filter_filter]
    refine List.filter_congr fun x _ => ?_
    by_cases hx : x.messageID = id
    · simp [hx, helsewhere]
    · simp [isReaction, hx]
  · cases h
    refine ⟨rfl, ?_, rfl⟩
    show (t.reactions ++ [_]).filter (fun x : Reaction => !t.isElsewhere r x.messageID) = _
    rw [List.filter_append]
    simp [helsewhere]

theorem sameRoom_read {already : Bool} (hroom : ∀ m ∈ t.messages, m.id = id → m.roomID ≠ r)
    (h : Store.markMessageRead now rowID id userID t = .ok (already, t')) : SameRoom r t t' := by
  have helsewhere := isElsewhere_of hroom
  unfold Store.markMessageRead at h
  split_ifs at h
  · cases h
    exact .refl t
  · cases h
    refine ⟨rfl, rfl, ?_⟩
    show (t.reads ++ [_]).filter (fun x : ReadReceipt => !t.isElsewhere r x.messageID) = _
    rw [List.filter_append]
    simp [helsewhere]

/-- No write changes the room or the author of a message. -/
def OriginsKept (t t' : MessageTables) : Prop :=
  ∀ m ∈ t.messages, ∃ m' ∈ t'.messages, m'.id = m.id ∧ m'.roomID = m.roomID ∧ m'.userID = m.userID

theorem OriginsKept.refl (t : MessageTables) : OriginsKept t t :=
  fun m hm => ⟨m, hm, rfl, rfl, rfl⟩

theorem originsKept_of_eq (h : t'.messages = t.messages) : OriginsKept t t' := by
  intro m hm
  rw [← h] at hm
  exact ⟨m, hm, rfl, rfl, rfl⟩

theorem originsKept_update {p : Message → Bool} {f : Message → Message} {hid : ∀ m, (f m).id = m.id}
    {hauthor : ∀ m, (f m).userID = m.userID} (hroom : ∀ m, (f m).roomID = m.roomID) :
    OriginsKept t (t.updateMessages p f hid hauthor) := by
  intro m hm
  refine ⟨_, mem_updateWhere.mpr ⟨m, hm, rfl⟩, ?_⟩
  split_ifs
  · exact ⟨hid m, hroom m, hauthor m⟩
  · exact ⟨rfl, rfl, rfl⟩

/-- What `g` says is true of the messages of `t`. -/
def RecordedIn (g : Origins) (t : MessageTables) : Prop :=
  ∀ m ∈ t.messages, g.roomOf m.id = m.roomID ∧ g.authorOf m.id = m.userID

theorem recordedIn_of_kept {g : Origins} (h : OriginsKept t t') (hrec : RecordedIn g t') :
    RecordedIn g t := by
  intro m hm
  obtain ⟨m', hm', hid, hroom, hauthor⟩ := h m hm
  rw [← hid, ← hroom, ← hauthor]
  exact hrec m' hm'

/-- The rooms and authors that the tables record. -/
def originsIn (t : MessageTables) : Origins where
  roomOf id := ((t.messages.find? fun m => m.id = id).map (·.roomID)).getD 0
  authorOf id := ((t.messages.find? fun m => m.id = id).map (·.userID)).getD 0

theorem originsIn_recorded (t : MessageTables) : RecordedIn (originsIn t) t := by
  intro m hm
  have hfind : (t.messages.find? fun m' => decide (m'.id = m.id)) = some m := by
    obtain ⟨m', hm'⟩ := Option.isSome_iff_exists.mp
      (List.find?_isSome (p := fun m' => decide (m'.id = m.id)) |>.mpr ⟨m, hm, decide_eq_true rfl⟩)
    have hid : m'.id = m.id := by simpa using List.find?_some hm'
    rw [hm', List.inj_on_of_nodup_map t.message_id (List.mem_of_find?_eq_some hm') hm hid]
  simp only [originsIn, hfind]
  exact ⟨rfl, rfl⟩

end

/-! ## Outsiders -/

/-- `u` is neither an active member of `r` nor a system admin. -/
def Site.IsOutsider (s : Site) (r u : UUID) : Prop :=
  ¬ Active s.backend.db r u ∧ ∀ a ∈ s.accounts, a.id = u → a.isSystemAdmin = false

instance (s : Site) (r u : UUID) : Decidable (s.IsOutsider r u) :=
  inferInstanceAs (Decidable (_ ∧ _))

def SiteOp.Trespasses (g : Origins) (r u : UUID) : SiteOp → Prop
  | .cursor _ => False
  | .send o => o.Trespasses r
  | .change o => o.Trespasses g r u
  | .conn o => FrameTrespasses g r o

def SiteOp.TellsOutsider (g : Origins) (r u : UUID) : (o : SiteOp) → o.Res → Prop
  | .cursor _, _ => True
  | .send o, res => o.TellsOutsider r u res
  | .change o, res => o.TellsOutsider g r u res
  | .conn o, res => FrameTellsOutsider g r u o res

section

variable {parse : String → Option UUID} {stamps : ℕ → Stamp} {s s' : Site}
  {r u : UUID} {g : Origins} {outcome : Outcome} {env : (o : ConnOp) → o.Res}

/-- Whatever it is told, no handler writes to `r` for an outsider. -/
theorem handler_outsider (req : SiteRequest) :
    (req.handler parse).Never (SiteOp.TellsOutsider g r req.userID)
      (SiteOp.Trespasses g r req.userID) := by
  cases req with
  | room req =>
    refine .bind ?_ fun _ => .ret _
    exact Proc.Never.embed (fun _ _ _ => trivial) (fun _ h => h)
      (Proc.Never.of_forall (fun _ => not_false) (req.handler parse))
  | sendMessage userID roomParam body key =>
    refine .bind ?_ fun out => ?_
    · exact Proc.Never.embed (fun _ _ h => h) (fun _ h => h)
        (sendMessage_outsider roomParam body key)
    · split
      · exact .ret _
      · exact .ret _
  | deleteMessage userID messageParam =>
    refine .bind ?_ fun _ => .ret _
    exact Proc.Never.embed (fun _ _ h => h) (fun _ h => h) (deleteMessage_outsider messageParam)
  | editMessage userID messageParam body =>
    refine .bind ?_ fun out => ?_
    · exact Proc.Never.embed (fun _ _ h => h) (fun _ h => h)
        (editMessage_outsider messageParam body)
    · split
      · exact .ret _
      · exact .ret _
  | toggleReaction userID messageParam body =>
    refine .bind ?_ fun _ => .ret _
    exact Proc.Never.embed (fun _ _ h => h) (fun _ h => h)
      (toggleReaction_outsider messageParam body)
  | markRoomRead userID roomParam =>
    refine .bind ?_ fun _ => .ret _
    exact Proc.Never.embed (fun _ _ _ => trivial) (fun _ h => h)
      (Proc.Never.of_forall (fun _ => not_false) (markRoomRead parse userID roomParam))
  | frame c data =>
    refine .bind ?_ fun _ => .ret _
    exact Proc.Never.embed (fun _ _ h => h) (fun _ h => h) (dispatch_outsider c data)

theorem getMembership_outsider {r' u' : UUID} (hout : s.IsOutsider r u) (hr : r' = r) (hu : u' = u)
    (m : RoomMember) : Store.getMembership r' u' s.backend.db ≠ .ok m := by
  subst hr hu
  rw [getMembership_of_not_active hout.1]
  exact fun h => by cases h

theorem getMessageByID_ok {id : UUID} {t : MessageTables} {m : Message}
    (h : Store.getMessageByID id t = .ok m) : m ∈ t.messages ∧ m.id = id := by
  unfold Store.getMessageByID at h
  split at h
  · rename_i m' hfind
    cases h
    exact ⟨List.mem_of_find?_eq_some hfind, by simpa using List.find?_some hfind⟩
  · cases h

theorem getMessageByID_recorded {id : UUID} (hrec : RecordedIn g s.tables) {m : Message}
    (h : Store.getMessageByID id s.tables = .ok m) : g.roomOf id = m.roomID ∧
    g.authorOf id = m.userID := by
  obtain ⟨hm, hid⟩ := getMessageByID_ok h
  rw [← hid]
  exact hrec m hm

theorem account_outsider {u' : UUID} (hout : s.IsOutsider r u) (hu : u' = u) {a : Account}
    (h : s.account u' = .ok a) : a.isSystemAdmin = false := by
  unfold Site.account at h
  split at h
  · rename_i a' hfind
    cases h
    exact hout.2 a (List.mem_of_find?_eq_some hfind)
      ((by simpa using List.find?_some hfind : a.id = u').trans hu)
  · cases h

/-- What a call of an outsider is told. -/
theorem execute_tells (hout : s.IsOutsider r u) (hrec : RecordedIn g s.tables) (o : SiteOp) :
    o.TellsOutsider g r u (s.execute stamps outcome env o).1 := by
  cases o with
  | cursor o => trivial
  | send o =>
    cases o with
    | getMembership r' u' => exact fun hr hu m => getMembership_outsider hout hr hu m
    | _ => trivial
  | change o =>
    cases o with
    | getMessageByID id => exact fun m h => getMessageByID_recorded hrec h
    | getMembership r' u' => exact fun hr hu m => getMembership_outsider hout hr hu m
    | getUserByID u' => exact fun hu a h => account_outsider hout hu h
    | _ => trivial
  | conn o =>
    cases o with
    | call o =>
      cases o with
      | getMessageByID id => exact fun m h => (getMessageByID_recorded hrec h).1
      | getMembership r' u' => exact fun hr hu m => getMembership_outsider hout hr hu m
      | _ => trivial
    | _ => trivial

theorem failed_tells (o : SiteOp) : o.TellsOutsider g r u (o.failed env) := by
  cases o with
  | cursor o => trivial
  | send o =>
    cases o with
    | getMembership r' u' => exact fun _ _ m h => by cases h
    | _ => trivial
  | change o =>
    cases o with
    | getMessageByID id => exact fun m h => by cases h
    | getMembership r' u' => exact fun _ _ m h => by cases h
    | getUserByID u' => exact fun _ a h => by cases h
    | _ => trivial
  | conn o =>
    cases o with
    | call o =>
      cases o with
      | getMessageByID id => exact fun m h => by cases h
      | getMembership r' u' => exact fun _ _ m h => by cases h
      | _ => trivial
    | _ => trivial

theorem answer_tells (hout : s.IsOutsider r u) (hrec : RecordedIn g s.tables) (o : SiteOp) :
    o.TellsOutsider g r u (s.answer stamps outcome env o).1 := by
  cases outcome with
  | failed => exact failed_tells o
  | lost => exact failed_tells o
  | done => exact execute_tells hout hrec o
  | raced => exact execute_tells hout hrec o

/-! ## What a call writes -/

/-- The message tables before and after a call. -/
inductive Writes (t : MessageTables) : SiteOp → MessageTables → Prop
  | nothing (o : SiteOp) : Writes t o t
  | sent {now : Time} {id roomID userID : UUID} {content : String} {messageType : MessageType}
      {t' : MessageTables}
        (h : Store.insertMessage now id roomID userID content messageType t = .ok t') :
      Writes t (.send (.insertMessage roomID userID content messageType)) t'
  | sentFrame {now : Time} {id roomID userID : UUID} {content : String} {messageType : MessageType}
      {t' : MessageTables}
        (h : Store.insertMessage now id roomID userID content messageType t = .ok t') :
      Writes t (.conn (.call (.insertMessage roomID userID content messageType))) t'
  | deleted {now deletedAt : Time} {id : UUID} {t' : MessageTables}
      (h : Store.softDeleteMessage now id t = .ok (deletedAt, t')) :
      Writes t (.change (.softDeleteMessage id)) t'
  | edited {now editedAt : Time} {id : UUID} {content : String} {t' : MessageTables}
      (h : Store.editMessage now id content t = .ok (editedAt, t')) :
      Writes t (.change (.editMessage id content)) t'
  | toggled {now : Time} {rowID id userID : UUID} {emoji : String} {added : Bool}
    {t' : MessageTables}
      (h : Store.toggleReaction now rowID id userID emoji t = .ok (added, t')) :
      Writes t (.change (.toggleReaction id userID emoji)) t'
  | read {now : Time} {rowID id userID : UUID} {already : Bool} {t' : MessageTables}
      (h : Store.markMessageRead now rowID id userID t = .ok (already, t')) :
      Writes t (.conn (.call (.markMessageRead id userID))) t'

theorem write_tables {α : Type} (s : Site) (out : Except StoreErr (α × MessageTables)) :
    (s.write out).2.tables = s.tables ∨ ∃ a, out = .ok (a, (s.write out).2.tables) := by
  cases out with
  | error e => exact .inl rfl
  | ok out => exact .inr ⟨out.1, rfl⟩

theorem writeText_tables {α : Type} (s : Site) (field : TextField) (text : String)
    (out : Except StoreErr (α × MessageTables)) :
    (s.writeText field text out).2.tables = s.tables ∨
      ∃ a, out = .ok (a, (s.writeText field text out).2.tables) := by
  unfold Site.writeText
  split_ifs
  · exact write_tables s out
  · exact .inl rfl

theorem inserted_ok {id : UUID} {t t' : MessageTables} {message : MessageWithAuthor}
    (h : Site.inserted id t = .ok (message, t')) : t' = t := by
  unfold Site.inserted at h
  split at h
  · cases h
    rfl
  · cases h

theorem insertMessage_tables (s : Site) (roomID userID : UUID) (content : String)
    (messageType : MessageType) :
    (s.insertMessage stamps roomID userID content messageType).2.tables = s.tables ∨
      ∃ now id, Store.insertMessage now id roomID userID content messageType s.tables =
        .ok (s.insertMessage stamps roomID userID content messageType).2.tables := by
  rcases writeText_tables s .messageContent content
    (Store.insertMessage (stamps s.backend.calls).now ((stamps s.backend.calls).uuid 0) roomID
      userID content messageType s.tables >>= Site.inserted ((stamps s.backend.calls).uuid 0))
    with hsame | ⟨message, hout⟩
  · exact .inl hsame
  · obtain ⟨t, hinsert, hrow⟩ := bind_eq_ok.mp hout
    right
    refine ⟨_, _, hinsert.trans ?_⟩
    rw [← inserted_ok hrow]
    rfl

theorem execute_writes (s : Site) (o : SiteOp) :
    Writes s.tables o (s.execute stamps outcome env o).2.tables := by
  cases o with
  | cursor o =>
    cases o with
    | room o => exact .nothing _
    | advanceLastRead r u => exact .nothing _
  | send o =>
    cases o with
    | insertMessage roomID userID content messageType =>
      show Writes _ _ (s.insertMessage stamps roomID userID content messageType).2.tables
      rcases insertMessage_tables s roomID userID content messageType with hsame | ⟨now, id, h⟩
      · rw [hsame]
        exact .nothing _
      · exact .sent h
    | _ => exact .nothing _
  | change o =>
    cases o with
    | softDeleteMessage id =>
      show Writes _ _
        (s.write (Store.softDeleteMessage (stamps s.backend.calls).now id s.tables)).2.tables
      rcases write_tables s (Store.softDeleteMessage (stamps s.backend.calls).now id s.tables) with
        hsame | ⟨deletedAt, h⟩
      · rw [hsame]
        exact .nothing _
      · exact .deleted h
    | editMessage id content =>
      show Writes _ _ (s.writeText .messageContent content
        (Store.editMessage (stamps s.backend.calls).now id content s.tables)).2.tables
      rcases writeText_tables s .messageContent content
        (Store.editMessage (stamps s.backend.calls).now id content s.tables) with
        hsame | ⟨editedAt, h⟩
      · rw [hsame]
        exact .nothing _
      · exact .edited h
    | toggleReaction id userID emoji =>
      simp only [Site.execute, serveChange]
      split_ifs
      · exact .nothing _
      · rcases writeText_tables s .emoji emoji (Store.toggleReaction (stamps s.backend.calls).now
          ((stamps s.backend.calls).uuid 0) id userID emoji s.tables) with hsame | ⟨added, h⟩
        · rw [hsame]
          exact .nothing _
        · exact .toggled h
    | _ => exact .nothing _
  | conn o =>
    cases o with
    | call o =>
      cases o with
      | insertMessage roomID userID content messageType =>
        show Writes _ _ (s.insertMessage stamps roomID userID content messageType).2.tables
        rcases insertMessage_tables s roomID userID content messageType with hsame | ⟨now, id, h⟩
        · rw [hsame]
          exact .nothing _
        · exact .sentFrame h
      | markMessageRead id userID =>
        simp only [Site.execute, serveConn]
        rcases write_tables s (Store.markMessageRead (stamps s.backend.calls).now
          ((stamps s.backend.calls).uuid 0) id userID s.tables) with hsame | ⟨already, h⟩
        · rw [hsame]
          exact .nothing _
        · exact .read h
      | _ => exact .nothing _
    | _ => exact .nothing _

/-- The same for a call that may fail or whose answer may be lost. -/
theorem answer_writes (s : Site) (o : SiteOp) :
    Writes s.tables o (s.answer stamps outcome env o).2.tables := by
  cases outcome with
  | failed => exact .nothing o
  | lost => exact execute_writes s o
  | done => exact execute_writes s o
  | raced => exact execute_writes s o

theorem Writes.kept {t t' : MessageTables} {o : SiteOp} (h : Writes t o t') : OriginsKept t t' := by
  have hinsert : ∀ {now id roomID userID content messageType t'},
      Store.insertMessage now id roomID userID content messageType t = .ok t' →
      OriginsKept t t' := by
    intro now id roomID userID content messageType t' h m hm
    refine ⟨m, ?_, rfl, rfl, rfl⟩
    rw [(insertMessage_ok h).2.1]
    exact List.mem_append_left _ hm
  cases h with
  | nothing => exact .refl t
  | sent h => exact hinsert h
  | sentFrame h => exact hinsert h
  | deleted h =>
    unfold Store.softDeleteMessage at h
    split_ifs at h
    cases h
    exact originsKept_update fun _ => rfl
  | edited h =>
    unfold Store.editMessage at h
    split_ifs at h
    cases h
    exact originsKept_update fun _ => rfl
  | toggled h =>
    unfold Store.toggleReaction at h
    split_ifs at h <;> cases h <;> exact originsKept_of_eq rfl
  | read h =>
    unfold Store.markMessageRead at h
    split_ifs at h <;> cases h <;> exact originsKept_of_eq rfl

/-- A call that does not trespass writes nothing to `r`. -/
theorem Writes.untouched {t t' : MessageTables} {o : SiteOp} (h : Writes t o t')
    (hrec : RecordedIn g t) (ho : ¬ o.Trespasses g r u) : Untouched r u t t' := by
  have hroom : ∀ {id}, g.roomOf id ≠ r → ∀ m ∈ t.messages, m.id = id → m.roomID ≠ r := by
    intro id hne m hm hid
    rw [← (hrec m hm).1, hid]
    exact hne
  cases h with
  | nothing => exact .inl (.refl t)
  | sent h => exact .inl (sameRoom_insert ho h)
  | sentFrame h => exact .inl (sameRoom_insert ho h)
  | toggled h => exact .inl (sameRoom_toggle (hroom ho) h)
  | read h => exact .inl (sameRoom_read (hroom ho) h)
  | @deleted now deletedAt id t' h =>
    by_cases hin : g.roomOf id = r
    · have hown : g.authorOf id = u := by_contra fun hne => ho ⟨hin, hne⟩
      obtain ⟨m, hm, hid⟩ := (rowsOf_delete h).message
      subst hid
      exact .inr (.inr ⟨m, hm, (hrec m hm).2.symm.trans hown, now, deletedAt, h⟩)
    · unfold Store.softDeleteMessage at h
      split_ifs at h
      cases h
      exact .inl (sameRoom_update (fun _ => rfl) fun m hm hlive => hroom hin m hm (isLive_id hlive))
  | @edited now editedAt id content t' h =>
    by_cases hin : g.roomOf id = r
    · have hown : g.authorOf id = u := by_contra fun hne => ho ⟨hin, hne⟩
      obtain ⟨m, hm, hid⟩ := (rowsOf_edit h).message
      subst hid
      exact .inr (.inl ⟨m, hm, (hrec m hm).2.symm.trans hown, now, content, editedAt, h⟩)
    · unfold Store.editMessage at h
      split_ifs at h
      cases h
      exact .inl (sameRoom_update (fun _ => rfl) fun m hm hlive => hroom hin m hm (isLive_id hlive))

/-! ## Runs -/

variable {a : SiteAction} {n : ℕ}

theorem addUser_eq {account : Account} (h : s.addUser account = some s') :
    s'.requests = s.requests ∧ s'.tables.messages = s.tables.messages := by
  unfold Site.addUser at h
  split_ifs at h
  cases h
  exact ⟨rfl, rfl⟩

/-- Every step but a call leaves the messages and the other requests as they are. -/
theorem Site.step_cases (h : s.step parse stamps a = some s') :
    (s'.tables.messages = s.tables.messages ∧
      ∀ n p, s.requests n = some p → s'.requests n = some p) ∨
    ∃ n outcome env o k, a = .serve n outcome env ∧ s.requests n = some (.op o k) ∧
      s' = { (s.answer stamps outcome env o).2 with
        requests :=
          Function.update s.requests n (some (k (s.answer stamps outcome env o).1)) } := by
  cases a with
  | signup account =>
    obtain ⟨hreq, hmsg⟩ := addUser_eq h
    exact .inl ⟨hmsg, fun n p hn => hreq ▸ hn⟩
  | promote email =>
    cases h
    exact .inl ⟨rfl, fun _ _ hn => hn⟩
  | request m req =>
    simp only [Site.step] at h
    split at h
    · rename_i hnone
      cases h
      refine .inl ⟨rfl, fun n p hn => ?_⟩
      have hne : n ≠ m := by
        rintro rfl
        cases hnone.symm.trans hn
      exact (Function.update_of_ne hne _ _).trans hn
    · cases h
  | serve m outcome env =>
    simp only [Site.step] at h
    split at h
    · rename_i o k hm
      cases h
      exact .inr ⟨m, outcome, env, o, k, rfl, hm, rfl⟩
    · cases h
  | expire key =>
    cases h
    exact .inl ⟨rfl, fun _ _ hn => hn⟩

theorem Site.step_kept (h : s.step parse stamps a = some s') : OriginsKept s.tables s'.tables := by
  rcases Site.step_cases h with ⟨hmsg, -⟩ | ⟨n, outcome, env, o, k, -, -, rfl⟩
  · exact originsKept_of_eq hmsg
  · exact (answer_writes s o).kept

/-- Whatever the rooms and authors of messages to come, request `n` writes nothing to `r`
    for an outsider `u`. -/
def Contained (s : Site) (r u : UUID) (n : ℕ) : Prop :=
  ∃ p, s.requests n = some p ∧ ∀ g, RecordedIn g s.tables →
    p.Never (SiteOp.TellsOutsider g r u) (SiteOp.Trespasses g r u)

theorem Contained.step (hout : s.IsOutsider r u) (h : s.step parse stamps a = some s')
    (hsafe : Contained s r u n) : Contained s' r u n := by
  obtain ⟨p, hn, hp⟩ := hsafe
  have hkept := Site.step_kept h
  rcases Site.step_cases h with ⟨-, hreq⟩ | ⟨m, outcome, env, o, k, -, hm, rfl⟩
  · exact ⟨p, hreq n p hn, fun g hrec => hp g (recordedIn_of_kept hkept hrec)⟩
  · by_cases hmn : n = m
    · subst hmn
      obtain rfl := Option.some.inj (hn.symm.trans hm)
      refine ⟨_, Function.update_self _ _ _, fun g hrec => ?_⟩
      have hrec' := recordedIn_of_kept hkept hrec
      exact (hp g hrec').next (answer_tells hout hrec' o)
    · exact ⟨p, (Function.update_of_ne hmn _ _).trans hn,
        fun g hrec => hp g (recordedIn_of_kept hkept hrec)⟩

/-- A request or frame that begins when its user is no member and no system admin
    writes nothing to the room, own messages apart, as long as this remains so. -/
theorem outsider_writes_nothing {s₀ s₁ s₂ s₃ : Site} (req : SiteRequest)
    (hbegin : s₀.step parse stamps (.request n req) = some s₁)
    (hrun : Reach (Site.step parse stamps) (fun s _ => s.IsOutsider r req.userID) s₁ s₂)
    (hserve : s₂.step parse stamps (.serve n outcome env) = some s₃) :
    Untouched r req.userID s₂.tables s₃.tables := by
  have hfirst : Contained s₁ r req.userID n := by
    simp only [Site.step] at hbegin
    split at hbegin
    · cases hbegin
      exact ⟨_, Function.update_self _ _ _, fun g _ => handler_outsider req⟩
    · cases hbegin
  obtain ⟨p, hn, hp⟩ := hrun.invariant (Contained · r req.userID n)
    (fun _ _ _ h hout hs => h.step hout hs) hfirst
  simp only [Site.step, hn] at hserve
  cases p with
  | ret a => cases hserve
  | op o k =>
    cases hserve
    have hrec := originsIn_recorded s₂.tables
    exact (answer_writes s₂ o).untouched hrec (hp _ hrec).not

end

/-! ## A channel with a kick -/

/-- The text of Bob's message. -/
def greetingID : String := "00000000-0000-0000-0000-00000000004b"

def parseSite (text : String) : Option UUID := if text = greetingID then some 75 else parseId text

/-- Nothing of the Hub, the Broker and Redis is used. -/
def unusedEnv : (o : ConnOp) → o.Res
  | .call (.getMembership _ _) => .error .internal
  | .call (.insertMessage _ _ _ _) => .error .internal
  | .call (.getMessageByID _) => .error .internal
  | .call (.markMessageRead _ _) => .error .internal
  | .call (.listRoomsForUser _) => .error .internal
  | .call (.presenceConnect _) => .error .internal
  | .call (.presenceDisconnect _) => .error .internal
  | .call (.presenceSetStatus _ _) => .error .internal
  | .call .now => 0
  | .call (.publish _ _) => .ok ()
  | .sendError _ _ => ()
  | .register => ()
  | .join _ => ()
  | .leave _ => ()
  | .ensure _ _ => .ok ()
  | .typingStart _ => ()
  | .typingStop _ => ()

/-- Request `n` arrives and makes `calls` calls. -/
def asks (n : ℕ) (req : SiteRequest) (calls : ℕ) : List SiteAction :=
  .request n req :: List.replicate calls (.serve n .done unusedEnv)

/-- Ada creates the channel, Bob joins it and writes message 75, and Ada removes Bob. -/
def bobRemoved : List SiteAction :=
  [.signup ⟨1, "ada", "ada@example.org", "", none, none, false, 0, 0⟩,
    .signup ⟨2, "bob", "bob@example.org", "", none, none, false, 0, 0⟩] ++
  asks 0 (.room (.createRoom 1 (some ⟨"channel", "five", none, "", none, []⟩))) 1 ++
  asks 1 (.room (.joinChannel 2 idFive)) 5 ++
  asks 2 (.sendMessage 2 idFive (some ⟨"hello", ""⟩) "") 2 ++
  asks 3 (.room (.removeMember 1 idFive idTwo)) 3

/-- Bob's edit of his message. -/
def bobEdits : SiteRequest := .editMessage 2 greetingID (some "bye")

def siteStep : Site → SiteAction → Option Site := Site.step parseSite fiveStamps

def siteAfter (as : List SiteAction) : Site := (exec siteStep .start as).getD .start

theorem editing_outsider (calls : ℕ) (h : calls = 0 ∨ calls = 1) :
    (siteAfter (bobRemoved ++ asks 4 bobEdits calls)).IsOutsider 5 2 := by
  rcases h with rfl | rfl
  · decide
  · decide

/-- The first call of Bob's edit. -/
theorem reach_lookedUp : Reach siteStep (fun s _ => s.IsOutsider 5 2)
    (siteAfter (bobRemoved ++ asks 4 bobEdits 0)) (siteAfter (bobRemoved ++ asks 4 bobEdits 1)) :=
  Reach.single (editing_outsider 0 (.inl rfl)) (rfl : siteStep _ (.serve 4 .done unusedEnv) = _)

/-- Bob's edit changes his own message only. -/
theorem kicked_member_edits_own :
    (siteAfter (bobRemoved ++ asks 4 bobEdits 1)).IsOutsider 5 2 ∧
      Untouched 5 2 (siteAfter (bobRemoved ++ asks 4 bobEdits 1)).tables
        (siteAfter (bobRemoved ++ asks 4 bobEdits 2)).tables :=
  ⟨editing_outsider 1 (.inr rfl),
    outsider_writes_nothing bobEdits
      (rfl : siteStep (siteAfter bobRemoved) (.request 4 bobEdits) = _) reach_lookedUp
      (rfl : siteStep _ (.serve 4 .done unusedEnv) = _)⟩

theorem exists_deleted {now deletedAt : Time} {id : UUID} {t t' : MessageTables}
    (h : Store.softDeleteMessage now id t = .ok (deletedAt, t')) :
    ∃ m ∈ t'.messages, m.deletedAt ≠ none := by
  unfold Store.softDeleteMessage at h
  split_ifs at h with hlive
  cases h
  obtain ⟨m, hm, hlive⟩ := List.any_eq_true.mp hlive
  refine ⟨_, mem_updateWhere.mpr ⟨m, hm, rfl⟩, ?_⟩
  rw [if_pos hlive]
  exact Option.some_ne_none _

/-- A member who was removed edits a message of the room. -/
theorem kicked_member_edits :
    ¬ ∀ (parse : String → Option UUID) (stamps : ℕ → Stamp) (s₀ s₁ s₂ s₃ : Site) (n : ℕ)
      (req : SiteRequest) (r : UUID) (outcome : Outcome) (env : (o : ConnOp) → o.Res),
      Reach (Site.step parse stamps) Unguarded .start s₀ →
      s₀.step parse stamps (.request n req) = some s₁ →
      Reach (Site.step parse stamps) (fun s _ => s.IsOutsider r req.userID) s₁ s₂ →
      s₂.IsOutsider r req.userID → s₂.step parse stamps (.serve n outcome env) = some s₃ →
      SameRoom r s₂.tables s₃.tables ∨ OwnDelete req.userID s₂.tables s₃.tables := by
  intro h
  have hreached : Reach siteStep Unguarded .start (siteAfter bobRemoved) :=
    Reach.of_exec (meets_unguarded _ _ _) (rfl : exec siteStep .start bobRemoved = _)
  rcases h parseSite fiveStamps _ _ _ (siteAfter (bobRemoved ++ asks 4 bobEdits 2))
    4 bobEdits 5 .done
    unusedEnv hreached rfl reach_lookedUp (editing_outsider 1 (.inr rfl)) rfl with
    hsame | ⟨m, hm, -, now, deletedAt, hdelete⟩
  · exact absurd hsame.messages (by decide)
  · obtain ⟨m', hm', hdeleted⟩ := exists_deleted hdelete
    have hlive : ∀ m ∈ (siteAfter (bobRemoved ++ asks 4 bobEdits 2)).tables.messages,
        m.deletedAt = none := by decide
    exact hdeleted (hlive m' hm')

end ConvoyChat.System
