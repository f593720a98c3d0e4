import ConvoyChat.Handlers.Messages
import ConvoyChat.Frontend.Mutations
import ConvoyChat.Websocket.Lifecycle

/-!
# The attempts of a composer send

`useSendMessage` (`frontend/hooks/useMessages.tsx` lines 85–194) of one room with
the two handlers that its attempts reach: `handleMessageSend` over the socket, and
`SendMessage` over REST with the `Idempotency-Key`.

A frame or a request may be lost, or its handler may stop, at any point; an answer
may be lost; the ack timer may fire at any time; and everything else that writes the
cache (an echo among it) may do so at any time. A store call that reports an error
may have taken effect. Of a persisted row the model also keeps the `clientId` it was
sent with.

* `one_row_per_send`: there is at most one row for a composer send, in every run
  within the idempotency window in which a retry over the socket starts only when
  there is no row and no attempt that may still insert one, a retry over REST only
  when the same holds of the attempts over the socket, and an insert that fails under
  a reserved key has written nothing.
* `lost_echo_duplicates`: a message whose echo is late is inserted again by a retry
  over the socket.
-/

namespace ConvoyChat.System

open ConvoyChat.Lib ConvoyChat.Store ConvoyChat.Handlers ConvoyChat.Websocket ConvoyChat.Frontend

/-- What has become of a call of `performSend`. -/
inductive AttemptStage
  /-- the `message.send` frame is on the socket -/
  | frame
  | handling (p : ConnProc Unit)
  /-- the `POST` is on its way -/
  | request
  | serving (p : SendProc SendResponse)
  /-- the frame or the request is lost, or its handler has stopped -/
  | over

structure Attempt where
  clientId : String
  content : String
  /-- `sentOverWs` -/
  overWs : Bool
  stage : AttemptStage
  /-- the ack timer has fired, or the promise is settled -/
  settled : Bool

/-- A row of `messages`, with the `clientId` and the transport of the attempt. -/
structure SentRow where
  clientId : String
  overWs : Bool
  content : String
deriving DecidableEq, Repr

/-- The key of `messageIdempotencyKey`. -/
abbrev IdempotencyKey := UUID × UUID × String

structure SendState where
  /-- `readyState === OPEN` -/
  socketOpen : Bool
  query : RoomQuery
  attempts : ℕ → Option Attempt
  /-- the `crypto.randomUUID()`s so far -/
  used : List String
  keys : IdempotencyKey → Bool
  rows : List SentRow

inductive SendAction
  /-- the socket opens or closes -/
  | socket (isOpen : Bool)
  /-- something else writes the cache -/
  | update (u : CacheUpdate)
  | send (n : ℕ) (clientId content now : String)
  | retry (n : ℕ) (clientId content : String)
  | ackTimeout (n : ℕ)
  /-- the frame or the request is lost, or its handler stops -/
  | lose (n : ℕ)
  | arrive (n : ℕ)
  /-- the handler makes its next call; `written` if it took effect although it failed -/
  | serveFrame (n : ℕ) (env : (o : ConnOp) → o.Res) (written : Bool)
  | serveRequest (n : ℕ) (env : (o : SendOp) → o.Res) (written : Bool)
  /-- the response of `SendMessage` reaches the client -/
  | answer (n : ℕ)
  /-- `fetch` rejects -/
  | reject (n : ℕ)
  /-- the TTL of a key runs out -/
  | expire (key : IdempotencyKey)

def SendState.start (query : RoomQuery) : SendState :=
  ⟨false, query, fun _ => none, [], fun _ => false, []⟩

namespace SendState

def setAttempt (s : SendState) (n : ℕ) (a : Attempt) : SendState :=
  { s with attempts := Function.update s.attempts n (some a) }

def updateCache (s : SendState) (u : CacheUpdate) : SendState := { s with query := u.apply s.query }

/-- Model of `performSend` (lines 95–144): over the socket when it is open. -/
def performSend (s : SendState) (n : ℕ) (content clientId : String) : SendState :=
  s.setAttempt n ⟨clientId, content, s.socketOpen, if s.socketOpen then .frame else .request, false⟩

/-- `findMessage(data, clientId)?.status === "failed"`. -/
def isFailed (s : SendState) (clientId : String) : Bool :=
  (findMessage s.query.data clientId).bind (·.status) = some .failed

/-- Model of `retry` (lines 152–161). -/
def retry (s : SendState) (n : ℕ) (clientId content : String) : SendState :=
  if s.isFailed clientId then (s.updateCache (.retried clientId)).performSend n content clientId
  else s

end SendState

/-- The bubble of `send` (lines 171–183). -/
def optimisticMessage (currentUser : Option Frontend.UserSummary)
    (roomId clientId content now : String) : ChatMessage where
  id := clientId
  roomId := roomId
  user := currentUser.getD ⟨clientId, "you", none⟩
  content := some content
  messageType := "text"
  createdAt := now
  updatedAt := now
  readBy := []
  reactions := []
  status := some .sending

/-- The rows that a call of `handleMessageSend` writes. -/
def frameRows (clientId : String) (written : Bool) : (o : ConnOp) → o.Res → List SentRow
  | .call (.insertMessage _ _ content _), res =>
    if res.isOk || written then [⟨clientId, true, content⟩] else []
  | _, _ => []

/-- The rows that a call of `SendMessage` writes. -/
def requestRows (clientId : String) (written : Bool) : (o : SendOp) → o.Res → List SentRow
  | .insertMessage _ _ content _, res =>
    if res.isOk || written then [⟨clientId, false, content⟩] else []
  | _, _ => []

/-- The answer of Redis to a call, and the keys after it: `SETNX` and `DEL`. Other
    calls are answered by `res`. -/
def serveKeys (keys : IdempotencyKey → Bool) (written : Bool) :
    (o : SendOp) → o.Res → o.Res × (IdempotencyKey → Bool)
  | .reserveMessageIdempotencyKey r u k, res =>
    match res with
    | .ok _ => (.ok (!keys (r, u, k)), Function.update keys (r, u, k) true)
    | .error e => (.error e, if written then Function.update keys (r, u, k) true else keys)
  | .releaseMessageIdempotencyKey r u k, res =>
    match res with
    | .ok () => (.ok (), Function.update keys (r, u, k) false)
    | .error e => (.error e, if written then Function.update keys (r, u, k) false else keys)
  | _, res => (res, keys)

section

variable (parse : String → Option UUID) (roomId : String) (c : Client)
  (currentUser : Option Frontend.UserSummary) (wire : MessageWithAuthor → ChatMessage)

/-- The frame that `performSend` sends. -/
def sendFrame (clientId content : String) : InboundEnvelope :=
  ⟨"message.send", roomId, content, "", "", "", clientId⟩

/-- One step for the room `roomId` and the user of `c`; `wire` is a message as the
    client reads it. -/
def SendState.step (s : SendState) : SendAction → Option SendState
  | .socket isOpen => some { s with socketOpen := isOpen }
  | .update u => some (s.updateCache u)
  | .send n clientId content now =>
    if (s.attempts n).isNone ∧ clientId ≠ "" ∧ clientId ∉ s.used then
      let bubble := optimisticMessage currentUser roomId clientId content now
      let sent := s.updateCache (.sent bubble ((currentUser.map (·.id)).getD clientId))
      some ({ sent with used := clientId :: s.used }.performSend n content clientId)
    else none
  | .retry n clientId content =>
    if (s.attempts n).isNone ∧ clientId ∈ s.used then some (s.retry n clientId content) else none
  | .ackTimeout n =>
    match s.attempts n with
    | some a =>
      if a.overWs && !a.settled then
        some ((s.updateCache (.ackTimeout a.clientId)).setAttempt n { a with settled := true })
      else none
    | none => none
  | .lose n =>
    match s.attempts n with
    | some a => some (s.setAttempt n { a with stage := .over })
    | none => none
  | .arrive n =>
    match s.attempts n with
    | some a =>
      match a.stage with
      | .frame =>
        let p := dispatch parse c (some (sendFrame roomId a.clientId a.content))
        some (s.setAttempt n { a with stage := .handling p })
      | .request =>
        let p := sendMessage parse c.userID roomId (some ⟨a.content, ""⟩) a.clientId
        some (s.setAttempt n { a with stage := .serving p })
      | _ => none
    | none => none
  | .serveFrame n env written =>
    match s.attempts n with
    | some a =>
      match a.stage with
      | .handling (.op o k) =>
        some { s.setAttempt n { a with stage := .handling (k (env o)) } with
          rows := s.rows ++ frameRows a.clientId written o (env o) }
      | _ => none
    | none => none
  | .serveRequest n env written =>
    match s.attempts n with
    | some a =>
      match a.stage with
      | .serving (.op o k) =>
        let out := serveKeys s.keys written o (env o)
        some { s.setAttempt n { a with stage := .serving (k out.1) } with
          keys := out.2
          rows := s.rows ++ requestRows a.clientId written o (env o) }
      | _ => none
    | none => none
  | .answer n =>
    match s.attempts n with
    | some a =>
      match a.stage, a.settled with
      | .serving (.ret (.ok message)), false =>
        let uid := (currentUser.map (·.id)).getD a.clientId
        some ((s.updateCache (.sendConfirmed (wire message) a.clientId uid)).setAttempt n
          { a with settled := true })
      | .serving (.ret (.error _)), false =>
        some ((s.updateCache (.sendFailed a.clientId)).setAttempt n { a with settled := true })
      | _, _ => none
    | none => none
  | .reject n =>
    match s.attempts n with
    | some a =>
      if !a.overWs && !a.settled then
        some ((s.updateCache (.sendFailed a.clientId)).setAttempt n { a with settled := true })
      else none
    | none => none
  | .expire key => some { s with keys := Function.update s.keys key false }

end

/-! ## The condition on the retries -/

/-- The attempt may still insert a row. -/
def AttemptStage.MayInsert : AttemptStage → Prop
  | .frame => True
  | .handling p => p.Can Proc.Always InsertsFrame
  | .request => True
  | .serving p => p.Can Proc.Always SendOp.Inserts
  | .over => False

/-- Attempt `n` is for `clientId` and may still insert a row. -/
def SendState.Live (s : SendState) (clientId : String) (n : ℕ) : Prop :=
  ∃ a, s.attempts n = some a ∧ a.clientId = clientId ∧ a.stage.MayInsert

/-- The next call of attempt `n` is the insert of `SendMessage`. -/
def SendState.Inserting (s : SendState) (n : ℕ) : Prop :=
  ∃ a o k, s.attempts n = some a ∧ a.stage = .serving (.op o k) ∧ o.Inserts

/-- A retry over the socket finds no row and no attempt that may still insert one; a
    retry over REST finds none over the socket. -/
def RetriesAlone (s : SendState) (clientId : String) : Prop :=
  if s.socketOpen then
    (∀ n, ¬ s.Live clientId n) ∧ ∀ row ∈ s.rows, row.clientId ≠ clientId
  else
    (∀ n a, s.attempts n = some a → a.clientId = clientId → a.overWs = true →
      ¬ a.stage.MayInsert) ∧
    ∀ row ∈ s.rows, row.clientId = clientId → row.overWs = false

/-- Retries go out alone, a failed insert of `SendMessage` has written nothing, and no
    key expires. -/
def SendsSafely (s : SendState) : SendAction → Prop
  | .retry _ clientId _ => s.isFailed clientId = true → RetriesAlone s clientId
  | .serveRequest n _ written => s.Inserting n → written = false
  | .expire _ => False
  | _ => True

/-! ## The invariant -/

/-- The handler may write without another reservation. -/
def AttemptStage.Holds : AttemptStage → Prop
  | .serving p => p.Can NotReserved SendOp.Writes
  | _ => False

section

variable (parse : String → Option UUID) (roomId : String) (c : Client)

/-- The key under which `SendMessage` reserves for `clientId`. -/
def keyOf (clientId : String) : IdempotencyKey := ((parse roomId).getD 0, c.userID, clientId)

/-- What is left of a handler behaves as the handlers do. -/
def Attempt.Proper (a : Attempt) : Prop :=
  match a.stage with
  | .frame => a.overWs = true
  | .handling p => a.overWs = true ∧ p.After FrameInsertsOnce
  | .request => a.overWs = false
  | .serving p => a.overWs = false ∧ p.After InsertsOnce ∧
      p.Never Proc.Always (SendOp.OtherKey (keyOf parse roomId c a.clientId))
  | .over => True

structure SendInv (s : SendState) : Prop where
  named : ∀ clientId ∈ s.used, clientId ≠ ""
  used : ∀ n a, s.attempts n = some a → a.clientId ∈ s.used
  usedRows : ∀ row ∈ s.rows, row.clientId ∈ s.used
  proper : ∀ n a, s.attempts n = some a → a.Proper parse roomId c
  socket : ∀ n a, s.attempts n = some a → a.overWs = true → a.stage.MayInsert →
    (∀ row ∈ s.rows, row.clientId ≠ a.clientId) ∧ ∀ n', s.Live a.clientId n' → n' = n
  socketRow : ∀ row ∈ s.rows, row.overWs = true → ∀ n, ¬ s.Live row.clientId n
  requestRow : ∀ row ∈ s.rows, row.overWs = false →
    s.keys (keyOf parse roomId c row.clientId) = true
  holder : ∀ n a, s.attempts n = some a → a.stage.Holds →
    s.keys (keyOf parse roomId c a.clientId) = true ∧
    (∀ row ∈ s.rows, row.clientId = a.clientId → row.overWs = true) ∧
    ∀ n' a', s.attempts n' = some a' → a'.clientId = a.clientId → a'.stage.Holds → n' = n
  once : ∀ clientId, s.rows.countP (·.clientId = clientId) ≤ 1

end

variable {parse : String → Option UUID} {roomId : String} {c : Client} {s : SendState} {n : ℕ}
  {a a' : Attempt}

theorem keyOf_inj {x y : String} (h : keyOf parse roomId c x = keyOf parse roomId c y) : x = y :=
  congrArg (·.2.2) h

/-- What changes neither the attempts nor what is stored. -/
theorem SendInv.congr {s' : SendState} (hinv : SendInv parse roomId c s)
    (hattempts : s'.attempts = s.attempts) (hused : s'.used = s.used) (hkeys : s'.keys = s.keys)
    (hrows : s'.rows = s.rows) : SendInv parse roomId c s' := by
  obtain ⟨isOpen, query, attempts, used, keys, rows⟩ := s
  obtain ⟨isOpen', query', attempts', used', keys', rows'⟩ := s'
  dsimp only at hattempts hused hkeys hrows
  subst hattempts hused hkeys hrows
  exact ⟨hinv.named, hinv.used, hinv.usedRows, hinv.proper, hinv.socket,
    hinv.socketRow, hinv.requestRow, hinv.holder, hinv.once⟩

/-- After `setAttempt` an attempt is the new one, or an old one. -/
theorem setAttempt_cases {n₁ : ℕ} {a₁ : Attempt} (h : (s.setAttempt n a).attempts n₁ = some a₁) :
    n₁ = n ∧ a₁ = a ∨ n₁ ≠ n ∧ s.attempts n₁ = some a₁ := by
  have h : Function.update s.attempts n (some a) n₁ = some a₁ := h
  rcases eq_or_ne n₁ n with rfl | hne
  · rw [Function.update_self] at h
    exact .inl ⟨rfl, (Option.some.inj h).symm⟩
  · rw [Function.update_of_ne hne] at h
    exact .inr ⟨hne, h⟩

/-- `clientId` is reserved, has no row over REST, and no attempt but `n` holds it. -/
def HeldAlone (parse : String → Option UUID) (roomId : String) (c : Client) (s : SendState)
    (clientId : String) (n : ℕ) : Prop :=
  s.keys (keyOf parse roomId c clientId) = true ∧
  (∀ row ∈ s.rows, row.clientId = clientId → row.overWs = true) ∧
  ∀ n' a', s.attempts n' = some a' → a'.clientId = clientId → a'.stage.Holds → n' = n

/-- The next state of attempt `n`. -/
theorem SendInv.setAttempt (hinv : SendInv parse roomId c s) (ha : s.attempts n = some a)
    (a' : Attempt) (hid : a'.clientId = a.clientId) (hws : a'.overWs = a.overWs)
    (hmay : a'.stage.MayInsert → a.stage.MayInsert)
    (hholds : a'.stage.Holds → HeldAlone parse roomId c s a.clientId n)
    (hproper : a'.Proper parse roomId c) : SendInv parse roomId c (s.setAttempt n a') := by
  have hlive : ∀ clientId n₁, (s.setAttempt n a').Live clientId n₁ → s.Live clientId n₁ := by
    rintro clientId n₁ ⟨a₁, h₁, rfl, hm⟩
    rcases setAttempt_cases h₁ with ⟨rfl, rfl⟩ | ⟨-, h₀⟩
    · exact ⟨a, ha, hid.symm, hmay hm⟩
    · exact ⟨a₁, h₀, rfl, hm⟩
  refine ⟨hinv.named, fun n₁ a₁ h => ?_, hinv.usedRows, fun n₁ a₁ h => ?_, fun n₁ a₁ h hov hm => ?_,
    fun row hrow hov n₁ hl => hinv.socketRow row hrow hov n₁ (hlive _ _ hl), hinv.requestRow,
    fun n₁ a₁ h hh => ?_, hinv.once⟩
  · rcases setAttempt_cases h with ⟨rfl, rfl⟩ | ⟨-, h₀⟩
    · rw [hid]
      exact hinv.used n₁ a ha
    · exact hinv.used n₁ a₁ h₀
  · rcases setAttempt_cases h with ⟨rfl, rfl⟩ | ⟨-, h₀⟩
    · exact hproper
    · exact hinv.proper n₁ a₁ h₀
  · have hold : (∀ row ∈ s.rows, row.clientId ≠ a₁.clientId) ∧
        ∀ n', s.Live a₁.clientId n' → n' = n₁ := by
      rcases setAttempt_cases h with ⟨rfl, rfl⟩ | ⟨-, h₀⟩
      · rw [hid]
        exact hinv.socket n₁ a ha (hws.symm.trans hov) (hmay hm)
      · exact hinv.socket n₁ a₁ h₀ hov hm
    exact ⟨hold.1, fun n₂ hl => hold.2 n₂ (hlive _ _ hl)⟩
  · rcases setAttempt_cases h with ⟨rfl, rfl⟩ | ⟨hne, h₀⟩
    · obtain ⟨hkey, hrows, huniq⟩ := hholds hh
      rw [hid]
      refine ⟨hkey, hrows, fun n₂ a₂ h₂ hid₂ hh₂ => ?_⟩
      rcases setAttempt_cases h₂ with ⟨rfl, -⟩ | ⟨-, h₂⟩
      · rfl
      · exact huniq n₂ a₂ h₂ hid₂ hh₂
    · obtain ⟨hkey, hrows, huniq⟩ := hinv.holder n₁ a₁ h₀ hh
      refine ⟨hkey, hrows, fun n₂ a₂ h₂ hid₂ hh₂ => ?_⟩
      rcases setAttempt_cases h₂ with ⟨rfl, rfl⟩ | ⟨-, h₂⟩
      · -- if attempt `n` holds the key now, the other one does not
        exact absurd ((hholds hh₂).2.2 n₁ a₁ h₀ (hid₂.symm.trans hid) hh) hne
      · exact huniq n₂ a₂ h₂ hid₂ hh₂

/-- Attempt `n` goes on and may do no more than before. -/
theorem SendInv.goOn (hinv : SendInv parse roomId c s) (ha : s.attempts n = some a)
    (a' : Attempt) (hid : a'.clientId = a.clientId) (hws : a'.overWs = a.overWs)
    (hmay : a'.stage.MayInsert → a.stage.MayInsert) (hholds : a'.stage.Holds → a.stage.Holds)
    (hproper : a'.Proper parse roomId c) : SendInv parse roomId c (s.setAttempt n a') :=
  hinv.setAttempt ha a' hid hws hmay (fun hh => hinv.holder n a ha (hholds hh)) hproper

/-- A row is inserted for a `clientId` that has none. -/
theorem SendInv.addRow (hinv : SendInv parse roomId c s) (row : SentRow)
    (hused : row.clientId ∈ s.used) (hnone : ∀ row' ∈ s.rows, row'.clientId ≠ row.clientId)
    (hsocket : ∀ n a, s.attempts n = some a → a.clientId = row.clientId → a.overWs = true →
      ¬ a.stage.MayInsert)
    (hlive : row.overWs = true → ∀ n, ¬ s.Live row.clientId n)
    (hkey : row.overWs = false → s.keys (keyOf parse roomId c row.clientId) = true)
    (hholder : row.overWs = false → ∀ n a, s.attempts n = some a → a.clientId = row.clientId →
      ¬ a.stage.Holds) :
    SendInv parse roomId c { s with rows := s.rows ++ [row] } := by
  have hmem : ∀ row', row' ∈ s.rows ++ [row] → row' ∈ s.rows ∨ row' = row := by
    intro row' h
    rcases List.mem_append.mp h with h | h
    · exact .inl h
    · exact .inr (List.mem_singleton.mp h)
  refine ⟨hinv.named, hinv.used, fun row' h => ?_, hinv.proper, fun n a ha hov hm => ?_,
    fun row' h hov => ?_, fun row' h hov => ?_, fun n a ha hh => ?_, fun clientId => ?_⟩
  · rcases hmem row' h with h | rfl
    · exact hinv.usedRows row' h
    · exact hused
  · obtain ⟨hrows, huniq⟩ := hinv.socket n a ha hov hm
    refine ⟨fun row' h => ?_, huniq⟩
    rcases hmem row' h with h | rfl
    · exact hrows row' h
    · exact fun heq => hsocket n a ha heq.symm hov hm
  · rcases hmem row' h with h | rfl
    · exact hinv.socketRow row' h hov
    · exact hlive hov
  · rcases hmem row' h with h | rfl
    · exact hinv.requestRow row' h hov
    · exact hkey hov
  · obtain ⟨hk, hrows, huniq⟩ := hinv.holder n a ha hh
    refine ⟨hk, fun row' h heq => ?_, huniq⟩
    rcases hmem row' h with h | rfl
    · exact hrows row' h heq
    · by_contra hov
      exact hholder (by simpa using hov) n a ha heq.symm hh
  · have hold := hinv.once clientId
    rw [List.countP_append, List.countP_singleton]
    split_ifs with heq
    · have hzero : s.rows.countP (fun r => decide (r.clientId = clientId)) = 0 := by
        rw [List.countP_eq_zero]
        intro row' h
        simpa [of_decide_eq_true heq] using hnone row' h
      omega
    · omega

/-- The keys change for one `clientId`, for which there is no row over REST and no
    other holder. -/
theorem SendInv.setKeys {keys : IdempotencyKey → Bool} (hinv : SendInv parse roomId c s)
    (hkeys : ∀ clientId, s.keys (keyOf parse roomId c clientId) = true →
      (∀ row ∈ s.rows, row.clientId = clientId → row.overWs = true) ∧
        (∀ n a, s.attempts n = some a → a.clientId = clientId → ¬ a.stage.Holds) ∨
      keys (keyOf parse roomId c clientId) = true) :
    SendInv parse roomId c { s with keys } := by
  refine ⟨hinv.named, hinv.used, hinv.usedRows, hinv.proper, hinv.socket, hinv.socketRow,
    fun row h hov => ?_, fun n a ha hh => ?_, hinv.once⟩
  · rcases hkeys row.clientId (hinv.requestRow row h hov) with ⟨hrows, -⟩ | hkey
    · rw [hrows row h rfl] at hov
      cases hov
    · exact hkey
  · obtain ⟨hk, hrows, huniq⟩ := hinv.holder n a ha hh
    rcases hkeys a.clientId hk with ⟨-, hnot⟩ | hkey
    · exact absurd hh (hnot n a ha rfl)
    · exact ⟨hkey, hrows, huniq⟩

/-- Before a new attempt. -/
theorem SendInv.start {clientId : String} {a : Attempt} (hinv : SendInv parse roomId c s)
    (hid : a.clientId = clientId) (hused : clientId ∈ s.used) (hholds : ¬ a.stage.Holds)
    (hproper : a.Proper parse roomId c)
    (hsocket : a.overWs = true → (∀ n, ¬ s.Live clientId n) ∧
      ∀ row ∈ s.rows, row.clientId ≠ clientId)
    (hrequest : ∀ n a, s.attempts n = some a → a.clientId = clientId → a.overWs = true →
      ¬ a.stage.MayInsert)
    (hrows : ∀ row ∈ s.rows, row.clientId = clientId → row.overWs = false) :
    SendInv parse roomId c (s.setAttempt n a) := by
  subst hid
  refine ⟨hinv.named, fun n₁ a₁ h => ?_, hinv.usedRows, fun n₁ a₁ h => ?_, fun n₁ a₁ h hov hm => ?_,
    fun row hrow hov n₁ hl => ?_, hinv.requestRow, fun n₁ a₁ h hh => ?_, hinv.once⟩
  · rcases setAttempt_cases h with ⟨-, rfl⟩ | ⟨-, h₀⟩
    · exact hused
    · exact hinv.used n₁ a₁ h₀
  · rcases setAttempt_cases h with ⟨-, rfl⟩ | ⟨-, h₀⟩
    · exact hproper
    · exact hinv.proper n₁ a₁ h₀
  · rcases setAttempt_cases h with ⟨rfl, rfl⟩ | ⟨hn₁, h₀⟩
    · refine ⟨(hsocket hov).2, ?_⟩
      rintro n₂ ⟨a₂, h₂, hid₂, hm₂⟩
      rcases setAttempt_cases h₂ with ⟨rfl, -⟩ | ⟨-, h₂⟩
      · rfl
      · exact absurd ⟨a₂, h₂, hid₂, hm₂⟩ ((hsocket hov).1 n₂)
    · obtain ⟨hrow, huniq⟩ := hinv.socket n₁ a₁ h₀ hov hm
      refine ⟨hrow, ?_⟩
      rintro n₂ ⟨a₂, h₂, hid₂, hm₂⟩
      rcases setAttempt_cases h₂ with ⟨rfl, rfl⟩ | ⟨-, h₂⟩
      · exact absurd hm (hrequest n₁ a₁ h₀ hid₂.symm hov)
      · exact huniq n₂ ⟨a₂, h₂, hid₂, hm₂⟩
  · obtain ⟨a₁, h₁, hid₁, hm₁⟩ := hl
    rcases setAttempt_cases h₁ with ⟨-, rfl⟩ | ⟨-, h₀⟩
    · rw [hrows row hrow hid₁.symm] at hov
      cases hov
    · exact hinv.socketRow row hrow hov n₁ ⟨a₁, h₀, hid₁, hm₁⟩
  · rcases setAttempt_cases h with ⟨-, rfl⟩ | ⟨-, h₀⟩
    · exact absurd hh hholds
    · obtain ⟨hkey, hrow, huniq⟩ := hinv.holder n₁ a₁ h₀ hh
      refine ⟨hkey, hrow, fun n₂ a₂ h₂ hid₂ hh₂ => ?_⟩
      rcases setAttempt_cases h₂ with ⟨-, rfl⟩ | ⟨-, h₂⟩
      · exact absurd hh₂ hholds
      · exact huniq n₂ a₂ h₂ hid₂ hh₂

/-- `performSend` when the attempt goes out alone. -/
theorem SendInv.performSend {content clientId : String} (hinv : SendInv parse roomId c s)
    (hused : clientId ∈ s.used) (halone : RetriesAlone s clientId) :
    SendInv parse roomId c (s.performSend n content clientId) := by
  unfold RetriesAlone at halone
  unfold SendState.performSend
  cases hopen : s.socketOpen with
  | true =>
    rw [hopen] at halone
    refine hinv.start rfl hused id rfl (fun _ => halone) ?_ ?_
    · exact fun n' a' ha' hid _ hm => halone.1 n' ⟨a', ha', hid, hm⟩
    · exact fun row hrow hid => absurd hid (halone.2 row hrow)
  | false =>
    rw [hopen] at halone
    exact hinv.start rfl hused id rfl nofun halone.1 halone.2

/-! ## The steps of the handlers -/

theorem frameRows_cases (clientId : String) (written : Bool) (o : ConnOp) (res : o.Res) :
    frameRows clientId written o res = [] ∨
      InsertsFrame o ∧ ∃ content, frameRows clientId written o res =
        [⟨clientId, true, content⟩] := by
  unfold frameRows
  split
  · split_ifs
    · exact .inr ⟨trivial, _, rfl⟩
    · exact .inl rfl
  · exact .inl rfl

/-- A call of `handleMessageSend`. -/
theorem SendInv.serveFrame {o : ConnOp} {k : o.Res → ConnProc Unit}
    (hinv : SendInv parse roomId c s) (ha : s.attempts n = some a)
    (hstage : a.stage = .handling (.op o k)) (written : Bool) (res : o.Res) :
    SendInv parse roomId c { s.setAttempt n { a with stage := .handling (k res) } with
      rows := s.rows ++ frameRows a.clientId written o res } := by
  have hproper := hinv.proper n a ha
  rw [Attempt.Proper, hstage] at hproper
  obtain ⟨hws, hafter⟩ := hproper
  have hmay : (AttemptStage.handling (k res)).MayInsert → a.stage.MayInsert := by
    intro h
    rw [hstage]
    exact Proc.Can.next trivial h
  have hnext := hinv.goOn ha { a with stage := .handling (k res) } rfl rfl hmay
    (fun h => False.elim h) ⟨hws, (hafter res).2⟩
  rcases frameRows_cases a.clientId written o res with hnil | ⟨hinsert, content, hrow⟩
  · rw [hnil, List.append_nil]
    exact hnext
  · rw [hrow]
    have hdone : ¬ (AttemptStage.handling (k res)).MayInsert := (hafter res).1 hinsert
    obtain ⟨hnone, huniq⟩ := hinv.socket n a ha hws (by rw [hstage]; exact Proc.Can.here hinsert)
    -- attempt `n` was the only one that could insert
    have hlive : ∀ n', ¬ (s.setAttempt n { a with stage := .handling (k res) }).Live
        a.clientId n' := by
      rintro n' ⟨a₁, h₁, hid₁, hm₁⟩
      rcases setAttempt_cases h₁ with ⟨-, rfl⟩ | ⟨hne, h₀⟩
      · exact hdone hm₁
      · exact hne (huniq n' ⟨a₁, h₀, hid₁, hm₁⟩)
    refine hnext.addRow ⟨a.clientId, true, content⟩ (hinv.used n a ha) hnone ?_
      (fun _ => hlive) nofun nofun
    exact fun n' a₁ h₁ hid₁ _ hm₁ => hlive n' ⟨a₁, h₁, hid₁, hm₁⟩

theorem inserts_writes (o : SendOp) (h : o.Inserts) : o.Writes := by
  cases o with
  | insertMessage r u content messageType => trivial
  | _ => exact False.elim h

/-- A handler that writes nothing more holds nothing. -/
theorem not_holds_of_never {p : SendProc SendResponse} (h : p.Never Proc.Always SendOp.Writes) :
    ¬ (AttemptStage.serving p).MayInsert ∧ ¬ (AttemptStage.serving p).Holds :=
  ⟨fun hm => h (Proc.Can.mono (fun _ _ h => h) inserts_writes hm),
    fun hh => h (Proc.Can.mono (fun _ _ _ => trivial) (fun _ h => h) hh)⟩

section

variable {o : SendOp} {k : o.Res → SendProc SendResponse}

/-- What a call of `SendMessage` leaves, whatever the answer. -/
theorem SendInv.rest (hinv : SendInv parse roomId c s) (ha : s.attempts n = some a)
    (hstage : a.stage = .serving (.op o k)) (res : o.Res) :
    ¬ o.OtherKey (keyOf parse roomId c a.clientId) ∧
    InsertsOnce o res (k res) ∧
    ((AttemptStage.serving (k res)).MayInsert → a.stage.MayInsert) ∧
    ({ a with stage := .serving (k res) } : Attempt).Proper parse roomId c := by
  have hproper := hinv.proper n a ha
  rw [Attempt.Proper, hstage] at hproper
  obtain ⟨hws, hafter, hkey⟩ := hproper
  refine ⟨hkey.not, (hafter res).1, fun h => ?_, hws, (hafter res).2, hkey.next trivial⟩
  rw [hstage]
  exact Proc.Can.next trivial h

/-- An answer that grants no key. -/
theorem SendInv.serveOther (hinv : SendInv parse roomId c s) (ha : s.attempts n = some a)
    (hstage : a.stage = .serving (.op o k)) {res : o.Res} (hres : NotReserved o res) :
    SendInv parse roomId c (s.setAttempt n { a with stage := .serving (k res) }) := by
  obtain ⟨-, -, hmay, hproper⟩ := hinv.rest ha hstage res
  refine hinv.goOn ha _ rfl rfl hmay (fun h => ?_) hproper
  rw [hstage]
  exact Proc.Can.next hres h

/-- The insert of `SendMessage` succeeds. -/
theorem SendInv.serveInsert (hinv : SendInv parse roomId c s) (ha : s.attempts n = some a)
    (hstage : a.stage = .serving (.op o k)) (hinsert : o.Inserts) {res : o.Res}
    (hnever : (k res).Never Proc.Always SendOp.Writes) (content : String) :
    SendInv parse roomId c { s.setAttempt n { a with stage := .serving (k res) } with
      rows := s.rows ++ [⟨a.clientId, false, content⟩] } := by
  obtain ⟨hnotMay, hnotHolds⟩ := not_holds_of_never hnever
  obtain ⟨-, -, hmay, hproper⟩ := hinv.rest ha hstage res
  have hws : a.overWs = false := hproper.1
  have hlive : s.Live a.clientId n := ⟨a, ha, rfl, by rw [hstage]; exact Proc.Can.here hinsert⟩
  obtain ⟨hkey, hrows, huniq⟩ := hinv.holder n a ha
    (by rw [hstage]; exact Proc.Can.here (inserts_writes o hinsert))
  have hnext := hinv.goOn ha { a with stage := .serving (k res) } rfl rfl hmay
    (fun h => absurd h hnotHolds) hproper
  refine hnext.addRow ⟨a.clientId, false, content⟩ (hinv.used n a ha) ?_ ?_ nofun
    (fun _ => hkey) ?_
  · -- a row over the socket would have left no attempt that may insert
    intro row hrow hid
    refine hinv.socketRow row hrow (hrows row hrow hid) n ?_
    rw [hid]
    exact hlive
  · intro n' a₁ h₁ hid₁ hov hm
    rcases setAttempt_cases h₁ with ⟨-, rfl⟩ | ⟨hne, h₀⟩
    · exact hnotMay hm
    · refine hne ((hinv.socket n' a₁ h₀ hov hm).2 n ?_).symm
      rw [hid₁]
      exact hlive
  · intro _ n' a₁ h₁ hid₁ hh
    rcases setAttempt_cases h₁ with ⟨-, rfl⟩ | ⟨hne, h₀⟩
    · exact hnotHolds hh
    · exact hne (huniq n' a₁ h₀ hid₁ hh)

/-- The key is reserved, whether the handler is told so or not. -/
theorem SendInv.reserveKey (hinv : SendInv parse roomId c s) (key : IdempotencyKey) :
    SendInv parse roomId c { s with keys := Function.update s.keys key true } := by
  refine hinv.setKeys fun clientId hkey => .inr ?_
  by_cases heq : keyOf parse roomId c clientId = key
  · rw [heq, Function.update_self]
  · rw [Function.update_of_ne heq]
    exact hkey

/-- The handler gets the key, which nobody has. -/
theorem SendInv.serveReserve (hinv : SendInv parse roomId c s) (ha : s.attempts n = some a)
    (hstage : a.stage = .serving (.op o k)) (res : o.Res)
    (hfree : s.keys (keyOf parse roomId c a.clientId) = false) :
    SendInv parse roomId c { s.setAttempt n { a with stage := .serving (k res) } with
      keys := Function.update s.keys (keyOf parse roomId c a.clientId) true } := by
  obtain ⟨-, -, hmay, hproper⟩ := hinv.rest ha hstage res
  refine (hinv.reserveKey (keyOf parse roomId c a.clientId)).setAttempt ha
    { a with stage := .serving (k res) } rfl rfl hmay
      (fun _ => ⟨Function.update_self _ _ _, ?_, ?_⟩)
    hproper
  · intro row hrow hid
    by_contra hov
    have hkey := hinv.requestRow row hrow (by simpa using hov)
    rw [hid, hfree] at hkey
    cases hkey
  · intro n' a₁ h₁ hid₁ hh
    have hkey := (hinv.holder n' a₁ h₁ hh).1
    rw [hid₁, hfree] at hkey
    cases hkey

/-- The handler gives up its key, and writes nothing more. -/
theorem SendInv.serveRelease (hinv : SendInv parse roomId c s) (ha : s.attempts n = some a)
    (hstage : a.stage = .serving (.op o k)) (hwrite : o.Writes) (res : o.Res)
    (hnever : (k res).Never Proc.Always SendOp.Writes) :
    SendInv parse roomId c { s.setAttempt n { a with stage := .serving (k res) } with
      keys := Function.update s.keys (keyOf parse roomId c a.clientId) false } := by
  obtain ⟨-, hnotHolds⟩ := not_holds_of_never hnever
  obtain ⟨-, -, hmay, hproper⟩ := hinv.rest ha hstage res
  obtain ⟨-, hrows, huniq⟩ := hinv.holder n a ha (by rw [hstage]; exact Proc.Can.here hwrite)
  have hnext := hinv.goOn ha { a with stage := .serving (k res) } rfl rfl hmay
    (fun h => absurd h hnotHolds) hproper
  refine hnext.setKeys fun clientId hkey => ?_
  by_cases heq : clientId = a.clientId
  · subst heq
    refine .inl ⟨hrows, fun n' a₁ h₁ hid₁ hh => ?_⟩
    rcases setAttempt_cases h₁ with ⟨-, rfl⟩ | ⟨hne, h₀⟩
    · exact hnotHolds hh
    · exact hne (huniq n' a₁ h₀ hid₁ hh)
  · refine .inr ?_
    rw [Function.update_of_ne fun h => heq (keyOf_inj h)]
    exact hkey

end

/-- A call of `SendMessage`, whose failed insert has written nothing. -/
theorem SendInv.serveRequest {o : SendOp} {k : o.Res → SendProc SendResponse}
    (hinv : SendInv parse roomId c s) (ha : s.attempts n = some a)
    (hstage : a.stage = .serving (.op o k)) {written : Bool}
    (hwritten : o.Inserts → written = false) (res : o.Res) :
    SendInv parse roomId c { s.setAttempt n
        { a with stage := .serving (k (serveKeys s.keys written o res).1) } with
      keys := (serveKeys s.keys written o res).2
      rows := s.rows ++ requestRows a.clientId written o res } := by
  cases o with
  | getMembership r u =>
    rw [show requestRows a.clientId written (.getMembership r u) res = [] from rfl, List.append_nil]
    exact hinv.serveOther ha hstage trivial
  | insertMessage r u content messageType =>
    obtain rfl := hwritten trivial
    cases res with
    | ok message =>
      have hrest := hinv.rest ha hstage (.ok message)
      exact hinv.serveInsert ha hstage trivial hrest.2.1 content
    | error e =>
      have hnil : requestRows a.clientId false (.insertMessage r u content messageType)
        (.error e) = [] := rfl
      rw [hnil, List.append_nil]
      exact hinv.serveOther ha hstage trivial
  | reserveMessageIdempotencyKey r u key =>
    rw [show requestRows a.clientId written (.reserveMessageIdempotencyKey r u key) res = []
      from rfl, List.append_nil]
    have hkey : (r, u, key) = keyOf parse roomId c a.clientId := by
      by_contra hne
      exact (hinv.rest ha hstage res).1 hne
    cases res with
    | ok b =>
      simp only [serveKeys, hkey]
      cases hfree : s.keys (keyOf parse roomId c a.clientId) with
      | false => exact hinv.serveReserve ha hstage _ hfree
      | true => exact (hinv.serveOther ha hstage (by simp [NotReserved])).reserveKey _
    | error e =>
      have hres : NotReserved (.reserveMessageIdempotencyKey r u key) (.error e) :=
        fun h => nomatch h
      have hnext := hinv.serveOther ha hstage hres
      simp only [serveKeys]
      cases written with
      | true => exact hnext.reserveKey _
      | false => exact hnext
  | releaseMessageIdempotencyKey r u key =>
    rw [show requestRows a.clientId written (.releaseMessageIdempotencyKey r u key) res = []
      from rfl, List.append_nil]
    have hkey : (r, u, key) = keyOf parse roomId c a.clientId := by
      by_contra hne
      exact (hinv.rest ha hstage res).1 hne
    cases res with
    | ok b =>
      simp only [serveKeys, hkey]
      exact hinv.serveRelease ha hstage trivial _ (hinv.rest ha hstage (.ok ())).2.1
    | error e =>
      simp only [serveKeys, hkey]
      cases written with
      | true => exact hinv.serveRelease ha hstage trivial _ (hinv.rest ha hstage (.error e)).2.1
      | false => exact hinv.serveOther ha hstage trivial

/-! ## The runs -/

theorem dispatch_sendFrame (a : Attempt) :
    dispatch parse c (some (sendFrame roomId a.clientId a.content)) =
      handleMessageSend parse c (sendFrame roomId a.clientId a.content) := rfl

/-- A frame reaches its handler. -/
theorem SendInv.arriveFrame (hinv : SendInv parse roomId c s) (ha : s.attempts n = some a)
    (hstage : a.stage = .frame) {p : ConnProc Unit}
    (hp : p = dispatch parse c (some (sendFrame roomId a.clientId a.content))) :
    SendInv parse roomId c (s.setAttempt n { a with stage := .handling p }) := by
  have hproper := hinv.proper n a ha
  rw [Attempt.Proper, hstage] at hproper
  refine hinv.goOn ha _ rfl rfl (fun _ => ?_) (fun h => False.elim h) ⟨hproper, ?_⟩
  · rw [hstage]
    trivial
  · rw [hp, dispatch_sendFrame]
    exact handleMessageSend_after _ _

/-- A request reaches its handler. -/
theorem SendInv.arriveRequest (hinv : SendInv parse roomId c s) (ha : s.attempts n = some a)
    (hstage : a.stage = .request) {p : SendProc SendResponse}
    (hp : p = sendMessage parse c.userID roomId (some ⟨a.content, ""⟩) a.clientId) :
    SendInv parse roomId c (s.setAttempt n { a with stage := .serving p }) := by
  have hproper := hinv.proper n a ha
  rw [Attempt.Proper, hstage] at hproper
  subst hp
  refine hinv.goOn ha _ rfl rfl (fun _ => ?_) (fun h => ?_)
    ⟨hproper, sendMessage_after, sendMessage_key⟩
  · rw [hstage]
    trivial
  · exact absurd h (sendMessage_reserves (hinv.named _ (hinv.used n a ha)))

/-- The client takes note of a timeout or of an answer. -/
theorem SendInv.settle (hinv : SendInv parse roomId c s) (ha : s.attempts n = some a)
    (u : CacheUpdate) :
    SendInv parse roomId c ((s.updateCache u).setAttempt n { a with settled := true }) := by
  have hnext := hinv.goOn ha { a with settled := true } rfl rfl id id (hinv.proper n a ha)
  exact hnext.congr rfl rfl rfl rfl

/-- The first attempt of a composer send. -/
theorem SendInv.send {clientId content : String} (hinv : SendInv parse roomId c s)
    (hne : clientId ≠ "") (hfresh : clientId ∉ s.used) (u : CacheUpdate) :
    SendInv parse roomId c
      ({ s.updateCache u with used := clientId :: s.used }.performSend n content clientId) := by
  have hnone : ∀ n a, s.attempts n = some a → a.clientId ≠ clientId := by
    rintro n a ha rfl
    exact hfresh (hinv.used n a ha)
  have hrows : ∀ row ∈ s.rows, row.clientId ≠ clientId := by
    rintro row hrow rfl
    exact hfresh (hinv.usedRows row hrow)
  have hbefore : SendInv parse roomId c { s.updateCache u with used := clientId :: s.used } := by
    refine ⟨fun id hid => ?_, fun n a ha => ?_, fun row hrow => ?_, hinv.proper, hinv.socket,
      hinv.socketRow, hinv.requestRow, hinv.holder, hinv.once⟩
    · rcases List.mem_cons.mp hid with rfl | hid
      · exact hne
      · exact hinv.named id hid
    · exact List.mem_cons_of_mem _ (hinv.used n a ha)
    · exact List.mem_cons_of_mem _ (hinv.usedRows row hrow)
  refine hbefore.performSend List.mem_cons_self ?_
  unfold RetriesAlone
  split_ifs
  · refine ⟨?_, hrows⟩
    rintro n' ⟨a, ha, hid, -⟩
    exact hnone n' a ha hid
  · exact ⟨fun n' a ha hid => absurd hid (hnone n' a ha),
      fun row hrow hid => absurd hid (hrows row hrow)⟩

theorem SendInv.retry {clientId content : String} (hinv : SendInv parse roomId c s)
    (hused : clientId ∈ s.used)
    (halone : s.isFailed clientId = true → RetriesAlone s clientId) :
    SendInv parse roomId c (s.retry n clientId content) := by
  unfold SendState.retry
  split_ifs with hfailed
  · have hbefore : SendInv parse roomId c (s.updateCache (.retried clientId)) :=
      hinv.congr rfl rfl rfl rfl
    exact hbefore.performSend hused (halone hfailed)
  · exact hinv

variable {currentUser : Option Frontend.UserSummary} {wire : MessageWithAuthor → ChatMessage}
  {s' : SendState} {act : SendAction}

/-- Every step that meets the condition keeps the invariant. -/
theorem SendInv.step (hinv : SendInv parse roomId c s) (hsafe : SendsSafely s act)
    (hs : s.step parse roomId c currentUser wire act = some s') : SendInv parse roomId c s' := by
  cases act with
  | socket isOpen =>
    cases hs
    exact hinv.congr rfl rfl rfl rfl
  | update u =>
    cases hs
    exact hinv.congr rfl rfl rfl rfl
  | send n clientId content now =>
    simp only [SendState.step] at hs
    split_ifs at hs with hguard
    cases hs
    exact hinv.send hguard.2.1 hguard.2.2 _
  | retry n clientId content =>
    simp only [SendState.step] at hs
    split_ifs at hs with hguard
    cases hs
    exact hinv.retry hguard.2 hsafe
  | ackTimeout n =>
    simp only [SendState.step] at hs
    split at hs
    · rename_i a ha
      split_ifs at hs
      cases hs
      exact hinv.settle ha _
    · cases hs
  | lose n =>
    simp only [SendState.step] at hs
    split at hs
    · rename_i a ha
      cases hs
      exact hinv.goOn ha _ rfl rfl (fun h => False.elim h) (fun h => False.elim h) trivial
    · cases hs
  | arrive n =>
    simp only [SendState.step] at hs
    split at hs
    · rename_i a ha
      split at hs
      · rename_i hstage
        cases hs
        exact hinv.arriveFrame ha hstage rfl
      · rename_i hstage
        cases hs
        exact hinv.arriveRequest ha hstage rfl
      · cases hs
    · cases hs
  | serveFrame n env written =>
    simp only [SendState.step] at hs
    split at hs
    · rename_i a ha
      split at hs
      · rename_i o k hstage
        cases hs
        exact hinv.serveFrame ha hstage written (env o)
      · cases hs
    · cases hs
  | serveRequest n env written =>
    simp only [SendState.step] at hs
    split at hs
    · rename_i a ha
      split at hs
      · rename_i o k hstage
        cases hs
        exact hinv.serveRequest ha hstage (fun h => hsafe ⟨a, o, k, ha, hstage, h⟩) (env o)
      · cases hs
    · cases hs
  | answer n =>
    simp only [SendState.step] at hs
    split at hs
    · rename_i a ha
      split at hs
      · cases hs
        exact hinv.settle ha _
      · cases hs
        exact hinv.settle ha _
      · cases hs
    · cases hs
  | reject n =>
    simp only [SendState.step] at hs
    split at hs
    · rename_i a ha
      split_ifs at hs
      cases hs
      exact hinv.settle ha _
    · cases hs
  | expire key => exact False.elim hsafe

theorem sendInv_start (query : RoomQuery) : SendInv parse roomId c (SendState.start query) where
  named := nofun
  used := nofun
  usedRows := nofun
  proper := nofun
  socket := nofun
  socketRow := nofun
  requestRow := nofun
  holder := nofun
  once _ := Nat.zero_le 1

/-- There is at most one row for a composer send, if retries go out alone and an
    insert that fails under a reserved key has written nothing. -/
theorem one_row_per_send (parse : String → Option UUID) (roomId : String) (c : Client)
    (currentUser : Option Frontend.UserSummary) (wire : MessageWithAuthor → ChatMessage)
    (query : RoomQuery) (s : SendState)
    (hrun : Reach (SendState.step parse roomId c currentUser wire) SendsSafely
      (SendState.start query) s) (clientId : String) :
    s.rows.countP (·.clientId = clientId) ≤ 1 := by
  have hinv : SendInv parse roomId c s := hrun.invariant (SendInv parse roomId c)
    (fun _ _ _ hinv hsafe hs => hinv.step hsafe hs) (sendInv_start query)
  exact hinv.once clientId

/-! ## Two runs -/

/-- The answers to `handleMessageSend` when all goes well. -/
def frameStore : (o : ConnOp) → o.Res
  | .call (.insertMessage r u content messageType) =>
    .ok ⟨9, r, ⟨u, "alice", none⟩, some content, messageType, none, none, 0, 0⟩
  | .call o => answers o
  | .sendError _ _ => ()
  | .register => ()
  | .join _ => ()
  | .leave _ => ()
  | .ensure _ _ => .ok ()
  | .typingStart _ => ()
  | .typingStop _ => ()

/-- The answers to `SendMessage` when all goes well. -/
def requestStore : (o : SendOp) → o.Res
  | .getMembership r u => .ok ⟨1, r, u, .member, 0, none, none, none⟩
  | .reserveMessageIdempotencyKey _ _ _ => .ok true
  | .insertMessage r u content messageType =>
    .ok ⟨9, r, ⟨u, "alice", none⟩, some content, messageType, none, none, 0, 0⟩
  | .releaseMessageIdempotencyKey _ _ _ => .ok ()

/-- A message as the client reads it. -/
def wireMessage (m : MessageWithAuthor) : ChatMessage :=
  confirmedMessage (toString m.id) m.user.username (m.content.getD "")

abbrev sendStep : SendState → SendAction → Option SendState :=
  SendState.step parseId idFive early (some ⟨"1", "alice", none⟩) wireMessage

def sendAfter (as : List SendAction) : SendState :=
  (exec sendStep (SendState.start evidenceQuery) as).getD (SendState.start evidenceQuery)

/-- The first attempt is lost with the socket, and the bubble has failed. -/
def lostAttempt : List SendAction :=
  [.socket true, .send 0 "n1" "hello" "2026-07-05T15:31:00Z", .lose 0, .socket false, .ackTimeout 0]

/-- The retry goes over REST. -/
def retriedRequest : List SendAction :=
  [.arrive 1, .serveRequest 1 requestStore false, .serveRequest 1 requestStore false,
    .serveRequest 1 requestStore false, .answer 1]

/-- `SendsSafely`, for actions other than retries. -/
def sendsSafely (_ : SendState) : SendAction → Bool
  | .retry _ _ _ => false
  | .serveRequest _ _ written => !written
  | .expire _ => false
  | _ => true

theorem sendsSafely_of_check (s : SendState) (a : SendAction) (h : sendsSafely s a = true) :
    SendsSafely s a := by
  cases a with
  | retry n clientId content => cases h
  | serveRequest n env written => exact fun _ => by simpa [sendsSafely] using h
  | expire key => cases h
  | _ => trivial

theorem lostAttempt_over (n : ℕ) (a : Attempt) (h : (sendAfter lostAttempt).attempts n = some a) :
    a.stage = .over := by
  cases n with
  | zero =>
    cases h
    rfl
  | succ n => cases h

theorem one_row_per_send_retried :
    (sendAfter (lostAttempt ++ .retry 1 "n1" "hello" :: retriedRequest)).rows =
      [⟨"n1", false, "hello"⟩] ∧
    (sendAfter (lostAttempt ++ .retry 1 "n1" "hello" :: retriedRequest)).rows.countP
      (·.clientId = "n1") ≤ 1 := by
  have hbefore : Reach sendStep SendsSafely (SendState.start evidenceQuery)
      (sendAfter lostAttempt) := by
    have hexec : exec sendStep (SendState.start evidenceQuery) lostAttempt =
        some (sendAfter lostAttempt) := rfl
    exact Reach.of_exec (meets_of_checks sendsSafely_of_check rfl) hexec
  have hretry : SendsSafely (sendAfter lostAttempt) (.retry 1 "n1" "hello") := by
    intro _
    refine ⟨fun n a ha _ _ => ?_, nofun⟩
    rw [lostAttempt_over n a ha]
    exact id
  have hafter : Reach sendStep SendsSafely ((sendAfter lostAttempt).retry 1 "n1" "hello")
      (sendAfter (lostAttempt ++ .retry 1 "n1" "hello" :: retriedRequest)) := by
    have hexec : exec sendStep ((sendAfter lostAttempt).retry 1 "n1" "hello") retriedRequest =
        some (sendAfter (lostAttempt ++ .retry 1 "n1" "hello" :: retriedRequest)) := rfl
    exact Reach.of_exec (meets_of_checks sendsSafely_of_check rfl) hexec
  have hstep : sendStep (sendAfter lostAttempt) (.retry 1 "n1" "hello") =
      some ((sendAfter lostAttempt).retry 1 "n1" "hello") := rfl
  have hrun := (hbefore.trans (Reach.single hretry hstep)).trans hafter
  exact ⟨by decide, one_row_per_send _ _ _ _ _ _ _ hrun "n1"⟩

/-- No key expires. -/
def InWindow (_ : SendState) : SendAction → Prop
  | .expire _ => False
  | _ => True

/-- The first attempt is persisted, its echo is late, and the retry is sent over the
    same socket. -/
def lateEcho : List SendAction :=
  [.socket true, .send 0 "n1" "hello" "2026-07-05T15:31:00Z", .arrive 0,
    .serveFrame 0 frameStore false, .serveFrame 0 frameStore false,
    .serveFrame 0 frameStore false, .ackTimeout 0, .retry 1 "n1" "hello", .arrive 1,
    .serveFrame 1 frameStore false, .serveFrame 1 frameStore false]

/-- Two rows for one composer send. -/
theorem lost_echo_duplicates :
    Reach sendStep InWindow (SendState.start evidenceQuery) (sendAfter lateEcho) ∧
      (sendAfter lateEcho).rows = [⟨"n1", true, "hello"⟩, ⟨"n1", true, "hello"⟩] ∧
      ¬ (sendAfter lateEcho).rows.countP (·.clientId = "n1") ≤ 1 := by
  have hexec : exec sendStep (SendState.start evidenceQuery) lateEcho =
      some (sendAfter lateEcho) := rfl
  refine ⟨Reach.of_exec ?_ hexec, by decide, by decide⟩
  have hcheck : ∀ s a, (match a with | SendAction.expire _ => false | _ => true) = true →
      InWindow s a := by
    intro s a h
    cases a with
    | expire key => cases h
    | _ => trivial
  exact meets_of_checks hcheck rfl

end ConvoyChat.System
