import ConvoyChat.Store.IdempotencyKeys
import ConvoyChat.System.Sending

/-!
# Requests under an idempotency key

Any number of `SendMessage` requests (`internal/handlers/messages.go` lines 126–177) on one
Redis and one table `messages`, one store call at a time. `ReserveMessageIdempotencyKey`
is a `SETNX` and `ReleaseMessageIdempotencyKey` a `DEL` of the request's key
(`internal/store/messages.go` lines 191–210). The model also keeps the request that has set
a key, which Redis does not.

`GetMembership` and `InsertMessage` may answer anything; an insert that fails has written
nothing. A call to Redis may fail, with or without its effect. From the moment a request's
context is cancelled all its calls fail, without effect.

* `SendPoint`, `SendMove`: where a request can stand, and what a step can do.
* `only_run`: a run without the requests of the other keys is a run again, with the same
  outcome for this one.
* `sends_once`: without expiry a key has at most one message and one answer 201, and only
  the request that has reserved it releases it.
-/

namespace ConvoyChat.System

open ConvoyChat.Lib ConvoyChat.Store ConvoyChat.Handlers ConvoyChat.Websocket

/-! ## The requests -/

/-- What a request to `SendMessage` brings. -/
structure SendCall where
  userID : UUID
  roomParam : String
  body : Option SendMessageRequest
  /-- the `Idempotency-Key`, empty when there is none -/
  key : String

/-- The room, the user and the key of a request with a key. -/
def SendCall.slot (parse : String → Option UUID) (c : SendCall) : Option IdempotencyKey :=
  if c.key = "" then none else (parse c.roomParam).map fun r => (r, c.userID, c.key)

def SendCall.handler (parse : String → Option UUID) (c : SendCall) : SendProc SendResponse :=
  sendMessage parse c.userID c.roomParam c.body c.key

/-- A row of `messages`, with the request that inserted it. -/
structure PersistedMessage where
  request : ℕ
  roomID : UUID
  userID : UUID
  content : String
  messageType : MessageType
deriving DecidableEq, Repr

structure SendTraffic where
  /-- the keys that are set, with the request that set them -/
  redis : String → Option ℕ
  rows : List PersistedMessage
  requests : ℕ → Option (SendProc SendResponse)
  /-- the context of the request is cancelled -/
  cancelled : ℕ → Bool

inductive TrafficStep
  | request (n : ℕ)
  /-- the next store call of the request; a call to Redis that fails may be `written` -/
  | serve (n : ℕ) (env : (o : SendOp) → o.Res) (written : Bool)
  /-- the next store call of a request whose context is cancelled -/
  | fail (n : ℕ)
  | cancel (n : ℕ)
  /-- the TTL of a key runs out -/
  | expire (key : String)

/-- What Redis answers to request `n`, and its keys after the call. -/
def serveRedis (uuid : UuidString) (n : ℕ) (redis : String → Option ℕ) (written : Bool) :
    (o : SendOp) → o.Res → o.Res × (String → Option ℕ)
  | .reserveMessageIdempotencyKey r u k, res =>
    let x := messageIdempotencyKey uuid (r, u, k)
    let reserved := if (redis x).isSome then redis else Function.update redis x (some n)
    match res with
    | .ok _ => (.ok (redis x).isNone, reserved)
    | .error e => (.error e, if written then reserved else redis)
  | .releaseMessageIdempotencyKey r u k, res =>
    let released := Function.update redis (messageIdempotencyKey uuid (r, u, k)) none
    match res with
    | .ok () => (.ok (), released)
    | .error e => (.error e, if written then released else redis)
  | _, res => (res, redis)

/-- The row that a call of request `n` writes. -/
def insertedRows (n : ℕ) : (o : SendOp) → o.Res → List PersistedMessage
  | .insertMessage r u content messageType, .ok _ => [⟨n, r, u, content, messageType⟩]
  | _, _ => []

/-- The answer of a call with a cancelled context. -/
def cancelledAnswer : (o : SendOp) → o.Res
  | .getMembership _ _ => .error .internal
  | .reserveMessageIdempotencyKey _ _ _ => .error .internal
  | .insertMessage _ _ _ _ => .error .internal
  | .releaseMessageIdempotencyKey _ _ _ => .error .internal

namespace SendTraffic

def start : SendTraffic := ⟨fun _ => none, [], fun _ => none, fun _ => false⟩

def resume (s : SendTraffic) (n : ℕ) (p : SendProc SendResponse) : SendTraffic :=
  { s with requests := Function.update s.requests n (some p) }

variable (uuid : UuidString) (parse : String → Option UUID) (calls : ℕ → SendCall)

/-- One step; `calls n` is what request `n` brings. -/
def step (s : SendTraffic) : TrafficStep → Option SendTraffic
  | .request n =>
    match s.requests n with
    | none => some (s.resume n ((calls n).handler parse))
    | some _ => none
  | .serve n env written =>
    match s.requests n with
    | some (.op o k) =>
      if s.cancelled n then none
      else
        let out := serveRedis uuid n s.redis written o (env o)
        some { s.resume n (k out.1) with
          redis := out.2
          rows := s.rows ++ insertedRows n o out.1 }
    | _ => none
  | .fail n =>
    match s.requests n with
    | some (.op o k) => if s.cancelled n then some (s.resume n (k (cancelledAnswer o))) else none
    | _ => none
  | .cancel n => some { s with cancelled := Function.update s.cancelled n true }
  | .expire key => some { s with redis := Function.update s.redis key none }

end SendTraffic

/-! ## Where a request stands -/

inductive SendPhase
  /-- before the reservation has succeeded -/
  | early
  | inserting
  | releasing
  /-- answered with an error -/
  | refused
  /-- answered 201 -/
  | sent
deriving DecidableEq, Repr

/-- Where what is left of `SendMessage` stands. -/
def sendPhase : SendProc SendResponse → SendPhase
  | .ret (.error _) => .refused
  | .ret (.ok _) => .sent
  | .op (.insertMessage _ _ _ _) _ => .inserting
  | .op (.releaseMessageIdempotencyKey _ _ _) _ => .releasing
  | .op (.getMembership _ _) _ => .early
  | .op (.reserveMessageIdempotencyKey _ _ _) _ => .early

/-- Nothing is reserved, and nothing is inserted under a key. -/
def Unreserved (c : SendCall) (p : SendProc SendResponse) : Prop :=
  sendPhase p = .early ∨ sendPhase p = .refused ∨ (sendPhase p = .inserting ∧ c.key = "")

/-- What is left of the handler of `c`. -/
inductive SendPoint (parse : String → Option UUID) (c : SendCall) : SendProc SendResponse → Prop
  | refused (w : Response) : SendPoint parse c (.ret (.error w))
  | sent (message : MessageWithAuthor) : SendPoint parse c (.ret (.ok message))
  | releasing {r : UUID} {k : Except StoreErr Unit → SendProc SendResponse} :
      parse c.roomParam = some r → c.key ≠ "" → (∀ res, sendPhase (k res) = .refused) →
      (∀ res, SendPoint parse c (k res)) →
      SendPoint parse c (.op (.releaseMessageIdempotencyKey r c.userID c.key) k)
  | inserting {r : UUID} {content : String} {messageType : MessageType}
      {k : Except StoreErr MessageWithAuthor → SendProc SendResponse} :
      parse c.roomParam = some r → (∀ message, sendPhase (k (.ok message)) = .sent) →
      (∀ e, sendPhase (k (.error e)) = if c.key = "" then .refused else .releasing) →
      (∀ res, SendPoint parse c (k res)) →
      SendPoint parse c (.op (.insertMessage r c.userID content messageType) k)
  | reserving {r : UUID} {k : Except StoreErr Bool → SendProc SendResponse} :
      parse c.roomParam = some r → c.key ≠ "" → sendPhase (k (.ok true)) = .inserting →
      (∀ res, res ≠ .ok true → sendPhase (k res) = .refused) → (∀ res, SendPoint parse c (k res)) →
      SendPoint parse c (.op (.reserveMessageIdempotencyKey r c.userID c.key) k)
  | checking {r u : UUID} {k : Except StoreErr RoomMember → SendProc SendResponse} :
      (∀ res, Unreserved c (k res)) → (∀ res, SendPoint parse c (k res)) →
      SendPoint parse c (.op (.getMembership r u) k)

variable {uuid : UuidString} {parse : String → Option UUID} {calls : ℕ → SendCall} {c : SendCall}
  {p p' : SendProc SendResponse} {r : UUID} {content : String} {messageType : MessageType}
  {s s' : SendTraffic} {n : ℕ} {a : TrafficStep} {x : IdempotencyKey}

theorem SendCall.slot_eq (hroom : parse c.roomParam = some r) (hkey : c.key ≠ "") :
    c.slot parse = some (r, c.userID, c.key) := by
  rw [SendCall.slot, if_neg hkey, hroom]
  rfl

theorem SendCall.key_of_slot (h : c.slot parse = some x) : c.key ≠ "" := by
  intro hkey
  rw [SendCall.slot, if_pos hkey] at h
  cases h

theorem insertAndRespond_point (hroom : parse c.roomParam = some r) :
    SendPoint parse c (insertAndRespond r c.userID content messageType c.key) := by
  refine .inserting hroom (fun message => rfl) (fun e => ?_) fun res => ?_
  · by_cases hkey : c.key = ""
    · simp only [hkey, ne_eq, not_true_eq_false, if_false, if_true]
      rfl
    · simp only [hkey, ne_eq, not_false_eq_true, if_false, if_true]
      rfl
  · cases res with
    | ok message => exact .sent message
    | error e =>
      by_cases hkey : c.key = ""
      · simp only [hkey, ne_eq, not_true_eq_false, if_false]
        exact .refused _
      · simp only [hkey, ne_eq, not_false_eq_true, if_true]
        exact .releasing hroom hkey (fun _ => rfl) fun _ => .refused _

theorem reserveAndInsert_point (hroom : parse c.roomParam = some r) :
    SendPoint parse c (reserveAndInsert r c.userID content messageType c.key) := by
  unfold reserveAndInsert
  split_ifs with hkey
  · refine .reserving hroom hkey rfl (fun res hres => ?_) fun res => ?_
    · match res with
      | .ok true => exact absurd rfl hres
      | .ok false => rfl
      | .error e => rfl
    · match res with
      | .ok true => exact insertAndRespond_point hroom
      | .ok false => exact .refused _
      | .error e => exact .refused _
  · exact insertAndRespond_point hroom

theorem reserveAndInsert_phase :
    sendPhase (reserveAndInsert r c.userID content messageType c.key) =
      if c.key = "" then .inserting else .early := by
  unfold reserveAndInsert
  by_cases hkey : c.key = ""
  · rw [if_neg fun h => h hkey, if_pos hkey]
    rfl
  · rw [if_pos hkey, if_neg hkey]
    rfl

/-- A new request. -/
theorem handler_point (parse : String → Option UUID) (c : SendCall) :
    SendPoint parse c (c.handler parse) ∧ Unreserved c (c.handler parse) := by
  refine sendMessage_rule (C := fun p => SendPoint parse c p ∧ Unreserved c p)
    (fun w => ⟨.refused w, .inr (.inl rfl)⟩) (fun r u f hf => ?_)
    fun r content messageType hroom => ?_
  · exact ⟨.checking (fun res => (hf res).2) fun res => (hf res).1, .inl rfl⟩
  · refine ⟨reserveAndInsert_point hroom, ?_⟩
    unfold Unreserved
    rw [reserveAndInsert_phase]
    by_cases hkey : c.key = ""
    · rw [if_pos hkey]
      exact .inr (.inr ⟨rfl, hkey⟩)
    · rw [if_neg hkey]
      exact .inl rfl

/-! ## What a step does -/

/-- Where request `n` stands. -/
def SendTraffic.phase (s : SendTraffic) (n : ℕ) : Option SendPhase := (s.requests n).map sendPhase

@[simp] theorem SendTraffic.phase_resume (s : SendTraffic) (n m : ℕ) (p : SendProc SendResponse) :
    (s.resume n p).phase m = if m = n then some (sendPhase p) else s.phase m := by
  show (Function.update s.requests n (some p) m).map sendPhase = _
  by_cases hm : m = n
  · rw [if_pos hm, hm, Function.update_self]
    rfl
  · rw [if_neg hm, Function.update_of_ne hm]
    rfl

/-- A call to Redis that does not fail. -/
def RedisAnswers : (o : SendOp) → o.Res → Prop
  | .reserveMessageIdempotencyKey _ _ _, res => res.isOk = true
  | .releaseMessageIdempotencyKey _ _ _, res => res.isOk = true
  | _, _ => True

/-- What a store call of request `n` does to the request, to Redis and to the table;
    `answered` if it is not a call to Redis that fails. -/
inductive SendEffect (uuid : UuidString) (parse : String → Option UUID) (c : SendCall)
    (answered : Prop) (n : ℕ) (s : SendTraffic) (p p' : SendProc SendResponse) : SendTraffic → Prop
  | quiet : sendPhase p = .early → Unreserved c p' →
      SendEffect uuid parse c answered n s p p' (s.resume n p')
  /-- the key is set; a request that is not told of it ends -/
  | reserved {slot : IdempotencyKey} : c.slot parse = some slot → sendPhase p = .early →
      (sendPhase p' = .inserting ∨ (sendPhase p' = .refused ∧ ¬ answered)) →
      s.redis (messageIdempotencyKey uuid slot) = none →
      SendEffect uuid parse c answered n s p p' { s.resume n p' with
        redis := Function.update s.redis (messageIdempotencyKey uuid slot) (some n) }
  | inserted {row : PersistedMessage} : sendPhase p = .inserting → sendPhase p' = .sent →
      row.request = n → parse c.roomParam = some row.roomID → c.userID = row.userID →
      SendEffect uuid parse c answered n s p p' { s.resume n p' with rows := s.rows ++ [row] }
  | failed : sendPhase p = .inserting →
    sendPhase p' = (if c.key = "" then .refused else .releasing) →
      SendEffect uuid parse c answered n s p p' (s.resume n p')
  | released {slot : IdempotencyKey} : c.slot parse = some slot → sendPhase p = .releasing →
      sendPhase p' = .refused →
      SendEffect uuid parse c answered n s p p' { s.resume n p' with
        redis := Function.update s.redis (messageIdempotencyKey uuid slot) none }
  | unreleased : ¬ answered → sendPhase p = .releasing → sendPhase p' = .refused →
      SendEffect uuid parse c answered n s p p' (s.resume n p')

/-- A call with a context that is not cancelled. -/
theorem serve_effect {o : SendOp} {k : o.Res → SendProc SendResponse}
    (h : SendPoint parse c (.op o k)) (n : ℕ) (env : o.Res) (written : Bool) (s : SendTraffic) :
    SendEffect uuid parse c (RedisAnswers o env) n s (.op o k)
      (k (serveRedis uuid n s.redis written o env).1)
      { s.resume n (k (serveRedis uuid n s.redis written o env).1) with
        redis := (serveRedis uuid n s.redis written o env).2
        rows := s.rows ++ insertedRows n o (serveRedis uuid n s.redis written o env).1 } := by
  have hnil : s.rows ++ [] = s.rows := List.append_nil _
  have herror : ∀ {α : Type} (e : StoreErr), ¬ ((Except.error e : Except StoreErr α).isOk = true) :=
    fun _ => Bool.false_ne_true
  cases h with
  | releasing hroom hkey hphase hpoint =>
    simp only [serveRedis, insertedRows, hnil]
    cases env with
    | ok x => exact .released (SendCall.slot_eq hroom hkey) rfl (hphase _)
    | error e =>
      cases written with
      | true => exact .released (SendCall.slot_eq hroom hkey) rfl (hphase _)
      | false => exact .unreleased (herror e) rfl (hphase _)
  | inserting hroom hsent hfailed hpoint =>
    cases env with
    | ok message => exact .inserted rfl (hsent message) rfl hroom rfl
    | error e =>
      simp only [serveRedis, insertedRows, hnil]
      exact .failed rfl (hfailed e)
  | reserving hroom hkey htrue hfalse hpoint =>
    have hslot := SendCall.slot_eq hroom hkey
    have hne : ∀ e, (Except.error e : Except StoreErr Bool) ≠ .ok true := by simp
    simp only [serveRedis, insertedRows, hnil]
    cases hredis : s.redis (messageIdempotencyKey uuid (_, c.userID, c.key)) with
    | none =>
      cases env with
      | ok x => exact .reserved hslot rfl (.inl htrue) hredis
      | error e =>
        cases written with
        | true => exact .reserved hslot rfl (.inr ⟨hfalse _ (hne e), herror e⟩) hredis
        | false => exact .quiet rfl (.inr (.inl (hfalse _ (hne e))))
    | some m =>
      cases env with
      | ok x => exact .quiet rfl (.inr (.inl (hfalse _ (by simp))))
      | error e => cases written <;> exact .quiet rfl (.inr (.inl (hfalse _ (hne e))))
  | checking hphase hpoint =>
    simp only [serveRedis, insertedRows, hnil]
    exact .quiet rfl (hphase _)

theorem SendPoint.next {o : SendOp} {k : o.Res → SendProc SendResponse}
    (h : SendPoint parse c (.op o k)) (res : o.Res) : SendPoint parse c (k res) := by
  cases h with
  | releasing _ _ _ hpoint => exact hpoint res
  | inserting _ _ _ hpoint => exact hpoint res
  | reserving _ _ _ _ hpoint => exact hpoint res
  | checking _ hpoint => exact hpoint res

/-- A call with a cancelled context. -/
def FailsOver (c : SendCall) (p p' : SendProc SendResponse) : Prop :=
  (sendPhase p = .early ∧ Unreserved c p') ∨
    (sendPhase p = .inserting ∧ sendPhase p' = if c.key = "" then .refused else .releasing) ∨
    (sendPhase p = .releasing ∧ sendPhase p' = .refused)

theorem fail_phases {o : SendOp} {k : o.Res → SendProc SendResponse}
    (h : SendPoint parse c (.op o k)) : FailsOver c (.op o k) (k (cancelledAnswer o)) := by
  cases h with
  | releasing _ _ hphase _ => exact .inr (.inr ⟨rfl, hphase _⟩)
  | inserting _ _ hfailed _ => exact .inr (.inl ⟨rfl, hfailed _⟩)
  | reserving _ _ _ hfalse _ => exact .inl ⟨rfl, .inr (.inl (hfalse _ (by simp [cancelledAnswer])))⟩
  | checking hphase _ => exact .inl ⟨rfl, hphase _⟩

theorem FailsOver.effect (h : FailsOver c p p') (uuid : UuidString) (n : ℕ) (s : SendTraffic) :
    SendEffect uuid parse c False n s p p' (s.resume n p') := by
  rcases h with ⟨hp, hp'⟩ | ⟨hp, hp'⟩ | ⟨hp, hp'⟩
  · exact .quiet hp hp'
  · exact .failed hp hp'
  · exact .unreleased id hp hp'

/-- What is left of every request is a point of its handler. -/
def Pointed (parse : String → Option UUID) (calls : ℕ → SendCall) (s : SendTraffic) : Prop :=
  ∀ n p, s.requests n = some p → SendPoint parse (calls n) p

/-- The steps of the requests, of their contexts and of Redis. -/
inductive SendMove (uuid : UuidString) (parse : String → Option UUID) (calls : ℕ → SendCall)
    (s : SendTraffic) : TrafficStep → SendTraffic → Prop
  | request {n : ℕ} : s.requests n = none →
      SendMove uuid parse calls s (.request n) (s.resume n ((calls n).handler parse))
  | serve {n : ℕ} {env : (o : SendOp) → o.Res} {written : Bool} {o : SendOp}
      {k : o.Res → SendProc SendResponse} {p' : SendProc SendResponse} {s' : SendTraffic} :
      s.requests n = some (.op o k) → s.cancelled n = false →
      SendEffect uuid parse (calls n) (RedisAnswers o (env o)) n s (.op o k) p' s' →
      SendMove uuid parse calls s (.serve n env written) s'
  | fail {n : ℕ} {p p' : SendProc SendResponse} : s.requests n = some p → s.cancelled n = true →
      FailsOver (calls n) p p' →
      SendMove uuid parse calls s (.fail n) (s.resume n p')
  | cancel {n : ℕ} : SendMove uuid parse calls s (.cancel n)
      { s with cancelled := Function.update s.cancelled n true }
  | expire {key : String} : SendMove uuid parse calls s (.expire key)
      { s with redis := Function.update s.redis key none }

theorem Pointed.resume (h : Pointed parse calls s) (hp : SendPoint parse (calls n) p) :
    Pointed parse calls (s.resume n p) := by
  intro m q hq
  have hq : Function.update s.requests n (some p) m = some q := hq
  by_cases hm : m = n
  · subst hm
    rw [Function.update_self] at hq
    exact Option.some.inj hq ▸ hp
  · rw [Function.update_of_ne hm] at hq
    exact h m q hq

/-- Every step is one of these, and the requests stay at points of their handlers. -/
theorem sendTraffic_move (hpoint : Pointed parse calls s)
    (h : s.step uuid parse calls a = some s') :
    SendMove uuid parse calls s a s' ∧ Pointed parse calls s' := by
  cases a with
  | request n =>
    simp only [SendTraffic.step] at h
    split at h
    · rename_i hn
      cases h
      exact ⟨.request hn, hpoint.resume (handler_point parse (calls n)).1⟩
    · cases h
  | serve n env written =>
    simp only [SendTraffic.step] at h
    split at h
    · rename_i o k hn
      have hp := hpoint n _ hn
      split_ifs at h with hcancelled
      cases h
      refine ⟨.serve hn (by simpa using hcancelled) (serve_effect hp n (env o) written s), ?_⟩
      exact hpoint.resume (hp.next _)
    · cases h
  | fail n =>
    simp only [SendTraffic.step] at h
    split at h
    · rename_i o k hn
      have hp := hpoint n _ hn
      split_ifs at h with hcancelled
      cases h
      exact ⟨.fail hn hcancelled (fail_phases hp), hpoint.resume (hp.next _)⟩
    · cases h
  | cancel n =>
    cases h
    exact ⟨.cancel, hpoint⟩
  | expire key =>
    cases h
    exact ⟨.expire, hpoint⟩

/-! ## One message for a key -/

/-- The room, the user and the key under which a row was inserted. -/
def PersistedMessage.slot (calls : ℕ → SendCall) (m : PersistedMessage) : IdempotencyKey :=
  (m.roomID, m.userID, (calls m.request).key)

/-- The request has reserved its key, and has not released it. -/
def HasReserved (phase : Option SendPhase) : Prop :=
  phase = some .inserting ∨ phase = some .releasing ∨ phase = some .sent

structure RowsInv (parse : String → Option UUID) (calls : ℕ → SendCall) (s : SendTraffic) :
    Prop where
  sent : ∀ m ∈ s.rows, s.phase m.request = some .sent
  keyed : ∀ m ∈ s.rows, parse (calls m.request).roomParam = some m.roomID ∧
    (calls m.request).userID = m.userID
  once : ∀ n, s.rows.countP (fun m => m.request = n) ≤ 1
  persisted : ∀ n, s.phase n = some .sent → ∃ m ∈ s.rows, m.request = n

theorem RowsInv.resume (h : RowsInv parse calls s) (hn : s.phase n ≠ some .sent)
    (hp : sendPhase p ≠ .sent) : RowsInv parse calls (s.resume n p) where
  sent m hm := by
    have hsent := h.sent m hm
    rw [SendTraffic.phase_resume, if_neg]
    · exact hsent
    · rintro rfl
      exact hn hsent
  keyed := h.keyed
  once := h.once
  persisted m hm := by
    rw [SendTraffic.phase_resume] at hm
    split_ifs at hm
    · exact absurd (Option.some.inj hm) hp
    · exact h.persisted m hm

theorem RowsInv.insert {row : PersistedMessage} (h : RowsInv parse calls s)
    (hn : s.phase n ≠ some .sent) (hp : sendPhase p = .sent) (hrow : row.request = n)
    (hslot : parse (calls n).roomParam = some row.roomID ∧ (calls n).userID = row.userID) :
    RowsInv parse calls { s.resume n p with rows := s.rows ++ [row] } := by
  have hfresh : ∀ m ∈ s.rows, m.request ≠ n := by
    rintro m hm rfl
    exact hn (h.sent m hm)
  have hphase : ∀ m, SendTraffic.phase { s.resume n p with rows := s.rows ++ [row] } m =
      if m = n then some .sent else s.phase m := by
    intro m
    rw [← hp]
    exact SendTraffic.phase_resume s n m p
  refine ⟨fun m hm => ?_, fun m hm => ?_, fun m => ?_, fun m hm => ?_⟩
  · rw [hphase]
    rcases List.mem_append.mp hm with hm | hm
    · rw [if_neg (hfresh m hm)]
      exact h.sent m hm
    · rw [List.mem_singleton.mp hm, if_pos hrow]
  · rcases List.mem_append.mp hm with hm | hm
    · exact h.keyed m hm
    · rw [List.mem_singleton.mp hm, hrow]
      exact hslot
  · show (s.rows ++ [row]).countP _ ≤ 1
    rw [List.countP_append, List.countP_singleton]
    by_cases hm : row.request = m
    · have hzero : s.rows.countP (fun x => x.request = m) = 0 := by
        rw [List.countP_eq_zero]
        intro x hx
        rw [decide_eq_true_eq, ← hm, hrow]
        exact hfresh x hx
      rw [hzero]
      split <;> omega
    · rw [if_neg (by rw [decide_eq_true_eq]; exact hm)]
      exact h.once m
  · rw [hphase] at hm
    split_ifs at hm with hmn
    · exact ⟨row, List.mem_append_right _ (List.mem_singleton.mpr rfl), hrow.trans hmn.symm⟩
    · obtain ⟨x, hx, hxm⟩ := h.persisted m hm
      exact ⟨x, List.mem_append_left _ hx, hxm⟩

/-- What no step but a store call of the same request changes. -/
theorem RowsInv.congr (h : RowsInv parse calls s) (hrows : s'.rows = s.rows)
    (hrequests : s'.requests = s.requests) : RowsInv parse calls s' := by
  have hphase : s'.phase = s.phase := by
    funext n
    rw [SendTraffic.phase, SendTraffic.phase, hrequests]
  refine ⟨?_, ?_, ?_, ?_⟩
  · rw [hrows, hphase]
    exact h.sent
  · rw [hrows]
    exact h.keyed
  · rw [hrows]
    exact h.once
  · rw [hrows, hphase]
    exact h.persisted

theorem Unreserved.not_sent (h : Unreserved c p) : sendPhase p ≠ .sent := by
  rcases h with h | h | ⟨h, -⟩ <;> rw [h] <;> decide

theorem RowsInv.effect {answered : Prop} (h : RowsInv parse calls s)
    (hn : s.phase n = some (sendPhase p))
    (heffect : SendEffect uuid parse (calls n) answered n s p p' s') : RowsInv parse calls s' := by
  have hnot : ∀ ph, sendPhase p = ph → ph ≠ .sent → s.phase n ≠ some .sent := by
    rintro ph rfl hne
    rw [hn]
    exact fun heq => hne (Option.some.inj heq)
  cases heffect with
  | quiet hp hp' => exact h.resume (hnot _ hp (by decide)) hp'.not_sent
  | reserved hslot hp hp' hredis =>
    refine RowsInv.congr (h.resume (p := p') (hnot _ hp (by decide)) ?_) rfl rfl
    rcases hp' with hp' | ⟨hp', -⟩ <;> rw [hp'] <;> decide
  | inserted hp hp' hrow hroom huser =>
    exact h.insert (hnot _ hp (by decide)) hp' hrow ⟨hroom, huser⟩
  | failed hp hp' =>
    refine h.resume (hnot _ hp (by decide)) ?_
    rw [hp']
    split_ifs <;> decide
  | released hslot hp hp' =>
    refine RowsInv.congr (h.resume (p := p') (hnot _ hp (by decide)) ?_) rfl rfl
    rw [hp']
    decide
  | unreleased _ hp hp' =>
    refine h.resume (hnot _ hp (by decide)) ?_
    rw [hp']
    decide

theorem RowsInv.move (h : RowsInv parse calls s) (hmove : SendMove uuid parse calls s a s') :
    RowsInv parse calls s' := by
  cases hmove with
  | request hn =>
    have hnone : ∀ n, s.requests n = none → s.phase n ≠ some .sent := by
      intro n hn
      rw [SendTraffic.phase, hn]
      exact fun heq => by cases heq
    exact h.resume (hnone _ hn) (handler_point parse _).2.not_sent
  | serve hn _ heffect => exact h.effect (by rw [SendTraffic.phase, hn]; rfl) heffect
  | fail hn _ hfails =>
    exact h.effect (by rw [SendTraffic.phase, hn]; rfl) (hfails.effect uuid _ _)
  | cancel => exact h.congr rfl rfl
  | expire => exact h.congr rfl rfl

/-- The reservations of the requests stand. -/
def KeyInv (uuid : UuidString) (parse : String → Option UUID) (calls : ℕ → SendCall)
    (s : SendTraffic) : Prop :=
  ∀ n x, HasReserved (s.phase n) → (calls n).slot parse = some x →
    s.redis (messageIdempotencyKey uuid x) = some n

/-- A request that goes on and has reserved no more than before. -/
theorem KeyInv.resume (h : KeyInv uuid parse calls s)
    (hp : HasReserved (some (sendPhase p)) → (calls n).key = "" ∨ HasReserved (s.phase n)) :
    KeyInv uuid parse calls (s.resume n p) := by
  intro m x hm hx
  rw [SendTraffic.phase_resume] at hm
  split_ifs at hm with hmn
  · subst hmn
    rcases hp hm with hkey | hheld
    · exact absurd hkey (SendCall.key_of_slot hx)
    · exact h m x hheld hx
  · exact h m x hm hx

theorem Unreserved.not_reserved (h : Unreserved c p) :
    HasReserved (some (sendPhase p)) → c.key = "" := by
  intro hp
  rcases h with h | h | ⟨-, hkey⟩
  · rw [h] at hp
    rcases hp with hp | hp | hp <;> cases hp
  · rw [h] at hp
    rcases hp with hp | hp | hp <;> cases hp
  · exact hkey

theorem KeyInv.reserve (h : KeyInv uuid parse calls s) (hx : (calls n).slot parse = some x)
    (hfree : s.redis (messageIdempotencyKey uuid x) = none) :
    KeyInv uuid parse calls { s.resume n p with
      redis := Function.update s.redis (messageIdempotencyKey uuid x) (some n) } := by
  intro m y hm hy
  have hm : HasReserved ((s.resume n p).phase m) := hm
  rw [SendTraffic.phase_resume] at hm
  show Function.update s.redis _ _ _ = _
  split_ifs at hm with hmn
  · subst hmn
    rw [hx] at hy
    rw [Option.some.inj hy, Function.update_self]
  · have hheld := h m y hm hy
    -- the key was free, so this is another one
    rw [Function.update_of_ne, hheld]
    intro heq
    rw [heq, hfree] at hheld
    cases hheld

/-- A release takes away the reservation of the same request only. -/
theorem KeyInv.release (h : KeyInv uuid parse calls s) (hx : (calls n).slot parse = some x)
    (hheld : HasReserved (s.phase n)) (hp : ¬ HasReserved (some (sendPhase p))) :
    KeyInv uuid parse calls { s.resume n p with
      redis := Function.update s.redis (messageIdempotencyKey uuid x) none } := by
  intro m y hm hy
  have hm : HasReserved ((s.resume n p).phase m) := hm
  rw [SendTraffic.phase_resume] at hm
  show Function.update s.redis _ _ _ = _
  split_ifs at hm with hmn
  · exact absurd hm hp
  · have hother := h m y hm hy
    rw [Function.update_of_ne, hother]
    intro heq
    rw [heq, h n x hheld hx] at hother
    exact hmn (Option.some.inj hother).symm

theorem not_reserved_refused (hp : sendPhase p = .refused) :
    ¬ HasReserved (some (sendPhase p)) := by
  rw [hp]
  rintro (h | h | h) <;> cases h

theorem KeyInv.effect {answered : Prop} (h : KeyInv uuid parse calls s)
    (hn : s.phase n = some (sendPhase p))
    (heffect : SendEffect uuid parse (calls n) answered n s p p' s') :
    KeyInv uuid parse calls s' := by
  cases heffect with
  | quiet _ hp' => exact h.resume fun hres => .inl (hp'.not_reserved hres)
  | reserved hslot _ _ hfree => exact h.reserve hslot hfree
  | inserted hp _ _ _ _ =>
    exact KeyInv.resume h (p := p') (n := n) fun _ => .inr (.inl (hn.trans (congrArg some hp)))
  | failed hp _ => exact h.resume fun _ => .inr (.inl (hn.trans (congrArg some hp)))
  | released hslot hp hp' =>
    exact h.release hslot (.inr (.inl (hn.trans (congrArg some hp)))) (not_reserved_refused hp')
  | unreleased _ _ hp' => exact h.resume fun hres => absurd hres (not_reserved_refused hp')

/-- No key expires. -/
def NoExpiry (_ : SendTraffic) (a : TrafficStep) : Prop := ∀ key, a ≠ .expire key

theorem KeyInv.move (h : KeyInv uuid parse calls s) (hno : NoExpiry s a)
    (hmove : SendMove uuid parse calls s a s') : KeyInv uuid parse calls s' := by
  cases hmove with
  | request hn => exact h.resume fun hres => .inl ((handler_point parse _).2.not_reserved hres)
  | serve hn _ heffect => exact h.effect (by rw [SendTraffic.phase, hn]; rfl) heffect
  | fail hn _ hfails => exact h.effect (by rw [SendTraffic.phase, hn]; rfl) (hfails.effect uuid _ _)
  | cancel => exact h
  | expire => exact absurd rfl (hno _)

/-- A key is given up by a step of the request that has set it, which is at its release. -/
theorem release_own (h : KeyInv uuid parse calls s) (hno : NoExpiry s a)
    (hmove : SendMove uuid parse calls s a s') {text : String} {m : ℕ}
    (hset : s.redis text = some m) (hlost : s'.redis text ≠ some m) :
    s.phase m = some .releasing ∧ s'.redis text = none ∧
    ∃ env written, a = .serve m env written := by
  cases hmove with
  | request hn => exact absurd hset hlost
  | @serve n env written o k p' s' hn hlive heffect =>
    have hphase : s.phase n = some (sendPhase (.op o k)) := by
      rw [SendTraffic.phase, hn]
      rfl
    cases heffect with
    | quiet => exact absurd hset hlost
    | @reserved x hslot _ _ hfree =>
      have hne : text ≠ messageIdempotencyKey uuid x := by
        rintro rfl
        rw [hfree] at hset
        cases hset
      refine absurd ?_ hlost
      show Function.update s.redis _ _ _ = _
      rw [Function.update_of_ne hne]
      exact hset
    | inserted => exact absurd hset hlost
    | failed => exact absurd hset hlost
    | @released x hslot hp _ =>
      have hreleasing : s.phase n = some .releasing := hphase.trans (congrArg some hp)
      by_cases htext : text = messageIdempotencyKey uuid x
      · subst htext
        have hown : n = m := by
          have hheld := h n x (.inr (.inl hreleasing)) hslot
          rw [hset] at hheld
          exact (Option.some.inj hheld).symm
        subst hown
        exact ⟨hreleasing, Function.update_self _ _ _, env, written, rfl⟩
      · refine absurd ?_ hlost
        show Function.update s.redis _ _ _ = _
        rw [Function.update_of_ne htext]
        exact hset
    | unreleased => exact absurd hset hlost
  | fail => exact absurd hset hlost
  | cancel => exact absurd hset hlost
  | expire => exact absurd rfl (hno _)

/-! ## The requests of one key -/

/-- The key that a call reserves or releases. -/
def keyOfCall : SendOp → Option IdempotencyKey
  | .reserveMessageIdempotencyKey r u k => some (r, u, k)
  | .releaseMessageIdempotencyKey r u k => some (r, u, k)
  | _ => none

/-- Of Redis, the key `x`. -/
def onlyKey (uuid : UuidString) (x : IdempotencyKey) (redis : String → Option ℕ) :
    String → Option ℕ :=
  fun text => if text = messageIdempotencyKey uuid x then redis text else none

/-- Of the state, what belongs to the requests with key `x`. -/
def SendTraffic.only (uuid : UuidString) (parse : String → Option UUID) (calls : ℕ → SendCall)
    (x : IdempotencyKey) (s : SendTraffic) : SendTraffic where
  redis := onlyKey uuid x s.redis
  rows := s.rows.filter fun m => (calls m.request).slot parse = some x
  requests n := if (calls n).slot parse = some x then s.requests n else none
  cancelled n := if (calls n).slot parse = some x then s.cancelled n else false

/-- The step is one of a request with key `x`, or the expiry of that key. -/
def TrafficStep.about (uuid : UuidString) (parse : String → Option UUID) (calls : ℕ → SendCall)
    (x : IdempotencyKey) : TrafficStep → Bool
  | .request n => (calls n).slot parse = some x
  | .serve n _ _ => (calls n).slot parse = some x
  | .fail n => (calls n).slot parse = some x
  | .cancel n => (calls n).slot parse = some x
  | .expire text => text = messageIdempotencyKey uuid x

theorem SendPoint.slot_of_call {o : SendOp} {k : o.Res → SendProc SendResponse}
    (h : SendPoint parse c (.op o k)) {y : IdempotencyKey} (hy : keyOfCall o = some y) :
    c.slot parse = some y := by
  cases h with
  | releasing hroom hkey _ _ =>
    cases hy
    exact SendCall.slot_eq hroom hkey
  | inserting => cases hy
  | reserving hroom hkey _ _ _ =>
    cases hy
    exact SendCall.slot_eq hroom hkey
  | checking => cases hy

/-- A write to a map, seen where `P` holds. -/
theorem masked_update {ι β : Type*} [DecidableEq ι] (P : ι → Prop) [DecidablePred P] (f : ι → β)
    (d v : β) (i : ι) :
    (fun j => if P j then Function.update f i v j else d) =
      if P i then Function.update (fun j => if P j then f j else d) i v
      else fun j => if P j then f j else d := by
  funext j
  by_cases hj : j = i
  · subst hj
    by_cases hP : P j
    · rw [if_pos hP, if_pos hP, Function.update_self, Function.update_self]
    · rw [if_neg hP, if_neg hP, if_neg hP]
  · rw [Function.update_of_ne hj]
    by_cases hP : P i
    · rw [if_pos hP, Function.update_of_ne hj]
    · rw [if_neg hP]

theorem onlyKey_update (redis : String → Option ℕ) (v : Option ℕ) :
    onlyKey uuid x (Function.update redis (messageIdempotencyKey uuid x) v) =
      Function.update (onlyKey uuid x redis) (messageIdempotencyKey uuid x) v :=
  (masked_update (· = messageIdempotencyKey uuid x) redis none v _).trans (if_pos rfl)

theorem onlyKey_update_of_ne (redis : String → Option ℕ) (v : Option ℕ) {text : String}
    (hne : text ≠ messageIdempotencyKey uuid x) :
    onlyKey uuid x (Function.update redis text v) = onlyKey uuid x redis :=
  (masked_update (· = messageIdempotencyKey uuid x) redis none v _).trans (if_neg hne)

theorem onlyKey_self (redis : String → Option ℕ) :
    onlyKey uuid x redis (messageIdempotencyKey uuid x) = redis (messageIdempotencyKey uuid x) := by
  rw [onlyKey, if_pos rfl]

/-- A call for the key reads and writes no other key. -/
theorem serveRedis_only {o : SendOp} (ho : ∀ y, keyOfCall o = some y → y = x) (n : ℕ)
    (redis : String → Option ℕ) (written : Bool) (res : o.Res) :
    serveRedis uuid n (onlyKey uuid x redis) written o res =
      ((serveRedis uuid n redis written o res).1,
        onlyKey uuid x (serveRedis uuid n redis written o res).2) := by
  cases o with
  | getMembership => rfl
  | insertMessage => rfl
  | reserveMessageIdempotencyKey r u k =>
    have hx : (r, u, k) = x := ho _ rfl
    subst hx
    cases res <;> simp only [serveRedis, onlyKey_self, apply_ite (onlyKey uuid (r, u, k)),
      onlyKey_update]
  | releaseMessageIdempotencyKey r u k =>
    have hx : (r, u, k) = x := ho _ rfl
    subst hx
    cases res <;> simp only [serveRedis, apply_ite (onlyKey uuid (r, u, k)), onlyKey_update]

/-- A call for another key leaves this one alone. -/
theorem serveRedis_other {o : SendOp} (ho : ∀ y, keyOfCall o = some y → y ≠ x) (n : ℕ)
    (redis : String → Option ℕ) (written : Bool) (res : o.Res) :
    onlyKey uuid x (serveRedis uuid n redis written o res).2 = onlyKey uuid x redis := by
  cases o with
  | getMembership => rfl
  | insertMessage => rfl
  | reserveMessageIdempotencyKey r u k =>
    have hne : messageIdempotencyKey uuid (r, u, k) ≠ messageIdempotencyKey uuid x :=
      fun heq => ho _ rfl (messageIdempotencyKey_inj uuid heq)
    cases res <;> simp only [serveRedis, apply_ite (onlyKey uuid x),
      onlyKey_update_of_ne _ _ hne, ite_self]
  | releaseMessageIdempotencyKey r u k =>
    have hne : messageIdempotencyKey uuid (r, u, k) ≠ messageIdempotencyKey uuid x :=
      fun heq => ho _ rfl (messageIdempotencyKey_inj uuid heq)
    cases res <;> simp only [serveRedis, apply_ite (onlyKey uuid x),
      onlyKey_update_of_ne _ _ hne, ite_self]

theorem request_of_insertedRows {o : SendOp} {res : o.Res} {m : PersistedMessage}
    (hm : m ∈ insertedRows n o res) : m.request = n := by
  cases o with
  | insertMessage r u content messageType =>
    cases res with
    | ok message => rw [List.mem_singleton.mp hm]
    | error e => cases hm
  | getMembership => cases hm
  | reserveMessageIdempotencyKey => cases hm
  | releaseMessageIdempotencyKey => cases hm

/-- The row of a request, seen from one key. -/
theorem filter_insertedRows (o : SendOp) (res : o.Res) :
    (insertedRows n o res).filter (fun m => (calls m.request).slot parse = some x) =
      if (calls n).slot parse = some x then insertedRows n o res else [] := by
  split_ifs with hslot
  · rw [List.filter_eq_self]
    intro m hm
    rw [request_of_insertedRows hm, decide_eq_true_eq]
    exact hslot
  · rw [List.filter_eq_nil_iff]
    intro m hm
    rw [request_of_insertedRows hm, decide_eq_true_eq]
    exact hslot

variable (uuid parse calls x) in
theorem only_resume (s : SendTraffic) (n : ℕ) (p : SendProc SendResponse) :
    (s.resume n p).only uuid parse calls x =
      if (calls n).slot parse = some x then (s.only uuid parse calls x).resume n p
      else s.only uuid parse calls x := by
  have hrequests :=
    masked_update (fun m => (calls m).slot parse = some x) s.requests none (some p) n
  have hstate := congrArg (fun requests => { s.only uuid parse calls x with requests }) hrequests
  by_cases hslot : (calls n).slot parse = some x
  · rw [if_pos hslot] at hstate
    rw [if_pos hslot]
    exact hstate
  · rw [if_neg hslot] at hstate
    rw [if_neg hslot]
    exact hstate

variable (uuid parse calls x) in
/-- The rows and keys after a store call, seen from one key. -/
theorem only_serve (s : SendTraffic) (n : ℕ) (p : SendProc SendResponse) (redis : String → Option ℕ)
    (rows : List PersistedMessage) :
    SendTraffic.only uuid parse calls x { s.resume n p with redis, rows } =
      { (s.resume n p).only uuid parse calls x with
        redis := onlyKey uuid x redis
        rows := rows.filter fun m => (calls m.request).slot parse = some x } :=
  rfl

/-- The requests with key `x` step as they would alone, and the others do not touch what
    is theirs. -/
theorem only_step (hpoint : Pointed parse calls s) (h : s.step uuid parse calls a = some s') :
    (if a.about uuid parse calls x then (s.only uuid parse calls x).step uuid parse calls a
      else some (s.only uuid parse calls x)) = some (s'.only uuid parse calls x) := by
  cases a with
  | request n =>
    simp only [SendTraffic.step] at h
    split at h
    · rename_i hn
      cases h
      by_cases hslot : (calls n).slot parse = some x
      · have hnone : (s.only uuid parse calls x).requests n = none :=
          (if_pos hslot).trans hn
        simp only [TrafficStep.about, hslot, decide_true, if_true, SendTraffic.step, hnone,
          only_resume]
      · simp only [TrafficStep.about, hslot, decide_false, Bool.false_eq_true,
          if_false, only_resume]
    · cases h
  | serve n env written =>
    simp only [SendTraffic.step] at h
    split at h
    · rename_i o k hn
      split_ifs at h with hlive
      cases h
      have hkey : ∀ y, keyOfCall o = some y → (calls n).slot parse = some y :=
        fun y hy => (hpoint n _ hn).slot_of_call hy
      rw [only_serve, only_resume, List.filter_append]
      by_cases hslot : (calls n).slot parse = some x
      · have hsame : (s.only uuid parse calls x).requests n = some (.op o k) :=
          (if_pos hslot).trans hn
        have hlive' : (s.only uuid parse calls x).cancelled n = false :=
          (if_pos hslot).trans (by simpa using hlive)
        have hredis : serveRedis uuid n (s.only uuid parse calls x).redis written o (env o) = _ :=
          serveRedis_only (fun y hy => Option.some.inj ((hkey y hy).symm.trans hslot)) n s.redis
            written (env o)
        simp only [TrafficStep.about, hslot, decide_true, if_true, SendTraffic.step, hsame, hlive',
          Bool.false_eq_true, if_false, hredis, filter_insertedRows]
        rfl
      · have hredis : onlyKey uuid x _ = _ := serveRedis_other
          (fun y hy heq => hslot ((hkey y hy).trans (congrArg some heq))) n s.redis written (env o)
        simp only [TrafficStep.about, hslot, decide_false, Bool.false_eq_true, if_false, hredis,
          filter_insertedRows, List.append_nil]
        rfl
    · cases h
  | fail n =>
    simp only [SendTraffic.step] at h
    split at h
    · rename_i o k hn
      split_ifs at h with hcancelled
      cases h
      by_cases hslot : (calls n).slot parse = some x
      · have hsame : (s.only uuid parse calls x).requests n = some (.op o k) :=
          (if_pos hslot).trans hn
        have hcancelled' : (s.only uuid parse calls x).cancelled n = true :=
          (if_pos hslot).trans hcancelled
        simp only [TrafficStep.about, hslot, decide_true, if_true, SendTraffic.step, hsame,
          hcancelled', only_resume]
      · simp only [TrafficStep.about, hslot, decide_false, Bool.false_eq_true,
          if_false, only_resume]
    · cases h
  | cancel n =>
    cases h
    have hcancelled :=
      masked_update (fun m => (calls m).slot parse = some x) s.cancelled false true n
    have hstate :=
      congrArg (fun cancelled => { s.only uuid parse calls x with cancelled }) hcancelled
    by_cases hslot : (calls n).slot parse = some x
    · rw [if_pos hslot] at hstate
      simp only [TrafficStep.about, hslot, decide_true, if_true, SendTraffic.step]
      exact congrArg some hstate.symm
    · rw [if_neg hslot] at hstate
      simp only [TrafficStep.about, hslot, decide_false, Bool.false_eq_true, if_false]
      exact congrArg some hstate.symm
  | expire text =>
    cases h
    by_cases htext : text = messageIdempotencyKey uuid x
    · subst htext
      have hredis : onlyKey uuid x _ = _ := onlyKey_update s.redis none
      simp only [TrafficStep.about, decide_true, if_true, SendTraffic.step]
      exact congrArg some
        (congrArg (fun redis => { s.only uuid parse calls x with redis }) hredis.symm)
    · have hredis := onlyKey_update_of_ne s.redis none htext
      simp only [TrafficStep.about, htext, decide_false, Bool.false_eq_true, if_false]
      exact congrArg some
        (congrArg (fun redis => { s.only uuid parse calls x with redis }) hredis.symm)

/-- The steps of the requests with key `x` are a run of their own, with the same outcome. -/
theorem only_run {as : List TrafficStep} (hpoint : Pointed parse calls s)
    (h : exec (SendTraffic.step uuid parse calls) s as = some s') :
    exec (SendTraffic.step uuid parse calls) (s.only uuid parse calls x)
      (as.filter (·.about uuid parse calls x)) = some (s'.only uuid parse calls x) := by
  induction as generalizing s with
  | nil =>
    cases h
    rfl
  | cons a as ih =>
    obtain ⟨s₁, hs, hrest⟩ := Option.bind_eq_some_iff.mp h
    have hstep := only_step (x := x) hpoint hs
    have hrun := ih (sendTraffic_move hpoint hs).2 hrest
    by_cases ha : a.about uuid parse calls x = true
    · rw [if_pos ha] at hstep
      rw [List.filter_cons_of_pos ha, exec, hstep]
      exact hrun
    · rw [if_neg ha] at hstep
      rw [List.filter_cons_of_neg ha, Option.some.inj hstep]
      exact hrun

/-- The steps from the first state, none of which is an expiry. -/
theorem reach_noExpiry {as : List TrafficStep} (hno : ∀ text, TrafficStep.expire text ∉ as)
    (h : exec (SendTraffic.step uuid parse calls) s as = some s') :
    Reach (SendTraffic.step uuid parse calls) NoExpiry s s' := by
  refine Reach.of_exec (meets_of_forall ?_ s) h
  rintro a ha _ text rfl
  exact hno text ha

theorem start_pointed : Pointed parse calls SendTraffic.start := by
  intro n p hn
  cases hn

theorem start_rows : RowsInv parse calls SendTraffic.start := by
  refine ⟨fun m hm => ?_, fun m hm => ?_, fun n => Nat.zero_le 1, fun n hn => ?_⟩
  · cases hm
  · cases hm
  · cases hn

theorem start_keys : KeyInv uuid parse calls SendTraffic.start := by
  intro n x hn _
  rcases hn with hn | hn | hn <;> cases hn

theorem PersistedMessage.slot_of_rows {m : PersistedMessage} (hrows : RowsInv parse calls s)
    (hm : m ∈ s.rows)
    (hkey : (m.slot calls).2.2 ≠ "") : (calls m.request).slot parse = some (m.slot calls) := by
  obtain ⟨hroom, huser⟩ := hrows.keyed m hm
  rw [SendCall.slot_eq hroom hkey, huser]
  rfl

/-- In every run without expiry: a key has at most one message and one request that is
    answered 201; the requests of a key behave as they do without all the others; and a key
    that is set is given up only by the `DEL` of the request that has set it. -/
theorem sends_once (uuid : UuidString) (parse : String → Option UUID) (calls : ℕ → SendCall)
    {as : List TrafficStep} (hno : ∀ text, TrafficStep.expire text ∉ as)
    (hexec : exec (SendTraffic.step uuid parse calls) SendTraffic.start as = some s) :
    (∀ x : IdempotencyKey, x.2.2 ≠ "" → s.rows.countP (fun m => m.slot calls = x) ≤ 1) ∧
      (∀ n n' x, (calls n).slot parse = some x → (calls n').slot parse = some x →
        s.phase n = some .sent → s.phase n' = some .sent → n = n') ∧
      (∀ x, exec (SendTraffic.step uuid parse calls) SendTraffic.start
        (as.filter (·.about uuid parse calls x)) = some (s.only uuid parse calls x)) ∧
      Function.Injective (messageIdempotencyKey uuid) ∧
      ∀ a s' text m, NoExpiry s a → s.step uuid parse calls a = some s' → s.redis text = some m →
        s'.redis text ≠ some m →
        s.phase m = some .releasing ∧ s'.redis text = none ∧
        ∃ env written, a = .serve m env written := by
  have hinv : Pointed parse calls s ∧ RowsInv parse calls s ∧ KeyInv uuid parse calls s := by
    refine (reach_noExpiry hno hexec).invariant
      (fun s => Pointed parse calls s ∧ RowsInv parse calls s ∧ KeyInv uuid parse calls s) ?_
      ⟨start_pointed, start_rows, start_keys⟩
    rintro s₁ a s₂ ⟨hpoint, hrows, hkeys⟩ hno hs
    obtain ⟨hmove, hpoint'⟩ := sendTraffic_move hpoint hs
    exact ⟨hpoint', hrows.move hmove, hkeys.move hno hmove⟩
  obtain ⟨hpoint, hrows, hkeys⟩ := hinv
  have hone : ∀ n n' x, (calls n).slot parse = some x → (calls n').slot parse = some x →
      s.phase n = some .sent → s.phase n' = some .sent → n = n' := by
    intro n n' x hx hx' hn hn'
    have hheld := hkeys n x (.inr (.inr hn)) hx
    rw [hkeys n' x (.inr (.inr hn')) hx'] at hheld
    exact (Option.some.inj hheld).symm
  refine ⟨fun x hx => ?_, hone, fun x => ?_, messageIdempotencyKey_inj uuid, ?_⟩
  · by_cases hany : ∃ m ∈ s.rows, m.slot calls = x
    · obtain ⟨m, hm, rfl⟩ := hany
      -- the rows of the key are those of one request
      refine le_trans (List.countP_mono_left fun y hy heq => ?_) (hrows.once m.request)
      rw [decide_eq_true_eq] at heq ⊢
      have hyslot := PersistedMessage.slot_of_rows hrows hy (by rw [heq]; exact hx)
      rw [heq] at hyslot
      exact hone _ _ _ hyslot (PersistedMessage.slot_of_rows hrows hm hx) (hrows.sent y hy)
        (hrows.sent m hm)
    · have hzero : s.rows.countP (fun m => m.slot calls = x) = 0 := by
        rw [List.countP_eq_zero]
        intro m hm heq
        exact hany ⟨m, hm, of_decide_eq_true heq⟩
      omega
  · have honly : SendTraffic.start.only uuid parse calls x = SendTraffic.start := by
      have hnone : ∀ {ι β : Type} (P : ι → Prop) [DecidablePred P] (d : β),
          (fun i => if P i then d else d) = fun _ => d := fun P _ d => funext fun i => ite_self d
      unfold SendTraffic.only SendTraffic.start onlyKey
      rw [hnone, hnone, hnone]
      rfl
    have hrun := only_run (x := x) start_pointed hexec
    rw [honly] at hrun
    exact hrun
  · intro a s' text m hno hs hset hlost
    exact release_own hkeys hno (sendTraffic_move hpoint hs).1 hset hlost

/-! ## Three requests with one key -/

/-- The calls that go through; `inserts` if the table takes the row. -/
def sendEnv (inserts : Bool) : (o : SendOp) → o.Res
  | .getMembership r u => .ok ⟨9, r, u, .member, 0, none, none, none⟩
  | .reserveMessageIdempotencyKey _ _ _ => .ok true
  | .insertMessage r u content messageType =>
    if inserts then .ok ⟨7, r, ⟨u, "ada", none⟩, some content, messageType, none, none, 1, 1⟩
    else .error .internal
  | .releaseMessageIdempotencyKey _ _ _ => .ok ()

/-- Ada sends "hi" to room 1 under the key "k". -/
def adaSends (_ : ℕ) : SendCall := ⟨1, idOne, some ⟨"hi", ""⟩, "k"⟩

abbrev keyedStep : SendTraffic → TrafficStep → Option SendTraffic :=
  SendTraffic.step canonicalUuid parseId adaSends

def keyedAfter (as : List TrafficStep) : SendTraffic :=
  (exec keyedStep SendTraffic.start as).getD SendTraffic.start

/-- The insert of request 0 fails while request 1 is refused; request 2 goes through. -/
def sentAgain : List TrafficStep :=
  [.request 0, .request 1, .serve 0 (sendEnv true) false, .serve 1 (sendEnv true) false,
    .serve 0 (sendEnv true) false, .serve 1 (sendEnv true) false, .serve 0 (sendEnv false) false,
    .serve 0 (sendEnv true) false, .request 2, .serve 2 (sendEnv true) false,
    .serve 2 (sendEnv true) false, .serve 2 (sendEnv true) false]

theorem sends_once_retried :
    [0, 1, 2].map (keyedAfter sentAgain).phase = [some .refused, some .refused, some .sent] ∧
      (keyedAfter sentAgain).rows.countP (fun m => m.slot adaSends = (1, 1, "k")) ≤ 1 := by
  have hexec : exec keyedStep SendTraffic.start sentAgain = some (keyedAfter sentAgain) := rfl
  have hno : ∀ text, TrafficStep.expire text ∉ sentAgain := by
    intro text h
    simp [sentAgain] at h
  exact ⟨by decide, (sends_once canonicalUuid parseId adaSends hno hexec).1 (1, 1, "k") (by decide)⟩

end ConvoyChat.System
