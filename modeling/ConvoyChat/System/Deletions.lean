import ConvoyChat.Handlers.MessageChanges
import ConvoyChat.Lib.Runs
import ConvoyChat.Store.MessageWrites

/-!
# Edits and deletions side by side

Any number of `EditMessage` and `DeleteMessage` requests (`internal/handlers/messages.go`
lines 184–377), one store call at a time, while messages are sent. A handler reads the
message first; what it decides on may have changed when it comes to its `UPDATE`. The
`UPDATE`s of `internal/store/messages.go` (lines 145–185) look at `deleted_at` once more.

A call may fail without effect, or take effect while its answer is lost, as when the
client has gone and the context of the request is cancelled. Who the caller is, and which
role they have, is answered by anything. `log` is kept by the model only: the `UPDATE`s that
found their row.

* `handler_settles`: a request is answered with success when its own `UPDATE` has found the
  row and was answered, and else with an error.
* `change_move`: a step leaves every row as it is, or is such an `UPDATE`, or sends a message.
* `deletion_final`: a message is deleted once, and nothing of its row changes from then on.
* `failed_deletion_deletes`: a request that is answered with an error may have deleted.
-/

namespace ConvoyChat.System

open ConvoyChat.Lib ConvoyChat.Store ConvoyChat.Handlers

inductive ChangeRequest
  | delete (userID : UUID) (messageParam : String)
  | edit (userID : UUID) (messageParam : String) (body : Option String)

inductive ChangeReply
  | deleted (response : Response)
  | edited (response : Except Response EditMessageResponse)

/-- `200`. -/
def ChangeReply.Succeeds : ChangeReply → Prop
  | .deleted response => response = .fields 200 [("status", "deleted")]
  | .edited response => ∃ r, response = .ok r

def ChangeRequest.handler (parse : String → Option UUID) : ChangeRequest → ChangeProc ChangeReply
  | .delete userID messageParam => do
    let response ← Handlers.deleteMessage parse userID messageParam
    return .deleted response
  | .edit userID messageParam body => do
    let response ← Handlers.editMessage parse userID messageParam body
    return .edited response

/-- The `UPDATE` that a request is about. -/
def ChangeRequest.Updates (parse : String → Option UUID) : ChangeRequest → ChangeOp → Prop
  | .delete _ messageParam, .softDeleteMessage id => parse messageParam = some id
  | .edit _ messageParam _, .editMessage id _ => parse messageParam = some id
  | _, _ => False

/-- An `UPDATE` that has found its row. -/
def Commits : (o : ChangeOp) → o.Res → Bool
  | .softDeleteMessage _, res => res.isOk
  | .editMessage _ _, res => res.isOk
  | _, _ => false

/-- An entry of the log; `answered` if its request was told. -/
structure CommittedUpdate where
  request : ℕ
  op : ChangeOp
  answered : Bool
deriving DecidableEq, Repr

def CommittedUpdate.deletes (id : UUID) (e : CommittedUpdate) : Bool := e.op = .softDeleteMessage id

def CommittedUpdate.edits (id : UUID) (e : CommittedUpdate) : Bool :=
  match e.op with
  | .editMessage id' _ => id' = id
  | _ => false

/-- A deletion or an edit of the message. -/
def CommittedUpdate.changes (id : UUID) (e : CommittedUpdate) : Bool := e.deletes id || e.edits id

structure Changes where
  tables : MessageTables
  requests : ℕ → Option (ChangeRequest × ChangeProc ChangeReply)
  log : List CommittedUpdate

inductive ChangeAction
  | request (n : ℕ) (req : ChangeRequest)
  /-- the next call of the request, at `now` -/
  | serve (n : ℕ) (now : Time) (env : (o : ChangeOp) → o.Res)
  /-- the next call of the request fails, without effect -/
  | fail (n : ℕ)
  /-- the next call of the request takes effect at `now`, and its answer is lost -/
  | lost (n : ℕ) (now : Time) (env : (o : ChangeOp) → o.Res)
  /-- a message is sent -/
  | insert (now : Time) (id roomID userID : UUID) (content : String) (messageType : MessageType)

/-- The answer to a call and the tables after it; `env` answers what is not about
    messages. -/
def serveMessages (now : Time) (t : MessageTables) (env : (o : ChangeOp) → o.Res) :
    (o : ChangeOp) → o.Res × MessageTables
  | .getMessageByID id => (Store.getMessageByID id t, t)
  | .softDeleteMessage id =>
    match Store.softDeleteMessage now id t with
    | .ok (deletedAt, t') => (.ok deletedAt, t')
    | .error e => (.error e, t)
  | .editMessage id content =>
    match Store.editMessage now id content t with
    | .ok (editedAt, t') => (.ok editedAt, t')
    | .error e => (.error e, t)
  | o => (env o, t)

/-- The error of a call that fails. -/
def changeFailed : (o : ChangeOp) → o.Res
  | .getMessageByID _ => .error .internal
  | .getMembership _ _ => .error .internal
  | .getUserByID _ => .error .internal
  | .softDeleteMessage _ => .error .internal
  | .editMessage _ _ => .error .internal
  | .toggleReaction _ _ _ => .error .internal
  | .publishRoomEvent _ _ => .error .internal

namespace Changes

def start (t : MessageTables) : Changes := ⟨t, fun _ => none, []⟩

def resume (s : Changes) (n : ℕ) (req : ChangeRequest) (p : ChangeProc ChangeReply) : Changes :=
  { s with requests := Function.update s.requests n (some (req, p)) }

def step (parse : String → Option UUID) (s : Changes) : ChangeAction → Option Changes
  | .request n req =>
    match s.requests n with
    | none => some (s.resume n req (req.handler parse))
    | some _ => none
  | .serve n now env =>
    match s.requests n with
    | some (req, .op o k) =>
      let out := serveMessages now s.tables env o
      some { s.resume n req (k out.1) with
        tables := out.2
        log := if Commits o out.1 then s.log ++ [⟨n, o, true⟩] else s.log }
    | _ => none
  | .fail n =>
    match s.requests n with
    | some (req, .op o k) => some (s.resume n req (k (changeFailed o)))
    | _ => none
  | .lost n now env =>
    match s.requests n with
    | some (req, .op o k) =>
      let out := serveMessages now s.tables env o
      some { s.resume n req (k (changeFailed o)) with
        tables := out.2
        log := if Commits o out.1 then s.log ++ [⟨n, o, false⟩] else s.log }
    | _ => none
  | .insert now id roomID userID content messageType =>
    match Store.insertMessage now id roomID userID content messageType s.tables with
    | .ok t => some { s with tables := t }
    | .error _ => none

end Changes

variable {parse : String → Option UUID} {s s' : Changes} {a : ChangeAction} {n : ℕ} {id : UUID}
  {t t' : MessageTables} {req : ChangeRequest} {p : ChangeProc ChangeReply}

/-! ## The handlers -/

/-- What is left of a request that has not committed. -/
def Settles (parse : String → Option UUID) (req : ChangeRequest) (p : ChangeProc ChangeReply) :
    Prop :=
  p.SettlesOnce (fun o res => Commits o res = true) (req.Updates parse) ChangeReply.Succeeds

theorem error_not_deleted {status : ℕ} {code message : String} :
    ¬ Response.error status code message = .fields 200 [("status", "deleted")] :=
  Response.noConfusion

/-- A gate that stops the caller with an error, or lets them pass. -/
def Stops (verdict : Option Response) : Prop :=
  ∀ response, verdict = some response → ¬ response = .fields 200 [("status", "deleted")]

theorem stops_none : Stops none := fun _ h => nomatch h

theorem stops_error {status : ℕ} {code message : String} :
    Stops (some (.error status code message)) := by
  intro response h
  cases h
  exact error_not_deleted

/-- The gate of `DeleteMessage` commits nothing, and stops with an error. -/
theorem requireDeleter_gate (message : Message) (userID : UUID) :
    ((requireDeleter message userID).Never Proc.Always fun o => ∃ a, Commits o a = true) ∧
      (requireDeleter message userID).Returns Proc.Always Stops := by
  have hadmin : ((requireSystemAdmin userID).Never Proc.Always fun o => ∃ a, Commits o a = true) ∧
      (requireSystemAdmin userID).Returns Proc.Always Stops := by
    refine ⟨.perform (fun ⟨_, h⟩ => Bool.false_ne_true h) fun res _ => ?_, .perform fun res _ => ?_⟩
    · split
      · exact .ret _
      · split_ifs <;> exact .ret _
    · split
      · exact stops_error
      · split_ifs
        · exact stops_none
        · exact stops_error
  unfold requireDeleter
  split_ifs
  · exact ⟨.ret _, stops_none⟩
  · refine ⟨.perform (fun ⟨_, h⟩ => Bool.false_ne_true h) fun res _ => ?_, .perform fun res _ => ?_⟩
    · split
      · split_ifs
        · exact .ret _
        · exact hadmin.1
      · exact hadmin.1
      · exact .ret _
    · split
      · split_ifs
        · exact stops_none
        · exact hadmin.2
      · exact hadmin.2
      · exact stops_error

/-- What follows the `UPDATE` publishes. -/
theorem publish_ends {α : Type} {roomID : UUID} {event : MessageEvent} {w : α} {good : α → Prop}
    (hw : good w) :
    ((Proc.perform (ChangeOp.publishRoomEvent roomID event) >>= fun _ => pure w :
        ChangeProc α).Returns Proc.Always good) ∧
      (Proc.perform (ChangeOp.publishRoomEvent roomID event) >>= fun _ => pure w :
        ChangeProc α).Never Proc.Always fun o => ∃ a, Commits o a = true :=
  ⟨fun _ _ => hw, .perform (fun ⟨_, h⟩ => Bool.false_ne_true h) fun _ _ => .ret _⟩

theorem deleteAndPublish_settles {messageID roomID : UUID} {P : ChangeOp → Prop}
    (hP : P (.softDeleteMessage messageID)) :
    (deleteAndPublish messageID roomID).SettlesOnce (fun o res => Commits o res = true) P
      fun response => response = .fields 200 [("status", "deleted")] := by
  unfold deleteAndPublish
  refine .commit hP (fun res hres => ?_) fun res hres => ?_
  · cases res with
    | ok deletedAt => exact publish_ends rfl
    | error e => cases hres
  · split
    · exact .ret error_not_deleted
    · exact .ret error_not_deleted
    · exact absurd rfl hres

theorem editAndPublish_settles {messageID roomID : UUID} {content : String} {P : ChangeOp → Prop}
    (hP : P (.editMessage messageID content)) :
    (editAndPublish messageID roomID content).SettlesOnce (fun o res => Commits o res = true) P
      fun response => ∃ r, response = .ok r := by
  have herror : ∀ e : Response, ¬ ∃ r : EditMessageResponse, Except.error e = .ok r :=
    fun _ ⟨_, h⟩ => by cases h
  unfold editAndPublish
  refine .commit hP (fun res hres => ?_) fun res hres => ?_
  · cases res with
    | ok editedAt => exact publish_ends ⟨_, rfl⟩
    | error e => cases hres
  · split
    · exact .ret (herror _)
    · exact .ret (herror _)
    · exact absurd rfl hres

theorem deleteMessage_settles {userID : UUID} {messageParam : String} :
    (Handlers.deleteMessage parse userID messageParam).SettlesOnce
      (fun o res => Commits o res = true) ((ChangeRequest.delete userID messageParam).Updates parse)
      fun response => response = .fields 200 [("status", "deleted")] := by
  unfold Handlers.deleteMessage
  split
  · exact .ret error_not_deleted
  · rename_i messageID hparse
    refine .perform (fun _ h => Bool.false_ne_true h) fun res => ?_
    split
    · exact .ret error_not_deleted
    · exact .ret error_not_deleted
    · rename_i message
      obtain ⟨hnever, hstops⟩ := requireDeleter_gate message userID
      refine .bind_of_returns hnever hstops fun verdict hverdict => ?_
      split
      · exact .ret (hverdict _ rfl)
      · exact deleteAndPublish_settles hparse

theorem editMessage_settles {userID : UUID} {messageParam : String} {body : Option String} :
    (Handlers.editMessage parse userID messageParam body).SettlesOnce
      (fun o res => Commits o res = true)
        ((ChangeRequest.edit userID messageParam body).Updates parse)
      fun response => ∃ r, response = .ok r := by
  have herror : ∀ e : Response, ¬ ∃ r : EditMessageResponse, Except.error e = .ok r :=
    fun _ ⟨_, h⟩ => by cases h
  unfold Handlers.editMessage
  split
  · exact .ret (herror _)
  · rename_i messageID hparse
    split
    · exact .ret (herror _)
    · dsimp only
      split
      · exact .ret (herror _)
      · refine .perform (fun _ h => Bool.false_ne_true h) fun res => ?_
        split
        · exact .ret (herror _)
        · exact .ret (herror _)
        · split_ifs
          · exact .ret (herror _)
          · exact .ret (herror _)
          · exact editAndPublish_settles hparse

/-- A request succeeds when its `UPDATE` has found the row, and else fails. -/
theorem handler_settles (parse : String → Option UUID) (req : ChangeRequest) :
    Settles parse req (req.handler parse) := by
  cases req with
  | delete userID messageParam => exact deleteMessage_settles.rename fun _ => Iff.rfl
  | edit userID messageParam body => exact editMessage_settles.rename fun _ => Iff.rfl

/-! ## One step -/

/-- The row that an `UPDATE` is about. -/
def target : ChangeOp → Option UUID
  | .softDeleteMessage id => some id
  | .editMessage id _ => some id
  | _ => none

/-- `t'` is `t` after the `UPDATE` `o` of a row that is not deleted. -/
structure Written (o : ChangeOp) (t t' : MessageTables) : Prop where
  row : ∃ id f, target o = some id ∧ t.messages.any (isLive id) = true ∧
    t'.messages = updateWhere (isLive id) f t.messages ∧
    ∀ m, (f m).id = m.id ∧ (o = .softDeleteMessage id → (f m).deletedAt ≠ none)

/-- A call changes nothing, unless it is an `UPDATE` that finds its row. -/
theorem serveMessages_spec (now : Time) (t : MessageTables) (env : (o : ChangeOp) → o.Res)
    (o : ChangeOp) :
    (Commits o (serveMessages now t env o).1 = false ∧ (serveMessages now t env o).2 = t) ∨
      (Commits o (serveMessages now t env o).1 = true ∧
        Written o t (serveMessages now t env o).2) := by
  cases o with
  | softDeleteMessage id =>
    by_cases hlive : t.messages.any (isLive id) = true
    · refine .inr ?_
      simp only [serveMessages, Store.softDeleteMessage, hlive, if_true]
      exact ⟨rfl, ⟨id, _, rfl, hlive, rfl, fun m => ⟨rfl, fun _ => Option.some_ne_none _⟩⟩⟩
    · refine .inl ?_
      simp only [serveMessages, Store.softDeleteMessage, hlive]
      exact ⟨rfl, rfl⟩
  | editMessage id content =>
    by_cases hlive : t.messages.any (isLive id) = true
    · refine .inr ?_
      simp only [serveMessages, Store.editMessage, hlive, if_true]
      exact ⟨rfl, ⟨id, _, rfl, hlive, rfl, fun m => ⟨rfl, fun h => by cases h⟩⟩⟩
    · refine .inl ?_
      simp only [serveMessages, Store.editMessage, hlive]
      exact ⟨rfl, rfl⟩
  | getMessageByID id => exact .inl ⟨rfl, rfl⟩
  | getMembership roomID userID => exact .inl ⟨rfl, rfl⟩
  | getUserByID userID => exact .inl ⟨rfl, rfl⟩
  | toggleReaction messageID userID emoji => exact .inl ⟨rfl, rfl⟩
  | publishRoomEvent roomID event => exact .inl ⟨rfl, rfl⟩

theorem changeFailed_commits (o : ChangeOp) : Commits o (changeFailed o) = false := by
  cases o <;> rfl

/-- The action is one of the request. -/
def ChangeAction.IsOf (n : ℕ) : ChangeAction → Prop
  | .request n' _ => n' = n
  | .serve n' _ _ => n' = n
  | .fail n' => n' = n
  | .lost n' _ _ => n' = n
  | .insert _ _ _ _ _ _ => False

/-- What a step does. -/
inductive ChangeMove (parse : String → Option UUID) (s : Changes) (a : ChangeAction) :
    Changes → Prop
  | request (n : ℕ) (req : ChangeRequest) (ha : a.IsOf n) (hfree : s.requests n = none) :
      ChangeMove parse s a (s.resume n req (req.handler parse))
  | call (n : ℕ) (req : ChangeRequest) (o : ChangeOp) (k : o.Res → ChangeProc ChangeReply)
    (res : o.Res)
      (ha : a.IsOf n) (hpending : s.requests n = some (req, .op o k))
      (hres : ¬ Commits o res = true) :
      ChangeMove parse s a (s.resume n req (k res))
  | commit (n : ℕ) (req : ChangeRequest) (o : ChangeOp) (k : o.Res → ChangeProc ChangeReply)
      (res : o.Res) (t' : MessageTables) (ha : a.IsOf n)
      (hpending : s.requests n = some (req, .op o k)) (hres : Commits o res = true)
      (hwritten : Written o s.tables t') :
      ChangeMove parse s a
        { s.resume n req (k res) with tables := t', log := s.log ++ [⟨n, o, true⟩] }
  | lost (n : ℕ) (req : ChangeRequest) (o : ChangeOp) (k : o.Res → ChangeProc ChangeReply)
      (res : o.Res) (t' : MessageTables) (ha : a.IsOf n) (hlost : ∃ now env, a = .lost n now env)
      (hpending : s.requests n = some (req, .op o k)) (hres : Commits o res = true)
      (hwritten : Written o s.tables t') :
      ChangeMove parse s a
        { s.resume n req (k (changeFailed o)) with
          tables := t', log := s.log ++ [⟨n, o, false⟩] }
  | insert (t' : MessageTables) (new : Message) (ha : ∀ n, ¬ a.IsOf n)
      (hrows : t'.messages = s.tables.messages ++ [new]) :
      ChangeMove parse s a { s with tables := t' }

theorem change_move (h : s.step parse a = some s') : ChangeMove parse s a s' := by
  cases a with
  | request n req =>
    simp only [Changes.step] at h
    split at h
    · rename_i hfree
      cases h
      exact .request n req rfl hfree
    · cases h
  | serve n now env =>
    simp only [Changes.step] at h
    split at h
    · rename_i req o k hpending
      cases h
      rcases serveMessages_spec now s.tables env o with ⟨hres, htables⟩ | ⟨hres, hwritten⟩
      · rw [hres, htables]
        exact .call n req o k _ rfl hpending (by rw [hres]; exact Bool.false_ne_true)
      · rw [hres]
        exact .commit n req o k _ _ rfl hpending hres hwritten
    · cases h
  | fail n =>
    simp only [Changes.step] at h
    split at h
    · rename_i req o k hpending
      cases h
      exact .call n req o k _ rfl hpending (by rw [changeFailed_commits]; exact Bool.false_ne_true)
    · cases h
  | lost n now env =>
    simp only [Changes.step] at h
    split at h
    · rename_i req o k hpending
      cases h
      rcases serveMessages_spec now s.tables env o with ⟨hres, htables⟩ | ⟨hres, hwritten⟩
      · rw [hres, htables]
        exact .call n req o k _ rfl hpending
          (by rw [changeFailed_commits]; exact Bool.false_ne_true)
      · rw [hres]
        exact .lost n req o k _ _ rfl ⟨now, env, rfl⟩ hpending hres hwritten
    · cases h
  | insert now id roomID userID content messageType =>
    simp only [Changes.step] at h
    split at h
    · rename_i t' hinsert
      cases h
      exact .insert t' _ (fun _ h => h) (insertMessage_ok hinsert).2.1
    · cases h

/-- A step leaves the rows that are deleted as they are. -/
theorem deleted_kept (h : ChangeMove parse s a s') {m : Message} (hm : m ∈ s.tables.messages)
    (hdeleted : m.deletedAt ≠ none) : m ∈ s'.tables.messages := by
  have hkept : ∀ {o : ChangeOp} {t' : MessageTables}, Written o s.tables t' → m ∈ t'.messages := by
    intro o t' hwritten
    obtain ⟨id, f, -, -, hrows, -⟩ := hwritten.row
    have hlive : isLive id m = false := by
      have hsome : m.deletedAt.isNone = false := Option.isNone_eq_false_iff.mpr
        (Option.isSome_iff_ne_none.mpr hdeleted)
      rw [isLive, hsome, Bool.and_false]
    rw [hrows]
    exact mem_updateWhere_of_not hm hlive
  cases h with
  | request => exact hm
  | call => exact hm
  | commit n req o k res t' ha hpending hres hwritten => exact hkept hwritten
  | lost n req o k res t' ha hlost hpending hres hwritten => exact hkept hwritten
  | insert t' new ha hrows =>
    show m ∈ t'.messages
    rw [hrows]
    exact List.mem_append_left _ hm

/-! ## All steps -/

/-- The row of the message, deleted. -/
def Tombstone (id : UUID) (t : MessageTables) (m : Message) : Prop :=
  m ∈ t.messages ∧ m.id = id ∧ m.deletedAt ≠ none

/-- What is left of a request that has committed `o`. -/
structure Committed (parse : String → Option UUID) (o : ChangeOp) (req : ChangeRequest)
    (p : ChangeProc ChangeReply) : Prop where
  updates : req.Updates parse o
  succeeds : p.Returns Proc.Always ChangeReply.Succeeds
  ended : p.Never Proc.Always fun o => ∃ a, Commits o a = true

structure ChangesInv (parse : String → Option UUID) (s : Changes) : Prop where
  pending : ∀ n req p, s.requests n = some (req, p) →
    (∀ e ∈ s.log, e.answered = true → e.request ≠ n) → Settles parse req p
  done : ∀ e ∈ s.log, e.answered = true →
    ∃ req p, s.requests e.request = some (req, p) ∧ Committed parse e.op req p
  deleted : ∀ id, ∀ e ∈ s.log, e.deletes id = true → ∃ m, Tombstone id s.tables m
  once : ∀ id, s.log.countP (·.deletes id) ≤ 1

/-- A commit of `n` is its first. -/
theorem ChangesInv.first (hinv : ChangesInv parse s) {o : ChangeOp}
    {k : o.Res → ChangeProc ChangeReply}
    {res : o.Res} (hpending : s.requests n = some (req, .op o k)) (hres : Commits o res = true) :
    ∀ e ∈ s.log, e.answered = true → e.request ≠ n := by
  rintro e he hanswered rfl
  obtain ⟨req', p', hp', hcommitted⟩ := hinv.done e he hanswered
  cases hpending.symm.trans hp'
  exact hcommitted.ended.not ⟨res, hres⟩

/-- An `UPDATE` of a message that is deleted does not find its row. -/
theorem not_written_of_tombstone {o : ChangeOp} {m : Message} (hm : Tombstone id t m)
    (ho : target o = some id) : ¬ Written o t t' := by
  rintro ⟨id', f, hid, hlive, -, -⟩
  cases ho.symm.trans hid
  obtain ⟨m', hm', hlive⟩ := List.any_eq_true.mp hlive
  simp only [isLive, Bool.and_eq_true, decide_eq_true_eq] at hlive
  have hrow : m' = m := List.inj_on_of_nodup_map t.message_id hm' hm.1 (hlive.1.trans hm.2.1.symm)
  rw [hrow] at hlive
  exact hm.2.2 (Option.isNone_iff_eq_none.mp hlive.2)

/-- The deletion leaves a row that is deleted. -/
theorem Written.tombstone (h : Written (.softDeleteMessage id) t t') : ∃ m, Tombstone id t' m := by
  obtain ⟨id', f, hid, hlive, hrows, hf⟩ := h.row
  cases hid
  obtain ⟨m, hm, hlive⟩ := List.any_eq_true.mp hlive
  have hid : m.id = id := by
    simp only [isLive, Bool.and_eq_true, decide_eq_true_eq] at hlive
    exact hlive.1
  refine ⟨f m, ?_, (hf m).1.trans hid, (hf m).2 rfl⟩
  rw [hrows]
  exact mem_updateWhere_of hm hlive

theorem deletes_eq {e : CommittedUpdate} (h : e.deletes id = true) : e.op = .softDeleteMessage id :=
  of_decide_eq_true h

theorem requests_resume (s : Changes) (n : ℕ) (req : ChangeRequest)
    (p : ChangeProc ChangeReply) (i : ℕ) :
    (s.resume n req p).requests i = if i = n then some (req, p) else s.requests i := by
  by_cases hi : i = n
  · subst hi
    rw [if_pos rfl]
    exact Function.update_self ..
  · rw [if_neg hi]
    exact Function.update_of_ne hi ..

theorem changesInv_start (t : MessageTables) : ChangesInv parse (Changes.start t) where
  pending _ _ _ h := by cases h
  done _ he := by cases he
  deleted _ _ he := by cases he
  once _ := Nat.zero_le _

/-- A request goes on without an answered commit. -/
theorem ChangesInv.resume (hinv : ChangesInv parse s)
    (hsettles : (∀ e ∈ s.log, e.answered = true → e.request ≠ n) → Settles parse req p)
    (hdone : ∀ e ∈ s.log, e.answered = true → e.request = n → Committed parse e.op req p) :
    ChangesInv parse (s.resume n req p) where
  pending i req' p' hp' hlog := by
    rw [requests_resume] at hp'
    split_ifs at hp' with hi
    · cases hp'
      exact hsettles fun e he hanswered => hi ▸ hlog e he hanswered
    · exact hinv.pending i req' p' hp' hlog
  done e he hanswered := by
    rw [requests_resume]
    split_ifs with hi
    · exact ⟨req, p, rfl, hdone e he hanswered hi⟩
    · exact hinv.done e he hanswered
  deleted := hinv.deleted
  once := hinv.once

/-- A request goes on with a call that does not commit, or whose answer is lost. -/
theorem ChangesInv.goOn (hinv : ChangesInv parse s) {o : ChangeOp}
    {k : o.Res → ChangeProc ChangeReply}
    {res : o.Res} (hpending : s.requests n = some (req, .op o k)) (hres : ¬ Commits o res = true) :
    ChangesInv parse (s.resume n req (k res)) := by
  refine hinv.resume (fun hlog => ?_) fun e he hanswered hen => ?_
  · exact (hinv.pending n req _ hpending hlog res).2 hres
  · obtain ⟨req', p', hp', hcommitted⟩ := hinv.done e he hanswered
    rw [hen, hpending] at hp'
    cases hp'
    exact ⟨hcommitted.updates, hcommitted.succeeds res trivial, hcommitted.ended.next trivial⟩

/-- An `UPDATE` that has found its row is logged: what is deleted stays so. -/
theorem ChangesInv.deleted_append (hinv : ChangesInv parse s) {o : ChangeOp}
    (n : ℕ) (answered : Bool)
    (hkept : ∀ id, ∀ e ∈ s.log, e.deletes id = true → ∃ m, Tombstone id t' m)
    (hwritten : Written o s.tables t') :
    let log := s.log ++ [CommittedUpdate.mk n o answered]
    (∀ id, ∀ e ∈ log, e.deletes id = true → ∃ m, Tombstone id t' m) ∧
      ∀ id, log.countP (·.deletes id) ≤ 1 := by
  intro log
  refine ⟨fun id e he hdeletes => ?_, fun id => ?_⟩
  · rcases List.mem_append.mp he with he | he
    · exact hkept id e he hdeletes
    · cases List.mem_singleton.mp he
      cases deletes_eq hdeletes
      exact hwritten.tombstone
  · rw [List.countP_append, List.countP_singleton]
    by_cases hdeletes : CommittedUpdate.deletes id ⟨n, o, answered⟩ = true
    · have hnone : s.log.countP (·.deletes id) = 0 := by
        rw [List.countP_eq_zero]
        intro e he hdeleted
        obtain ⟨m, hm⟩ := hinv.deleted id e he hdeleted
        have htarget : target o = some id := by
          rw [show o = .softDeleteMessage id from deletes_eq hdeletes]
          rfl
        exact not_written_of_tombstone hm htarget hwritten
      rw [hnone, if_pos hdeletes]
    · rw [if_neg hdeletes]
      exact hinv.once id

theorem changesInv_step (hinv : ChangesInv parse s) (h : ChangeMove parse s a s') :
    ChangesInv parse s' := by
  have hkept : ∀ id, ∀ e ∈ s.log, e.deletes id = true → ∃ m, Tombstone id s'.tables m := by
    intro id e he hdeletes
    obtain ⟨m, hm, hid, hdeleted⟩ := hinv.deleted id e he hdeletes
    exact ⟨m, deleted_kept h hm hdeleted, hid, hdeleted⟩
  cases h with
  | request n req ha hfree =>
    refine hinv.resume (fun _ => handler_settles parse req) fun e he hanswered hen => ?_
    obtain ⟨req', p', hp', -⟩ := hinv.done e he hanswered
    rw [hen, hfree] at hp'
    cases hp'
  | call n req o k res ha hpending hres => exact hinv.goOn hpending hres
  | commit n req o k res t' ha hpending hres hwritten =>
    have hfirst := hinv.first hpending hres
    obtain ⟨hupdates, hsucceeds, hover⟩ := (hinv.pending n req _ hpending hfirst res).1 hres
    obtain ⟨hdeleted, honce⟩ := hinv.deleted_append n true hkept hwritten
    refine ⟨?_, ?_, hdeleted, honce⟩
    · intro i req' p' hp' hlog
      have hi : i ≠ n := fun hi =>
        hlog ⟨n, o, true⟩ (List.mem_append_right _ (List.mem_singleton_self _)) rfl hi.symm
      have hp' := (requests_resume s n req (k res) i).symm.trans hp'
      rw [if_neg hi] at hp'
      exact hinv.pending i req' p' hp' fun e he => hlog e (List.mem_append_left _ he)
    · intro e he hanswered
      rcases List.mem_append.mp he with he | he
      · obtain ⟨req', p', hp', hcommitted⟩ := hinv.done e he hanswered
        refine ⟨req', p', (requests_resume s n req (k res) e.request).trans ?_, hcommitted⟩
        rw [if_neg (hfirst e he hanswered)]
        exact hp'
      · cases List.mem_singleton.mp he
        refine ⟨req, k res, (requests_resume s n req (k res) n).trans (if_pos rfl), ?_⟩
        exact ⟨hupdates, hsucceeds, hover⟩
  | lost n req o k res t' ha hlost hpending hres hwritten =>
    have hfails : ¬ Commits o (changeFailed o) = true := by
      rw [changeFailed_commits]
      exact Bool.false_ne_true
    have hgoes := hinv.goOn hpending hfails
    obtain ⟨hdeleted, honce⟩ := hinv.deleted_append n false hkept hwritten
    refine ⟨fun i req' p' hp' hlog => ?_, fun e he hanswered => ?_, hdeleted, honce⟩
    · exact hgoes.pending i req' p' hp' fun e he => hlog e (List.mem_append_left _ he)
    · rcases List.mem_append.mp he with he | he
      · exact hgoes.done e he hanswered
      · cases List.mem_singleton.mp he
        cases hanswered
  | insert t' new ha hrows => exact ⟨hinv.pending, hinv.done, hkept, hinv.once⟩

theorem changesInv_reach (hrun : Reach (Changes.step parse) Unguarded (Changes.start t) s) :
    ChangesInv parse s :=
  hrun.invariant (ChangesInv parse) (fun _ _ _ hinv _ h => changesInv_step hinv (change_move h))
    (changesInv_start t)

/-! ## A deletion is final -/

/-- The request is answered with success or an error. -/
def Changes.Answered (s : Changes) (n : ℕ) (req : ChangeRequest) (reply : ChangeReply) : Prop :=
  s.requests n = some (req, .ret reply)

theorem ChangesInv.succeeds (hinv : ChangesInv parse s) {reply : ChangeReply}
    (h : s.Answered n req reply) :
    reply.Succeeds ↔ ∃ e ∈ s.log, e.request = n ∧ e.answered = true ∧ req.Updates parse e.op := by
  constructor
  · intro hsucceeds
    by_contra hlog
    have hnone : ∀ e ∈ s.log, e.answered = true → e.request ≠ n := by
      rintro e he hanswered rfl
      obtain ⟨req', p', hp', hcommitted⟩ := hinv.done e he hanswered
      cases Eq.trans (Eq.symm h) hp'
      exact hlog ⟨e, he, rfl, hanswered, hcommitted.updates⟩
    exact hinv.pending n req _ h hnone hsucceeds
  · rintro ⟨e, he, rfl, hanswered, -⟩
    obtain ⟨req', p', hp', hcommitted⟩ := hinv.done e he hanswered
    cases Eq.trans (Eq.symm h) hp'
    exact hcommitted.succeeds

theorem isOf_unique {n' : ℕ} (h : a.IsOf n) (h' : a.IsOf n') : n = n' := by
  cases a with
  | request => exact Eq.trans (Eq.symm h) h'
  | serve => exact Eq.trans (Eq.symm h) h'
  | fail => exact Eq.trans (Eq.symm h) h'
  | lost => exact Eq.trans (Eq.symm h) h'
  | insert => exact absurd h id

/-- A request is about one row. -/
theorem updates_target {o o' : ChangeOp} (h : req.Updates parse o) (h' : req.Updates parse o') :
    target o = target o' := by
  have hparsed : ∀ o, req.Updates parse o →
      target o = match req with
        | .delete _ messageParam => parse messageParam
        | .edit _ messageParam _ => parse messageParam := by
    intro o ho
    cases req <;> cases o <;> first | exact absurd ho id | exact Eq.symm ho
  rw [hparsed o h, hparsed o' h']

theorem updates_deletes {o : ChangeOp} (h : req.Updates parse (.softDeleteMessage id))
    (ho : req.Updates parse o) : o = .softDeleteMessage id := by
  have htarget := updates_target ho h
  cases req with
  | delete userID messageParam =>
    cases o with
    | softDeleteMessage id' => rw [Option.some.inj htarget]
    | _ => exact absurd ho (fun h => h)
  | edit userID messageParam body => exact absurd h (fun h => h)

/-- Two deletions of one message in the log are the same. -/
theorem ChangesInv.one_deletion (hinv : ChangesInv parse s) {e e' : CommittedUpdate}
    (he : e ∈ s.log) (he' : e' ∈ s.log) (hdeletes : e.deletes id = true)
    (hdeletes' : e'.deletes id = true) : e = e' := by
  have hone := hinv.once id
  have hmem := List.mem_filter.mpr ⟨he, hdeletes⟩
  have hmem' := List.mem_filter.mpr ⟨he', hdeletes'⟩
  rw [List.countP_eq_length_filter] at hone
  obtain ⟨x, hx⟩ := List.length_eq_one_iff.mp (Nat.le_antisymm hone (List.length_pos_of_mem hmem))
  rw [hx, List.mem_singleton] at hmem hmem'
  exact hmem.trans hmem'.symm

theorem log_mono (hrun : Reach (Changes.step parse) Unguarded s s') {e : CommittedUpdate}
    (he : e ∈ s.log) : e ∈ s'.log := by
  refine hrun.invariant (fun s' => e ∈ s'.log) (fun s a s' he _ h => ?_) he
  cases change_move h with
  | request => exact he
  | call => exact he
  | commit => exact List.mem_append_left _ he
  | lost => exact List.mem_append_left _ he
  | insert => exact he

/-- Once a message is deleted, its row stays and no `UPDATE` of it is logged any more. -/
theorem tombstone_stays {m : Message} (hm : Tombstone id s.tables m)
    (hrun : Reach (Changes.step parse) Unguarded s s') :
    Tombstone id s'.tables m ∧ ∀ e ∈ s'.log, target e.op = some id → e ∈ s.log := by
  refine hrun.invariant
    (fun s' => Tombstone id s'.tables m ∧ ∀ e ∈ s'.log, target e.op = some id → e ∈ s.log)
    (fun s₁ a s₂ hkept _ h => ?_) ⟨hm, fun e he _ => he⟩
  obtain ⟨hm₁, hlog⟩ := hkept
  have hmove := change_move h
  refine ⟨⟨deleted_kept hmove hm₁.1 hm₁.2.2, hm₁.2⟩, ?_⟩
  have hnone : ∀ {n : ℕ} {o : ChangeOp} {answered : Bool} {t' : MessageTables},
      Written o s₁.tables t' →
      ∀ e ∈ s₁.log ++ [⟨n, o, answered⟩], target e.op = some id → e ∈ s.log := by
    intro n o answered t' hwritten e he htarget
    rcases List.mem_append.mp he with he | he
    · exact hlog e he htarget
    · cases List.mem_singleton.mp he
      exact absurd hwritten (not_written_of_tombstone hm₁ htarget)
  cases hmove with
  | request => exact hlog
  | call => exact hlog
  | commit n req o k res t' ha hpending hres hwritten => exact hnone hwritten
  | lost n req o k res t' ha hlost hpending hres hwritten => exact hnone hwritten
  | insert => exact hlog

/-- A page shows a deleted message without its content. -/
theorem page_of_tombstone {m : Message} (hm : Tombstone id t m) {roomID : UUID} {limit : ℕ}
    {before : Option Time} {reads : List ReadReceipt} {reactions : List Reaction}
    {row : HistoryMessage}
    (hrow : row ∈
      fillReactions reactions (fillReadBy reads (queryRoomMessages t roomID limit before)))
    (hid : row.id = id) : row.content = none ∧ row.deletedAt = m.deletedAt := by
  obtain ⟨read, hread, rfl⟩ := List.mem_map.mp hrow
  obtain ⟨scanned, hscanned, rfl⟩ := List.mem_map.mp hread
  obtain ⟨m', hm', -, u, rfl⟩ := mem_queryRoomMessages hscanned
  have hsame : m' = m := List.inj_on_of_nodup_map t.message_id hm' hm.1 (hid.trans hm.2.1.symm)
  have hdeleted : ¬ m.deletedAt.isNone = true := fun h => hm.2.2 (Option.isNone_iff_eq_none.mp h)
  rw [hsame]
  exact ⟨if_neg hdeleted, rfl⟩

/-- Edits and deletions of a message, in any order: a request succeeds when its own `UPDATE`
    has found the row and was answered, and one that fails has changed nothing, unless the
    answer to its `UPDATE` was lost; one deletion succeeds at most, and what the row holds
    from the first committed deletion on is what the deletion has left. -/
theorem deletion_final (parse : String → Option UUID) (t : MessageTables) (s : Changes)
    (hrun : Reach (Changes.step parse) Unguarded (Changes.start t) s) :
    (∀ n req reply, s.Answered n req reply →
      (reply.Succeeds ↔ ∃ e ∈ s.log, e.request = n ∧ e.answered = true ∧ req.Updates parse e.op)) ∧
    (∀ n req a s₁ s₂ reply, s.step parse a = some s₁ → a.IsOf n →
      (∀ now env, a ≠ .lost n now env) →
      Reach (Changes.step parse) Unguarded s₁ s₂ → s₂.Answered n req reply → ¬ reply.Succeeds →
      s₁.tables = s.tables) ∧
    ∀ id,
      (∀ n n' req req' reply reply', s.Answered n req reply → s.Answered n' req' reply' →
        req.Updates parse (.softDeleteMessage id) → req'.Updates parse (.softDeleteMessage id) →
        reply.Succeeds → reply'.Succeeds → n = n') ∧
      ((∃ e ∈ s.log, e.deletes id = true) →
        ∃ m, Tombstone id s.tables m ∧ ∀ s', Reach (Changes.step parse) Unguarded s s' →
          Tombstone id s'.tables m ∧
          (∀ n req reply content, s'.Answered n req reply →
            req.Updates parse (.editMessage id content) → reply.Succeeds →
            ∃ e ∈ s.log, e.request = n) ∧
          ∀ roomID limit before reads reactions,
            ∀ row ∈ fillReactions reactions
                (fillReadBy reads (queryRoomMessages s'.tables roomID limit before)),
              row.id = id → row.content = none ∧ row.deletedAt = m.deletedAt) := by
  have hinv := changesInv_reach hrun
  refine ⟨fun n req reply h => hinv.succeeds h, ?_, fun id => ⟨?_, ?_⟩⟩
  · intro n req a s₁ s₂ reply hstep ha hanswer hrun₂ hanswered hfails
    have hinv₂ := changesInv_reach ((hrun.tail ⟨a, trivial, hstep⟩).trans hrun₂)
    cases change_move hstep with
    | request => rfl
    | call => rfl
    | commit n' req' o k res t' ha' hpending hres hwritten =>
      cases isOf_unique ha' ha
      have he : ⟨n, o, true⟩ ∈ s₂.log :=
        log_mono hrun₂ (List.mem_append_right _ (List.mem_singleton_self _))
      obtain ⟨req', p', hp', hcommitted⟩ := hinv₂.done _ he rfl
      cases Eq.trans (Eq.symm hanswered) hp'
      exact absurd hcommitted.succeeds hfails
    | lost n' req' o k res t' ha' hlost hpending hres hwritten =>
      obtain ⟨now, env, rfl⟩ := hlost
      cases isOf_unique ha' ha
      exact absurd rfl (hanswer now env)
    | insert t' new hnone hrows => exact absurd ha (hnone n)
  · intro n n' req req' reply reply' h h' hreq hreq' hgood hgood'
    obtain ⟨e, he, rfl, -, hupdates⟩ := (hinv.succeeds h).mp hgood
    obtain ⟨e', he', rfl, -, hupdates'⟩ := (hinv.succeeds h').mp hgood'
    rw [hinv.one_deletion he he' (decide_eq_true (updates_deletes hreq hupdates))
      (decide_eq_true (updates_deletes hreq' hupdates'))]
  · rintro ⟨e, he, hdeletes⟩
    obtain ⟨m, hm⟩ := hinv.deleted id e he hdeletes
    refine ⟨m, hm, fun s' hrun' => ?_⟩
    obtain ⟨hm', hlog⟩ := tombstone_stays hm hrun'
    refine ⟨hm', fun n req reply content h hreq hgood => ?_, fun _ _ _ _ _ row hrow hid =>
      page_of_tombstone hm' hrow hid⟩
    have hinv' := changesInv_reach (hrun.trans hrun')
    obtain ⟨e', he', hn, -, hupdates⟩ := (hinv'.succeeds h).mp hgood
    exact ⟨e', hlog e' he' (updates_target hupdates hreq), hn⟩

/-- Alice and an admin of the room delete her first message, and she edits it; all three have
    read it before the first `UPDATE`. -/
def racedDeletion : List ChangeAction :=
  let env : (o : ChangeOp) → o.Res := fun o =>
    match o with
    | .getMembership r u => .ok ⟨9, r, u, .admin, 0, none, none, none⟩
    | o => changeFailed o
  [.request 0 (.delete 1 idOne), .request 1 (.edit 1 idOne (some "hey")),
    .request 2 (.delete 2 idOne), .serve 0 50 env, .serve 1 51 env, .serve 2 52 env,
    .serve 2 53 env, .serve 0 54 env, .serve 1 55 env, .serve 2 56 env, .fail 0]

def racedAfter (as : List ChangeAction) : Changes :=
  (exec (Changes.step parseId) (Changes.start quietTables) as).getD (Changes.start quietTables)

theorem deletion_final_raced :
    (racedAfter racedDeletion).log = [⟨0, .softDeleteMessage 1, true⟩] ∧
      ∃ m, Tombstone 1 (racedAfter racedDeletion).tables m ∧ m.deletedAt = some 54 := by
  have hexec : exec (Changes.step parseId) (Changes.start quietTables) racedDeletion =
      some (racedAfter racedDeletion) := rfl
  have hlog : (racedAfter racedDeletion).log = [⟨0, .softDeleteMessage 1, true⟩] := rfl
  obtain ⟨-, -, hfinal⟩ := deletion_final parseId quietTables (racedAfter racedDeletion)
    (Reach.of_exec (meets_unguarded _ _ _) hexec)
  obtain ⟨m, hm, -⟩ := (hfinal 1).2 ⟨_, hlog ▸ List.mem_singleton_self _, rfl⟩
  refine ⟨hlog, m, hm, ?_⟩
  have hrows : ∀ m ∈ (racedAfter racedDeletion).tables.messages, m.id = 1 →
      m.deletedAt = some 54 := by
    decide
  exact hrows m hm.1 hm.2.1

/-- Alice deletes her first message; the row is written, and she has gone before the answer. -/
def abandonedDeletion : List ChangeAction :=
  [.request 0 (.delete 1 idOne), .serve 0 50 changeFailed, .lost 0 51 changeFailed]

/-- The request is answered with `500`, and the row is deleted. -/
theorem failed_deletion_deletes :
    ¬ ∀ (parse : String → Option UUID) (t : MessageTables) (s : Changes) (n : ℕ)
      (req : ChangeRequest) (reply : ChangeReply),
      Reach (Changes.step parse) (fun _ a => a.IsOf n) (Changes.start t) s →
      s.Answered n req reply → ¬ reply.Succeeds → s.tables.messages = t.messages := by
  intro h
  have hexec : exec (Changes.step parseId) (Changes.start quietTables) abandonedDeletion =
      some (racedAfter abandonedDeletion) := rfl
  have hmeets : Meets (Changes.step parseId) (fun _ a => a.IsOf 0) (Changes.start quietTables)
      abandonedDeletion := by
    refine meets_of_forall (fun a ha s => ?_) _
    simp only [abandonedDeletion, List.mem_cons, List.not_mem_nil, or_false] at ha
    rcases ha with rfl | rfl | rfl <;> rfl
  have hfails : ¬ (ChangeReply.deleted (internalError "failed to delete message")).Succeeds :=
    error_not_deleted
  have hrows := h _ _ _ 0 _ _ (Reach.of_exec hmeets hexec) rfl hfails
  revert hrows
  decide

end ConvoyChat.System
