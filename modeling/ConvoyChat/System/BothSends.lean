import ConvoyChat.System.Outsiders

/-!
# One send, two paths

`SendMessage` (`internal/handlers/messages.go` lines 126–177) without an `Idempotency-Key`
and `handleMessageSend` (`internal/websocket/handlers.go` lines 115–171) check the same
things in different orders: the first asks for the membership before it reads the body, the
second after it has validated the frame.

* `afterRest_tables`, `afterFrame_tables`: each stores what `accepted` admits.
* `sends_agree`: both leave the same tables, with the new row unless the column refuses it too.
-/

namespace ConvoyChat.System

open ConvoyChat.Lib ConvoyChat.Store ConvoyChat.Handlers ConvoyChat.Websocket

section

variable (parse : String → Option UUID) (stamps : ℕ → Stamp) (env : (o : ConnOp) → o.Res)

/-- The site after `SendMessage` without a key, on its own. -/
def afterRest (userID : UUID) (roomParam : String) (req : SendMessageRequest) (s : Site) : Site :=
  ((sendMessage parse userID roomParam (some req) "").run (fun o s => serveSend stamps s o) s).2

/-- The site after `handleMessageSend`, on its own; the Hub and the Broker answer `env`. -/
def afterFrame (c : Client) (frame : InboundEnvelope) (s : Site) : Site :=
  ((handleMessageSend parse c frame).run (fun o s => serveConn stamps s env o) s).2

/-! ## What a send needs -/

/-- The content is not empty and not too long. -/
def contentOk (content : String) : Bool :=
  !(content = "" || maxMessageContentLen < content.utf8ByteSize)

/-- The room and the type of a send that passes every check. -/
def accepted (userID : UUID) (roomParam content type : String) (s : Site) :
    Option (UUID × MessageType) :=
  match parse roomParam, sendableType type with
  | some roomID, some messageType =>
    if contentOk (trimSpace content) && s.backend.db.members.any (·.isActiveRow roomID userID)
    then some (roomID, messageType) else none
  | _, _ => none

/-- The tables after the insert of a send, the second call on the store. -/
def storeAccepted (userID : UUID) (content : String) (s : Site) :
    Option (UUID × MessageType) → MessageTables
  | none => s.tables
  | some (roomID, messageType) =>
    (s.tick.insertMessage stamps roomID userID (trimSpace content) messageType).2.tables

variable {parse stamps env} {s : Site} {userID roomID : UUID} {roomParam content type : String}
  {req : SendMessageRequest} {c : Client} {frame : InboundEnvelope} {messageType : MessageType}

theorem storeAccepted_some : storeAccepted stamps userID content s (some (roomID, messageType)) =
    (s.tick.insertMessage stamps roomID userID (trimSpace content) messageType).2.tables := rfl

theorem contentOk_iff :
    contentOk content = true ↔
      ¬ (content = "" || maxMessageContentLen < content.utf8ByteSize) = true := by
  simp [contentOk]

theorem accepted_of_not_content (h : ¬ contentOk (trimSpace content) = true) :
    accepted parse userID roomParam content type s = none := by
  unfold accepted
  split
  · simp [h]
  · rfl

theorem accepted_of_not_member (hparse : parse roomParam = some roomID) {e : StoreErr}
    (h : getMembership roomID userID s.backend.db = .error e) :
    accepted parse userID roomParam content type s = none := by
  have hno : s.backend.db.members.any (·.isActiveRow roomID userID) = false := by
    unfold getMembership at h
    split at h
    · cases h
    · rename_i hfind
      rw [List.any_eq_false]
      exact List.find?_eq_none.mp hfind
  unfold accepted
  rw [hparse]
  split
  · rename_i heq _
    cases heq
    simp [hno]
  · rfl

theorem accepted_of_not_sendable (h : sendableType type = none) :
    accepted parse userID roomParam content type s = none := by
  unfold accepted
  rw [h]
  split
  · rename_i heq
    cases heq
  · rfl

theorem accepted_of_not_parse (h : parse roomParam = none) :
    accepted parse userID roomParam content type s = none := by
  unfold accepted
  rw [h]

theorem accepted_of_ok (hparse : parse roomParam = some roomID)
    (hcontent : contentOk (trimSpace content) = true)
    (htype : sendableType type = some messageType) {m : RoomMember}
    (hmember : getMembership roomID userID s.backend.db = .ok m) :
    accepted parse userID roomParam content type s = some (roomID, messageType) := by
  have hany : s.backend.db.members.any (·.isActiveRow roomID userID) = true := by
    unfold getMembership at hmember
    split at hmember
    · rename_i row hfind
      exact List.any_eq_true.mpr ⟨row, List.mem_of_find?_eq_some hfind, List.find?_some hfind⟩
    · cases hmember
  unfold accepted
  rw [hparse, htype]
  simp [hcontent, hany]

theorem afterRest_tables :
    (afterRest parse stamps userID roomParam req s).tables =
      storeAccepted stamps userID req.content s
        (accepted parse userID roomParam req.content req.messageType s) := by
  show Proc.Ends (fun o s => serveSend stamps s o) _ s fun _ s' => s'.tables = _
  unfold sendMessage
  cases hparse : parse roomParam with
  | none =>
    rw [accepted_of_not_parse hparse]
    exact .ret rfl
  | some roomID =>
    refine .perform fun r s' hserve => ?_
    have hr : getMembership roomID userID s.backend.db = r := congrArg Prod.fst hserve
    have hs : s.tick = s' := congrArg Prod.snd hserve
    subst hs
    match r with
    | .error e =>
      rw [accepted_of_not_member hparse hr]
      cases e <;> exact .ret rfl
    | .ok m =>
      dsimp only
      by_cases hcontent : contentOk (trimSpace req.content) = true
      · rw [if_neg (contentOk_iff.mp hcontent)]
        cases htype : sendableType req.messageType with
        | none =>
          rw [accepted_of_not_sendable htype]
          exact .ret rfl
        | some messageType =>
          rw [accepted_of_ok hparse hcontent htype hr, storeAccepted_some]
          generalize hout : s.tick.insertMessage stamps roomID userID (trimSpace req.content)
            messageType = out
          refine .perform fun r s' hserve => ?_
          have hs : out = (r, s') := hout.symm.trans hserve
          rw [hs]
          cases r <;> exact .ret rfl
      · rw [if_pos (not_not.mp (contentOk_iff.not.mp hcontent)), accepted_of_not_content hcontent]
        exact .ret rfl

theorem afterFrame_tables :
    (afterFrame parse stamps env c frame s).tables =
      storeAccepted stamps c.userID frame.content s
        (accepted parse c.userID frame.roomID frame.content frame.messageType s) := by
  show Proc.Ends (fun o s => serveConn stamps s env o) _ s fun _ s' => s'.tables = _
  -- an error reply and a publication leave the tables
  have herror : ∀ (code message : String) (s : Site),
      Proc.Ends (fun o s => serveConn stamps s env o) (sendError code message) s
        fun _ s' => s'.tables = s.tables := fun _ _ _ => rfl
  have hpublish : ∀ (roomID : UUID) (event : Event) (s : Site),
      Proc.Ends (fun o s => serveConn stamps s env o) (lift (publish roomID event)) s
        fun _ s' => s'.tables = s.tables := fun _ _ _ => rfl
  unfold handleMessageSend
  cases hparse : parse frame.roomID with
  | none =>
    rw [accepted_of_not_parse hparse]
    exact herror _ _ s
  | some roomID =>
    dsimp only
    by_cases hcontent : contentOk (trimSpace frame.content) = true
    · rw [if_neg (contentOk_iff.mp hcontent)]
      cases htype : sendableType frame.messageType with
      | none =>
        rw [accepted_of_not_sendable htype]
        exact herror _ _ s
      | some messageType =>
        refine .perform fun r s' hserve => ?_
        have hr : getMembership roomID c.userID s.backend.db = r := congrArg Prod.fst hserve
        have hs : s.tick = s' := congrArg Prod.snd hserve
        subst hs
        match r with
        | .error e =>
          rw [accepted_of_not_member hparse hr]
          cases e <;> exact herror _ _ s.tick
        | .ok m =>
          rw [accepted_of_ok hparse hcontent htype hr, storeAccepted_some]
          generalize hout : s.tick.insertMessage stamps roomID c.userID (trimSpace frame.content)
            messageType = out
          refine .perform fun r s' hserve => ?_
          have hs : out = (r, s') := hout.symm.trans hserve
          rw [hs]
          match r with
          | .error e => exact herror _ _ s'
          | .ok message => exact hpublish _ _ s'
    · rw [if_pos (not_not.mp (contentOk_iff.not.mp hcontent)), accepted_of_not_content hcontent]
      exact herror _ _ s

theorem accepted_eq_some_iff :
    accepted parse userID roomParam content type s = some (roomID, messageType) ↔
      parse roomParam = some roomID ∧ sendableType type = some messageType ∧
        contentOk (trimSpace content) = true ∧
        ∃ m ∈ s.backend.db.members, m.isActiveRow roomID userID = true := by
  unfold accepted
  split
  · rename_i r t hparse htype
    simp only [hparse, htype, Option.some.injEq]
    constructor
    · intro h
      split_ifs at h with hok
      cases h
      simp only [Bool.and_eq_true, List.any_eq_true] at hok
      exact ⟨rfl, rfl, hok⟩
    · rintro ⟨rfl, rfl, hok⟩
      rw [if_pos]
      simpa only [Bool.and_eq_true, List.any_eq_true] using hok
  · rename_i hnone
    constructor
    · intro h
      cases h
    · rintro ⟨hparse, htype, -⟩
      exact absurd htype (hnone _ _ hparse)

/-! ## The insert -/

/-- The row of a message that is inserted by the `n`-th call on the store. -/
def insertedRow (stamps : ℕ → Stamp) (n : ℕ) (roomID userID : UUID) (content : String)
    (messageType : MessageType) : Message :=
  ⟨(stamps n).uuid 0, roomID, userID, content, messageType, none, none,
    (stamps n).now, (stamps n).now⟩

/-- The column takes the content, the new id is free and the author has an account. -/
def Insertable (stamps : ℕ → Stamp) (n : ℕ) (userID : UUID) (content : String)
    (t : MessageTables) : Prop :=
  TextField.messageContent.Accepts content ∧
    (∀ m ∈ t.messages, m.id ≠ (stamps n).uuid 0) ∧ ∃ u ∈ t.users, u.id = userID

theorem insertMessage_tables_ok (h : Insertable stamps s.backend.calls userID content s.tables) :
    (s.insertMessage stamps roomID userID content messageType).2.tables.messages =
      s.tables.messages ++
        [insertedRow stamps s.backend.calls roomID userID content messageType] := by
  obtain ⟨haccepts, hfree⟩ := h
  cases hinsert : Store.insertMessage (stamps s.backend.calls).now ((stamps s.backend.calls).uuid 0)
      roomID userID content messageType s.tables with
  | error e =>
    unfold Store.insertMessage at hinsert
    rw [dif_pos hfree] at hinsert
    cases hinsert
  | ok t =>
    have hmessages := (insertMessage_ok hinsert).2.1
    have husers : t.users = s.tables.users := by
      unfold Store.insertMessage at hinsert
      rw [dif_pos hfree] at hinsert
      cases hinsert
      rfl
    -- the answer is the new row with its author
    obtain ⟨u, hu, huid⟩ := hfree.2
    obtain ⟨author, hauthor⟩ : ∃ author, t.users.find? (fun u => u.id = userID) = some author := by
      rw [← Option.isSome_iff_exists, List.find?_isSome, husers]
      exact ⟨u, hu, decide_eq_true huid⟩
    have hnew : t.messages.find? (fun m => m.id = (stamps s.backend.calls).uuid 0) =
        some (insertedRow stamps s.backend.calls roomID userID content messageType) := by
      rw [hmessages, List.find?_append, List.find?_eq_none.mpr fun m hm => by simp [hfree.1 m hm]]
      simp [insertedRow]
    have hinserted : Site.inserted ((stamps s.backend.calls).uuid 0) t = .ok
        ((scanMessageWithAuthor
          (insertedRow stamps s.backend.calls roomID userID content messageType)
          author).toMessageWithAuthor, t) := by
      unfold Site.inserted joinAuthor
      rw [hnew]
      simp [insertedRow, hauthor]
    simp only [Site.insertMessage, Site.writeText, if_pos haccepts, hinsert]
    show (s.write (Site.inserted ((stamps s.backend.calls).uuid 0) t)).2.tables.messages = _
    rw [hinserted]
    exact hmessages

theorem insertMessage_tables_error
    (h : ¬ Insertable stamps s.backend.calls userID content s.tables) :
    (s.insertMessage stamps roomID userID content messageType).2.tables = s.tables := by
  by_cases haccepts : TextField.messageContent.Accepts content
  swap
  · simp only [Site.insertMessage, Site.writeText, if_neg haccepts]
    rfl
  have herror :
    Store.insertMessage (stamps s.backend.calls).now ((stamps s.backend.calls).uuid 0) roomID
      userID content messageType s.tables = .error .internal :=
    dif_neg fun hfree => h ⟨haccepts, hfree⟩
  simp only [Site.insertMessage, Site.writeText, if_pos haccepts, herror]
  rfl

/-! ## Both paths -/

variable (parse stamps) in
/-- Every check passes and the row can be inserted. -/
structure Deliverable (userID : UUID) (roomParam content type : String) (s : Site) (roomID : UUID)
    (messageType : MessageType) : Prop where
  room : parse roomParam = some roomID
  kind : sendableType type = some messageType
  nonempty : trimSpace content ≠ ""
  short : (trimSpace content).utf8ByteSize ≤ maxMessageContentLen
  member : ∃ m ∈ s.backend.db.members, m.isActiveRow roomID userID = true
  insertable : Insertable stamps (s.backend.calls + 1) userID (trimSpace content) s.tables

theorem deliverable_iff :
    Deliverable parse stamps userID roomParam content type s roomID messageType ↔
      accepted parse userID roomParam content type s = some (roomID, messageType) ∧
        Insertable stamps s.tick.backend.calls userID (trimSpace content) s.tick.tables := by
  rw [accepted_eq_some_iff, contentOk_iff, Bool.or_eq_true, decide_eq_true_eq, decide_eq_true_eq,
    not_or, not_lt]
  constructor
  · intro h
    exact ⟨⟨h.room, h.kind, ⟨h.nonempty, h.short⟩, h.member⟩, h.insertable⟩
  · rintro ⟨⟨hroom, hkind, ⟨hnonempty, hshort⟩, hmember⟩, hinsertable⟩
    exact ⟨hroom, hkind, hnonempty, hshort, hmember, hinsertable⟩

theorem storeAccepted_ok
    (h : Deliverable parse stamps userID roomParam content type s roomID messageType) :
    (storeAccepted stamps userID content s
      (accepted parse userID roomParam content type s)).messages =
      s.tables.messages ++
        [insertedRow stamps (s.backend.calls + 1) roomID userID (trimSpace content)
          messageType] := by
  have hdeliverable := deliverable_iff.mp h
  rw [hdeliverable.1, storeAccepted_some, insertMessage_tables_ok hdeliverable.2]
  rfl

theorem storeAccepted_error
    (h : ∀ roomID messageType,
      ¬ Deliverable parse stamps userID roomParam content type s roomID messageType) :
    storeAccepted stamps userID content s (accepted parse userID roomParam content type s) =
      s.tables := by
  cases haccepted : accepted parse userID roomParam content type s with
  | none => rfl
  | some place =>
    obtain ⟨roomID, messageType⟩ := place
    have hrefused := mt (fun hinsertable => deliverable_iff.mpr ⟨haccepted, hinsertable⟩)
      (h roomID messageType)
    rw [storeAccepted_some, insertMessage_tables_error hrefused]
    rfl

end

/-- A frame and a request with the same inputs leave the same tables: with one new row of the
    room, the author, the trimmed content and the type when every check passes, and otherwise
    as they were. -/
theorem sends_agree (parse : String → Option UUID) (stamps : ℕ → Stamp) (env : (o : ConnOp) → o.Res)
    (c : Client) (frame : InboundEnvelope) (s : Site) :
    (afterFrame parse stamps env c frame s).tables =
        (afterRest parse stamps c.userID frame.roomID ⟨frame.content, frame.messageType⟩ s).tables ∧
      (∀ roomID messageType, Deliverable parse stamps c.userID frame.roomID frame.content
          frame.messageType s roomID messageType →
        (afterFrame parse stamps env c frame s).tables.messages = s.tables.messages ++
          [insertedRow stamps (s.backend.calls + 1) roomID c.userID (trimSpace frame.content)
            messageType]) ∧
      ((∀ roomID messageType, ¬ Deliverable parse stamps c.userID frame.roomID frame.content
          frame.messageType s roomID messageType) →
        (afterFrame parse stamps env c frame s).tables = s.tables) := by
  rw [afterFrame_tables, afterRest_tables]
  refine ⟨rfl, fun roomID messageType h => storeAccepted_ok h, storeAccepted_error⟩

/-- Room 5 with its one member. -/
def memberSite : Site :=
  { Site.start with
    backend := ⟨⟨[], [], [⟨3, 5, 1, .admin, 0, none, none, none⟩]⟩, 0, []⟩
    tables :=
      ⟨[], [⟨1, "alice", none⟩], [], [], List.nodup_nil, fun _ h => absurd h List.not_mem_nil⟩ }

def helloFrame : InboundEnvelope := ⟨"message.send", idFive, " hello ", "", "", "", ""⟩

theorem sends_agree_hello :
    (afterFrame parseId (fun n => ⟨n, fun k => 100 * n + k⟩) unusedEnv ⟨0, 1, "alice"⟩ helloFrame
      memberSite).tables.messages = [⟨100, 5, 1, "hello", .text, none, none, 1, 1⟩] := by
  have hagree := sends_agree parseId (fun n => ⟨n, fun k => 100 * n + k⟩) unusedEnv
    ⟨0, 1, "alice"⟩ helloFrame memberSite
  exact hagree.2.1 5 .text
    { room := rfl
      kind := by decide
      nonempty := by decide
      short := by decide
      member := ⟨_, List.mem_singleton_self _, by decide⟩
      insertable := ⟨by decide, by simp [memberSite], ⟨_, List.mem_singleton_self _, rfl⟩⟩ }

end ConvoyChat.System
