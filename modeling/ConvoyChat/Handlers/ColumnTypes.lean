import ConvoyChat.Handlers.Messages
import ConvoyChat.Handlers.Validators

/-!
# Validated texts and their columns

The four texts that the handlers check and the store writes, with the types that
`migrations/001_init_schema.up.sql` gives their columns.

* `column_accepts_iff`: when the column takes what the check accepted.
* `sendMessage_fails_iff`, `editMessage_fails_iff`, `toggleReaction_fails_iff`,
  `createRoomChannel_fails_iff`: when the handler answers 500 for it.
-/

namespace ConvoyChat.Handlers

open ConvoyChat.Lib ConvoyChat.Store ConvoyChat.Websocket

/-! ## Columns -/

inductive ColumnType
  | varchar (n : ℕ)
  | text
deriving DecidableEq, Repr

/-- What is stored: no U+0000, and `VARCHAR(n)` takes `n` characters, apart from blanks at the
    end, which are cut off. -/
def ColumnType.assign (type : ColumnType) (value : String) : Option String :=
  if '\x00' ∈ value.toList then none
  else
    match type with
    | .text => some value
    | .varchar n =>
      if value.length ≤ n then some value
      else if (value.toList.drop n).all (· = ' ') then some (String.ofList (value.toList.take n))
      else none

/-- The texts that a handler checks before they are written. -/
inductive TextField
  | username
  | roomName
  | messageContent
  | emoji
deriving DecidableEq, Repr

namespace TextField

/-- The check, which assumes that the value has been trimmed. -/
def check : TextField → String → Except String Unit
  | .username => validateUsername
  | .roomName => validateRoomName
  | .messageContent => validateMessageContent
  | .emoji => validateEmoji

/-- `users.username`, `rooms.name`, `messages.content` and `message_reactions.emoji`. -/
def column : TextField → ColumnType
  | .username => .varchar 255
  | .roomName => .varchar 255
  | .messageContent => .text
  | .emoji => .varchar 10

/-- The column stores the value as it is. -/
def Accepts (field : TextField) (value : String) : Prop := field.column.assign value = some value

instance (field : TextField) (value : String) : Decidable (field.Accepts value) :=
  inferInstanceAs (Decidable (_ = _))

end TextField

section

variable {field : TextField} {value : String}

/-- A character takes a byte at least. -/
theorem length_le_utf8Len (chars : List Char) : chars.length ≤ String.utf8Len chars := by
  induction chars with
  | nil => simp
  | cons c chars ih =>
    have hpos := Char.utf8Size_pos c
    rw [List.length_cons, String.utf8Len_cons]
    omega

theorem length_le_bytes (value : String) : value.length ≤ value.utf8ByteSize := by
  rw [← String.ofList_toList (s := value), String.utf8ByteSize_ofList, String.length_ofList]
  exact length_le_utf8Len value.toList

/-- Of a value that is short enough, only U+0000 is refused. -/
theorem assign_iff (type : ColumnType) (h : ∀ n, type = .varchar n → value.length ≤ n) :
    type.assign value = some value ↔ '\x00' ∉ value.toList := by
  unfold ColumnType.assign
  split_ifs with hzero
  · simp [hzero]
  · cases type with
    | text => simp [hzero]
    | varchar n => simp [hzero, h n rfl]

/-- Byte limits are character limits. -/
theorem length_le_of_check (h : field.check value = .ok ()) :
    ∀ n, field.column = .varchar n → value.length ≤ n := by
  have hbytes := length_le_bytes value
  intro n hn
  cases field with
  | username =>
    cases hn
    have hlong := (validateUsername_ok_iff.mp h).2.1
    omega
  | roomName =>
    cases hn
    have hlong := (validateRoomName_ok_iff.mp h).2
    unfold maxRoomNameLen at hlong
    omega
  | messageContent => simp [TextField.column] at hn
  | emoji =>
    cases hn
    have hlong := (validateEmoji_ok_iff.mp h).2
    unfold maxEmojiLen at hlong
    omega

theorem accepts_iff (h : field.check value = .ok ()) :
    field.Accepts value ↔ '\x00' ∉ value.toList :=
  assign_iff field.column (length_le_of_check h)

/-- No username has it. -/
theorem username_not_zero (h : validateUsername value = .ok ()) : '\x00' ∉ value.toList := by
  intro hzero
  have hclass := (validateUsername_ok_iff.mp h).2.2 _ hzero
  revert hclass
  decide

/-- Of the texts that pass the check, the column takes those without U+0000; a username never
    has it. -/
theorem column_accepts_iff (field : TextField) (raw : String)
    (h : field.check (trimSpace raw) = .ok ()) :
    (field.Accepts (trimSpace raw) ↔ '\x00' ∉ (trimSpace raw).toList) ∧
      (field = .username → field.Accepts (trimSpace raw)) := by
  refine ⟨accepts_iff h, ?_⟩
  rintro rfl
  exact (accepts_iff h).mpr (username_not_zero h)

theorem column_accepts_iff_emoji : TextField.emoji.check (trimSpace " 👍🏽 ") = .ok () ∧
    (TextField.emoji.Accepts (trimSpace " 👍🏽 ") ↔ '\x00' ∉ (trimSpace " 👍🏽 ").toList) :=
  ⟨by decide +kernel, (column_accepts_iff .emoji " 👍🏽 " (by decide +kernel)).1⟩

/-! ## The answers of the handlers -/

/-- The write is made exactly when the column accepts the text; no row is missing. -/
def Written {α : Type} (accepts : Prop) (res : Except StoreErr α) : Prop :=
  ((∃ a, res = .ok a) ↔ accepts) ∧ res ≠ .error .notFound

/-- The caller is a member and the key is fresh. -/
def SendOp.Serves : (o : SendOp) → o.Res → Prop
  | .getMembership _ _, res => ∃ m, res = .ok m
  | .reserveMessageIdempotencyKey _ _ _, res => res = .ok true
  | .insertMessage _ _ content _, res => Written (TextField.messageContent.Accepts content) res
  | .releaseMessageIdempotencyKey _ _ _, _ => True

/-- The message is one of the caller's and not deleted, and the caller is a member. -/
def ChangeOp.Serves (userID : UUID) : (o : ChangeOp) → o.Res → Prop
  | .getMessageByID _, res => ∃ m, res = .ok m ∧ m.deletedAt = none ∧ m.userID = userID
  | .getMembership _ _, res => ∃ m, res = .ok m
  | .editMessage _ content, res => Written (TextField.messageContent.Accepts content) res
  | .toggleReaction _ _ emoji, res => Written (TextField.emoji.Accepts emoji) res
  | _, _ => True

/-- No other column of the room refuses its value. -/
def RoomOp.Serves : (o : RoomOp) → o.Res → Prop
  | .createChannel _ name _ _, res => Written (TextField.roomName.Accepts name) res
  | _, _ => True

/-- `500 internal_error`. -/
def Internal (response : Response) : Prop := ∃ message, response = internalError message

/-- The result is such an error response. -/
def Fails {α : Type} (res : Except Response α) : Prop :=
  ∃ response, res = .error response ∧ Internal response

/-- What a successful write says of the value that was checked. -/
theorem Written.not_zero {α : Type} {a : α} (h : Written (field.Accepts value) (.ok a))
    (hcheck : field.check value = .ok ()) : '\x00' ∉ value.toList :=
  (accepts_iff hcheck).mp (h.1.mp ⟨a, rfl⟩)

/-- What a failed one says. -/
theorem Written.zero {α : Type} {e : StoreErr}
    (h : Written (field.Accepts value) (.error e : Except StoreErr α))
    (hcheck : field.check value = .ok ()) : '\x00' ∈ value.toList ∧ e ≠ .notFound := by
  constructor
  · by_contra hzero
    obtain ⟨a, ha⟩ := h.1.mpr ((accepts_iff hcheck).mpr hzero)
    cases ha
  · rintro rfl
    exact h.2 rfl

theorem Written.internal_iff {α : Type} {e : StoreErr}
    (h : Written (field.Accepts value) (.error e : Except StoreErr α))
      (hcheck : field.check value = .ok ())
    (message : String) : Internal (internalError message) ↔ '\x00' ∈ value.toList :=
  iff_of_true ⟨message, rfl⟩ (h.zero hcheck).1

theorem Written.fails_iff {α β : Type} {e : StoreErr}
    (h : Written (field.Accepts value) (.error e : Except StoreErr α))
      (hcheck : field.check value = .ok ())
    (message : String) :
    Fails (.error (internalError message) : Except Response β) ↔ '\x00' ∈ value.toList :=
  iff_of_true ⟨_, rfl, message, rfl⟩ (h.zero hcheck).1

theorem Written.succeeds_iff {α β : Type} {a : α} (h : Written (field.Accepts value) (.ok a))
    (hcheck : field.check value = .ok ()) (b : β) : Fails (.ok b) ↔ '\x00' ∈ value.toList := by
  refine iff_of_false ?_ (h.not_zero hcheck)
  rintro ⟨response, heq, -⟩
  cases heq

variable {parse : String → Option UUID} {userID roomID messageID : UUID} {raw key : String}

theorem insertAndRespond_fails_iff {content : String} {messageType : MessageType}
    (hcheck : TextField.messageContent.check content = .ok ()) :
    (insertAndRespond roomID userID content messageType key).Returns SendOp.Serves fun res =>
      Fails res ↔ '\x00' ∈ content.toList := by
  refine .perform fun res hres => ?_
  cases res with
  | ok m => exact Written.succeeds_iff hres hcheck m
  | error e =>
    have hfails := Written.fails_iff (β := MessageWithAuthor) hres hcheck "failed to send message"
    simp only
    split_ifs
    · exact .perform fun _ _ => hfails
    · exact hfails

/-- A message that passed the checks is answered with 500 exactly when it has U+0000. -/
theorem sendMessage_fails_iff {roomParam : String} {req : SendMessageRequest}
    {messageType : MessageType}
    (hroom : parse roomParam = some roomID)
      (htype : sendableType req.messageType = some messageType)
    (hcheck : TextField.messageContent.check (trimSpace req.content) = .ok ()) :
    (sendMessage parse userID roomParam (some req) key).Returns SendOp.Serves fun res =>
      Fails res ↔ '\x00' ∈ (trimSpace req.content).toList := by
  obtain ⟨hne, hshort⟩ := validateMessageContent_ok_iff.mp hcheck
  unfold sendMessage
  simp only [hroom]
  refine .perform fun res hres => ?_
  obtain ⟨m, rfl⟩ := hres
  simp only [htype]
  rw [if_neg (by simp [hne, hshort])]
  unfold reserveAndInsert
  split_ifs
  · refine .perform fun res hres => ?_
    cases hres
    exact insertAndRespond_fails_iff hcheck
  · exact insertAndRespond_fails_iff hcheck

theorem editMessage_fails_iff {messageParam : String}
    (hmessage : parse messageParam = some messageID)
    (hcheck : TextField.messageContent.check (trimSpace raw) = .ok ()) :
    (editMessage parse userID messageParam (some raw)).Returns (ChangeOp.Serves userID) fun res =>
      Fails res ↔ '\x00' ∈ (trimSpace raw).toList := by
  have hvalid : validateMessageContent (trimSpace raw) = .ok () := hcheck
  unfold editMessage
  simp only [hmessage, hvalid]
  refine .perform fun res hres => ?_
  obtain ⟨m, rfl, hdeleted, hauthor⟩ := hres
  simp only [hdeleted, hauthor, ne_eq, not_true_eq_false, if_false]
  refine .perform fun res hres => ?_
  cases res with
  | ok t => exact .perform fun _ _ => Written.succeeds_iff hres hcheck _
  | error e =>
    have hfails := Written.fails_iff (β := EditMessageResponse) hres hcheck "failed to edit message"
    cases e with
    | notFound => exact absurd rfl (Written.zero hres hcheck).2
    | _ => exact hfails

theorem toggleReaction_fails_iff {messageParam : String}
    (hmessage : parse messageParam = some messageID)
    (hcheck : TextField.emoji.check (trimSpace raw) = .ok ()) :
    (toggleReaction parse userID messageParam (some raw)).Returns (ChangeOp.Serves userID)
      fun response => Internal response ↔ '\x00' ∈ (trimSpace raw).toList := by
  have hvalid : validateEmoji (trimSpace raw) = .ok () := hcheck
  unfold toggleReaction
  simp only [hmessage, hvalid]
  refine .perform fun res hres => ?_
  obtain ⟨m, rfl, hdeleted, -⟩ := hres
  simp only [hdeleted, ne_eq, not_true_eq_false, if_false]
  refine .perform fun res hres => ?_
  obtain ⟨member, rfl⟩ := hres
  refine .perform fun res hres => ?_
  cases res with
  | ok added =>
    refine .perform fun _ _ => iff_of_false ?_ (Written.not_zero hres hcheck)
    rintro ⟨message, heq⟩
    cases heq
  | error e => exact Written.internal_iff hres hcheck _

theorem createRoomChannel_fails_iff {req : CreateRoomRequest}
    (hcheck : TextField.roomName.check (trimSpace req.name) = .ok ()) :
    (createRoomChannel userID req).Returns RoomOp.Serves fun response =>
      Internal response ↔ '\x00' ∈ (trimSpace req.name).toList := by
  have hvalid : validateRoomName (trimSpace req.name) = .ok () := hcheck
  unfold createRoomChannel
  simp only [hvalid]
  refine .perform fun res hres => ?_
  cases res with
  | ok room =>
    refine iff_of_false ?_ (Written.not_zero hres hcheck)
    rintro ⟨message, heq⟩
    cases heq
  | error e => exact Written.internal_iff hres hcheck _

end

/-- A message whose content is accepted and cannot be stored: the answer is 500. -/
def zeroContent : SendMessageRequest := ⟨"a\x00b", "text"⟩

theorem zeroContent_refused :
    TextField.messageContent.check (trimSpace zeroContent.content) = .ok () ∧
      ¬ TextField.messageContent.Accepts (trimSpace zeroContent.content) ∧
      (sendMessage parseId 1 idFive (some zeroContent) "").Returns SendOp.Serves Fails := by
  have hcheck : TextField.messageContent.check (trimSpace zeroContent.content) = .ok () := by
    decide +kernel
  have hzero : '\x00' ∈ (trimSpace zeroContent.content).toList := by
    decide +kernel
  refine ⟨hcheck, fun haccepts => (accepts_iff hcheck).mp haccepts hzero, ?_⟩
  exact (sendMessage_fails_iff rfl rfl hcheck).mono fun res hres => hres.mpr hzero

end ConvoyChat.Handlers
