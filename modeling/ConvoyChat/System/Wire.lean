import ConvoyChat.Frontend.FrameSize
import ConvoyChat.Handlers.MessageChanges
import ConvoyChat.Lib.JsonLiterals

/-!
# Events on the wire

The frames between `frontend/hooks/useWebSocket.tsx` and `internal/websocket`: what
`json.Unmarshal` makes of an event that the client writes with `JSON.stringify`
(`handlers.go` lines 22–27), and what `JSON.parse` makes of an event that the server writes
with `json.Marshal` (`events.go`, and the events of the REST handlers).

* `events_understood`: every event of the client reaches its handler with the texts it was
  written for.
* `events_shown`: every event of the server reaches `routeEvent` as it was published.
* `content_arrives`: the text of a message arrives as it was typed, up to the white space
  around it.
-/

namespace ConvoyChat.System

open ConvoyChat.Frontend ConvoyChat.Handlers ConvoyChat.Lib ConvoyChat.Lib.JsonString
open ConvoyChat.Lib.Utf16 ConvoyChat.Store ConvoyChat.Websocket

/-! ## Frames of the client -/

/-- `foldRune` of `encoding/json`, up to the characters that fold to a letter of ASCII. -/
def foldRune (c : Char) : Char :=
  if c = '\u017f' then 'S' else if c = '\u212a' then 'K' else c.toUpper

/-- `foldName`: keys are matched without regard to case. -/
def foldName (key : String) : List Char := key.toList.map foldRune

/-- The fields of `inboundEnvelope` by their tags. -/
def envelopeFields : List (String × (String → InboundEnvelope → InboundEnvelope)) :=
  [("type", fun s env => { env with type := s }),
    ("room_id", fun s env => { env with roomID := s }),
    ("content", fun s env => { env with content := s }),
    ("message_type", fun s env => { env with messageType := s }),
    ("status", fun s env => { env with status := s }),
    ("message_id", fun s env => { env with messageID := s }),
    ("client_id", fun s env => { env with clientID := s })]

/-- The field that a key is for. -/
def fieldOf (key : String) : Option (String → InboundEnvelope → InboundEnvelope) :=
  (envelopeFields.find? fun field => foldName field.1 = foldName key).map Prod.snd

/-- One member of the object: an unknown key is skipped, `null` leaves the field as it is, and
    a value that is no string is an `UnmarshalTypeError`. -/
def storeMember (env : InboundEnvelope) (m : String × Json String) : Option InboundEnvelope :=
  match fieldOf m.1, m.2 with
  | none, _ => some env
  | some set, .string s => some (set s env)
  | some _, .null => some env
  | some _, _ => none

/-- The zero value. -/
def noEnvelope : InboundEnvelope := ⟨"", "", "", "", "", "", ""⟩

/-- `maxNestingDepth` of `encoding/json`. -/
def maxNestingDepth : ℕ := 10000

/-- The strings of `encoding/json`. -/
def goString (literal : List Char) : Option String := (unquote literal).map String.ofList

/-- `json.Unmarshal(data, &env)`. -/
def unmarshal (data : List Char) : Option InboundEnvelope := do
  let value ← Json.parse goString data
  if maxNestingDepth < value.depth then none
  else
    match value with
    | .object members => members.foldlM storeMember noEnvelope
    | .null => return noEnvelope
    | _ => none

/-- The characters of a JavaScript string, a lone surrogate as U+FFFD. -/
def textOf (units : List UInt16) : String := String.ofList (decode units)

/-- What a client's event says. -/
def envelope : ClientEvent → InboundEnvelope
  | .roomJoin roomID => { noEnvelope with type := "room.join", roomID := textOf roomID }
  | .roomLeave roomID => { noEnvelope with type := "room.leave", roomID := textOf roomID }
  | .messageSend roomID content messageType clientID =>
    { noEnvelope with
      type := "message.send"
      roomID := textOf roomID
      content := textOf content
      messageType := (messageType.map messageTypeText).getD ""
      clientID := (clientID.map textOf).getD "" }
  | .typingStart roomID => { noEnvelope with type := "typing.start", roomID := textOf roomID }
  | .typingStop roomID => { noEnvelope with type := "typing.stop", roomID := textOf roomID }
  | .messageRead messageID =>
    { noEnvelope with type := "message.read", messageID := textOf messageID }
  | .presenceUpdate status =>
    { noEnvelope with type := "presence.update", status := statusText status }

/-- The handler that a client's event is for. -/
def handler (parse : String → Option UUID) (c : Client) (event : ClientEvent) : ConnProc Unit :=
  match event with
  | .roomJoin _ => handleRoomJoin parse c (envelope event)
  | .roomLeave _ => handleRoomLeave parse c (envelope event)
  | .messageSend _ _ _ _ => handleMessageSend parse c (envelope event)
  | .typingStart _ => handleTypingStart parse c (envelope event)
  | .typingStop _ => handleTypingStop parse c (envelope event)
  | .messageRead _ => handleMessageRead parse c (envelope event)
  | .presenceUpdate status => lift (presenceUpdate c.userID status)

section

/-- An object whose values are strings. -/
def stringObject (members : List (String × List UInt16)) : Json (List UInt16) :=
  .object (members.map fun m => (asciiUnits m.1, .string m.2))

theorem writeMembers_strings (members : List (String × List UInt16)) :
    Json.writeMembers quote (members.map fun m => (asciiUnits m.1, .string m.2)) =
      JsonString.writeMembers members ++ ['}'] := by
  induction members with
  | nil => rfl
  | cons m members ih =>
    rw [List.map_cons, Json.writeMembers, Json.write, ih]
    simp [JsonString.writeMembers]

theorem write_stringObject (members : List (String × List UInt16)) :
    (stringObject members).write quote = writeObject members := by
  cases members with
  | nil => rfl
  | cons m members =>
    rw [stringObject, List.map_cons, Json.write, writeMembers_strings, Json.write]
    rfl

theorem soundMembers_strings (members : List (String × List UInt16)) :
    Json.SoundMembers (members.map fun m => (asciiUnits m.1, Json.string m.2)) := by
  induction members with
  | nil => trivial
  | cons m members ih => exact ⟨trivial, ih⟩

theorem mapMembers_strings (members : List (String × List UInt16)) :
    Json.mapMembers textOf (members.map fun m => (asciiUnits m.1, Json.string m.2)) =
      members.map fun m => (textOf (asciiUnits m.1), .string (textOf m.2)) := by
  induction members with
  | nil => rfl
  | cons m members ih =>
    rw [List.map_cons, Json.mapMembers, ih]
    rfl

theorem depthMembers_strings (members : List (String × List UInt16)) :
    Json.depthMembers (members.map fun m => (textOf (asciiUnits m.1), Json.string (textOf m.2))) =
      0 := by
  induction members with
  | nil => rfl
  | cons m members ih =>
    rw [List.map_cons, Json.depthMembers, ih]
    rfl

/-- An object of strings is stored member by member. -/
theorem unmarshal_writeObject (members : List (String × List UInt16)) :
    unmarshal (writeObject members) =
      (members.map fun m => (textOf (asciiUnits m.1), Json.string (textOf m.2))).foldlM storeMember
        noEnvelope := by
  have hparse : Json.parse goString (writeObject members) =
      some (.object (members.map fun m => (textOf (asciiUnits m.1), .string (textOf m.2)))) := by
    rw [← write_stringObject]
    have hread :=
      Json.parse_write quotes_quote (v := stringObject members) (soundMembers_strings members)
    rw [← mapMembers_strings]
    exact hread
  rw [unmarshal, hparse]
  simp only [Option.bind_eq_bind, Option.bind_some, Json.depth, depthMembers_strings]
  exact if_neg (by decide)

theorem textOf_asciiUnits (text : String) (h : isAscii text = true) :
    textOf (asciiUnits text) = text := by
  rw [textOf, (decode_asciiUnits h).2, String.ofList_toList]

/-- A member whose key is a tag. -/
theorem storeMember_field (key : String) {set : String → InboundEnvelope → InboundEnvelope}
    {env : InboundEnvelope} (hascii : isAscii key = true) (hfield : fieldOf key = some set)
    (value : String) :
    storeMember env (textOf (asciiUnits key), .string value) = some (set value env) := by
  rw [textOf_asciiUnits _ hascii, storeMember, hfield]

theorem storeMember_type {type : String} (htype : isAscii type = true) (env : InboundEnvelope) :
    storeMember env (textOf (asciiUnits "type"), .string (textOf (asciiUnits type))) =
      some { env with type := type } := by
  rw [textOf_asciiUnits _ htype]
  exact storeMember_field "type" (by decide) rfl type

/-- An event with one field besides its type. -/
theorem unmarshal_pair (type key : String) {set : String → InboundEnvelope → InboundEnvelope}
    (htype : isAscii type = true) (hkey : isAscii key = true)
    (hfield : fieldOf key = some set) (value : List UInt16) :
    unmarshal (writeObject [("type", asciiUnits type), (key, value)]) =
      some (set (textOf value) { noEnvelope with type := type }) := by
  rw [unmarshal_writeObject]
  simp only [List.map_cons, List.map_nil, List.foldlM_cons, List.foldlM_nil, storeMember_type htype,
    storeMember_field _ hkey hfield, Option.bind_eq_bind, Option.bind_some]
  rfl

/-- What the server reads is what the event says. -/
theorem unmarshal_stringify (event : ClientEvent) :
    unmarshal event.stringify = some (envelope event) := by
  cases event with
  | roomJoin roomID => exact unmarshal_pair _ "room_id" (by decide) (by decide) rfl roomID
  | roomLeave roomID => exact unmarshal_pair _ "room_id" (by decide) (by decide) rfl roomID
  | typingStart roomID => exact unmarshal_pair _ "room_id" (by decide) (by decide) rfl roomID
  | typingStop roomID => exact unmarshal_pair _ "room_id" (by decide) (by decide) rfl roomID
  | messageRead messageID =>
    exact unmarshal_pair _ "message_id" (by decide) (by decide) rfl messageID
  | presenceUpdate status =>
    have hread := unmarshal_pair "presence.update" "status" (by decide) (by decide) rfl
      (asciiUnits (statusText status))
    rw [textOf_asciiUnits _ (by cases status <;> decide)] at hread
    exact hread
  | messageSend roomID content messageType clientID =>
    have hsend : ∀ env, storeMember env (textOf (asciiUnits "type"),
        .string (textOf (asciiUnits "message.send"))) = some { env with type := "message.send" } :=
      storeMember_type (by decide)
    have hroom : ∀ env value, storeMember env (textOf (asciiUnits "room_id"), .string value) =
        some { env with roomID := value } :=
      fun _ => storeMember_field "room_id" (by decide) rfl
    have hcontent : ∀ env value, storeMember env (textOf (asciiUnits "content"), .string value) =
        some { env with content := value } :=
      fun _ => storeMember_field "content" (by decide) rfl
    have htype : ∀ env t, storeMember env (textOf (asciiUnits "message_type"),
        .string (textOf (asciiUnits (messageTypeText t)))) =
        some { env with messageType := messageTypeText t } := by
      intro env t
      rw [textOf_asciiUnits (messageTypeText t) (by cases t <;> decide)]
      exact storeMember_field "message_type" (by decide) rfl _
    have hclient : ∀ env value, storeMember env (textOf (asciiUnits "client_id"), .string value) =
        some { env with clientID := value } :=
      fun _ => storeMember_field "client_id" (by decide) rfl
    rw [ClientEvent.stringify, unmarshal_writeObject]
    cases messageType <;> cases clientID <;>
      simp only [ClientEvent.members, List.map_cons, List.map_nil, Option.map_some, Option.map_none,
        Option.toList_some, Option.toList_none, List.append_nil, List.cons_append, List.nil_append,
        List.foldlM_cons, List.foldlM_nil, hsend, hroom, hcontent, htype, hclient,
        Option.bind_eq_bind, Option.bind_some] <;> rfl

end

/-- Whatever the texts of an event are, the frame that carries it leads to its handler, with
    these texts in the fields that the handler reads and nothing in the others. -/
theorem events_understood (parse : String → Option UUID) (c : Client) (event : ClientEvent) :
    dispatch parse c (unmarshal event.stringify) = handler parse c event := by
  rw [unmarshal_stringify]
  cases event with
  | roomJoin roomID => rfl
  | roomLeave roomID => rfl
  | messageSend roomID content messageType clientID => rfl
  | typingStart roomID => rfl
  | typingStop roomID => rfl
  | messageRead messageID => rfl
  | presenceUpdate status => cases status <;> rfl

/-! ## Frames of the server -/

/-- What the server writes to a socket: the events of the connections and of the rooms, and
    those of the message handlers. -/
inductive Announcement
  | live (event : Event)
  | changed (event : MessageEvent)

section

variable (uuidText : UUID → String) (timeText : Time → String)

/-- `models.UserSummary`; `omitempty` leaves a `nil` pointer out. -/
def userJson (user : ConvoyChat.UserSummary) : Json String :=
  .object ([("id", .string (uuidText user.id)), ("username", .string user.username)] ++
    (user.avatarURL.map fun url => ("avatar_url", .string url)).toList)

/-- A `*string` without `omitempty`. -/
def pointerJson : Option String → Json String
  | none => .null
  | some s => .string s

/-- `messageNewPayload`; `omitempty` leaves an empty string out. -/
def payloadJson (m : MessageNewPayload) : Json String :=
  .object ([("id", .string (uuidText m.id)), ("room_id", .string (uuidText m.roomID)),
    ("user", userJson uuidText m.user), ("content", pointerJson m.content),
    ("created_at", .string (timeText m.createdAt)),
    ("read_by", .array (m.readBy.map fun id => .string (uuidText id)))] ++
    if m.clientID = "" then [] else [("client_id", .string m.clientID)])

/-- The structs of `events.go` and of the room handlers (`rooms.go` lines 173–176, 475–484 and
    565–582). -/
def eventJson : Event → Json String
  | .error code message =>
    .object [("type", .string "error"), ("code", .string code), ("message", .string message)]
  | .messageNew m =>
    .object [("type", .string "message.new"), ("message", payloadJson uuidText timeText m)]
  | .userTyping userID roomID isTyping =>
    .object [("type", .string "user.typing"), ("user_id", .string (uuidText userID)),
      ("room_id", .string (uuidText roomID)), ("is_typing", .bool isTyping)]
  | .userStatusChanged userID status lastSeenAt =>
    .object [("type", .string "user.status_changed"), ("user_id", .string (uuidText userID)),
      ("status", .string (statusText status)), ("last_seen_at", .string (timeText lastSeenAt))]
  | .messageReadBy messageID readByUserID =>
    .object [("type", .string "message.read_by"), ("message_id", .string (uuidText messageID)),
      ("read_by_user_id", .string (uuidText readByUserID))]
  | .room (.userJoined userID username roomID) =>
    .object [("type", .string "user.joined"),
      ("user", .object [("id", .string (uuidText userID)), ("username", .string username)]),
      ("room_id", .string (uuidText roomID))]
  | .room (.userLeft userID roomID) =>
    .object [("type", .string "user.left"), ("user_id", .string (uuidText userID)),
      ("room_id", .string (uuidText roomID))]
  | .room (.memberRoleChanged roomID userID role) =>
    .object [("type", .string "member.role_changed"), ("room_id", .string (uuidText roomID)),
      ("user_id", .string (uuidText userID)), ("role", .string (roleString role))]
  | .room (.roomInvited roomID) =>
    .object [("type", .string "room.invited"), ("room_id", .string (uuidText roomID))]

/-- The structs of `messages.go` (lines 261–266 and 291–297) and `reactions.go` (lines 39–45). -/
def messageEventJson : MessageEvent → Json String
  | .edited id roomID content editedAt =>
    .object [("type", .string "message.edited"), ("id", .string (uuidText id)),
      ("room_id", .string (uuidText roomID)), ("content", .string content),
      ("edited_at", .string (timeText editedAt))]
  | .deleted id roomID deletedAt =>
    .object [("type", .string "message.deleted"), ("id", .string (uuidText id)),
      ("room_id", .string (uuidText roomID)), ("deleted_at", .string (timeText deletedAt))]
  | .reaction messageID userID emoji action =>
    .object [("type", .string "message.reaction"), ("message_id", .string (uuidText messageID)),
      ("user_id", .string (uuidText userID)), ("emoji", .string emoji), ("action", .string action)]

def announcementJson : Announcement → Json String
  | .live event => eventJson uuidText timeText event
  | .changed event => messageEventJson uuidText timeText event

/-- `json.Marshal`. -/
def marshal (a : Announcement) : List Char :=
  (announcementJson uuidText timeText a).write appendString

end

/-! ## What the client reads -/

/-- `UserSummary` of `frontend/lib/types.ts`, as it comes from `JSON.parse`. -/
structure WsUser where
  id : List UInt16
  username : List UInt16
  avatarUrl : Option (List UInt16)
deriving DecidableEq

/-- `WsMessage` (`types.ts` lines 293–301); `content` is `none` for `null`. -/
structure WsMessage where
  id : List UInt16
  roomID : List UInt16
  user : WsUser
  content : Option (List UInt16)
  createdAt : List UInt16
  readBy : List (List UInt16)
  clientID : Option (List UInt16)
deriving DecidableEq

/-- `ServerEvent` (`types.ts` lines 313–347). -/
inductive ServerEvent
  | messageNew (message : WsMessage)
  | userJoined (userID username roomID : List UInt16)
  | userLeft (userID roomID : List UInt16)
  | userTyping (userID roomID : List UInt16) (isTyping : Bool)
  | userStatusChanged (userID status lastSeenAt : List UInt16)
  | messageReadBy (messageID readByUserID : List UInt16)
  | messageReaction (messageID userID emoji action : List UInt16)
  | messageEdited (id roomID content editedAt : List UInt16)
  | messageDeleted (id roomID deletedAt : List UInt16)
  | memberRoleChanged (roomID userID role : List UInt16)
  | roomInvited (roomID : List UInt16)
  | error (code message : List UInt16)
deriving DecidableEq

/-- A text as a JavaScript string. -/
def unitsText (text : String) : List UInt16 := encode text.toList

/-- A member that is a string. -/
def textAt (key : String) (v : Json (List UInt16)) : Option (List UInt16) :=
  (v.member (unitsText key)).bind Json.asString

/-- A member that is a truth value. -/
def boolAt (key : String) (v : Json (List UInt16)) : Option Bool :=
  (v.member (unitsText key)).bind Json.asBool

/-- A member that is a string or `null`. -/
def nullableAt (key : String) (v : Json (List UInt16)) : Option (Option (List UInt16)) :=
  match v.member (unitsText key) with
  | some .null => some none
  | some (.string s) => some (some s)
  | _ => none

def readUser (v : Json (List UInt16)) : Option WsUser := do
  return ⟨← textAt "id" v, ← textAt "username" v, textAt "avatar_url" v⟩

def readWsMessage (v : Json (List UInt16)) : Option WsMessage := do
  let user ← readUser (← v.member (unitsText "user"))
  let readBy ← (← (v.member (unitsText "read_by")).bind Json.asArray).mapM Json.asString
  return ⟨← textAt "id" v, ← textAt "room_id" v, user, ← nullableAt "content" v,
    ← textAt "created_at" v, readBy, textAt "client_id" v⟩

/-- The members that a variant of `ServerEvent` has besides its type. -/
def readVariant (type : List UInt16) (v : Json (List UInt16)) : Option ServerEvent :=
  if type = unitsText "message.new" then do
    return .messageNew (← readWsMessage (← v.member (unitsText "message")))
  else if type = unitsText "user.joined" then do
    let user ← v.member (unitsText "user")
    return .userJoined (← textAt "id" user) (← textAt "username" user) (← textAt "room_id" v)
  else if type = unitsText "user.left" then do
    return .userLeft (← textAt "user_id" v) (← textAt "room_id" v)
  else if type = unitsText "user.typing" then do
    return .userTyping (← textAt "user_id" v) (← textAt "room_id" v) (← boolAt "is_typing" v)
  else if type = unitsText "user.status_changed" then do
    return .userStatusChanged (← textAt "user_id" v) (← textAt "status" v)
      (← textAt "last_seen_at" v)
  else if type = unitsText "message.read_by" then do
    return .messageReadBy (← textAt "message_id" v) (← textAt "read_by_user_id" v)
  else if type = unitsText "message.reaction" then do
    return .messageReaction (← textAt "message_id" v) (← textAt "user_id" v) (← textAt "emoji" v)
      (← textAt "action" v)
  else if type = unitsText "message.edited" then do
    return .messageEdited (← textAt "id" v) (← textAt "room_id" v) (← textAt "content" v)
      (← textAt "edited_at" v)
  else if type = unitsText "message.deleted" then do
    return .messageDeleted (← textAt "id" v) (← textAt "room_id" v) (← textAt "deleted_at" v)
  else if type = unitsText "member.role_changed" then do
    return .memberRoleChanged (← textAt "room_id" v) (← textAt "user_id" v) (← textAt "role" v)
  else if type = unitsText "room.invited" then do
    return .roomInvited (← textAt "room_id" v)
  else if type = unitsText "error" then do
    return .error (← textAt "code" v) (← textAt "message" v)
  else none

/-- `onmessage` (`useWebSocket.tsx` lines 469–477): what `routeEvent` is given. -/
def onmessage (data : List Char) : Option ServerEvent := do
  let v ← Json.parse parseLiteral data
  readVariant (← textAt "type" v) v

section

variable (uuidText : UUID → String) (timeText : Time → String)

/-- A message as it was published. -/
def shownMessage (m : MessageNewPayload) : WsMessage where
  id := unitsText (uuidText m.id)
  roomID := unitsText (uuidText m.roomID)
  user := ⟨unitsText (uuidText m.user.id), unitsText m.user.username,
    m.user.avatarURL.map unitsText⟩
  content := m.content.map unitsText
  createdAt := unitsText (timeText m.createdAt)
  readBy := m.readBy.map fun id => unitsText (uuidText id)
  clientID := if m.clientID = "" then none else some (unitsText m.clientID)

/-- An event as it was published. -/
def shownEvent : Announcement → ServerEvent
  | .live (.error code message) => .error (unitsText code) (unitsText message)
  | .live (.messageNew m) => .messageNew (shownMessage uuidText timeText m)
  | .live (.userTyping userID roomID isTyping) =>
    .userTyping (unitsText (uuidText userID)) (unitsText (uuidText roomID)) isTyping
  | .live (.userStatusChanged userID status lastSeenAt) =>
    .userStatusChanged (unitsText (uuidText userID)) (unitsText (statusText status))
      (unitsText (timeText lastSeenAt))
  | .live (.messageReadBy messageID readByUserID) =>
    .messageReadBy (unitsText (uuidText messageID)) (unitsText (uuidText readByUserID))
  | .live (.room (.userJoined userID username roomID)) =>
    .userJoined (unitsText (uuidText userID)) (unitsText username) (unitsText (uuidText roomID))
  | .live (.room (.userLeft userID roomID)) =>
    .userLeft (unitsText (uuidText userID)) (unitsText (uuidText roomID))
  | .live (.room (.memberRoleChanged roomID userID role)) =>
    .memberRoleChanged (unitsText (uuidText roomID)) (unitsText (uuidText userID))
      (unitsText (roleString role))
  | .live (.room (.roomInvited roomID)) => .roomInvited (unitsText (uuidText roomID))
  | .changed (.edited id roomID content editedAt) =>
    .messageEdited (unitsText (uuidText id)) (unitsText (uuidText roomID)) (unitsText content)
      (unitsText (timeText editedAt))
  | .changed (.deleted id roomID deletedAt) =>
    .messageDeleted (unitsText (uuidText id)) (unitsText (uuidText roomID))
      (unitsText (timeText deletedAt))
  | .changed (.reaction messageID userID emoji action) =>
    .messageReaction (unitsText (uuidText messageID)) (unitsText (uuidText userID))
      (unitsText emoji) (unitsText action)

variable {uuidText : UUID → String} {timeText : Time → String}

theorem unitsText_injective : Function.Injective unitsText := by
  intro a b h
  have hchars := congrArg decode h
  rw [unitsText, unitsText, decode_encode, decode_encode] at hchars
  exact String.toList_injective hchars

@[simp] theorem unitsText_inj {a b : String} : unitsText a = unitsText b ↔ a = b :=
  unitsText_injective.eq_iff

@[simp] theorem member_units (key : String) (v : Json String) :
    (v.map unitsText).member (unitsText key) = (v.member key).map (Json.map unitsText) :=
  Json.member_map unitsText_injective key v

theorem textAt_units (key : String) (v : Json String) :
    textAt key (v.map unitsText) = ((v.member key).bind Json.asString).map unitsText := by
  rw [textAt, member_units]
  cases v.member key with
  | none => rfl
  | some w => cases w <;> rfl

theorem boolAt_units (key : String) (v : Json String) :
    boolAt key (v.map unitsText) = (v.member key).bind Json.asBool := by
  rw [boolAt, member_units]
  cases v.member key with
  | none => rfl
  | some w => cases w <;> rfl

theorem readUser_units (user : ConvoyChat.UserSummary) :
    readUser ((userJson uuidText user).map unitsText) =
      some ⟨unitsText (uuidText user.id), unitsText user.username,
        user.avatarURL.map unitsText⟩ := by
  obtain ⟨id, username, avatarURL⟩ := user
  cases avatarURL <;> simp [readUser, textAt_units, userJson, Json.member_object, Json.asString]

theorem nullableAt_pointer {key : String} {v : Json String} {s : Option String}
    (h : v.member key = some (pointerJson s)) :
    nullableAt key (v.map unitsText) = some (s.map unitsText) := by
  rw [nullableAt, member_units, h]
  cases s <;> rfl

theorem mapM_asString (ids : List UUID) :
    (Json.mapElements unitsText (ids.map fun id => .string (uuidText id))).mapM Json.asString =
      some (ids.map fun id => unitsText (uuidText id)) := by
  induction ids with
  | nil => rfl
  | cons id ids ih =>
    rw [List.map_cons, Json.mapElements, List.mapM_cons, ih]
    rfl

theorem readWsMessage_units (m : MessageNewPayload) :
    readWsMessage ((payloadJson uuidText timeText m).map unitsText) =
      some (shownMessage uuidText timeText m) := by
  have hid : (payloadJson uuidText timeText m).member "id" = some (.string (uuidText m.id)) := by
    unfold payloadJson
    split_ifs <;> rfl
  have hroom : (payloadJson uuidText timeText m).member "room_id" =
      some (.string (uuidText m.roomID)) := by
    unfold payloadJson
    split_ifs <;> rfl
  have huser : (payloadJson uuidText timeText m).member "user" =
      some (userJson uuidText m.user) := by
    unfold payloadJson
    split_ifs <;> rfl
  have hcontent : (payloadJson uuidText timeText m).member "content" =
      some (pointerJson m.content) := by
    unfold payloadJson
    split_ifs <;> rfl
  have hcreated : (payloadJson uuidText timeText m).member "created_at" =
      some (.string (timeText m.createdAt)) := by
    unfold payloadJson
    split_ifs <;> rfl
  have hread : (payloadJson uuidText timeText m).member "read_by" =
      some (.array (m.readBy.map fun id => .string (uuidText id))) := by
    unfold payloadJson
    split_ifs <;> rfl
  have hclient : (payloadJson uuidText timeText m).member "client_id" =
      if m.clientID = "" then none else some (.string m.clientID) := by
    unfold payloadJson
    split_ifs <;> rfl
  have hclientText : textAt "client_id" ((payloadJson uuidText timeText m).map unitsText) =
      if m.clientID = "" then none else some (unitsText m.clientID) := by
    rw [textAt_units, hclient]
    split_ifs <;> rfl
  rw [readWsMessage, nullableAt_pointer hcontent, hclientText]
  simp only [textAt_units, member_units, hid, hroom, huser, hcreated, hread, Option.map_some,
    Option.bind_eq_bind, Option.bind_some, Json.asString, readUser_units, Json.map, Json.asArray,
    mapM_asString]
  rfl

theorem soundElements_strings (ids : List UUID) :
    Json.SoundElements (ids.map fun id => Json.string (uuidText id)) := by
  induction ids with
  | nil => trivial
  | cons id ids ih => exact ⟨trivial, ih⟩

/-- There are no numbers in the events. -/
theorem sound_announcement (a : Announcement) : (announcementJson uuidText timeText a).Sound := by
  cases a with
  | live event =>
    cases event with
    | messageNew m =>
      have huser : (userJson uuidText m.user).Sound := by
        unfold userJson
        cases m.user.avatarURL <;> simp [Json.Sound, Json.SoundMembers]
      have hcontent : (pointerJson m.content).Sound := by
        cases m.content <;> trivial
      have hread := @soundElements_strings uuidText m.readBy
      simp only [announcementJson, eventJson, payloadJson]
      split_ifs <;> simp [Json.Sound, Json.SoundMembers, huser, hcontent, hread]
    | room event =>
      cases event <;> simp [announcementJson, eventJson, Json.Sound, Json.SoundMembers]
    | _ => simp [announcementJson, eventJson, Json.Sound, Json.SoundMembers]
  | changed event =>
    cases event <;> simp [announcementJson, messageEventJson, Json.Sound, Json.SoundMembers]

theorem onmessage_marshal (a : Announcement) :
    onmessage (marshal uuidText timeText a) =
      (textAt "type" ((announcementJson uuidText timeText a).map unitsText)).bind fun type =>
        readVariant type ((announcementJson uuidText timeText a).map unitsText) := by
  have hread := Json.parse_write quotes_appendString (@sound_announcement uuidText timeText a)
  rw [onmessage, marshal, hread]
  rfl

end

/-- Whatever the texts of an event are, `routeEvent` is given the event that was published, with
    every character of its texts. -/
theorem events_shown (uuidText : UUID → String) (timeText : Time → String) (a : Announcement) :
    onmessage (marshal uuidText timeText a) = some (shownEvent uuidText timeText a) := by
  rw [onmessage_marshal]
  cases a with
  | live event =>
    cases event with
    | messageNew m =>
      have hpayload := @readWsMessage_units uuidText timeText m
      simp [announcementJson, eventJson, textAt_units, Json.member_object,
        Json.asString, readVariant, shownEvent, hpayload]
    | room event =>
      cases event <;>
        simp [announcementJson, eventJson, textAt_units, Json.member_object,
          Json.asString, readVariant, shownEvent]
    | userTyping userID roomID isTyping =>
      simp [announcementJson, eventJson, textAt_units, boolAt_units, Json.member_object,
        Json.asString, Json.asBool, readVariant, shownEvent]
    | _ =>
      simp [announcementJson, eventJson, textAt_units, Json.member_object,
        Json.asString, readVariant, shownEvent]
  | changed event =>
    cases event <;>
      simp [announcementJson, messageEventJson, textAt_units, Json.member_object, Json.asString,
        readVariant, shownEvent]

/-! ## From one client to the others -/

/-- The sender is a member. -/
def Granted : (o : ConnOp) → o.Res → Prop
  | .call (.getMembership _ _), answer => ∃ member, answer = .ok member
  | _, _ => True

/-- The sender is a member and the store answers the insertion with `row`. -/
def Inserted (row : MessageWithAuthor) : (o : ConnOp) → o.Res → Prop
  | .call (.getMembership _ _), answer => ∃ member, answer = .ok member
  | .call (.insertMessage _ _ _ _), answer => answer = .ok row
  | _, _ => True

/-- An insertion into `messages`. -/
def Inserts : ConnOp → Prop
  | .call (.insertMessage _ _ _ _) => True
  | _ => False

/-- A publication to a room. -/
def Publishes : ConnOp → Prop
  | .call (.publish _ _) => True
  | _ => False

section

variable {parse : String → Option UUID} {c : Client} {roomID content : List UInt16}
  {messageType : Option MessageType} {clientID : Option (List UInt16)} {r : UUID}
  {row : MessageWithAuthor}

theorem sendableType_text (h : messageType ≠ some .system) :
    sendableType ((messageType.map messageTypeText).getD "") = some (messageType.getD .text) := by
  cases messageType with
  | none => rfl
  | some t =>
    cases t with
    | text => rfl
    | image => rfl
    | file => rfl
    | system => exact absurd rfl h

/-- `handleMessageSend` does not reject the text. -/
def Accepts (text : String) : Prop := text ≠ "" ∧ text.utf8ByteSize ≤ maxMessageContentLen

theorem guard_of_accepts {text : String} (h : Accepts text) :
    (decide (text = "") || decide (maxMessageContentLen < text.utf8ByteSize)) = false := by
  simp only [Bool.or_eq_false_iff, decide_eq_false_iff_not, not_lt]
  exact h

/-- An accepted text is inserted once. -/
theorem owes_insert (env : InboundEnvelope) {kind : MessageType} (hroom : parse env.roomID = some r)
    (hcontent : Accepts (trimSpace env.content))
      (htype : sendableType env.messageType = some kind) :
    (handleMessageSend parse c env).Owes Granted Inserts
      (.call (.insertMessage r c.userID (trimSpace env.content) kind)) := by
  simp only [handleMessageSend, hroom, htype, guard_of_accepts hcontent,
    Bool.false_eq_true, if_false]
  refine Proc.Owes.perform id fun answer hanswer => ?_
  obtain ⟨member, rfl⟩ := hanswer
  refine Proc.Owes.here fun answer => ?_
  cases answer with
  | error err => exact Proc.Never.perform id fun _ _ => Proc.Never.ret ()
  | ok message => exact Proc.Never.perform id fun _ _ => Proc.Never.ret ()

/-- What the store answers is published once. -/
theorem owes_publish (env : InboundEnvelope) {kind : MessageType}
    (hroom : parse env.roomID = some r)
    (hcontent : Accepts (trimSpace env.content))
      (htype : sendableType env.messageType = some kind) :
    (handleMessageSend parse c env).Owes (Inserted row) Publishes (.call (.publish r (.messageNew
      ⟨row.id, row.roomID, row.user, row.content, row.createdAt, [], env.clientID⟩))) := by
  simp only [handleMessageSend, hroom, htype, guard_of_accepts hcontent,
    Bool.false_eq_true, if_false]
  refine Proc.Owes.perform id fun answer hanswer => ?_
  obtain ⟨member, rfl⟩ := hanswer
  refine Proc.Owes.perform id fun answer hanswer => ?_
  obtain rfl : answer = .ok row := hanswer
  exact .inl ⟨rfl, fun _ => Proc.Never.ret ()⟩

theorem unitsText_textOf {units : List UInt16} (h : WellFormed units) :
    unitsText (textOf units) = units := by
  rw [unitsText, textOf, String.toList_ofList, encode_decode h]

theorem textOf_eq_empty {units : List UInt16} : textOf units = "" ↔ units = [] := by
  constructor
  · intro h
    by_contra hne
    have hchars := congrArg String.toList h
    rw [textOf, String.toList_ofList] at hchars
    exact decode_ne_nil hne hchars
  · rintro rfl
    rfl

/-- The nonce as the others see it. -/
theorem shown_nonce (h : ∀ id ∈ clientID, WellFormed id) :
    (if (clientID.map textOf).getD "" = "" then none
      else some (unitsText ((clientID.map textOf).getD ""))) = clientID.filter (· ≠ []) := by
  cases clientID with
  | none => rfl
  | some id =>
    rw [Option.map_some, Option.getD_some, unitsText_textOf (h id rfl)]
    by_cases hid : id = []
    · rw [if_pos (textOf_eq_empty.mpr hid)]
      simp [Option.filter, hid]
    · rw [if_neg fun heq => hid (textOf_eq_empty.mp heq)]
      simp [Option.filter, hid]

/-- A text that the server accepts is inserted once and published once, without the white space
    around it; and what the clients of the room are shown is, unit by unit, what was typed, with the
    nonce of the sender. -/
theorem content_arrives (uuidText : UUID → String) (timeText : Time → String)
    (hroom : parse (textOf roomID) = some r) (hfits : FitsBytes maxMessageContentLen content)
    (htype : messageType ≠ some .system) (hcontent : WellFormed content)
    (hnonce : ∀ id ∈ clientID, WellFormed id)
    (hrow : row.content = some (textOf (strip isSpaceUnit content))) :
    let p := dispatch parse c
      (unmarshal (ClientEvent.messageSend roomID content messageType clientID).stringify)
    p.Owes Granted Inserts (.call (.insertMessage r c.userID (textOf (strip isSpaceUnit content))
        (messageType.getD .text))) ∧
      ∃ m shown, p.Owes (Inserted row) Publishes (.call (.publish r (.messageNew m))) ∧
        onmessage (marshal uuidText timeText (.live (.messageNew m))) = some (.messageNew shown) ∧
        shown.content = some (strip isSpaceUnit content) ∧
        shown.clientID = clientID.filter (· ≠ []) := by
  have htrim : trimSpace (textOf content) = textOf (strip isSpaceUnit content) :=
    trimSpace_received content
  have haccepts : Accepts (trimSpace (textOf content)) := fitsBytes_iff.mp hfits
  have hstripped : WellFormed (strip isSpaceUnit content) :=
    hcontent.strip fun u hu => by
      simp only [isSpaceUnit, Bool.and_eq_true, Bool.not_eq_true', decide_eq_false_iff_not] at hu
      exact hu.1
  rw [events_understood]
  refine ⟨?_, ⟨row.id, row.roomID, row.user, row.content, row.createdAt, [],
    (clientID.map textOf).getD ""⟩,
    _, owes_publish (envelope (.messageSend roomID content messageType clientID)) hroom haccepts
      (sendableType_text htype), events_shown uuidText timeText _, ?_, ?_⟩
  · rw [← htrim]
    exact owes_insert (envelope (.messageSend roomID content messageType clientID)) hroom haccepts
      (sendableType_text htype)
  · show row.content.map unitsText = _
    rw [hrow, Option.map_some, unitsText_textOf hstripped]
  · exact shown_nonce hnonce

end

/-! A text with a quote, a tag and an emoji, which is a pair of surrogates, in blanks. -/

def taggedText : List UInt16 := [0x20, 0x22, 0x3C, 0x62, 0x3E, 0xD83D, 0xDE00, 0x0A]

def sampleRow : MessageWithAuthor :=
  ⟨7, 1, ⟨2, "ada", none⟩, some (textOf (strip isSpaceUnit taggedText)), .text, none, none, 0, 0⟩

theorem wellFormed_tagged : WellFormed taggedText := by
  intro u hu hmem
  simp [taggedText, codePoints, single, IsHigh, IsLow, IsSurrogate] at hmem

/-- The row is written at the first moment of year 0. -/
def firstMoment (_ : Time) : String := "0000-01-01T00:00:00Z"

theorem content_arrives_tagged :
    let p := dispatch parseId ⟨0, 2, "ada"⟩
      (unmarshal (ClientEvent.messageSend (asciiUnits idOne) taggedText none none).stringify)
    p.Owes Granted Inserts
        (.call (.insertMessage 1 2 (textOf (strip isSpaceUnit taggedText)) .text)) ∧
      ∃ m shown, p.Owes (Inserted sampleRow) Publishes (.call (.publish 1 (.messageNew m))) ∧
        onmessage (marshal spell firstMoment (.live (.messageNew m))) = some (.messageNew shown) ∧
        shown.content = some (strip isSpaceUnit taggedText) ∧
        shown.clientID = Option.filter (· ≠ []) none := by
  have htext : textOf (asciiUnits idOne) = idOne := by
    rw [textOf, (decode_asciiUnits (by decide)).2, String.ofList_toList]
  have hroom : parseId (textOf (asciiUnits idOne)) = some 1 := by
    rw [htext]
    decide
  have hlength : utf8Length (strip isSpaceUnit taggedText) ≤ maxMessageContentLen := by
    decide +kernel
  have hfits : FitsBytes maxMessageContentLen taggedText := ⟨⟨0x22, by decide, by decide⟩, hlength⟩
  have hrow : sampleRow.content = some (textOf (strip isSpaceUnit taggedText)) := by
    unfold sampleRow
    rfl
  have h := @content_arrives parseId ⟨0, 2, "ada"⟩ (asciiUnits idOne) taggedText none none 1
    sampleRow spell firstMoment hroom hfits (by decide) wellFormed_tagged nofun hrow
  exact h

end ConvoyChat.System
