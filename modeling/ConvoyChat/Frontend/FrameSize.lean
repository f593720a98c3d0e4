import ConvoyChat.Frontend.Validation

/-!
# The size of a frame

The events of the client (`frontend/lib/types.ts` lines 269–286) as `send`
(`frontend/hooks/useWebSocket.tsx` lines 103–110) writes them, against `maxMessageSize` of
`internal/websocket/client.go`.

* `size_le`: a bound on the bytes of every event.
* `messageSend_read`: a content that the client accepts fits in a frame.
-/

namespace ConvoyChat.Frontend

open ConvoyChat.Lib ConvoyChat.Lib.JsonString ConvoyChat.Websocket

/-- `ClientEvent`. -/
inductive ClientEvent
  | roomJoin (roomID : List UInt16)
  | roomLeave (roomID : List UInt16)
  | messageSend (roomID content : List UInt16) (messageType : Option MessageType)
      (clientID : Option (List UInt16))
  | typingStart (roomID : List UInt16)
  | typingStop (roomID : List UInt16)
  | messageRead (messageID : List UInt16)
  | presenceUpdate (status : PresenceStatus)

/-- The text of a `MessageType`. -/
def messageTypeText : MessageType → String
  | .text => "text"
  | .image => "image"
  | .file => "file"
  | .system => "system"

/-- The text of a `PresenceStatus`. -/
def statusText : PresenceStatus → String
  | .online => "online"
  | .away => "away"
  | .offline => "offline"

namespace ClientEvent

/-- The members in the order of the object literals; an absent one is left out. -/
def members : ClientEvent → List (String × List UInt16)
  | .roomJoin roomID => [("type", asciiUnits "room.join"), ("room_id", roomID)]
  | .roomLeave roomID => [("type", asciiUnits "room.leave"), ("room_id", roomID)]
  | .messageSend roomID content messageType clientID =>
    [("type", asciiUnits "message.send"), ("room_id", roomID), ("content", content)] ++
      (messageType.map fun t => ("message_type", asciiUnits (messageTypeText t))).toList ++
      (clientID.map fun id => ("client_id", id)).toList
  | .typingStart roomID => [("type", asciiUnits "typing.start"), ("room_id", roomID)]
  | .typingStop roomID => [("type", asciiUnits "typing.stop"), ("room_id", roomID)]
  | .messageRead messageID => [("type", asciiUnits "message.read"), ("message_id", messageID)]
  | .presenceUpdate status =>
    [("type", asciiUnits "presence.update"), ("status", asciiUnits (statusText status))]

/-- `JSON.stringify(event)`. -/
def stringify (event : ClientEvent) : List Char := writeObject event.members

/-- The bytes of the frame. -/
def size (event : ClientEvent) : ℕ := String.utf8Len event.stringify

/-- The ids are UUIDs, of 36 characters, and the content is one the client accepts. -/
def Valid : ClientEvent → Prop
  | .roomJoin id | .roomLeave id | .typingStart id | .typingStop id | .messageRead id =>
    id.length = 36
  | .messageSend roomID content _ clientID =>
    roomID.length = 36 ∧ validateMessageContent content = none ∧ ∀ id ∈ clientID, id.length = 36
  | .presenceUpdate _ => True

end ClientEvent

/-- `maxMessageSize` (`client.go` line 24). -/
def maxMessageSize : ℕ := 64 * 1024

/-- What `readPump` relies on in the connection's `SetReadLimit` and `ReadMessage`: a message that
    is not longer than the limit is returned. -/
def ReadsWithin (readMessage : ℕ → List Char → Option (List Char)) : Prop :=
  ∀ limit frame, String.utf8Len frame ≤ limit → readMessage limit frame = some frame

section

variable {event : ClientEvent} {content : List UInt16}

theorem length_of_validated (h : validateMessageContent content = none) :
    content ≠ [] ∧ content.length ≤ maxMessageContentLen := by
  unfold validateMessageContent at h
  split_ifs at h with hlength
  simpa using hlength

/-- The keys are short, and so are the values that are not an id or a content. -/
theorem memberBound_le {key : String} {value : List UInt16} {n : ℕ} (hkey : key.length ≤ 12)
    (hvalue : value.length ≤ n) : memberBound (key, value) ≤ 6 * n + 78 := by
  show 6 * (key.length + value.length) + 6 ≤ _
  omega

/-- A fixed text, such as a type. -/
theorem memberBound_text {key text : String} (hkey : key.length ≤ 12) (htext : text.length ≤ 15) :
    memberBound (key, asciiUnits text) ≤ 168 := by
  have hbound := memberBound_le hkey ((length_asciiUnits text).trans_le htext)
  omega

theorem memberBound_id {key : String} {id : List UInt16} (hkey : key.length ≤ 12)
    (hid : id.length = 36) :
    memberBound (key, id) ≤ 294 := by
  have hbound := memberBound_le hkey hid.le
  omega

/-- No valid event is larger than the largest content, escaped unit by unit, and a kilobyte. -/
theorem size_le (h : event.Valid) : event.size ≤ 6 * maxMessageContentLen + 1024 := by
  have hle := utf8Len_writeObject_le event.members
  refine le_trans hle ?_
  cases event with
  | roomJoin id | roomLeave id | typingStart id | typingStop id | messageRead id =>
    simp only [ClientEvent.members, List.map_cons, List.map_nil, List.sum_cons, List.sum_nil]
    refine le_trans (Nat.add_le_add_right (Nat.add_le_add (memberBound_text ?_ ?_)
      (Nat.add_le_add_right (memberBound_id ?_ h) 0)) 2) ?_ <;> decide
  | presenceUpdate status =>
    cases status <;> decide
  | messageSend roomID content messageType clientID =>
    obtain ⟨hroom, hcontent, hclient⟩ := h
    have htype : memberBound ("type", asciiUnits "message.send") ≤ 168 :=
      memberBound_text (by decide) (by decide)
    have hroomID : memberBound ("room_id", roomID) ≤ 294 := memberBound_id (by decide) hroom
    have hcontents : memberBound ("content", content) ≤ 6 * maxMessageContentLen + 78 :=
      memberBound_le (by decide) (length_of_validated hcontent).2
    have hmessageType :
      ((messageType.map fun t => ("message_type", asciiUnits (messageTypeText t))).toList.map
        memberBound).sum ≤ 168 := by
      cases messageType with
      | none => simp
      | some t => cases t <;> decide
    have hclientID :
        ((clientID.map fun id => ("client_id", id)).toList.map memberBound).sum ≤ 294 := by
      cases clientID with
      | none => simp
      | some id =>
        simp only [Option.map_some, Option.toList_some, List.map_cons, List.map_nil, List.sum_cons,
          List.sum_nil, Nat.add_zero]
        exact memberBound_id (by decide) (hclient id rfl)
    simp only [ClientEvent.members, List.map_append, List.sum_append, List.map_cons, List.map_nil,
      List.sum_cons, List.sum_nil]
    omega

/-- A content that the client accepts fits in a frame, which the server reads. -/
theorem messageSend_read (readMessage : ℕ → List Char → Option (List Char))
    (hread : ReadsWithin readMessage) (roomID content clientID : List UInt16)
    (hroom : roomID.length = 36) (hcontent : validateMessageContent content = none)
    (hclient : clientID.length = 36) :
    let event := ClientEvent.messageSend roomID content none (some clientID)
    event.size < maxMessageSize ∧
      readMessage maxMessageSize event.stringify = some event.stringify := by
  intro event
  have hle : event.size ≤ 6 * maxMessageContentLen + 1024 := by
    refine size_le ⟨hroom, hcontent, ?_⟩
    simpa using hclient
  have hlt : event.size < maxMessageSize := lt_of_le_of_lt hle (by decide)
  exact ⟨hlt, hread _ _ hlt.le⟩

end

def sampleUuid : List UInt16 := asciiUnits "3f2504e0-4f89-41d3-9a0c-0305e82c3301"

/-- The longest content, each unit of which is escaped. -/
def loneSurrogates : List UInt16 := List.replicate 10000 0xd800

/-- A longer message closes the connection. -/
def limitedRead (limit : ℕ) (frame : List Char) : Option (List Char) :=
  if limit < String.utf8Len frame then none else some frame

theorem messageSend_read_surrogates :
    (ClientEvent.messageSend sampleUuid loneSurrogates none (some sampleUuid)).size <
      maxMessageSize := by
  have hlength : loneSurrogates.length = maxMessageContentLen := List.length_replicate
  have hne : loneSurrogates ≠ [] := List.ne_nil_of_length_pos (by rw [hlength]; decide)
  have hcontent : validateMessageContent loneSurrogates = none := by
    rw [validateMessageContent, hlength]
    simp [hne]
  exact (messageSend_read limitedRead (fun _ _ h => if_neg (not_lt.mpr h)) sampleUuid loneSurrogates
    sampleUuid (by decide) hcontent (by decide)).1

end ConvoyChat.Frontend
