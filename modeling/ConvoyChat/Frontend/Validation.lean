import ConvoyChat.Handlers.Validators
import ConvoyChat.Lib.JsonString

/-!
# Validation before submit

Models of `validateUsername`, `validatePassword`, `validateRoomName` and
`validateMessageContent` (`frontend/lib/validation.ts`), which say that they mirror the
handlers. A JavaScript string is a list of UTF-16 code units; what is submitted is written by
`JSON.stringify` and read by `encoding/json`.

The server counts bytes where the client counts code units, and takes off its own white space.

* `trimSpace_received`: what the handlers see of a text, on its code units.
* `mirrored_iff`: when the handler accepts what the client does.
-/

namespace ConvoyChat.Frontend

open ConvoyChat.Lib ConvoyChat.Lib.Utf16 ConvoyChat.Handlers ConvoyChat.Websocket

/-! ## The client's checks -/

/-- A range of a character class. -/
def inRange (a b : Char) (u : UInt16) : Bool := a.toNat ≤ u.toNat && u.toNat ≤ b.toNat

/-- The class of `USERNAME_PATTERN` (line 8). -/
def isUsernameUnit (u : UInt16) : Bool :=
  inRange 'a' 'z' u || inRange 'A' 'Z' u || inRange '0' '9' u || inRange '_' '_' u ||
    inRange '-' '-' u

/-- Model of `validateUsername` (lines 16–21); `none` is `null`. -/
def validateUsername (username : List UInt16) : Option String :=
  if 3 ≤ username.length && username.length ≤ 32 && username.all isUsernameUnit then none
  else
    some "Username must be 3-32 characters and contain only letters, numbers, underscores, or hyphens"

/-- Model of `validatePassword` (lines 40–54). -/
def validatePassword (password : List UInt16) : Option String :=
  let byteLength := utf8Length password
  if byteLength < minPasswordLen || maxPasswordLen < byteLength then
    some "Password must be between 8 and 72 characters"
  else if !password.any (inRange 'A' 'Z') || !password.any (inRange 'a' 'z') ||
      !password.any (inRange '0' '9') then
    some "Password must contain an uppercase letter, a lowercase letter, and a digit"
  else none

/-- Model of `validateRoomName` (lines 56–61). -/
def validateRoomName (name : List UInt16) : Option String :=
  if name = [] || maxRoomNameLen < name.length then
    some "Name is required and must be 1-255 characters"
  else none

/-- Model of `validateMessageContent` (lines 69–74). -/
def validateMessageContent (content : List UInt16) : Option String :=
  if content = [] || maxMessageContentLen < content.length then
    some "Message must be 1-10000 characters"
  else none

/-- The white space and line terminators of `String.prototype.trim`. -/
def isTrimmed (u : UInt16) : Bool :=
  u ∈ [0x0009, 0x000a, 0x000b, 0x000c, 0x000d, 0x0020, 0x00a0, 0x1680, 0x2028, 0x2029, 0x202f,
    0x205f, 0x3000, 0xfeff] || (0x2000 ≤ u.toNat && u.toNat ≤ 0x200a)

/-- `String.prototype.trim`. -/
def trim (units : List UInt16) : List UInt16 := strip isTrimmed units

/-! ## The fields -/

/-- What a form lets the user type and checks before it is submitted. -/
inductive Field
  | username
  | password
  | roomName
  | messageContent
deriving DecidableEq, Repr

namespace Field

/-- The check of the client. -/
def validate : Field → List UInt16 → Option String
  | .username => validateUsername
  | .password => validatePassword
  | .roomName => validateRoomName
  | .messageContent => validateMessageContent

/-- What is checked and submitted: only the composer and the editor of a message trim. -/
def submitted : Field → List UInt16 → List UInt16
  | .messageContent, units => trim units
  | _, units => units

/-- The check of the handler, behind its `strings.TrimSpace`. -/
def handle (classes : UnicodeClasses) : Field → String → Except String Unit
  | .username, value => Handlers.validateUsername (trimSpace value)
  | .password, value => Handlers.validatePassword classes value
  | .roomName, value => Handlers.validateRoomName (trimSpace value)
  | .messageContent, value => Handlers.validateMessageContent (trimSpace value)

end Field

/-- What the server decodes of a submitted string. -/
def received (units : List UInt16) : Option String :=
  (JsonString.unquote (JsonString.quote units)).map String.ofList

/-- The handler accepts what is submitted. -/
def Mirrored (classes : UnicodeClasses) (field : Field) (units : List UInt16) : Prop :=
  ∃ value, received units = some value ∧ field.handle classes value = .ok ()

/-- A unit that `strings.TrimSpace` takes off. -/
def isSpaceUnit (u : UInt16) : Bool := !decide (IsSurrogate u) && isSpace (Char.ofNat u.toNat)

/-- Not all of it is the server's white space, and what is left takes at most `bound` bytes. -/
def FitsBytes (bound : ℕ) (units : List UInt16) : Prop :=
  (∃ u ∈ units, isSpaceUnit u = false) ∧ utf8Length (strip isSpaceUnit units) ≤ bound

/-- When the server accepts what the client accepted. -/
def Field.Fits : Field → List UInt16 → Prop
  | .username, _ => True
  | .password, _ => True
  | .roomName, units => FitsBytes maxRoomNameLen units
  | .messageContent, units => FitsBytes maxMessageContentLen units

section

variable {classes : UnicodeClasses} {units : List UInt16} {u : UInt16} {bound : ℕ}

/-! ## What the server sees -/

theorem spaceOf_isSpaceUnit : SpaceOf isSpaceUnit isSpace where
  surrogate u hu := by simp [isSpaceUnit, hu]
  other u hu := by simp [isSpaceUnit, hu]
  large c hc := by
    by_contra hspace
    have hsmall := toNat_of_isSpace (Bool.eq_true_of_not_eq_false hspace)
    omega

theorem received_eq (units : List UInt16) :
    received units = some (String.ofList (decode units)) := by
  rw [received, JsonString.unquote_quote]
  rfl

theorem mirrored_iff_decode {field : Field} : Mirrored classes field units ↔
    field.handle classes (String.ofList (decode units)) = .ok () := by
  simp [Mirrored, received_eq]

theorem trimSpace_received (units : List UInt16) :
    trimSpace (String.ofList (decode units)) =
      String.ofList (decode (strip isSpaceUnit units)) := by
  rw [← String.toList_inj, toList_trimSpace, String.toList_ofList, String.toList_ofList,
    decode_strip spaceOf_isSpaceUnit]

/-- A text that is not empty and not too long, for the two validators that ask for that. -/
theorem fitsBytes_iff : FitsBytes bound units ↔
    trimSpace (String.ofList (decode units)) ≠ "" ∧
      (trimSpace (String.ofList (decode units))).utf8ByteSize ≤ bound := by
  rw [trimSpace_received, String.utf8ByteSize_ofList, utf8Len_decode]
  refine and_congr_left fun _ => ?_
  rw [← strip_ne_nil_iff, Ne, Ne, not_iff_not]
  constructor
  · intro hnil
    rw [hnil]
    rfl
  · intro hempty
    by_contra hne
    refine decode_ne_nil hne ?_
    rw [← String.toList_ofList (l := decode _), hempty]
    rfl

theorem handleRoomName_iff : Field.roomName.handle classes (String.ofList (decode units)) = .ok () ↔
    FitsBytes maxRoomNameLen units := by
  rw [fitsBytes_iff]
  exact validateRoomName_ok_iff

theorem handleContent_iff :
    Field.messageContent.handle classes (String.ofList (decode units)) = .ok () ↔
      FitsBytes maxMessageContentLen units := by
  rw [fitsBytes_iff]
  exact validateMessageContent_ok_iff

/-! ## ASCII -/

theorem toNat_of_inRange {a b : Char} (h : inRange a b u = true) :
    a.toNat ≤ u.toNat ∧ u.toNat ≤ b.toNat := by
  simpa [inRange] using h

theorem not_surrogate_of_ascii (h : u.toNat < 0x80) : ¬ IsSurrogate u := by
  unfold IsSurrogate
  omega

/-- A unit of a range in ASCII, and its character. -/
theorem ascii_of_inRange {a b : Char} (hb : b.toNat < 0x80) (h : inRange a b u = true) :
    u.toNat < 0x80 ∧ (Char.ofNat u.toNat).toNat < 0x80 := by
  have hu : u.toNat < 0x80 := lt_of_le_of_lt (toNat_of_inRange h).2 hb
  rw [toNat_single (not_surrogate_of_ascii hu)]
  exact ⟨hu, hu⟩

theorem toNat_of_usernameUnit (h : isUsernameUnit u = true) : u.toNat < 0x80 := by
  simp only [isUsernameUnit, Bool.or_eq_true] at h
  rcases h with (((h | h) | h) | h) | h
  all_goals exact (ascii_of_inRange (by decide) h).1

theorem isUsernameChar_of_unit (h : isUsernameUnit u = true) :
    isUsernameChar (Char.ofNat u.toNat) = true := by
  have hall : ∀ n : Fin 128, isUsernameUnit (UInt16.ofNat n) = true →
      isUsernameChar (Char.ofNat n) = true := by
    decide
  refine hall ⟨u.toNat, toNat_of_usernameUnit h⟩ ?_
  rw [UInt16.ofNat_toNat]
  exact h

theorem handleUsername (h : validateUsername units = none) :
    Field.username.handle classes (String.ofList (decode units)) = .ok () := by
  have haccepted : 3 ≤ units.length ∧ units.length ≤ 32 ∧ ∀ u ∈ units, isUsernameUnit u = true := by
    unfold validateUsername at h
    split_ifs at h with hall
    simpa [and_assoc] using hall
  obtain ⟨hshort, hlong, hunits⟩ := haccepted
  have hdecode : decode units = units.map fun u => Char.ofNat u.toNat :=
    decode_eq_map fun u hu => not_surrogate_of_ascii (toNat_of_usernameUnit (hunits u hu))
  have hchars : ∀ c ∈ (String.ofList (decode units)).toList, isUsernameChar c = true := by
    intro c hc
    rw [String.toList_ofList, hdecode] at hc
    obtain ⟨u, hu, rfl⟩ := List.mem_map.mp hc
    exact isUsernameChar_of_unit (hunits u hu)
  show Handlers.validateUsername (trimSpace _) = _
  rw [trimSpace_eq_self fun c hc => isSpace_of_username (hchars c hc), validateUsername_ok_iff]
  refine ⟨?_, ?_, hchars⟩
  · rw [String.length_ofList, hdecode, List.length_map]
    exact hshort
  · rw [String.length_ofList, hdecode, List.length_map]
    exact hlong

/-- The classes of the server on the ranges of the client. -/
theorem classes_of_inRange (classes : UnicodeClasses) :
    (∀ u, inRange 'A' 'Z' u = true → classes.isUpper (Char.ofNat u.toNat) = true) ∧
    (∀ u, inRange 'a' 'z' u = true → classes.isUpper (Char.ofNat u.toNat) = false ∧
      classes.isLower (Char.ofNat u.toNat) = true) ∧
    ∀ u, inRange '0' '9' u = true → classes.isUpper (Char.ofNat u.toNat) = false ∧
      classes.isLower (Char.ofNat u.toNat) = false ∧
      classes.isDigit (Char.ofNat u.toNat) = true := by
  have hall : ∀ n : Fin 128,
      (inRange 'A' 'Z' (UInt16.ofNat n) = true → (Char.ofNat n).isUpper = true) ∧
      (inRange 'a' 'z' (UInt16.ofNat n) = true → (Char.ofNat n).isUpper = false ∧
        (Char.ofNat n).isLower = true) ∧
      (inRange '0' '9' (UInt16.ofNat n) = true → (Char.ofNat n).isUpper = false ∧
        (Char.ofNat n).isLower = false ∧ (Char.ofNat n).isDigit = true) := by
    decide
  have hunit : ∀ {a b : Char} {u : UInt16}, b.toNat < 0x80 → inRange a b u = true →
      ∃ n : Fin 128, UInt16.ofNat n = u ∧ Char.ofNat n = Char.ofNat u.toNat := by
    intro a b u hb h
    exact ⟨⟨u.toNat, (ascii_of_inRange hb h).1⟩, UInt16.ofNat_toNat, rfl⟩
  refine ⟨fun u h => ?_, fun u h => ?_, fun u h => ?_⟩
  · obtain ⟨n, rfl, hc⟩ := hunit (by decide) h
    rw [classes.upper_ascii _ (ascii_of_inRange (by decide) h).2, ← hc]
    exact (hall n).1 h
  · obtain ⟨n, rfl, hc⟩ := hunit (by decide) h
    have hsmall := (ascii_of_inRange (by decide) h).2
    rw [classes.upper_ascii _ hsmall, classes.lower_ascii _ hsmall, ← hc]
    exact (hall n).2.1 h
  · obtain ⟨n, rfl, hc⟩ := hunit (by decide) h
    have hsmall := (ascii_of_inRange (by decide) h).2
    rw [classes.upper_ascii _ hsmall, classes.lower_ascii _ hsmall,
      classes.digit_ascii _ hsmall, ← hc]
    exact (hall n).2.2 h

theorem handlePassword (h : validatePassword units = none) :
    Field.password.handle classes (String.ofList (decode units)) = .ok () := by
  obtain ⟨hupper, hlower, hdigit⟩ := classes_of_inRange classes
  show Handlers.validatePassword classes _ = _
  rw [validatePassword_ok_iff, String.utf8ByteSize_ofList, utf8Len_decode, String.toList_ofList]
  unfold validatePassword at h
  simp only at h
  split_ifs at h with hlength hclasses
  simp only [Bool.or_eq_true, decide_eq_true_eq, not_or, not_lt] at hlength
  simp only [Bool.or_eq_true, Bool.not_eq_true', not_or, Bool.not_eq_false,
    List.any_eq_true] at hclasses
  obtain ⟨⟨⟨u, hu, hupper'⟩, ⟨l, hl, hlower'⟩⟩, ⟨d, hd, hdigit'⟩⟩ := hclasses
  have hmem : ∀ {a b : Char} {u}, b.toNat < 0x80 → inRange a b u = true → u ∈ units →
      Char.ofNat u.toNat ∈ decode units := by
    intro a b u hb hrange hu
    exact mem_decode hu (not_surrogate_of_ascii (ascii_of_inRange hb hrange).1)
  exact ⟨hlength, ⟨_, hmem (by decide) hupper' hu, hupper u hupper'⟩,
    ⟨_, hmem (by decide) hlower' hl, hlower l hlower'⟩, _, hmem (by decide) hdigit' hd,
      hdigit d hdigit'⟩

/-- Of what the client accepts, the handler accepts exactly the texts that fit. -/
theorem mirrored_iff (classes : UnicodeClasses) (field : Field) (raw : List UInt16)
    (h : field.validate (field.submitted raw) = none) :
    Mirrored classes field (field.submitted raw) ↔ field.Fits (field.submitted raw) := by
  rw [mirrored_iff_decode]
  cases field with
  | username => exact iff_of_true (handleUsername h) trivial
  | password => exact iff_of_true (handlePassword h) trivial
  | roomName => exact handleRoomName_iff
  | messageContent => exact handleContent_iff

end

/-- The classes on ASCII. -/
def asciiClasses : UnicodeClasses where
  isUpper := Char.isUpper
  isLower := Char.isLower
  isDigit := Char.isDigit
  upper_ascii _ _ := rfl
  lower_ascii _ _ := rfl
  digit_ascii _ _ := rfl

/-- `" Café"`, as a room name. -/
def spacedName : List UInt16 := [0x20, 0x43, 0x61, 0x66, 0xe9]

/-- 128 times `"é"`: 256 bytes. -/
def accentedName : List UInt16 := List.replicate 128 0xe9

theorem mirrored_iff_spaced : Field.roomName.validate spacedName = none ∧
    Field.roomName.Fits spacedName ∧ Mirrored asciiClasses .roomName spacedName := by
  have hfits : Field.roomName.Fits spacedName := by
    show FitsBytes maxRoomNameLen spacedName
    unfold FitsBytes
    decide +kernel
  exact ⟨by decide, hfits, (mirrored_iff asciiClasses .roomName spacedName (by decide)).mpr hfits⟩

/-- The client takes this name and the server does not. -/
theorem accentedName_not_mirrored :
    Field.roomName.validate (Field.roomName.submitted accentedName) = none ∧
      ∀ classes, ¬ Mirrored classes .roomName (Field.roomName.submitted accentedName) := by
  refine ⟨by decide +kernel, fun classes hmirrored => ?_⟩
  have hfits := handleRoomName_iff.mp (mirrored_iff_decode.mp hmirrored)
  have hlong : maxRoomNameLen < utf8Length (strip isSpaceUnit accentedName) := by
    decide +kernel
  exact absurd hfits.2 (not_le.mpr hlong)

end ConvoyChat.Frontend
