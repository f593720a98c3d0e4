/-!
# Shared data types

Identifiers, timestamps and store errors of `internal/models` and
`internal/store/errors.go`. A `uuid.UUID` is a 128-bit number; only equality and
(in `ORDER BY … id`) its numeric order are used, so it is a natural number here.
Timestamps are counted in microseconds, the precision of `TIMESTAMPTZ`.
-/

namespace ConvoyChat

abbrev UUID := Nat

abbrev Time := Nat

/-- `models.RoomType`. -/
inductive RoomType
  | direct
  | group
  | channel
deriving DecidableEq, Repr

/-- `models.MemberRole`. -/
inductive MemberRole
  | admin
  | member
  | guest
deriving DecidableEq, Repr

/-- `models.PresenceStatus`. -/
inductive PresenceStatus
  | online
  | away
  | offline
deriving DecidableEq, Repr

/-- `models.MessageType`. -/
inductive MessageType
  | text
  | image
  | file
  | system
deriving DecidableEq, Repr

/-- `models.UserSummary`. -/
structure UserSummary where
  id : UUID
  username : String
  avatarURL : Option String
deriving DecidableEq, Repr

/-- `models.Message`. -/
structure Message where
  id : UUID
  roomID : UUID
  userID : UUID
  content : String
  messageType : MessageType
  editedAt : Option Time
  deletedAt : Option Time
  createdAt : Time
  updatedAt : Time
deriving DecidableEq, Repr

/-- `models.MessageWithAuthor`, without the lists that only the history fills. -/
structure MessageWithAuthor where
  id : UUID
  roomID : UUID
  user : UserSummary
  content : Option String
  messageType : MessageType
  editedAt : Option Time
  deletedAt : Option Time
  createdAt : Time
  updatedAt : Time
deriving DecidableEq, Repr

/-- The error values of `internal/store/errors.go` that the modelled functions
    return; `internal` stands for every other error (a wrapped driver error, a
    constraint violation, a cancelled context). -/
inductive StoreErr
  | notFound
  | alreadyMember
  | refreshTokenReused
  | tokenExpired
  | lastAdmin
  | internal
deriving DecidableEq, Repr

/-! ## Ids as texts

Canonical texts of small ids, for the runs on fixed inputs. -/

/-- What comes before the last digit of the text of an id below 10. -/
def spelledZeros : List Char := "00000000-0000-0000-0000-00000000000".toList

/-- The text of such an id. -/
def spell (id : UUID) : String := String.ofList (spelledZeros ++ Nat.toDigits 10 id)

/-- Reads such a text. -/
def unspell (text : String) : Option UUID :=
  let digits := text.toList.drop 35
  if spelledZeros.isPrefixOf text.toList && !digits.isEmpty && digits.all Char.isDigit then
    some (Nat.ofDigitChars 10 digits 0)
  else none

theorem unspell_spell (id : UUID) : unspell (spell id) = some id := by
  have hdigits : (Nat.toDigits 10 id).all Char.isDigit = true :=
    List.all_eq_true.mpr fun _ hc => Nat.isDigit_of_mem_toDigits (by decide) (by decide) hc
  have hdrop : (spelledZeros ++ Nat.toDigits 10 id).drop 35 = Nat.toDigits 10 id :=
    List.drop_left' (by decide)
  have hprefix : spelledZeros.isPrefixOf (spelledZeros ++ Nat.toDigits 10 id) = true :=
    List.isPrefixOf_iff_prefix.mpr (List.prefix_append ..)
  have hsome : (Nat.toDigits 10 id).isEmpty = false := by
    rw [List.isEmpty_eq_false_iff]
    exact Nat.toDigits_ne_nil
  simp [unspell, spell, hdrop, hprefix, hdigits, hsome]

def idOne : String := "00000000-0000-0000-0000-000000000001"

def idTwo : String := "00000000-0000-0000-0000-000000000002"

def idFive : String := "00000000-0000-0000-0000-000000000005"

/-- Reads these three. -/
def parseId (text : String) : Option UUID :=
  if text = idFive then some 5 else if text = idOne then some 1
  else if text = idTwo then some 2 else none

end ConvoyChat
