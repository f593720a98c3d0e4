import ConvoyChat.Handlers.MessageChanges
import Mathlib.Data.String.Basic
import Mathlib.Data.List.DropRight

/-!
# The checks on texts

Models of `validateUsername` (`internal/handlers/auth.go`) and of `ValidatePassword`
(`internal/auth/password.go`); what they and the other checks of the handlers accept, and
lemmas on `strings.TrimSpace`.

* `validateUsername_ok_iff`, `validatePassword_ok_iff`: the two of a signup.
* `bounded_ok_iff`: the three checks that only bound the length in bytes.
* `toList_trimSpace`: trimming on the list of characters.
-/

namespace ConvoyChat.Handlers

open ConvoyChat.Websocket

/-! ## Username -/

/-- The class of `usernamePattern`. -/
def isUsernameChar (c : Char) : Bool :=
  ('a' ≤ c && c ≤ 'z') || ('A' ≤ c && c ≤ 'Z') || ('0' ≤ c && c ≤ '9') || c = '_' || c = '-'

/-- Model of `validateUsername` (lines 37–43), the pattern being `^[a-zA-Z0-9_-]{3,32}$`. -/
def validateUsername (username : String) : Except String Unit :=
  if 3 ≤ username.length && username.length ≤ 32 && username.toList.all isUsernameChar then .ok ()
  else
    .error "username must be 3-32 characters and contain only letters, numbers, underscores, or hyphens"

/-! ## Password -/

def minPasswordLen : ℕ := 8

def maxPasswordLen : ℕ := 72

/-- `unicode.IsUpper`, `unicode.IsLower` and `unicode.IsDigit`. -/
structure UnicodeClasses where
  isUpper : Char → Bool
  isLower : Char → Bool
  isDigit : Char → Bool
  upper_ascii : ∀ c : Char, c.toNat < 0x80 → isUpper c = c.isUpper
  lower_ascii : ∀ c : Char, c.toNat < 0x80 → isLower c = c.isLower
  digit_ascii : ∀ c : Char, c.toNat < 0x80 → isDigit c = c.isDigit

/-- `hasUpper`, `hasLower` and `hasDigit`. -/
structure PasswordFlags where
  hasUpper : Bool := false
  hasLower : Bool := false
  hasDigit : Bool := false
deriving DecidableEq, Repr

/-- The `switch` of the loop (lines 26–34). -/
def PasswordFlags.see (classes : UnicodeClasses) (flags : PasswordFlags) (r : Char) :
    PasswordFlags :=
  if classes.isUpper r then { flags with hasUpper := true }
  else if classes.isLower r then { flags with hasLower := true }
  else if classes.isDigit r then { flags with hasDigit := true }
  else flags

/-- Model of `ValidatePassword` (lines 20–41); `len` counts bytes. -/
def validatePassword (classes : UnicodeClasses) (password : String) : Except String Unit :=
  if password.utf8ByteSize < minPasswordLen || maxPasswordLen < password.utf8ByteSize then
    .error "password does not meet requirements: must be between 8 and 72 characters"
  else
    let flags := password.toList.foldl (PasswordFlags.see classes) {}
    if !flags.hasUpper || !flags.hasLower || !flags.hasDigit then
      .error ("password does not meet requirements: " ++
        "must contain an uppercase letter, a lowercase letter, and a digit")
    else .ok ()

section

variable {classes : UnicodeClasses} {s username password : String}

theorem validateUsername_ok_iff : validateUsername username = .ok () ↔
    3 ≤ username.length ∧ username.length ≤ 32 ∧ ∀ c ∈ username.toList,
      isUsernameChar c = true := by
  unfold validateUsername
  split_ifs with h
  · simpa [and_assoc] using h
  · simpa [and_assoc] using h

/-- What the loop has seen. -/
theorem flags_foldl (flags : PasswordFlags) (chars : List Char) :
    let seen := chars.foldl (PasswordFlags.see classes) flags
    (seen.hasUpper = true ↔ flags.hasUpper = true ∨ ∃ r ∈ chars, classes.isUpper r = true) ∧
    (seen.hasLower = true ↔ flags.hasLower = true ∨
      ∃ r ∈ chars, classes.isUpper r = false ∧ classes.isLower r = true) ∧
    (seen.hasDigit = true ↔ flags.hasDigit = true ∨
      ∃ r ∈ chars, classes.isUpper r = false ∧ classes.isLower r = false ∧
      classes.isDigit r = true) := by
  induction chars generalizing flags with
  | nil => simp
  | cons r chars ih =>
    obtain ⟨hupper, hlower, hdigit⟩ := ih (flags.see classes r)
    simp only [List.foldl_cons]
    rw [hupper, hlower, hdigit]
    unfold PasswordFlags.see
    split_ifs with h1 h2 h3 <;> simp_all

theorem validatePassword_ok_iff : validatePassword classes password = .ok () ↔
    (minPasswordLen ≤ password.utf8ByteSize ∧ password.utf8ByteSize ≤ maxPasswordLen) ∧
      (∃ r ∈ password.toList, classes.isUpper r = true) ∧
      (∃ r ∈ password.toList, classes.isUpper r = false ∧ classes.isLower r = true) ∧
      ∃ r ∈ password.toList, classes.isUpper r = false ∧ classes.isLower r = false ∧
        classes.isDigit r = true := by
  obtain ⟨hupper, hlower, hdigit⟩ := @flags_foldl classes {} password.toList
  simp only [Bool.false_eq_true, false_or] at hupper hlower hdigit
  unfold validatePassword
  rw [← hupper, ← hlower, ← hdigit]
  by_cases hlength : password.utf8ByteSize < minPasswordLen ||
    maxPasswordLen < password.utf8ByteSize
  · rw [if_pos hlength]
    simp only [Bool.or_eq_true, decide_eq_true_eq] at hlength
    simp only [reduceCtorEq, false_iff]
    omega
  · rw [if_neg hlength]
    simp only [Bool.or_eq_true, decide_eq_true_eq, not_or, not_lt] at hlength
    simp only [hlength, and_self, true_and]
    generalize password.toList.foldl (PasswordFlags.see classes) {} = flags
    cases flags.hasUpper <;> cases flags.hasLower <;> cases flags.hasDigit <;> simp

/-! ## Bounded texts -/

/-- A text that must not be empty and has a largest length. -/
theorem bounded_ok_iff {bound : ℕ} {message : String} :
    (if s = "" || bound < s.utf8ByteSize then Except.error message else .ok ()) = .ok () ↔
      s ≠ "" ∧ s.utf8ByteSize ≤ bound := by
  split_ifs with h
  · simp only [Bool.or_eq_true, decide_eq_true_eq] at h
    simp only [false_iff, not_and, not_le]
    exact fun hne => h.resolve_left hne
  · simpa using h

theorem validateRoomName_ok_iff :
    validateRoomName s = .ok () ↔ s ≠ "" ∧ s.utf8ByteSize ≤ maxRoomNameLen :=
  bounded_ok_iff

theorem validateMessageContent_ok_iff :
    validateMessageContent s = .ok () ↔ s ≠ "" ∧ s.utf8ByteSize ≤ maxMessageContentLen :=
  bounded_ok_iff

theorem validateEmoji_ok_iff : validateEmoji s = .ok () ↔ s ≠ "" ∧ s.utf8ByteSize ≤ maxEmojiLen :=
  bounded_ok_iff

/-! ## Trimming -/

theorem toList_trimSpace (s : String) :
    (trimSpace s).toList = (s.toList.dropWhile isSpace).rdropWhile isSpace := by
  rw [trimSpace, String.toList_ofList]
  rfl

/-- A text without white space is not changed. -/
theorem trimSpace_eq_self (h : ∀ c ∈ s.toList, isSpace c = false) : trimSpace s = s := by
  rw [← String.toList_inj, toList_trimSpace]
  have hfront : s.toList.dropWhile isSpace = s.toList := by
    rw [List.dropWhile_eq_self_iff]
    intro hpos
    simp [h _ (List.getElem_mem hpos)]
  rw [hfront, List.rdropWhile_eq_self_iff]
  intro hne
  simp [h _ (List.getLast_mem hne)]

/-- White space is below U+3001. -/
theorem toNat_of_isSpace {c : Char} (h : isSpace c = true) : c.toNat ≤ 0x3000 := by
  unfold isSpace at h
  rcases Bool.or_eq_true_iff.mp h with h | h
  · have hall : (['\t', '\n', '\x0b', '\x0c', '\r', ' ', '\u0085', '\u00a0', '\u1680',
      '\u2028', '\u2029',
        '\u202f', '\u205f', '\u3000'].all fun c => c.toNat ≤ 0x3000) = true := by decide
    exact of_decide_eq_true (List.all_eq_true.mp hall c (of_decide_eq_true h))
  · simp only [Bool.and_eq_true, decide_eq_true_eq] at h
    have hlast : c.toNat ≤ 0x200a := h.2
    omega

theorem toNat_of_username {c : Char} (h : isUsernameChar c = true) : c.toNat < 0x80 := by
  simp only [isUsernameChar, Bool.or_eq_true, Bool.and_eq_true, decide_eq_true_eq] at h
  rcases h with (((h | h) | h) | rfl) | rfl
  · have hlast : c.toNat ≤ 'z'.toNat := h.2
    exact lt_of_le_of_lt hlast (by decide)
  · have hlast : c.toNat ≤ 'Z'.toNat := h.2
    exact lt_of_le_of_lt hlast (by decide)
  · have hlast : c.toNat ≤ '9'.toNat := h.2
    exact lt_of_le_of_lt hlast (by decide)
  · decide
  · decide

theorem isSpace_of_username {c : Char} (h : isUsernameChar c = true) : isSpace c = false := by
  have hall : ∀ n : Fin 128, isUsernameChar (Char.ofNat n) = true →
      isSpace (Char.ofNat n) = false := by
    decide
  have hc := hall ⟨c.toNat, toNat_of_username h⟩
  rw [Char.ofNat_toNat] at hc
  exact hc h

end

end ConvoyChat.Handlers
