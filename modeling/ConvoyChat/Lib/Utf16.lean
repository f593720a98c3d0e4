import Mathlib.Algebra.GroupWithZero.Nat
import Mathlib.Data.String.Basic
import Mathlib.Data.List.DropRight

/-!
# Texts in UTF-16

A text is a list of 16-bit code units. A high surrogate and the low one behind it are one
character; a surrogate that is not part of such a pair is `lone`, and is read as U+FFFD.

* `length_codePoints`: how many units the code points take.
* `decode_eq_map`: texts of characters that are one unit each.
* `utf8Len_decode`: the length in UTF-8, counted on the units.
* `decode_strip`: reading a text and taking its white space off commute.
-/

namespace ConvoyChat.Lib.Utf16

def IsHigh (u : UInt16) : Prop := 0xD800 ≤ u.toNat ∧ u.toNat < 0xDC00

def IsLow (u : UInt16) : Prop := 0xDC00 ≤ u.toNat ∧ u.toNat < 0xE000

/-- Either half of a pair. -/
def IsSurrogate (u : UInt16) : Prop := 0xD800 ≤ u.toNat ∧ u.toNat < 0xE000

instance (u : UInt16) : Decidable (IsHigh u) := inferInstanceAs (Decidable (_ ∧ _))

instance (u : UInt16) : Decidable (IsLow u) := inferInstanceAs (Decidable (_ ∧ _))

instance (u : UInt16) : Decidable (IsSurrogate u) := inferInstanceAs (Decidable (_ ∧ _))

/-- A character, or a surrogate on its own. -/
inductive CodePoint
  | char (c : Char)
  | lone (u : UInt16) (h : IsSurrogate u)
deriving DecidableEq

/-- The character of a pair. -/
def pairChar (u v : UInt16) : Char :=
  Char.ofNat (0x10000 + (u.toNat - 0xD800) * 0x400 + (v.toNat - 0xDC00))

/-- A unit that is not in a pair. -/
def single (u : UInt16) : CodePoint :=
  if h : IsSurrogate u then .lone u h else .char (Char.ofNat u.toNat)

def codePoints : List UInt16 → List CodePoint
  | [] => []
  | [u] => [single u]
  | u :: v :: units =>
    if IsHigh u ∧ IsLow v then .char (pairChar u v) :: codePoints units
    else single u :: codePoints (v :: units)

/-- How many units a code point takes. -/
def CodePoint.width : CodePoint → ℕ
  | .char c => if c.toNat < 0x10000 then 1 else 2
  | .lone _ _ => 1

/-- A lone surrogate is replaced. -/
def CodePoint.scalar : CodePoint → Char
  | .char c => c
  | .lone _ _ => '\ufffd'

/-- The characters of a text. -/
def decode (units : List UInt16) : List Char := (codePoints units).map CodePoint.scalar

/-- The bytes of a unit that is not in a pair, U+FFFD taking three. -/
def unitLen (u : UInt16) : ℕ := if u.toNat < 0x80 then 1 else if u.toNat < 0x800 then 2 else 3

/-- The length in UTF-8. -/
def utf8Length : List UInt16 → ℕ
  | [] => 0
  | [u] => unitLen u
  | u :: v :: units =>
    if IsHigh u ∧ IsLow v then 4 + utf8Length units else unitLen u + utf8Length (v :: units)

/-- The text without the units at both ends that `space` holds of. -/
def strip (space : UInt16 → Bool) (units : List UInt16) : List UInt16 :=
  (units.dropWhile space).rdropWhile space

section

variable {u v : UInt16} {units : List UInt16} {c : Char}

/-! ## Code points -/

theorem isSurrogate_iff : IsSurrogate u ↔ IsHigh u ∨ IsLow u := by
  unfold IsSurrogate IsHigh IsLow
  omega

theorem toNat_ofNat {n : ℕ} (h : n.isValidChar) : (Char.ofNat n).toNat = n := by
  rw [Char.ofNat, dif_pos h]
  rfl

theorem single_of_surrogate (h : IsSurrogate u) : single u = .lone u h := dif_pos h

theorem single_of_not_surrogate (h : ¬ IsSurrogate u) : single u = .char (Char.ofNat u.toNat) :=
  dif_neg h

/-- A unit that is not a surrogate is its own character. -/
theorem toNat_single (h : ¬ IsSurrogate u) : (Char.ofNat u.toNat).toNat = u.toNat := by
  have hu := u.toNat_lt
  unfold IsSurrogate at h
  apply toNat_ofNat
  unfold Nat.isValidChar
  omega

theorem toNat_pairChar (hu : IsHigh u) (hv : IsLow v) :
    (pairChar u v).toNat = 0x10000 + (u.toNat - 0xD800) * 0x400 + (v.toNat - 0xDC00) := by
  unfold IsHigh at hu
  unfold IsLow at hv
  apply toNat_ofNat
  unfold Nat.isValidChar
  omega

/-- Pairs are the characters behind U+FFFF. -/
theorem pairChar_large (hu : IsHigh u) (hv : IsLow v) : 0x10000 ≤ (pairChar u v).toNat := by
  rw [toNat_pairChar hu hv]
  omega

theorem codePoints_pair (hu : IsHigh u) (hv : IsLow v) :
    codePoints (u :: v :: units) = .char (pairChar u v) :: codePoints units := by
  rw [codePoints, if_pos ⟨hu, hv⟩]

/-- A unit that begins no pair. -/
theorem codePoints_cons (h : ∀ v rest, units = v :: rest → ¬ (IsHigh u ∧ IsLow v)) :
    codePoints (u :: units) = single u :: codePoints units := by
  cases units with
  | nil => rfl
  | cons v rest => rw [codePoints, if_neg (h v rest rfl)]

theorem codePoints_cons_of_not_high (h : ¬ IsHigh u) :
    codePoints (u :: units) = single u :: codePoints units :=
  codePoints_cons fun _ _ _ hpair => h hpair.1

theorem decode_cons (h : ¬ IsSurrogate u) :
    decode (u :: units) = Char.ofNat u.toNat :: decode units := by
  have hhigh : ¬ IsHigh u := fun hhigh => h (isSurrogate_iff.mpr (.inl hhigh))
  rw [decode, codePoints_cons_of_not_high hhigh, single_of_not_surrogate h]
  rfl

theorem width_single (u : UInt16) : (single u).width = 1 := by
  by_cases h : IsSurrogate u
  · rw [single_of_surrogate h]
    rfl
  · have hu := u.toNat_lt
    rw [single_of_not_surrogate h, CodePoint.width, toNat_single h]
    exact if_pos hu

theorem length_codePoints (units : List UInt16) :
    ((codePoints units).map CodePoint.width).sum = units.length := by
  fun_induction codePoints units with
  | case1 => rfl
  | case2 u => simp [width_single]
  | case3 u v units h ih =>
    have hlarge : ¬ (pairChar u v).toNat < 0x10000 := not_lt.mpr (pairChar_large h.1 h.2)
    simp only [List.map_cons, List.sum_cons, CodePoint.width, if_neg hlarge, ih, List.length_cons]
    omega
  | case4 u v units h ih =>
    simp only [List.map_cons, List.sum_cons, width_single, ih, List.length_cons]
    omega

@[simp] theorem scalar_char (c : Char) : (CodePoint.char c).scalar = c := rfl

@[simp] theorem scalar_lone (h : IsSurrogate u) : (CodePoint.lone u h).scalar = '\ufffd' := rfl

/-- A text without surrogates is read unit by unit. -/
theorem decode_eq_map (h : ∀ u ∈ units, ¬ IsSurrogate u) :
    decode units = units.map fun u => Char.ofNat u.toNat := by
  induction units with
  | nil => rfl
  | cons u units ih =>
    rw [decode_cons (h u (by simp)), ih fun v hv => h v (by simp [hv])]
    rfl

theorem decode_ne_nil (h : units ≠ []) : decode units ≠ [] := by
  unfold decode
  fun_cases codePoints units with
  | case1 => exact absurd rfl h
  | case2 u => simp
  | case3 u v units h => simp
  | case4 u v units h => simp

/-- A unit that is no surrogate is read wherever it stands. -/
theorem mem_decode (hu : u ∈ units) (h : ¬ IsSurrogate u) : Char.ofNat u.toNat ∈ decode units := by
  unfold decode
  fun_induction codePoints units with
  | case1 => simp at hu
  | case2 v =>
    rw [List.mem_singleton.mp hu] at h ⊢
    simp [single_of_not_surrogate h, CodePoint.scalar]
  | case3 v w units hpair ih =>
    rcases List.mem_cons.mp hu with rfl | hu
    · exact absurd (isSurrogate_iff.mpr (.inl hpair.1)) h
    · rcases List.mem_cons.mp hu with rfl | hu
      · exact absurd (isSurrogate_iff.mpr (.inr hpair.2)) h
      · exact List.mem_cons_of_mem _ (ih hu)
  | case4 v w units hpair ih =>
    rcases List.mem_cons.mp hu with rfl | hu
    · simp [single_of_not_surrogate h, CodePoint.scalar]
    · exact List.mem_cons_of_mem _ (ih hu)

/-! ## The length in UTF-8 -/

theorem utf8Size_eq (c : Char) : c.utf8Size =
    if c.toNat < 0x80 then 1 else if c.toNat < 0x800 then 2 else if c.toNat <
      0x10000 then 3 else 4 := by
  unfold Char.utf8Size
  simp only [UInt32.le_iff_toNat_le]
  show (if c.toNat ≤ 127 then 1 else if c.toNat ≤ 2047 then 2 else if c.toNat ≤
    65535 then 3 else 4) = _
  split_ifs <;> omega

theorem utf8Size_single (u : UInt16) : (single u).scalar.utf8Size = unitLen u := by
  have hu := u.toNat_lt
  unfold unitLen
  by_cases h : IsSurrogate u
  · have hsurrogate : 0xD800 ≤ u.toNat := h.1
    rw [single_of_surrogate h, if_neg (by omega), if_neg (by omega)]
    rfl
  · rw [single_of_not_surrogate h, scalar_char, utf8Size_eq, toNat_single h, if_pos hu]

theorem utf8Len_decode (units : List UInt16) :
    String.utf8Len (decode units) = utf8Length units := by
  unfold decode
  fun_induction utf8Length units with
  | case1 => rfl
  | case2 u => simp [codePoints, utf8Size_single]
  | case3 u v units h ih =>
    have hlarge := pairChar_large h.1 h.2
    have hsize : (pairChar u v).utf8Size = 4 := by
      rw [utf8Size_eq, if_neg (by omega), if_neg (by omega), if_neg (by omega)]
    rw [codePoints_pair h.1 h.2, List.map_cons, String.utf8Len_cons, ih, CodePoint.scalar, hsize,
      Nat.add_comm]
  | case4 u v units h ih =>
    rw [codePoints, if_neg h, List.map_cons, String.utf8Len_cons, ih, utf8Size_single, Nat.add_comm]

/-! ## White space -/

/-- A unit at the end that completes no pair. -/
theorem codePoints_append (units : List UInt16) (h : ¬ IsLow u) :
    codePoints (units ++ [u]) = codePoints units ++ [single u] := by
  fun_induction codePoints units with
  | case1 => rfl
  | case2 v =>
    show codePoints [v, u] = _
    rw [codePoints, if_neg fun hpair => h hpair.2]
    rfl
  | case3 v w units hpair ih =>
    show codePoints (v :: w :: (units ++ [u])) = _
    rw [codePoints_pair hpair.1 hpair.2, ih]
    rfl
  | case4 v w units hpair ih =>
    show codePoints (v :: w :: (units ++ [u])) = _
    rw [codePoints, if_neg hpair]
    show single v :: codePoints (w :: units ++ [u]) = _
    rw [ih]
    rfl

/-- A surrogate at the end is read as a large character. -/
theorem decode_append_surrogate (units : List UInt16) (h : IsSurrogate u) :
    ∃ chars c, decode (units ++ [u]) = chars ++ [c] ∧ 0xFFFD ≤ c.toNat := by
  unfold decode
  fun_induction codePoints units with
  | case1 =>
    refine ⟨[], '\ufffd', ?_, by decide⟩
    simp [codePoints, single_of_surrogate h]
  | case2 v =>
    show ∃ chars c, (codePoints [v, u]).map CodePoint.scalar = chars ++ [c] ∧ 0xFFFD ≤ c.toNat
    by_cases hpair : IsHigh v ∧ IsLow u
    · have hlarge := pairChar_large hpair.1 hpair.2
      refine ⟨[], pairChar v u, ?_, by omega⟩
      rw [codePoints_pair hpair.1 hpair.2]
      rfl
    · refine ⟨[(single v).scalar], '\ufffd', ?_, by decide⟩
      simp [codePoints, hpair, single_of_surrogate h]
  | case3 v w units hpair ih =>
    obtain ⟨chars, c, hdecode, hlarge⟩ := ih
    refine ⟨pairChar v w :: chars, c, ?_, hlarge⟩
    show (codePoints (v :: w :: (units ++ [u]))).map CodePoint.scalar = _
    rw [codePoints_pair hpair.1 hpair.2, List.map_cons, hdecode]
    rfl
  | case4 v w units hpair ih =>
    obtain ⟨chars, c, hdecode, hlarge⟩ := ih
    refine ⟨(single v).scalar :: chars, c, ?_, hlarge⟩
    show (codePoints (v :: w :: (units ++ [u]))).map CodePoint.scalar = _
    rw [codePoints, if_neg hpair, List.map_cons]
    show _ :: (codePoints (w :: units ++ [u])).map CodePoint.scalar = _
    rw [hdecode]
    rfl

/-- What `isSpace` says of the characters, said of the units. -/
structure SpaceOf (space : UInt16 → Bool) (isSpace : Char → Bool) : Prop where
  surrogate : ∀ u, IsSurrogate u → space u = false
  other : ∀ u, ¬ IsSurrogate u → space u = isSpace (Char.ofNat u.toNat)
  large : ∀ c : Char, 0xFFFD ≤ c.toNat → isSpace c = false

variable {space : UInt16 → Bool} {isSpace : Char → Bool}

/-- The first character of a text that begins with a surrogate. -/
theorem decode_cons_surrogate (units : List UInt16) (h : IsSurrogate u) :
    ∃ c chars, decode (u :: units) = c :: chars ∧ 0xFFFD ≤ c.toNat := by
  unfold decode
  cases units with
  | nil =>
    refine ⟨'\ufffd', [], ?_, by decide⟩
    simp [codePoints, single_of_surrogate h]
  | cons v units =>
    by_cases hpair : IsHigh u ∧ IsLow v
    · have hlarge := pairChar_large hpair.1 hpair.2
      rw [codePoints_pair hpair.1 hpair.2]
      exact ⟨pairChar u v, _, rfl, by omega⟩
    · rw [codePoints, if_neg hpair, single_of_surrogate h]
      exact ⟨'\ufffd', _, rfl, by decide⟩

theorem decode_dropWhile (h : SpaceOf space isSpace) (units : List UInt16) :
    decode (units.dropWhile space) = (decode units).dropWhile isSpace := by
  induction units with
  | nil => rfl
  | cons u units ih =>
    by_cases hsurrogate : IsSurrogate u
    · obtain ⟨c, chars, hdecode, hlarge⟩ := decode_cons_surrogate units hsurrogate
      rw [List.dropWhile_cons_of_neg (by simp [h.surrogate u hsurrogate]), hdecode,
        List.dropWhile_cons_of_neg (by simp [h.large c hlarge])]
    · rw [decode_cons hsurrogate, List.dropWhile_cons, List.dropWhile_cons, h.other u hsurrogate]
      split_ifs
      · exact ih
      · exact decode_cons hsurrogate

theorem decode_rdropWhile (h : SpaceOf space isSpace) (units : List UInt16) :
    decode (units.rdropWhile space) = (decode units).rdropWhile isSpace := by
  induction units using List.reverseRecOn with
  | nil => rfl
  | append_singleton units u ih =>
    by_cases hsurrogate : IsSurrogate u
    · obtain ⟨chars, c, hdecode, hlarge⟩ := decode_append_surrogate units hsurrogate
      rw [List.rdropWhile_concat_neg _ _ _ (by simp [h.surrogate u hsurrogate]), hdecode,
        List.rdropWhile_concat_neg _ _ _ (by simp [h.large c hlarge])]
    · have hlow : ¬ IsLow u := fun hlow => hsurrogate (isSurrogate_iff.mpr (.inr hlow))
      have happend : decode (units ++ [u]) = decode units ++ [Char.ofNat u.toNat] := by
        rw [decode, codePoints_append units hlow, single_of_not_surrogate hsurrogate,
          List.map_append]
        rfl
      rw [List.rdropWhile_concat, happend, List.rdropWhile_concat, h.other u hsurrogate]
      split_ifs
      · exact ih
      · exact happend

theorem decode_strip (h : SpaceOf space isSpace) (units : List UInt16) :
    decode (strip space units) = ((decode units).dropWhile isSpace).rdropWhile isSpace := by
  rw [strip, decode_rdropWhile h, decode_dropWhile h]

/-- Something is left exactly when some unit is not white space. -/
theorem strip_ne_nil_iff : strip space units ≠ [] ↔ ∃ u ∈ units, space u = false := by
  have hnone : strip space units = [] ↔ ∀ u ∈ units, space u = true := by
    rw [strip, List.rdropWhile_eq_nil_iff]
    constructor
    · intro hall u hu
      by_contra hspace
      have hrest : ∃ v ∈ units.dropWhile space, ¬ space v = true := by
        have hne : units.dropWhile space ≠ [] := by
          intro hnil
          exact hspace (List.dropWhile_eq_nil_iff.mp hnil u hu)
        exact ⟨_, List.head_mem hne, by simp [List.head_dropWhile_not space hne]⟩
      obtain ⟨v, hv, hnot⟩ := hrest
      exact hnot (hall v hv)
    · intro hall u hu
      exact hall u ((List.dropWhile_suffix space).subset hu)
  rw [Ne, hnone]
  simp

end

end ConvoyChat.Lib.Utf16
