import ConvoyChat.Lib.Json
import ConvoyChat.Lib.JsonString

/-!
# String literals between two languages

`encoding/json` writes characters and `JSON.parse` reads code units, and the other way round
`JSON.stringify` writes code units and `encoding/json` reads characters.

* `decode_encode`, `encode_decode`: characters and code units.
* `quotes_quote`: what `encoding/json` reads of the literals of `JSON.stringify`.
* `quotes_appendString`: what `JSON.parse` reads of the literals of `encoding/json`.
-/

namespace ConvoyChat.Lib.JsonString

open ConvoyChat.Lib.Utf16 ConvoyChat.Lib.Json

/-! ## Code units -/

/-- The code units of a character. -/
def unitsOf (c : Char) : List UInt16 :=
  if c.toNat < 0x10000 then [UInt16.ofNat c.toNat]
  else [UInt16.ofNat (0xD800 + (c.toNat - 0x10000) / 0x400),
    UInt16.ofNat (0xDC00 + (c.toNat - 0x10000) % 0x400)]

def encode (cs : List Char) : List UInt16 := cs.flatMap unitsOf

/-- A text without lone surrogates. -/
def WellFormed (units : List UInt16) : Prop := ∀ u hu, CodePoint.lone u hu ∉ codePoints units

section

variable {u v : UInt16} {c : Char} {cs : List Char} {units : List UInt16}

theorem toNat_lt_char (c : Char) : c.toNat < 0x110000 := by
  have hvalid := c.valid
  unfold UInt32.isValidChar Nat.isValidChar at hvalid
  show c.val.toNat < _
  omega

theorem not_isSurrogate_char (c : Char) : ¬ (0xD800 ≤ c.toNat ∧ c.toNat < 0xE000) := by
  have hvalid := c.valid
  unfold UInt32.isValidChar Nat.isValidChar at hvalid
  show ¬ (_ ≤ c.val.toNat ∧ c.val.toNat < _)
  omega

theorem toNat_ofNat_of_lt {n : ℕ} (h : n < 0x10000) : (UInt16.ofNat n).toNat = n := by
  rw [UInt16.toNat_ofNat']
  omega

theorem codePoints_unitsOf (c : Char) (units : List UInt16) :
    codePoints (unitsOf c ++ units) = .char c :: codePoints units := by
  have hlt := toNat_lt_char c
  have hscalar := not_isSurrogate_char c
  unfold unitsOf
  split_ifs with hsmall
  · have hvalue := toNat_ofNat_of_lt hsmall
    have hhigh : ¬ IsHigh (UInt16.ofNat c.toNat) := by
      unfold IsHigh
      omega
    have hsurrogate : ¬ IsSurrogate (UInt16.ofNat c.toNat) := by
      unfold IsSurrogate
      omega
    rw [List.singleton_append, codePoints_cons_of_not_high hhigh,
      single_of_not_surrogate hsurrogate, hvalue, Char.ofNat_toNat]
  · have hfirst := toNat_ofNat_of_lt (n := 0xD800 + (c.toNat - 0x10000) / 0x400) (by omega)
    have hsecond := toNat_ofNat_of_lt (n := 0xDC00 + (c.toNat - 0x10000) % 0x400) (by omega)
    have hu : IsHigh (UInt16.ofNat (0xD800 + (c.toNat - 0x10000) / 0x400)) := by
      unfold IsHigh
      omega
    have hv : IsLow (UInt16.ofNat (0xDC00 + (c.toNat - 0x10000) % 0x400)) := by
      unfold IsLow
      omega
    have hpair : pairChar (UInt16.ofNat (0xD800 + (c.toNat - 0x10000) / 0x400))
        (UInt16.ofNat (0xDC00 + (c.toNat - 0x10000) % 0x400)) = c := by
      have hvalue : 0x10000 + (0xD800 + (c.toNat - 0x10000) / 0x400 - 0xD800) * 0x400 +
          (0xDC00 + (c.toNat - 0x10000) % 0x400 - 0xDC00) = c.toNat := by omega
      rw [pairChar, hfirst, hsecond, hvalue, Char.ofNat_toNat]
    show codePoints (_ :: _ :: units) = _
    rw [codePoints_pair hu hv, hpair]

theorem codePoints_encode (cs : List Char) : codePoints (encode cs) = cs.map .char := by
  induction cs with
  | nil => rfl
  | cons c cs ih =>
    rw [encode, List.flatMap_cons, codePoints_unitsOf, ← encode, ih]
    rfl

theorem decode_encode (cs : List Char) : decode (encode cs) = cs := by
  rw [decode, codePoints_encode, List.map_map]
  exact List.map_id cs

theorem wellFormed_encode (cs : List Char) : WellFormed (encode cs) := by
  intro u hu hmem
  rw [codePoints_encode] at hmem
  obtain ⟨c, -, hc⟩ := List.mem_map.mp hmem
  cases hc

theorem unitsOf_single (h : ¬ IsSurrogate u) : unitsOf (Char.ofNat u.toNat) = [u] := by
  have hu := u.toNat_lt
  rw [unitsOf, toNat_single h, if_pos hu, UInt16.ofNat_toNat]

theorem unitsOf_pairChar (hu : IsHigh u) (hv : IsLow v) : unitsOf (pairChar u v) = [u, v] := by
  have hlarge := pairChar_large hu hv
  have hvalue := toNat_pairChar hu hv
  unfold IsHigh at hu
  unfold IsLow at hv
  rw [unitsOf, if_neg (by omega), hvalue]
  have hfirst : 0xD800 + (0x10000 + (u.toNat - 0xD800) * 0x400 + (v.toNat - 0xDC00) - 0x10000) /
    0x400 =
      u.toNat := by omega
  have hsecond :
    0xDC00 + (0x10000 + (u.toNat - 0xD800) * 0x400 + (v.toNat - 0xDC00) - 0x10000) % 0x400 =
      v.toNat := by omega
  rw [hfirst, hsecond, UInt16.ofNat_toNat, UInt16.ofNat_toNat]

theorem WellFormed.of_cons (hu : ¬ IsSurrogate u) (h : WellFormed (u :: units)) :
    WellFormed units := by
  have hhigh : ¬ IsHigh u := fun hhigh => hu (isSurrogate_iff.mpr (.inl hhigh))
  intro w hw hmem
  refine h w hw ?_
  rw [codePoints_cons_of_not_high hhigh]
  exact List.mem_cons_of_mem _ hmem

theorem WellFormed.of_append (hu : ¬ IsSurrogate u) (h : WellFormed (units ++ [u])) :
    WellFormed units := by
  have hlow : ¬ IsLow u := fun hlow => hu (isSurrogate_iff.mpr (.inr hlow))
  intro w hw hmem
  refine h w hw ?_
  rw [codePoints_append units hlow]
  exact List.mem_append_left _ hmem

/-- Taking off units that are no surrogates. -/
theorem WellFormed.strip {space : UInt16 → Bool} (hspace : ∀ u, space u = true → ¬ IsSurrogate u)
    (h : WellFormed units) : WellFormed (strip space units) := by
  have hfront : WellFormed (units.dropWhile space) := by
    induction units with
    | nil => exact h
    | cons u units ih =>
      rw [List.dropWhile_cons]
      split_ifs with hu
      · exact ih (h.of_cons (hspace u hu))
      · exact h
  unfold Utf16.strip
  generalize units.dropWhile space = units at hfront
  induction units using List.reverseRecOn with
  | nil => exact hfront
  | append_singleton units u ih =>
    rw [List.rdropWhile_concat]
    split_ifs with hu
    · exact ih (hfront.of_append (hspace u hu))
    · exact hfront

/-- Every character of the text is in ASCII. -/
def isAscii (text : String) : Bool := text.toList.all fun c => c.toNat < 128

theorem isAscii_iff {text : String} : isAscii text = true ↔ ∀ c ∈ text.toList, c.toNat < 128 := by
  simp [isAscii]

/-- A text in ASCII is one unit for each character. -/
theorem asciiUnits_eq {text : String} (h : isAscii text = true) :
    asciiUnits text = encode text.toList := by
  unfold asciiUnits encode
  rw [← List.flatMap_singleton' text.toList, List.map_flatMap, List.flatMap_assoc]
  refine List.flatMap_congr fun c hc => ?_
  have hsmall : c.toNat < 0x10000 := (isAscii_iff.mp h c hc).trans (by decide)
  rw [List.flatMap_singleton, unitsOf, if_pos hsmall]
  rfl

theorem decode_asciiUnits {text : String} (h : isAscii text = true) :
    WellFormed (asciiUnits text) ∧ decode (asciiUnits text) = text.toList := by
  rw [asciiUnits_eq h]
  exact ⟨wellFormed_encode _, decode_encode _⟩

/-- A unit on its own in a text without lone surrogates. -/
theorem encode_single (h : ∀ w hw, single u ≠ .lone w hw) : unitsOf (single u).scalar = [u] := by
  by_cases hu : IsSurrogate u
  · exact absurd (single_of_surrogate hu) (h u hu)
  · rw [single_of_not_surrogate hu]
    exact unitsOf_single hu

theorem encode_decode (h : WellFormed units) : encode (decode units) = units := by
  unfold WellFormed at h
  unfold encode decode
  rw [List.flatMap_map]
  fun_induction codePoints units with
  | case1 => rfl
  | case2 u =>
    have hsingle : ∀ w hw, single u ≠ .lone w hw := fun w hw heq => h w hw (by simp [heq])
    rw [List.flatMap_singleton, encode_single hsingle]
  | case3 u v units hpair ih =>
    have hrest := ih fun w hw hmem => h w hw (List.mem_cons_of_mem _ hmem)
    rw [List.flatMap_cons, hrest, scalar_char, unitsOf_pairChar hpair.1 hpair.2]
    rfl
  | case4 u v units hpair ih =>
    have hrest := ih fun w hw hmem => h w hw (List.mem_cons_of_mem _ hmem)
    have hsingle : ∀ w hw, single u ≠ .lone w hw := fun w hw heq => h w hw (by simp [heq])
    rw [List.flatMap_cons, hrest, encode_single hsingle]
    rfl

end

/-! ## The literals of `encoding/json` -/

/-- What `appendString` escapes besides the control characters. -/
def isHtml (c : Char) : Bool := c == '<' || c == '>' || c == '&' || c == '\u2028' || c == '\u2029'

/-- What `appendString` with `escapeHTML` writes for a character. -/
def appendChar (c : Char) : List Char :=
  match shortEscape c with
  | some e => ['\\', e]
  | none => if c.toNat < 0x20 || isHtml c then unicodeEscape (UInt16.ofNat c.toNat) else [c]

/-- `appendString`. -/
def appendString (s : String) : List Char := '"' :: (s.toList.flatMap appendChar ++ ['"'])

/-! ## `JSON.parse` of a literal -/

/-- What stands between the quotes; every round takes a character at least. -/
def unitsLoop : ℕ → List Char → Option (List UInt16)
  | _, [] => some []
  | 0, _ => none
  | fuel + 1, c :: text =>
    if c = '\\' then
      match text with
      | [] => none
      | e :: rest =>
        if e = 'u' then do return (← getu4 (c :: text)) :: (← unitsLoop fuel (rest.drop 4))
        else do return unitsOf (← longEscape e) ++ (← unitsLoop fuel rest)
    else if c = '"' ∨ c.toNat < 0x20 then none
    else do return unitsOf c ++ (← unitsLoop fuel text)

def parseLiteral : List Char → Option (List UInt16)
  | [] => none
  | c :: text =>
    if c = '"' ∧ text.getLast? = some '"' then unitsLoop text.length text.dropLast else none

section

variable {c e : Char} {cs rest : List Char}

theorem unitsLoop_escaped (fuel : ℕ) (h : longEscape e = some c) (hu : e ≠ 'u') :
    unitsLoop (fuel + 1) ('\\' :: e :: rest) = (unitsLoop fuel rest).map (unitsOf c ++ ·) := by
  rw [unitsLoop, if_pos rfl, if_neg hu, h]
  cases unitsLoop fuel rest <;> rfl

theorem unitsLoop_unicode (fuel : ℕ) (u : UInt16) :
    unitsLoop (fuel + 1) (unicodeEscape u ++ rest) = (unitsLoop fuel rest).map (u :: ·) := by
  have hget := getu4_unicodeEscape u rest
  simp only [unicodeEscape, List.cons_append, List.nil_append] at hget ⊢
  rw [unitsLoop, if_pos rfl]
  simp only [if_true, hget, List.drop_succ_cons, List.drop_zero, Option.bind_eq_bind,
    Option.bind_some]
  cases unitsLoop fuel rest <;> rfl

theorem unitsLoop_plain (fuel : ℕ) (h : shortEscape c = none) (hc : ¬ c.toNat < 0x20) :
    unitsLoop (fuel + 1) (c :: rest) = (unitsLoop fuel rest).map (unitsOf c ++ ·) := by
  obtain ⟨hbackslash, hquote⟩ := ne_of_plain h
  rw [unitsLoop.eq_def]
  simp only [if_neg hbackslash, hquote, hc, or_self, if_false]
  cases unitsLoop fuel rest <;> rfl

theorem toNat_html (h : isHtml c = true) : c.toNat < 0x10000 := by
  simp only [isHtml, Bool.or_eq_true, beq_iff_eq] at h
  obtain (((rfl | rfl) | rfl) | rfl) | rfl := h <;> decide

/-- Where a character is written, its units are read. -/
theorem unitsLoop_appendChar (fuel : ℕ) (c : Char) :
    unitsLoop (fuel + 1) (appendChar c ++ rest) = (unitsLoop fuel rest).map (unitsOf c ++ ·) := by
  unfold appendChar
  cases hshort : shortEscape c with
  | some e =>
    obtain ⟨hlong, hne⟩ := longEscape_of_short hshort
    exact unitsLoop_escaped fuel hlong hne
  | none =>
    simp only
    split_ifs with hescape
    · have hsmall : c.toNat < 0x10000 := by
        rcases Bool.or_eq_true _ _ ▸ hescape with hcontrol | hhtml
        · have hlt := of_decide_eq_true hcontrol
          omega
        · exact toNat_html hhtml
      rw [unitsLoop_unicode, unitsOf, if_pos hsmall]
      rfl
    · simp only [Bool.or_eq_true, decide_eq_true_eq, not_or] at hescape
      exact unitsLoop_plain fuel hshort hescape.1

theorem unitsLoop_flatMap {fuel : ℕ} (hfuel : cs.length ≤ fuel) :
    unitsLoop fuel (cs.flatMap appendChar) = some (encode cs) := by
  induction cs generalizing fuel with
  | nil => cases fuel <;> rfl
  | cons c cs ih =>
    cases fuel with
    | zero => simp at hfuel
    | succ fuel =>
      rw [List.flatMap_cons, unitsLoop_appendChar, ih (by simpa using hfuel)]
      rfl

theorem length_le_appended (cs : List Char) : cs.length ≤ (cs.flatMap appendChar).length := by
  induction cs with
  | nil => simp
  | cons c cs ih =>
    have hone : 1 ≤ (appendChar c).length := by
      unfold appendChar unicodeEscape
      split
      · simp
      · split_ifs <;> simp
    simp only [List.flatMap_cons, List.length_cons, List.length_append]
    omega

theorem parseLiteral_appendString (s : String) :
    parseLiteral (appendString s) = some (encode s.toList) := by
  rw [appendString, parseLiteral, if_pos (by simp), List.dropLast_concat]
  refine unitsLoop_flatMap ?_
  have hlength := length_le_appended s.toList
  rw [List.length_append]
  omega

/-! ## Literals as tokens -/

theorem skipped_digit {n : ℕ} (h : n < 16) : Skipped [Nat.digitChar n] := by
  have hall : ∀ i : Fin 16, Nat.digitChar i ≠ '"' ∧ Nat.digitChar i ≠ '\\' := by decide
  exact skipped_plain (hall ⟨n, h⟩).1 (hall ⟨n, h⟩).2

theorem skipped_unicodeEscape (u : UInt16) : Skipped (unicodeEscape u) := by
  have hu := u.toNat_lt
  have hdigits := ((skipped_digit (n := u.toNat / 4096) (by omega)).append
    (skipped_digit (n := u.toNat / 256 % 16) (by omega))).append
    ((skipped_digit (n := u.toNat / 16 % 16) (by omega)).append
      (skipped_digit (n := u.toNat % 16) (by omega)))
  exact (skipped_escaped 'u').append hdigits

theorem skipped_of_plain (h : shortEscape c = none) : Skipped [c] :=
  skipped_plain (ne_of_plain h).2 (ne_of_plain h).1

theorem skipped_escape (cp : CodePoint) : Skipped (escape cp) := by
  cases cp with
  | lone u hu => exact skipped_unicodeEscape u
  | char c =>
    cases hshort : shortEscape c with
    | some e =>
      simp only [escape, hshort]
      exact skipped_escaped e
    | none =>
      simp only [escape, hshort]
      split_ifs
      · exact skipped_unicodeEscape _
      · exact skipped_of_plain hshort

theorem skipped_appendChar (c : Char) : Skipped (appendChar c) := by
  unfold appendChar
  cases hshort : shortEscape c with
  | some e => exact skipped_escaped e
  | none =>
    simp only
    split_ifs
    · exact skipped_unicodeEscape _
    · exact skipped_of_plain hshort

/-- `JSON.stringify` to `encoding/json`. -/
theorem quotes_quote : Quotes quote (fun text => (unquote text).map String.ofList)
    fun units => String.ofList (decode units) where
  head units := ⟨_, rfl⟩
  read units rest := by
    refine readString_of_body (skipped_flatMap fun cp _ => skipped_escape cp) ?_ rest
    rw [← quote, unquote_quote]
    rfl

/-- `encoding/json` to `JSON.parse`. -/
theorem quotes_appendString : Quotes appendString parseLiteral fun s => encode s.toList where
  head s := ⟨_, rfl⟩
  read s rest := by
    refine readString_of_body (skipped_flatMap fun c _ => skipped_appendChar c) ?_ rest
    exact parseLiteral_appendString s

end

end ConvoyChat.Lib.JsonString
