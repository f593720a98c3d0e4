import Mathlib.Data.List.Basic
import Mathlib.Data.String.Basic

/-!
# Percent-encoded query strings

A query string is a list of bytes: fields behind `&`, each a name and a value around the
first `=`. A writer keeps some bytes of a value and escapes the others as `%` and two
digits; a reader takes the fields apart, turns `+` into a blank and puts the escaped
bytes back.

* `unescape_escape`: a value is read as it was written, if `%` and `+` are escaped.
* `escape_escape`: escaping twice is escaping once, if the second time keeps `%` and the
  digits.
* `parseQuery_query`: the fields are read as they were written.
* `readText_utf8`: so is a text in UTF-8.
-/

namespace ConvoyChat.Lib.Percent

abbrev Bytes := List UInt8

/-! ## Bytes of texts -/

/-- A text in UTF-8. -/
def utf8 (cs : List Char) : Bytes := cs.flatMap String.utf8EncodeChar

/-- The text that some bytes are. -/
def readText (bs : Bytes) : Option String := String.fromUTF8? bs.toByteArray

theorem readText_utf8 (cs : List Char) : readText (utf8 cs) = some (String.ofList cs) := by
  have hbytes : (utf8 cs).toByteArray = (String.ofList cs).toByteArray :=
    String.toByteArray_ofList.symm
  have hvalid : (utf8 cs).toByteArray.IsValidUTF8 := by
    rw [hbytes]
    exact (String.ofList cs).isValidUTF8
  rw [readText, String.fromUTF8?, dif_pos hvalid, Option.some_inj, ← String.toByteArray_inj]
  exact hbytes

@[simp] theorem utf8_nil : utf8 [] = [] := rfl

theorem utf8_append (cs ds : List Char) : utf8 (cs ++ ds) = utf8 cs ++ utf8 ds :=
  List.flatMap_append

/-! ## One byte -/

/-- A digit of a number below 16. -/
def hexDigit (n : ℕ) : UInt8 := UInt8.ofNat (if n < 10 then 0x30 + n else 0x37 + n)

/-- The value of a digit, in either case. -/
def hexValue (b : UInt8) : Option ℕ :=
  if 0x30 ≤ b ∧ b ≤ 0x39 then some (b.toNat - 0x30)
  else if 0x41 ≤ b ∧ b ≤ 0x46 then some (b.toNat - 0x37)
  else if 0x61 ≤ b ∧ b ≤ 0x66 then some (b.toNat - 0x57)
  else none

theorem hexValue_hexDigit {n : ℕ} (h : n < 16) : hexValue (hexDigit n) = some n := by
  have hall : ∀ n : Fin 16, hexValue (hexDigit n.val) = some n.val := by decide
  exact hall ⟨n, h⟩

/-- A digit or an upper-case letter up to `F`. -/
theorem hexDigit_mem {n : ℕ} (h : n < 16) : hexDigit n ∈ (List.range 16).map hexDigit :=
  List.mem_map_of_mem (List.mem_range.mpr h)

/-! ## Escaping -/

section

variable (keep : UInt8 → Bool)

def escapeByte (b : UInt8) : Bytes :=
  if keep b then [b] else [0x25, hexDigit (b.toNat / 16), hexDigit (b.toNat % 16)]

/-- The bytes that `keep` does not hold of, as `%` and two digits. -/
def escape (bs : Bytes) : Bytes := bs.flatMap (escapeByte keep)

end

/-- The bytes of an escaped value; `+` is a blank. -/
def unescape : Bytes → Option Bytes
  | [] => some []
  | b :: bs =>
    if b = 0x25 then
      match bs with
      | high :: low :: rest =>
        match hexValue high, hexValue low with
        | some m, some n => (unescape rest).map (UInt8.ofNat (16 * m + n) :: ·)
        | _, _ => none
      | _ => none
    else (unescape bs).map ((if b = 0x2B then 0x20 else b) :: ·)

section

variable {keep keep' : UInt8 → Bool} {b : UInt8} {bs rest : Bytes}

@[simp] theorem escape_nil : escape keep [] = [] := rfl

@[simp] theorem escape_cons : escape keep (b :: bs) = escapeByte keep b ++ escape keep bs := rfl

theorem escape_append : escape keep (bs ++ rest) = escape keep bs ++ escape keep rest :=
  List.flatMap_append

theorem escape_of_keep (h : ∀ b ∈ bs, keep b = true) : escape keep bs = bs := by
  induction bs with
  | nil => rfl
  | cons b bs ih =>
    rw [escape_cons, escapeByte, if_pos (h b List.mem_cons_self),
      ih fun b' hb' => h b' (List.mem_cons_of_mem _ hb')]
    rfl

theorem unescape_of_ne (h : b ≠ 0x25) :
    unescape (b :: rest) = (unescape rest).map ((if b = 0x2B then 0x20 else b) :: ·) := by
  conv_lhs =>
    unfold unescape
    rw [if_neg h]

/-- One byte is read back. -/
theorem unescape_escapeByte (hpercent : keep 0x25 = false) (hplus : keep 0x2B = false) :
    unescape (escapeByte keep b ++ rest) = (unescape rest).map (b :: ·) := by
  have hb := b.toNat_lt
  unfold escapeByte
  by_cases hk : keep b = true
  · have hne : b ≠ 0x25 ∧ b ≠ 0x2B := by
      constructor <;>
      · rintro rfl
        simp [hk] at hpercent hplus
    rw [if_pos hk, List.singleton_append, unescape_of_ne hne.1, if_neg hne.2]
  · have hhigh : b.toNat / 16 < 16 := by omega
    have hlow : b.toNat % 16 < 16 := by omega
    have hsum : 16 * (b.toNat / 16) + b.toNat % 16 = b.toNat := by omega
    rw [if_neg hk, List.cons_append, List.cons_append, List.cons_append, List.nil_append, unescape,
      if_pos rfl]
    simp only [hexValue_hexDigit hhigh, hexValue_hexDigit hlow, hsum, UInt8.ofNat_toNat]

theorem unescape_escape (hpercent : keep 0x25 = false) (hplus : keep 0x2B = false) :
    unescape (escape keep bs) = some bs := by
  induction bs with
  | nil => rfl
  | cons b bs ih =>
    rw [escape_cons, unescape_escapeByte hpercent hplus, ih]
    rfl

/-- A second pass that keeps what the first one writes only escapes what the first kept. -/
theorem escape_escape (hpercent : keep' 0x25 = true)
    (hdigits : ∀ d ∈ (List.range 16).map hexDigit, keep' d = true) :
    escape keep' (escape keep bs) = escape (fun b => keep b && keep' b) bs := by
  induction bs with
  | nil => rfl
  | cons b bs ih =>
    have hb := b.toNat_lt
    rw [escape_cons, escape_append, ih, escape_cons]
    congr 1
    unfold escapeByte
    by_cases hk : keep b = true
    · simp only [hk, if_true, Bool.true_and, escape_cons, escape_nil, List.append_nil]
      rfl
    · have hhigh := hdigits _ (hexDigit_mem (show b.toNat / 16 < 16 by omega))
      have hlow := hdigits _ (hexDigit_mem (show b.toNat % 16 < 16 by omega))
      simp [hk, escapeByte, hpercent, hhigh, hlow]

/-- What an escaped value is made of. -/
theorem mem_escape {x : UInt8} (h : x ∈ escape keep bs) :
    keep x = true ∨ x = 0x25 ∨ x ∈ (List.range 16).map hexDigit := by
  obtain ⟨b, -, hx⟩ := List.mem_flatMap.mp h
  have hb := b.toNat_lt
  unfold escapeByte at hx
  split_ifs at hx with hk
  · rw [List.mem_singleton.mp hx]
    exact .inl hk
  · simp only [List.mem_cons, List.not_mem_nil, or_false] at hx
    rcases hx with rfl | rfl | rfl
    · exact .inr (.inl rfl)
    · exact .inr (.inr (hexDigit_mem (by omega)))
    · exact .inr (.inr (hexDigit_mem (by omega)))

end

/-! ## Fields -/

/-- The text before the first `sep` and the text behind it. -/
def cut (sep : UInt8) : Bytes → Bytes × Bytes
  | [] => ([], [])
  | b :: bs => if b = sep then ([], bs) else (b :: (cut sep bs).1, (cut sep bs).2)

/-- One field; `none` for an empty one, one with a `;` and one that is not well escaped. -/
def parsePair (piece : Bytes) : Option (Bytes × Bytes) :=
  if piece = [] ∨ 0x3B ∈ piece then none
  else
    match unescape (cut 0x3D piece).1, unescape (cut 0x3D piece).2 with
    | some key, some value => some (key, value)
    | _, _ => none

/-- The fields of a query string. -/
def parseQuery (q : Bytes) : List (Bytes × Bytes) := (q.splitOn 0x26).filterMap parsePair

/-- The first value under a name, or nothing. -/
def get (values : List (Bytes × Bytes)) (key : Bytes) : Bytes :=
  ((values.find? fun p => p.1 = key).map Prod.snd).getD []

/-- A field as it is written. -/
def pair (keep : UInt8 → Bool) (p : Bytes × Bytes) : Bytes := p.1 ++ 0x3D :: escape keep p.2

/-- Some fields as they are written. -/
def query (keep : UInt8 → Bool) (ps : List (Bytes × Bytes)) : Bytes :=
  [0x26].intercalate (ps.map (pair keep))

/-- The bytes with a meaning in a query string: `%`, `+`, `&`, `;` and `=`. -/
def delimiters : Bytes := [0x25, 0x2B, 0x26, 0x3B, 0x3D]

/-- A name that needs no escape. -/
def Plain (key : Bytes) : Prop := key ≠ [] ∧ ∀ b ∈ delimiters, b ∉ key

section

variable {keep : UInt8 → Bool} {key value : Bytes} {ps : List (Bytes × Bytes)}

theorem cut_append {sep : UInt8} {u v : Bytes} (h : sep ∉ u) :
    cut sep (u ++ sep :: v) = (u, v) := by
  induction u with
  | nil => simp [cut]
  | cons b u ih =>
    rw [List.mem_cons, not_or] at h
    rw [List.cons_append, cut, if_neg (Ne.symm h.1), ih h.2]

/-- No digit is a delimiter. -/
theorem hexDigit_not_delimiter :
    ∀ d ∈ (List.range 16).map hexDigit, d ∉ delimiters := by
  have hall : ((List.range 16).map hexDigit).all (fun d => !delimiters.contains d) =
      true := by decide
  intro d hd
  simpa using List.all_eq_true.mp hall d hd

theorem not_mem_escape (hkeep : ∀ b ∈ delimiters, keep b = false) {x : UInt8}
    (hx : x ∈ delimiters) (hne : x ≠ 0x25) : x ∉ escape keep value := by
  intro hmem
  rcases mem_escape hmem with hk | rfl | hdigit
  · rw [hkeep x hx] at hk
    cases hk
  · exact hne rfl
  · exact hexDigit_not_delimiter x hdigit hx

theorem unescape_plain (h : Plain key) : unescape key = some key := by
  have hpercent : 0x25 ∉ key := h.2 0x25 (by decide)
  have hplus : 0x2B ∉ key := h.2 0x2B (by decide)
  clear h
  induction key with
  | nil => rfl
  | cons b key ih =>
    rw [List.mem_cons, not_or] at hpercent hplus
    rw [unescape_of_ne (Ne.symm hpercent.1), if_neg (Ne.symm hplus.1), ih hpercent.2 hplus.2]
    rfl

/-- A field is read as it was written. -/
theorem parsePair_pair (hkeep : ∀ b ∈ delimiters, keep b = false) (hkey : Plain key) :
    parsePair (pair keep (key, value)) = some (key, value) := by
  have hsemicolon : ¬ (pair keep (key, value) = [] ∨ 0x3B ∈ pair keep (key, value)) := by
    have hvalue : (0x3B : UInt8) ∉ escape keep value :=
      not_mem_escape hkeep (by decide) (by decide)
    have hname : (0x3B : UInt8) ∉ key := hkey.2 0x3B (by decide)
    simp [pair, hvalue, hname]
  have hcut : cut 0x3D (pair keep (key, value)) = (key, escape keep value) :=
    cut_append (hkey.2 0x3D (by decide))
  rw [parsePair, if_neg hsemicolon, hcut]
  simp only [unescape_plain hkey,
    unescape_escape (hkeep 0x25 (by decide)) (hkeep 0x2B (by decide))]

theorem parseQuery_query (hkeep : ∀ b ∈ delimiters, keep b = false) (hne : ps ≠ [])
    (hkeys : ∀ p ∈ ps, Plain p.1) : parseQuery (query keep ps) = ps := by
  have hpieces : ∀ piece ∈ ps.map (pair keep), (0x26 : UInt8) ∉ piece := by
    intro piece hpiece
    obtain ⟨p, hp, rfl⟩ := List.mem_map.mp hpiece
    have hvalue : (0x26 : UInt8) ∉ escape keep p.2 := not_mem_escape hkeep (by decide) (by decide)
    have hname : (0x26 : UInt8) ∉ p.1 := (hkeys p hp).2 0x26 (by decide)
    simp [pair, hvalue, hname]
  rw [parseQuery, query, List.splitOn_intercalate 0x26 hpieces (by simpa using hne)]
  clear hne hpieces
  induction ps with
  | nil => rfl
  | cons p ps ih =>
    rw [List.map_cons, List.filterMap_cons, parsePair_pair hkeep (hkeys p List.mem_cons_self)]
    simp only [ih fun q hq => hkeys q (List.mem_cons_of_mem _ hq)]

/-- A pass over a whole query string that keeps names and delimiters escapes the values. -/
theorem escape_query {keep' : UInt8 → Bool} (hdelimiters : ∀ b ∈ delimiters, keep' b = true)
    (hdigits : ∀ d ∈ (List.range 16).map hexDigit, keep' d = true)
    (hkeys : ∀ p ∈ ps, ∀ b ∈ p.1, keep' b = true) :
    escape keep' (query keep ps) = query (fun b => keep b && keep' b) ps := by
  have hpair : ∀ p ∈ ps, escape keep' (pair keep p) = pair (fun b => keep b && keep' b) p := by
    intro p hp
    rw [pair, escape_append, escape_of_keep (hkeys p hp), escape_cons, escapeByte,
      if_pos (hdelimiters 0x3D (by decide)),
      escape_escape (hdelimiters 0x25 (by decide)) hdigits]
    rfl
  unfold query
  clear hkeys
  induction ps with
  | nil => rfl
  | cons p ps ih =>
    have hhead := hpair p List.mem_cons_self
    have htail := ih fun q hq => hpair q (List.mem_cons_of_mem _ hq)
    cases ps with
    | nil => simpa using hhead
    | cons q ps =>
      have hsep : escape keep' [0x26] = [0x26] :=
        escape_of_keep (by simpa using hdelimiters 0x26 (by decide))
      simp only [List.map_cons, List.intercalate_cons_cons] at htail ⊢
      rw [escape_append, escape_append, hhead, hsep, htail]

end

end ConvoyChat.Lib.Percent
