import ConvoyChat.Lib.Utf16

/-!
# Strings in JSON

`quote` is `QuoteJSONString` of ECMAScript, which escapes lone surrogates, and `unquote` what
`encoding/json` makes of a string literal; `writeObject` is an object of strings.

* `unquote_quote`: what is read back is the characters of the text.
* `utf8Len_quote_le`, `utf8Len_writeObject_le`: a code unit takes at most six bytes.
-/

namespace ConvoyChat.Lib.JsonString

open ConvoyChat.Lib.Utf16

/-! ## Writing -/

/-- `UnicodeEscape`. -/
def unicodeEscape (u : UInt16) : List Char :=
  ['\\', 'u', Nat.digitChar (u.toNat / 4096), Nat.digitChar (u.toNat / 256 % 16),
    Nat.digitChar (u.toNat / 16 % 16), Nat.digitChar (u.toNat % 16)]

/-- The letter that stands for `c` behind a backslash. -/
def shortEscape (c : Char) : Option Char :=
  if c = '\x08' then some 'b'
  else if c = '\t' then some 't'
  else if c = '\n' then some 'n'
  else if c = '\x0c' then some 'f'
  else if c = '\r' then some 'r'
  else if c = '"' then some '"'
  else if c = '\\' then some '\\'
  else none

def escape : CodePoint → List Char
  | .lone u _ => unicodeEscape u
  | .char c =>
    match shortEscape c with
    | some e => ['\\', e]
    | none => if c.toNat < 0x20 then unicodeEscape (UInt16.ofNat c.toNat) else [c]

/-- `QuoteJSONString`. -/
def quote (units : List UInt16) : List Char := '"' :: ((codePoints units).flatMap escape ++ ['"'])

/-- The code units of a text in ASCII. -/
def asciiUnits (text : String) : List UInt16 := text.toList.map fun c => UInt16.ofNat c.toNat

/-- The members of an object behind the first, each with its comma. -/
def writeMembers : List (String × List UInt16) → List Char
  | [] => []
  | (key, value) :: members =>
    ',' :: (quote (asciiUnits key) ++ ':' :: (quote value ++ writeMembers members))

/-- `SerializeJSONObject` of an object whose values are strings. -/
def writeObject : List (String × List UInt16) → List Char
  | [] => ['{', '}']
  | (key, value) :: members =>
    '{' :: (quote (asciiUnits key) ++ ':' :: (quote value ++ (writeMembers members ++ ['}'])))

/-! ## Reading -/

/-- A hexadecimal digit, in either case. -/
def fromHex (c : Char) : Option ℕ :=
  if '0' ≤ c ∧ c ≤ '9' then some (c.toNat - 48)
  else if 'a' ≤ c ∧ c ≤ 'f' then some (c.toNat - 87)
  else if 'A' ≤ c ∧ c ≤ 'F' then some (c.toNat - 55)
  else none

/-- `getu4`: the unit of an escape at the start of the text. -/
def getu4 : List Char → Option UInt16
  | '\\' :: 'u' :: a :: b :: c :: d :: _ => do
    return UInt16.ofNat ((((← fromHex a) * 16 + (← fromHex b)) * 16 + (← fromHex c)) *
      16 + (← fromHex d))
  | _ => none

/-- The character that a letter behind a backslash stands for. -/
def longEscape (e : Char) : Option Char :=
  if e = 'b' then some '\x08'
  else if e = 't' then some '\t'
  else if e = 'n' then some '\n'
  else if e = 'f' then some '\x0c'
  else if e = 'r' then some '\r'
  else if e = '"' ∨ e = '\\' ∨ e = '/' then some e
  else none

/-- The loop of `unquoteBytes` on what stands between the quotes; every round takes a
    character at least. -/
def unquoteLoop : ℕ → List Char → Option (List Char)
  | _, [] => some []
  | 0, _ => none
  | fuel + 1, c :: text =>
    if c = '\\' then
      match text with
      | [] => none
      | e :: rest =>
        if e = 'u' then do
          let u ← getu4 (c :: text)
          match getu4 (rest.drop 4) with
          | some v =>
            if IsHigh u ∧ IsLow v then return pairChar u v :: (← unquoteLoop fuel (rest.drop 10))
            else return (single u).scalar :: (← unquoteLoop fuel (rest.drop 4))
          | none => return (single u).scalar :: (← unquoteLoop fuel (rest.drop 4))
        else do return (← longEscape e) :: (← unquoteLoop fuel rest)
    else if c = '"' ∨ c.toNat < 0x20 then none
    else do return c :: (← unquoteLoop fuel text)

/-- `unquoteBytes`. -/
def unquote : List Char → Option (List Char)
  | [] => none
  | c :: text =>
    if c = '"' ∧ text.getLast? = some '"' then unquoteLoop text.length text.dropLast else none

section

variable {u v : UInt16} {c e : Char} {rest : List Char} {cps : List CodePoint}

/-! ## Reading back -/

theorem fromHex_digitChar {n : ℕ} (h : n < 16) : fromHex (Nat.digitChar n) = some n := by
  have hall : ∀ i : Fin 16, fromHex (Nat.digitChar i) = some i.val := by decide
  exact hall ⟨n, h⟩

theorem getu4_unicodeEscape (u : UInt16) (rest : List Char) :
    getu4 (unicodeEscape u ++ rest) = some u := by
  have hu := u.toNat_lt
  simp only [unicodeEscape, List.cons_append, List.nil_append, getu4]
  rw [fromHex_digitChar (by omega), fromHex_digitChar (by omega), fromHex_digitChar (by omega),
    fromHex_digitChar (by omega)]
  have hvalue : ((u.toNat / 4096 * 16 + u.toNat / 256 % 16) * 16 + u.toNat / 16 % 16) *
    16 + u.toNat % 16 =
      u.toNat := by omega
  show some (UInt16.ofNat _) = some u
  rw [hvalue, UInt16.ofNat_toNat]

theorem longEscape_of_short (h : shortEscape c = some e) : longEscape e = some c ∧ e ≠ 'u' := by
  unfold shortEscape at h
  split_ifs at h with h1 h2 h3 h4 h5 h6 h7 <;> (cases h; subst c; decide)

theorem ne_of_plain (h : shortEscape c = none) : c ≠ '\\' ∧ c ≠ '"' := by
  constructor
  · rintro rfl
    simp [shortEscape] at h
  · rintro rfl
    simp [shortEscape] at h

/-- Without a backslash and a `u` there is no unit. -/
theorem getu4_of_ne (h : c = '\\' → e ≠ 'u') : getu4 (c :: e :: rest) = none := by
  unfold getu4
  split
  · next heq =>
    simp only [List.cons.injEq] at heq
    exact absurd heq.2.1 (h heq.1)
  · rfl

/-- An escaped control character is itself again. -/
theorem ofNat_toNat (h : c.toNat < 0x20) : (UInt16.ofNat c.toNat).toNat = c.toNat := by
  rw [UInt16.toNat_ofNat']
  omega

/-- Only a lone low surrogate is written as the escape of one. -/
theorem lone_of_getu4 (h : getu4 (cps.flatMap escape) = some v) (hlow : IsLow v) :
    ∃ hv rest, cps = .lone v hv :: rest := by
  cases cps with
  | nil => simp [getu4] at h
  | cons cp cps =>
    rw [List.flatMap_cons] at h
    cases cp with
    | lone u hu =>
      rw [escape, getu4_unicodeEscape] at h
      cases h
      exact ⟨hu, cps, rfl⟩
    | char c =>
      cases hshort : shortEscape c with
      | some e =>
        rw [escape, hshort] at h
        rw [List.cons_append, List.singleton_append,
          getu4_of_ne fun _ => (longEscape_of_short hshort).2] at h
        cases h
      | none =>
        rw [escape, hshort] at h
        simp only at h
        split_ifs at h with hcontrol
        · rw [getu4_unicodeEscape] at h
          have hlarge : 0xDC00 ≤ (UInt16.ofNat c.toNat).toNat := by
            cases h
            exact hlow.1
          rw [ofNat_toNat hcontrol] at hlarge
          omega
        · cases htail : cps.flatMap escape with
          | nil => simp [htail, getu4] at h
          | cons e rest =>
            rw [htail, List.singleton_append,
              getu4_of_ne fun hc => absurd hc (ne_of_plain hshort).1] at h
            cases h

/-- A letter behind a backslash. -/
theorem unquoteLoop_short (fuel : ℕ) (rest : List Char) (h : shortEscape c = some e) :
    unquoteLoop (fuel + 1) ('\\' :: e :: rest) = (unquoteLoop fuel rest).map (c :: ·) := by
  obtain ⟨hlong, hne⟩ := longEscape_of_short h
  rw [unquoteLoop, if_pos rfl, if_neg hne, hlong]
  cases unquoteLoop fuel rest <;> rfl

/-- A character that is written as it is. -/
theorem unquoteLoop_plain (fuel : ℕ) (rest : List Char) (h : shortEscape c = none)
    (hc : ¬ c.toNat < 0x20) :
    unquoteLoop (fuel + 1) (c :: rest) = (unquoteLoop fuel rest).map (c :: ·) := by
  obtain ⟨hbackslash, hquote⟩ := ne_of_plain h
  rw [unquoteLoop.eq_def]
  simp only [if_neg hbackslash, hquote, hc, or_self, if_false]
  cases unquoteLoop fuel rest <;> rfl

/-- An escaped unit that is not the first half of what follows. -/
theorem unquoteLoop_unicode (fuel : ℕ) (h : ∀ v, getu4 rest = some v → ¬ (IsHigh u ∧ IsLow v)) :
    unquoteLoop (fuel + 1) (unicodeEscape u ++ rest) =
      (unquoteLoop fuel rest).map ((single u).scalar :: ·) := by
  have hget := getu4_unicodeEscape u rest
  simp only [unicodeEscape, List.cons_append, List.nil_append] at hget ⊢
  rw [unquoteLoop, if_pos rfl]
  simp only [if_true, hget, List.drop_succ_cons, List.drop_zero, Option.bind_eq_bind,
    Option.bind_some]
  cases hrest : getu4 rest with
  | none => cases unquoteLoop fuel rest <;> rfl
  | some v =>
    simp only [if_neg (h v hrest)]
    cases unquoteLoop fuel rest <;> rfl

/-- Where a code point is written, it is read. -/
theorem unquoteLoop_escape (fuel : ℕ) (cp : CodePoint)
    (h : ∀ u hu v, cp = .lone u hu → getu4 rest = some v → ¬ (IsHigh u ∧ IsLow v)) :
    unquoteLoop (fuel + 1) (escape cp ++ rest) = (unquoteLoop fuel rest).map (cp.scalar :: ·) := by
  cases cp with
  | lone u hu =>
    rw [escape, unquoteLoop_unicode fuel fun v => h u hu v rfl, single_of_surrogate hu]
  | char c =>
    cases hshort : shortEscape c with
    | some e =>
      simp only [escape, hshort]
      exact unquoteLoop_short fuel rest hshort
    | none =>
      simp only [escape, hshort]
      split_ifs with hcontrol
      · have hvalue := ofNat_toNat hcontrol
        have hhigh : ¬ IsHigh (UInt16.ofNat c.toNat) := by
          unfold IsHigh
          omega
        have hsurrogate : ¬ IsSurrogate (UInt16.ofNat c.toNat) := by
          unfold IsSurrogate
          omega
        rw [unquoteLoop_unicode fuel fun v _ hpair => hhigh hpair.1,
          single_of_not_surrogate hsurrogate, hvalue, Char.ofNat_toNat]
      · exact unquoteLoop_plain fuel rest hshort hcontrol

/-- `a` and `b` are not the halves of a pair. -/
def Apart (a b : CodePoint) : Prop :=
  ∀ u hu v hv, a = .lone u hu → b = .lone v hv → ¬ (IsHigh u ∧ IsLow v)

theorem unquoteLoop_flatMap {fuel : ℕ} (hapart : cps.IsChain Apart) (hfuel : cps.length ≤ fuel) :
    unquoteLoop fuel (cps.flatMap escape) = some (cps.map CodePoint.scalar) := by
  induction cps generalizing fuel with
  | nil => cases fuel <;> rfl
  | cons cp cps ih =>
    cases fuel with
    | zero => simp at hfuel
    | succ fuel =>
      rw [List.flatMap_cons, unquoteLoop_escape]
      · rw [ih hapart.of_cons (by simpa using hfuel)]
        rfl
      · rintro u hu v rfl hget hpair
        obtain ⟨hv, rest, rfl⟩ := lone_of_getu4 hget hpair.2
        exact (List.isChain_cons_cons.mp hapart).1 u hu v hv rfl rfl hpair

theorem eq_of_single {hv : IsSurrogate v} (h : single u = .lone v hv) : u = v := by
  unfold single at h
  split_ifs at h
  exact (CodePoint.lone.inj h)

theorem eq_of_head {units : List UInt16} {hv : IsSurrogate v}
    (h : codePoints (u :: units) = .lone v hv :: cps) : u = v := by
  cases units with
  | nil => exact eq_of_single (List.cons.inj h).1
  | cons w units =>
    rw [codePoints] at h
    split_ifs at h
    · cases (List.cons.inj h).1
    · exact eq_of_single (List.cons.inj h).1

/-- Halves that stand next to each other are read as a pair. -/
theorem isChain_codePoints (units : List UInt16) : (codePoints units).IsChain Apart := by
  fun_induction codePoints units with
  | case1 => exact .nil
  | case2 u => exact .singleton _
  | case3 u v units h ih =>
    cases hrest : codePoints units with
    | nil => exact .singleton _
    | cons cp cps =>
      rw [hrest] at ih
      refine .cons_cons ?_ ih
      intro a ha b hb hchar
      cases hchar
  | case4 u v units h ih =>
    cases hrest : codePoints (v :: units) with
    | nil => exact .singleton _
    | cons cp cps =>
      rw [hrest] at ih
      refine .cons_cons ?_ ih
      intro a ha b hb hfirst hsecond hpair
      rw [hsecond] at hrest
      rw [eq_of_single hfirst, eq_of_head hrest] at h
      exact h hpair

theorem length_le_escaped (cps : List CodePoint) : cps.length ≤ (cps.flatMap escape).length := by
  induction cps with
  | nil => simp
  | cons cp cps ih =>
    have hone : 1 ≤ (escape cp).length := by
      unfold escape unicodeEscape
      split
      · simp
      · split
        · simp
        · split_ifs <;> simp
    simp only [List.flatMap_cons, List.length_cons, List.length_append]
    omega

/-- Reading back what was written. -/
theorem unquote_quote (units : List UInt16) : unquote (quote units) = some (decode units) := by
  rw [quote, unquote, if_pos (by simp), List.dropLast_concat]
  refine unquoteLoop_flatMap (isChain_codePoints units) ?_
  have hlength := length_le_escaped (codePoints units)
  rw [List.length_append]
  omega

/-! ## Lengths -/

theorem utf8Len_unicodeEscape (u : UInt16) : String.utf8Len (unicodeEscape u) = 6 := by
  have hdigit : ∀ i : Fin 16, (Nat.digitChar i).utf8Size = 1 := by decide
  have hsize : ∀ {n : ℕ}, n < 16 → (Nat.digitChar n).utf8Size = 1 := fun {n} h => hdigit ⟨n, h⟩
  have hu := u.toNat_lt
  simp only [unicodeEscape, String.utf8Len_cons, String.utf8Len_nil]
  rw [hsize (by omega), hsize (by omega), hsize (by omega), hsize (by omega)]
  rfl

theorem utf8Len_escape_le (cp : CodePoint) : String.utf8Len (escape cp) ≤ 6 * cp.width := by
  cases cp with
  | lone u hu =>
    rw [escape, utf8Len_unicodeEscape]
    exact le_refl 6
  | char c =>
    have hwidth : 1 ≤ (CodePoint.char c).width := by
      show 1 ≤ if c.toNat < 0x10000 then 1 else 2
      split_ifs <;> simp
    cases hshort : shortEscape c with
    | some e =>
      have he : e.utf8Size = 1 := by
        unfold shortEscape at hshort
        split_ifs at hshort <;> (cases hshort; rfl)
      simp only [escape, hshort, String.utf8Len_cons, String.utf8Len_nil, he]
      show 0 + 1 + 1 ≤ _
      omega
    | none =>
      simp only [escape, hshort]
      split_ifs with hcontrol
      · rw [utf8Len_unicodeEscape]
        omega
      · have hsize := Char.utf8Size_le_four c
        simp only [String.utf8Len_cons, String.utf8Len_nil]
        omega

theorem utf8Len_quote_le (units : List UInt16) :
    String.utf8Len (quote units) ≤ 6 * units.length + 2 := by
  have hbody : ∀ cps : List CodePoint,
      String.utf8Len (cps.flatMap escape) ≤ 6 * (cps.map CodePoint.width).sum := by
    intro cps
    induction cps with
    | nil => simp
    | cons cp cps ih =>
      have hcp := utf8Len_escape_le cp
      rw [List.flatMap_cons, String.utf8Len_append, List.map_cons, List.sum_cons]
      omega
  have hunits := hbody (codePoints units)
  rw [length_codePoints] at hunits
  rw [quote, String.utf8Len_cons, String.utf8Len_append]
  show _ + 1 + 1 ≤ _
  omega

@[simp] theorem length_asciiUnits (text : String) : (asciiUnits text).length = text.length := by
  rw [asciiUnits, List.length_map, String.length_toList]

/-- The bytes of a member, when every unit is escaped. -/
def memberBound (member : String × List UInt16) : ℕ := 6 * (member.1.length + member.2.length) + 6

theorem utf8Len_member_le (key : String) (value : List UInt16) :
    String.utf8Len (quote (asciiUnits key)) + String.utf8Len (quote value) + 2 ≤
      memberBound (key, value) := by
  have hkey := utf8Len_quote_le (asciiUnits key)
  have hvalue := utf8Len_quote_le value
  rw [length_asciiUnits] at hkey
  show _ ≤ 6 * (key.length + value.length) + 6
  omega

theorem utf8Len_writeMembers_le (members : List (String × List UInt16)) :
    String.utf8Len (writeMembers members) ≤ (members.map memberBound).sum := by
  induction members with
  | nil => simp [writeMembers]
  | cons member members ih =>
    obtain ⟨key, value⟩ := member
    have hmember := utf8Len_member_le key value
    simp only [writeMembers, String.utf8Len_cons, String.utf8Len_append,
      List.map_cons, List.sum_cons]
    show _ + (_ + _ + 1) + 1 ≤ _
    omega

theorem utf8Len_writeObject_le (members : List (String × List UInt16)) :
    String.utf8Len (writeObject members) ≤ (members.map memberBound).sum + 2 := by
  cases members with
  | nil => exact le_refl 2
  | cons member members =>
    obtain ⟨key, value⟩ := member
    have hmember := utf8Len_member_le key value
    have hmembers := utf8Len_writeMembers_le members
    simp only [writeObject, String.utf8Len_cons, String.utf8Len_append,
      List.map_cons, List.sum_cons]
    show _ + (_ + (_ + 1) + 1) + 1 ≤ _
    omega

end

end ConvoyChat.Lib.JsonString
