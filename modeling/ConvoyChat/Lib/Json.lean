import Mathlib.Data.List.Basic

/-!
# Values in JSON

Writing a value without blanks and reading one, for any way to write and read its strings. A
program may hold strings in another form than the one it gets them from, so a value is over
the type of its strings, and a number is the text of its literal.

* `readString_of_body`: a string literal ends at the first quote that is not escaped.
* `parse_write`: a value is read as it was written, its strings by way of `f`.
* `member_map`: so are the members of an object.
-/

namespace ConvoyChat.Lib

/-- A value whose strings are of type `σ`. -/
inductive Json (σ : Type)
  | null
  | bool (b : Bool)
  | number (literal : List Char)
  | string (s : σ)
  | array (values : List (Json σ))
  | object (members : List (σ × Json σ))

namespace Json

variable {σ τ : Type}

mutual

/-- The value with its strings, and the keys of its objects, replaced. -/
def map (f : σ → τ) : Json σ → Json τ
  | .null => .null
  | .bool b => .bool b
  | .number literal => .number literal
  | .string s => .string (f s)
  | .array values => .array (mapElements f values)
  | .object members => .object (mapMembers f members)

def mapElements (f : σ → τ) : List (Json σ) → List (Json τ)
  | [] => []
  | v :: values => v.map f :: mapElements f values

def mapMembers (f : σ → τ) : List (σ × Json σ) → List (τ × Json τ)
  | [] => []
  | (key, v) :: members => (f key, v.map f) :: mapMembers f members

end

/-! ## Writing -/

mutual

/-- The text of a value; `quote` writes its strings. -/
def write (quote : σ → List Char) : Json σ → List Char
  | .null => ['n', 'u', 'l', 'l']
  | .bool true => ['t', 'r', 'u', 'e']
  | .bool false => ['f', 'a', 'l', 's', 'e']
  | .number literal => literal
  | .string s => quote s
  | .array [] => ['[', ']']
  | .array (v :: values) => '[' :: (v.write quote ++ writeElements quote values)
  | .object [] => ['{', '}']
  | .object ((key, v) :: members) =>
    '{' :: (quote key ++ ':' :: (v.write quote ++ writeMembers quote members))

/-- The elements behind the first, each with its comma, and the bracket. -/
def writeElements (quote : σ → List Char) : List (Json σ) → List Char
  | [] => [']']
  | v :: values => ',' :: (v.write quote ++ writeElements quote values)

/-- The members behind the first, each with its comma, and the brace. -/
def writeMembers (quote : σ → List Char) : List (σ × Json σ) → List Char
  | [] => ['}']
  | (key, v) :: members =>
    ',' :: (quote key ++ ':' :: (v.write quote ++ writeMembers quote members))

end

/-! ## Reading -/

/-- The white space between tokens. -/
def isBlank (c : Char) : Bool := c == ' ' || c == '\t' || c == '\n' || c == '\r'

def skip (text : List Char) : List Char := text.dropWhile isBlank

/-- What follows the token `c`. -/
def peel (c : Char) (text : List Char) : Option (List Char) :=
  match skip text with
  | d :: rest => if d = c then some rest else none
  | [] => none

/-- What follows a keyword. -/
def keyword : List Char → List Char → Option (List Char)
  | [], text => some text
  | c :: word, d :: text => if d = c then keyword word text else none
  | _ :: _, [] => none

/-- What stands before the first quote without a backslash, and what follows it. -/
def scan : List Char → Option (List Char × List Char)
  | [] => none
  | c :: text =>
    if c = '"' then some ([], text)
    else if c = '\\' then
      match text with
      | [] => none
      | e :: rest => (scan rest).map fun found => (c :: e :: found.1, found.2)
    else (scan text).map fun found => (c :: found.1, found.2)

/-- A string; `unquote` reads the literal, with its quotes. -/
def readString (unquote : List Char → Option τ) (text : List Char) : Option (τ × List Char) := do
  let found ← scan (← peel '"' text)
  return (← unquote ('"' :: (found.1 ++ ['"'])), found.2)

/-- One digit at least, and what follows the digits. -/
def scanDigits (text : List Char) : Option (List Char × List Char) :=
  if text.takeWhile Char.isDigit = [] then none
  else some (text.takeWhile Char.isDigit, text.dropWhile Char.isDigit)

/-- The digits before the point, without a leading zero. -/
def scanInt : List Char → Option (List Char × List Char)
  | [] => none
  | c :: text => if c = '0' then some ([c], text) else scanDigits (c :: text)

def scanFraction : List Char → Option (List Char × List Char)
  | [] => some ([], [])
  | c :: text =>
    if c = '.' then (scanDigits text).map fun found => (c :: found.1, found.2)
    else some ([], c :: text)

def scanExponent : List Char → Option (List Char × List Char)
  | [] => some ([], [])
  | c :: text =>
    if c = 'e' ∨ c = 'E' then
      match text with
      | [] => none
      | d :: rest =>
        if d = '+' ∨ d = '-' then (scanDigits rest).map fun found => (c :: d :: found.1, found.2)
        else (scanDigits text).map fun found => (c :: found.1, found.2)
    else some ([], c :: text)

/-- A literal without its sign. -/
def scanUnsigned (text : List Char) : Option (List Char × List Char) := do
  let int ← scanInt text
  let fraction ← scanFraction int.2
  let exponent ← scanExponent fraction.2
  return (int.1 ++ (fraction.1 ++ exponent.1), exponent.2)

/-- The literal of a number, and what follows it. -/
def scanNumber : List Char → Option (List Char × List Char)
  | [] => none
  | c :: text =>
    if c = '-' then (scanUnsigned text).map fun found => (c :: found.1, found.2)
    else scanUnsigned (c :: text)

mutual

/-- A value and what follows it. Every call is for a text that is shorter by a character at
    least, so the length of the text is enough fuel. -/
def readValue (unquote : List Char → Option τ) : ℕ → List Char → Option (Json τ × List Char)
  | 0, _ => none
  | fuel + 1, text =>
    match skip text with
    | [] => none
    | c :: rest =>
      if c = '"' then (readString unquote (c :: rest)).map fun read => (.string read.1, read.2)
      else if c = '[' then
        match peel ']' rest with
        | some after => some (.array [], after)
        | none => do
          let first ← readValue unquote fuel rest
          let others ← readElements unquote fuel first.2
          return (.array (first.1 :: others.1), others.2)
      else if c = '{' then
        match peel '}' rest with
        | some after => some (.object [], after)
        | none => do
          let key ← readString unquote rest
          let value ← readValue unquote fuel (← peel ':' key.2)
          let others ← readMembers unquote fuel value.2
          return (.object ((key.1, value.1) :: others.1), others.2)
      else if c = 'n' then (keyword ['u', 'l', 'l'] rest).map fun after => (.null, after)
      else if c = 't' then (keyword ['r', 'u', 'e'] rest).map fun after => (.bool true, after)
      else if c = 'f' then (keyword ['a', 'l', 's', 'e'] rest).map fun after => (.bool false, after)
      else (scanNumber (c :: rest)).map fun found => (.number found.1, found.2)

/-- The elements behind the first. -/
def readElements (unquote : List Char → Option τ) :
    ℕ → List Char → Option (List (Json τ) × List Char)
  | 0, _ => none
  | fuel + 1, text =>
    match peel ']' text with
    | some after => some ([], after)
    | none => do
      let first ← readValue unquote fuel (← peel ',' text)
      let others ← readElements unquote fuel first.2
      return (first.1 :: others.1, others.2)

/-- The members behind the first. -/
def readMembers (unquote : List Char → Option τ) :
    ℕ → List Char → Option (List (τ × Json τ) × List Char)
  | 0, _ => none
  | fuel + 1, text =>
    match peel '}' text with
    | some after => some ([], after)
    | none => do
      let key ← readString unquote (← peel ',' text)
      let value ← readValue unquote fuel (← peel ':' key.2)
      let others ← readMembers unquote fuel value.2
      return ((key.1, value.1) :: others.1, others.2)

end

/-- A text that is one value. -/
def parse (unquote : List Char → Option τ) (text : List Char) : Option (Json τ) := do
  let read ← readValue unquote text.length text
  if skip read.2 = [] then return read.1 else none

/-! ## Access -/

/-- The value of the last member with the key, as `JSON.parse` keeps it. -/
def member [DecidableEq σ] (key : σ) : Json σ → Option (Json σ)
  | .object members => (members.reverse.find? fun m => m.1 = key).map Prod.snd
  | _ => none

def asString : Json σ → Option σ
  | .string s => some s
  | _ => none

def asBool : Json σ → Option Bool
  | .bool b => some b
  | _ => none

def asArray : Json σ → Option (List (Json σ))
  | .array values => some values
  | _ => none

/-! How many arrays and objects stand in each other. -/

mutual

def depth : Json σ → ℕ
  | .array values => depthElements values + 1
  | .object members => depthMembers members + 1
  | _ => 0

def depthElements : List (Json σ) → ℕ
  | [] => 0
  | v :: values => max v.depth (depthElements values)

def depthMembers : List (σ × Json σ) → ℕ
  | [] => 0
  | (_, v) :: members => max v.depth (depthMembers members)

end

/-! ## Strings -/

section

variable {piece others text rest body : List Char} {c e : Char}

/-- What `scan` takes as a whole. -/
def Skipped (piece : List Char) : Prop :=
  ∀ text, scan (piece ++ text) = (scan text).map fun found => (piece ++ found.1, found.2)

theorem skipped_nil : Skipped [] := by
  intro text
  cases h : scan text <;> simp [h]

theorem Skipped.append (h : Skipped piece) (h' : Skipped others) : Skipped (piece ++ others) := by
  intro text
  rw [List.append_assoc, h, h']
  cases scan text <;> simp

theorem Skipped.cons (h : Skipped [c]) (h' : Skipped others) : Skipped (c :: others) := h.append h'

theorem skipped_flatMap {α : Type} {f : α → List Char} {items : List α}
    (h : ∀ a ∈ items, Skipped (f a)) : Skipped (items.flatMap f) := by
  induction items with
  | nil => exact skipped_nil
  | cons a items ih =>
    rw [List.flatMap_cons]
    exact (h a List.mem_cons_self).append (ih fun b hb => h b (List.mem_cons_of_mem _ hb))

theorem skipped_plain (hquote : c ≠ '"') (hbackslash : c ≠ '\\') : Skipped [c] := by
  intro text
  rw [List.singleton_append]
  conv_lhs =>
    unfold scan
    rw [if_neg hquote, if_neg hbackslash]
  rfl

theorem skipped_escaped (e : Char) : Skipped ['\\', e] := by
  intro text
  show scan ('\\' :: e :: text) = _
  conv_lhs =>
    unfold scan
    rw [if_neg (by decide), if_pos rfl]
  rfl

theorem Skipped.scan (h : Skipped body) (rest : List Char) :
    Json.scan (body ++ '"' :: rest) = some (body, rest) := by
  have hquote : Json.scan ('"' :: rest) = some ([], rest) := by
    unfold Json.scan
    rw [if_pos rfl]
  rw [h, hquote, Option.map_some, List.append_nil]

theorem skip_of_not_blank (h : isBlank c = false) : skip (c :: text) = c :: text := by
  rw [skip, List.dropWhile_cons_of_neg (by rw [h]; decide)]

theorem peel_self (h : isBlank c = false) : peel c (c :: text) = some text := by
  rw [peel, skip_of_not_blank h]
  exact if_pos rfl

theorem peel_of_ne (h : isBlank e = false) (hne : e ≠ c) : peel c (e :: text) = none := by
  rw [peel, skip_of_not_blank h]
  exact if_neg hne

/-- `quote` writes a literal, and `unquote` makes `f s` of the one for `s`. -/
structure Quotes (quote : σ → List Char) (unquote : List Char → Option τ) (f : σ → τ) : Prop where
  head : ∀ s, ∃ text, quote s = '"' :: text
  read : ∀ s rest, readString unquote (quote s ++ rest) = some (f s, rest)

/-- A literal that is one piece between its quotes is read as a whole. -/
theorem readString_of_body {unquote : List Char → Option τ} {s : τ} (h : Skipped body)
    (hread : unquote ('"' :: (body ++ ['"'])) = some s) (rest : List Char) :
    readString unquote ('"' :: (body ++ ['"']) ++ rest) = some (s, rest) := by
  have htext : '"' :: (body ++ ['"']) ++ rest = '"' :: (body ++ '"' :: rest) := by simp
  rw [readString, htext, peel_self rfl]
  simp only [Option.bind_eq_bind, Option.bind_some, h.scan rest, hread]
  rfl

end

/-! ## Numbers -/

section

variable {rest : List Char} {c : Char}

/-- Nothing that would go on with a number. -/
def Ends (rest : List Char) : Prop :=
  ∀ c ∈ rest.head?, c.isDigit = false ∧ c ≠ '.' ∧ c ≠ 'e' ∧ c ≠ 'E'

theorem ends_nil : Ends [] := by
  intro c hc
  cases hc

theorem ends_cons (hdigit : c.isDigit = false) (hdot : c ≠ '.') (he : c ≠ 'e') (hE : c ≠ 'E') :
    Ends (c :: rest) := by
  intro d hd
  cases hd
  exact ⟨hdigit, hdot, he, hE⟩

/-- The literal of a number. -/
structure IsNumber (literal : List Char) : Prop where
  head : ∃ c text, literal = c :: text ∧ (c = '-' ∨ c.isDigit = true)
  scan : ∀ rest, Ends rest → scanNumber (literal ++ rest) = some (literal, rest)

end

/-! ## Values -/

mutual

/-- Every number in the value is a literal. -/
def Sound : Json σ → Prop
  | .number literal => IsNumber literal
  | .array values => SoundElements values
  | .object members => SoundMembers members
  | _ => True

def SoundElements : List (Json σ) → Prop
  | [] => True
  | v :: values => v.Sound ∧ SoundElements values

def SoundMembers : List (σ × Json σ) → Prop
  | [] => True
  | (_, v) :: members => v.Sound ∧ SoundMembers members

end

section

variable {quote : σ → List Char} {unquote : List Char → Option τ} {f : σ → τ} {v : Json σ}
  {rest : List Char}

/-- What follows an element or a member is a comma or a bracket. -/
theorem ends_writeElements (values : List (Json σ)) :
    Ends (writeElements quote values ++ rest) := by
  cases values with
  | nil => exact ends_cons rfl (by decide) (by decide) (by decide)
  | cons v values => exact ends_cons rfl (by decide) (by decide) (by decide)

theorem ends_writeMembers (members : List (σ × Json σ)) :
    Ends (writeMembers quote members ++ rest) := by
  cases members with
  | nil => exact ends_cons rfl (by decide) (by decide) (by decide)
  | cons m members => exact ends_cons rfl (by decide) (by decide) (by decide)

/-- What a value starts with: no blank, and nothing that closes an array or an object. -/
theorem write_head (hquotes : Quotes quote unquote f) (h : v.Sound) :
    ∃ c text, v.write quote = c :: text ∧ isBlank c = false ∧ c ≠ ']' := by
  match v with
  | .null => exact ⟨_, _, rfl, rfl, by decide⟩
  | .bool true => exact ⟨_, _, rfl, rfl, by decide⟩
  | .bool false => exact ⟨_, _, rfl, rfl, by decide⟩
  | .number literal =>
    obtain ⟨⟨c, text, rfl, hc⟩, -⟩ := h
    refine ⟨c, text, rfl, ?_, ?_⟩
    · unfold isBlank
      rcases hc with rfl | hc
      · rfl
      · simp only [Bool.or_eq_false_iff, beq_eq_false_iff_ne, ne_eq]
        refine ⟨⟨⟨?_, ?_⟩, ?_⟩, ?_⟩ <;> (rintro rfl; cases hc)
    · rintro rfl
      rcases hc with hc | hc
      · exact absurd hc (by decide)
      · cases hc
  | .string s =>
    obtain ⟨text, htext⟩ := hquotes.head s
    exact ⟨'"', text, htext, rfl, by decide⟩
  | .array [] => exact ⟨_, _, rfl, rfl, by decide⟩
  | .array (_ :: _) => exact ⟨_, _, rfl, rfl, by decide⟩
  | .object [] => exact ⟨_, _, rfl, rfl, by decide⟩
  | .object ((_, _) :: _) => exact ⟨_, _, rfl, rfl, by decide⟩

/-- A literal of a number is not taken for something else. -/
theorem readValue_number {literal : List Char} (fuel : ℕ) (h : IsNumber literal)
    (hrest : Ends rest) :
    readValue unquote (fuel + 1) (literal ++ rest) = some (.number literal, rest) := by
  have hscan := h.scan rest hrest
  obtain ⟨⟨c, text, rfl, hc⟩, -⟩ := h
  have hne : ∀ d : Char, d.isDigit = false → d ≠ '-' → c ≠ d := by
    rintro d hd hsign rfl
    rcases hc with hc | hc
    · exact hsign hc
    · rw [hd] at hc
      cases hc
  have hblank : isBlank c = false := by
    simp only [isBlank, Bool.or_eq_false_iff, beq_eq_false_iff_ne]
    exact ⟨⟨⟨hne ' ' rfl (by decide), hne '\t' rfl (by decide)⟩, hne '\n' rfl (by decide)⟩,
      hne '\r' rfl (by decide)⟩
  rw [List.cons_append] at hscan ⊢
  rw [readValue, skip_of_not_blank hblank]
  simp only [hne '"' rfl (by decide), hne '[' rfl (by decide), hne '{' rfl (by decide),
    hne 'n' rfl (by decide), hne 't' rfl (by decide), hne 'f' rfl (by decide), if_false, hscan,
    Option.map_some]

theorem readValue_string (hquotes : Quotes quote unquote f) (fuel : ℕ) (s : σ) :
    readValue unquote (fuel + 1) (quote s ++ rest) = some (.string (f s), rest) := by
  have hread := hquotes.read s rest
  obtain ⟨text, htext⟩ := hquotes.head s
  rw [htext, List.cons_append] at hread ⊢
  rw [readValue, skip_of_not_blank rfl]
  simp only [if_true, hread, Option.map_some]

theorem length_pos_write (hquotes : Quotes quote unquote f) (h : v.Sound) :
    0 < (v.write quote).length := by
  obtain ⟨c, text, htext, -, -⟩ := write_head hquotes h
  rw [htext]
  exact Nat.succ_pos _

/-- An array whose first element is read. -/
theorem readValue_array {fuel : ℕ} {text after : List Char} {first : Json τ}
    {others : List (Json τ)}
    (hpeel : peel ']' text = none) (hfirst : readValue unquote fuel text = some (first, after))
    (hothers : readElements unquote fuel after = some (others, rest)) :
    readValue unquote (fuel + 1) ('[' :: text) = some (.array (first :: others), rest) := by
  rw [readValue, skip_of_not_blank rfl]
  simp only [show ('[' : Char) ≠ '"' by decide, if_false, if_true, hpeel, hfirst, hothers,
    Option.bind_eq_bind, Option.bind_some]
  rfl

/-- An object whose first member is read. -/
theorem readValue_object {fuel : ℕ} {text behind value after : List Char} {key : τ} {first : Json τ}
    {others : List (τ × Json τ)} (hpeel : peel '}' text = none)
    (hkey : readString unquote text = some (key, behind)) (hcolon : peel ':' behind = some value)
    (hfirst : readValue unquote fuel value = some (first, after))
    (hothers : readMembers unquote fuel after = some (others, rest)) :
    readValue unquote (fuel + 1) ('{' :: text) = some (.object ((key, first) :: others), rest) := by
  rw [readValue, skip_of_not_blank rfl]
  simp only [show ('{' : Char) ≠
    '"' by decide, show ('{' : Char) ≠ '[' by decide, if_false, if_true,
    hpeel, hkey, hcolon, hfirst, hothers, Option.bind_eq_bind, Option.bind_some]
  rfl

mutual

/-- What was written is read, whatever follows it. -/
theorem readValue_write (hquotes : Quotes quote unquote f) (v : Json σ) (fuel : ℕ)
    (rest : List Char) (hv : v.Sound) (hfuel : (v.write quote).length ≤ fuel) (hrest : Ends rest) :
    readValue unquote fuel (v.write quote ++ rest) = some (v.map f, rest) := by
  obtain ⟨fuel, rfl⟩ : ∃ n, fuel = n + 1 :=
    Nat.exists_eq_succ_of_ne_zero (by have := length_pos_write hquotes hv; omega)
  match v with
  | .null => rfl
  | .bool true => rfl
  | .bool false => rfl
  | .number literal => exact readValue_number fuel hv hrest
  | .string s => exact readValue_string hquotes fuel s
  | .array [] => rfl
  | .array (v :: values) =>
    obtain ⟨hfirst, hothers⟩ := hv
    simp only [write, List.length_cons, List.length_append] at hfuel
    have hread :=
      readValue_write hquotes v fuel (writeElements quote values ++ rest) hfirst (by omega)
      (ends_writeElements values)
    have helements := readElements_write hquotes values fuel rest hothers (by omega)
    have hpeel : peel ']' (v.write quote ++ (writeElements quote values ++ rest)) = none := by
      obtain ⟨c, text, htext, hblank, hne⟩ := write_head hquotes hfirst
      rw [htext]
      exact peel_of_ne hblank hne
    rw [write, List.cons_append, List.append_assoc]
    exact readValue_array hpeel hread helements
  | .object [] => rfl
  | .object ((key, v) :: members) =>
    obtain ⟨hfirst, hothers⟩ := hv
    simp only [write, List.length_cons, List.length_append] at hfuel
    have hread :=
      readValue_write hquotes v fuel (writeMembers quote members ++ rest) hfirst (by omega)
      (ends_writeMembers members)
    have hmembers := readMembers_write hquotes members fuel rest hothers (by omega)
    have hkey := hquotes.read key (':' :: (v.write quote ++ (writeMembers quote members ++ rest)))
    have hpeel :
        peel '}' (quote key ++ ':' :: (v.write quote ++ (writeMembers quote members ++ rest))) =
        none := by
      obtain ⟨text, htext⟩ := hquotes.head key
      rw [htext]
      exact peel_of_ne rfl (by decide)
    have hcolon : peel ':' (':' :: (v.write quote ++ (writeMembers quote members ++ rest))) =
        some (v.write quote ++ (writeMembers quote members ++ rest)) := peel_self rfl
    have hassoc : (Json.object ((key, v) :: members)).write quote ++ rest =
        '{' :: (quote key ++ ':' :: (v.write quote ++ (writeMembers quote members ++ rest))) := by
      simp only [write, List.cons_append, List.append_assoc]
    rw [hassoc]
    exact readValue_object hpeel hkey hcolon hread hmembers

theorem readElements_write (hquotes : Quotes quote unquote f) (values : List (Json σ)) (fuel : ℕ)
    (rest : List Char) (hvalues : SoundElements values)
    (hfuel : (writeElements quote values).length ≤ fuel) :
    readElements unquote fuel (writeElements quote values ++ rest) =
      some (mapElements f values, rest) := by
  match values, fuel with
  | [], 0 => simp [writeElements] at hfuel
  | [], fuel + 1 =>
    have hpeel : peel ']' (']' :: rest) = some rest := peel_self rfl
    rw [writeElements, List.singleton_append, readElements, hpeel]
    rfl
  | v :: values, 0 => simp [writeElements] at hfuel
  | v :: values, fuel + 1 =>
    obtain ⟨hfirst, hothers⟩ := hvalues
    simp only [writeElements, List.length_cons, List.length_append] at hfuel
    have hread :=
      readValue_write hquotes v fuel (writeElements quote values ++ rest) hfirst (by omega)
      (ends_writeElements values)
    have helements := readElements_write hquotes values fuel rest hothers (by omega)
    have hclose : peel ']' (',' :: (v.write quote ++ (writeElements quote values ++ rest))) =
        none :=
      peel_of_ne rfl (by decide)
    have hcomma : peel ',' (',' :: (v.write quote ++ (writeElements quote values ++ rest))) =
        some (v.write quote ++ (writeElements quote values ++ rest)) := peel_self rfl
    rw [writeElements, List.cons_append, List.append_assoc, readElements, hclose]
    simp only [hcomma, hread, helements, Option.bind_eq_bind, Option.bind_some]
    rfl

theorem readMembers_write (hquotes : Quotes quote unquote f)
    (members : List (σ × Json σ)) (fuel : ℕ) (rest : List Char) (hmembers : SoundMembers members)
    (hfuel : (writeMembers quote members).length ≤ fuel) :
    readMembers unquote fuel (writeMembers quote members ++ rest) =
      some (mapMembers f members, rest) := by
  match members, fuel with
  | [], 0 => simp [writeMembers] at hfuel
  | [], fuel + 1 =>
    have hpeel : peel '}' ('}' :: rest) = some rest := peel_self rfl
    rw [writeMembers, List.singleton_append, readMembers, hpeel]
    rfl
  | (key, v) :: members, 0 => simp [writeMembers] at hfuel
  | (key, v) :: members, fuel + 1 =>
    obtain ⟨hfirst, hothers⟩ := hmembers
    simp only [writeMembers, List.length_cons, List.length_append] at hfuel
    have hread :=
      readValue_write hquotes v fuel (writeMembers quote members ++ rest) hfirst (by omega)
      (ends_writeMembers members)
    have hbehind := readMembers_write hquotes members fuel rest hothers (by omega)
    have hkey := hquotes.read key (':' :: (v.write quote ++ (writeMembers quote members ++ rest)))
    have hclose : peel '}' (',' :: (quote key ++ ':' :: (v.write quote ++
        (writeMembers quote members ++ rest)))) = none := peel_of_ne rfl (by decide)
    have hcomma : peel ',' (',' :: (quote key ++ ':' :: (v.write quote ++
        (writeMembers quote members ++ rest)))) =
        some (quote key ++ ':' :: (v.write quote ++ (writeMembers quote members ++ rest))) :=
          peel_self rfl
    have hcolon : peel ':' (':' :: (v.write quote ++ (writeMembers quote members ++ rest))) =
        some (v.write quote ++ (writeMembers quote members ++ rest)) := peel_self rfl
    have hassoc : writeMembers quote ((key, v) :: members) ++ rest =
        ',' :: (quote key ++ ':' :: (v.write quote ++ (writeMembers quote members ++ rest))) := by
      simp only [writeMembers, List.cons_append, List.append_assoc]
    rw [hassoc, readMembers, hclose]
    simp only [hcomma, hkey, hcolon, hread, hbehind, Option.bind_eq_bind, Option.bind_some]
    rfl

end

/-- Reading back what was written. -/
theorem parse_write (hquotes : Quotes quote unquote f) (h : v.Sound) :
    parse unquote (v.write quote) = some (v.map f) := by
  have hread := readValue_write hquotes v (v.write quote).length [] h (Nat.le_refl _) ends_nil
  rw [List.append_nil] at hread
  rw [parse, hread]
  simp only [Option.bind_eq_bind, Option.bind_some]
  exact if_pos rfl

end

/-! ## Members -/

section

variable {f : σ → τ}

theorem mapMembers_eq (members : List (σ × Json σ)) :
    mapMembers f members = members.map fun m => (f m.1, m.2.map f) := by
  induction members with
  | nil => rfl
  | cons m members ih =>
    rw [mapMembers, List.map_cons, ih]

variable [DecidableEq σ] [DecidableEq τ]

theorem find?_map (hf : f.Injective) (key : σ) (members : List (σ × Json σ)) :
    (members.map fun m => (f m.1, m.2.map f)).find? (fun m => m.1 = f key) =
      (members.find? fun m => m.1 = key).map fun m => (f m.1, m.2.map f) := by
  induction members with
  | nil => rfl
  | cons m members ih =>
    rw [List.map_cons]
    by_cases hkey : m.1 = key
    · rw [List.find?_cons_of_pos (by simp [hkey]), List.find?_cons_of_pos (by simp [hkey])]
      rfl
    · have hne : f m.1 ≠ f key := fun heq => hkey (hf heq)
      rw [List.find?_cons_of_neg (by simp [hne]), List.find?_cons_of_neg (by simp [hkey]), ih]

theorem member_object (key : σ) (members : List (σ × Json σ)) :
    (Json.object members).member key = (members.reverse.find? fun m => m.1 = key).map Prod.snd :=
      rfl

/-- A member is found under the key's image. -/
theorem member_map (hf : f.Injective) (key : σ) (v : Json σ) :
    (v.map f).member (f key) = (v.member key).map (map f) := by
  cases v with
  | object members =>
    rw [map, member, mapMembers_eq, ← List.map_reverse, find?_map hf, member, Option.map_map,
      Option.map_map]
    rfl
  | _ => rfl

end

end Json

end ConvoyChat.Lib
