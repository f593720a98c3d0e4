import ConvoyChat.Lib.Calendar
import ConvoyChat.Lib.Decimals

/-!
# Reading RFC 3339 timestamps

The strict reader of a timestamp such as `2006-01-02T15:04:05.25+01:00`: numbers of fixed
width in their ranges, the separators, a fraction of any length of which nine digits
count, and a zone. It yields the nanoseconds from the start of year 0 in UTC.

* `number_civil`: the day of a date.
* `parseUint_pad`: a number of fixed width is read as it was written.
* `nanoseconds_fraction`: so is a fraction without the zeros at its end.
* `parseZone_zoneText`: so is the offset of a zone.
* `parseRFC3339_written`: and so is a timestamp in any zone.
-/

namespace ConvoyChat.Lib

/-! ## Dates -/

/-- The day of a date. -/
def Date.number (d : Date) : ℕ :=
  daysBefore d.year + monthStart (isLeap d.year) (d.month - 1) + (d.day - 1)

/-- The length of a month, which counts from 1. -/
def daysIn (year month : ℕ) : ℕ := (monthDays (isLeap year)).getD (month - 1) 0

theorem number_civil (d : ℕ) : (civil d).number = d := by
  have hyear := (yearOf_spec d).1
  have hmonth := (monthOf_spec d).1
  simp only [Date.number, civil, Nat.add_sub_cancel]
  omega

theorem monthStart_succ (leap : Bool) {month : ℕ} (h : month ≤ 11) :
    monthStart leap (month + 1) = monthStart leap month + (monthDays leap).getD month 0 := by
  have hall : ∀ (leap : Bool) (month : Fin 12), monthStart leap (month.val + 1) =
      monthStart leap month.val + (monthDays leap).getD month.val 0 := by decide
  exact hall leap ⟨month, by omega⟩

/-- The day of a date is a day of its month. -/
theorem civil_day (d : ℕ) :
    1 ≤ (civil d).day ∧ (civil d).day ≤ daysIn (civil d).year (civil d).month := by
  have hmonth : monthOf (yearOf d) (d - daysBefore (yearOf d)) ≤ 11 := unitOf_le
  have hspec := monthOf_spec d
  rw [monthStart_succ _ hmonth] at hspec
  simp only [civil, daysIn, Nat.add_sub_cancel]
  omega

/-! ## Numbers -/

/-- The number that some digits are. -/
def digitsValue (cs : List Char) : ℕ := cs.foldl (fun x c => 10 * x + (c.toNat - 48)) 0

/-- A number between `min` and `max`. -/
def parseUint (cs : List Char) (min max : ℕ) : Option ℕ :=
  if cs.all Char.isDigit then
    if min ≤ digitsValue cs ∧ digitsValue cs ≤ max then some (digitsValue cs) else none
  else none

/-- The characters from `i` to before `j`. -/
def slice (cs : List Char) (i j : ℕ) : List Char := (cs.take j).drop i

section

variable {w n min max : ℕ} {x y : List Char}

theorem toNat_digitChar (h : n < 10) : (Nat.digitChar n).toNat - 48 = n := by
  have hall : ∀ i : Fin 10, (Nat.digitChar i.val).toNat - 48 = i.val := by decide
  exact hall ⟨n, h⟩

theorem isDigit_iff {c : Char} : c.isDigit = true ↔ '0' ≤ c ∧ c ≤ '9' := by
  simp only [Char.isDigit, Bool.and_eq_true, decide_eq_true_eq, ge_iff_le]
  rfl

theorem all_isDigit_pad (h : n < 10 ^ w) : (pad w n).all Char.isDigit = true :=
  List.all_eq_true.mpr fun _ hc => isDigit_iff.mpr (mem_pad h hc)

theorem foldl_pad (h : n < 10 ^ w) (a : ℕ) :
    (pad w n).foldl (fun x c => 10 * x + (c.toNat - 48)) a = a * 10 ^ w + n := by
  induction w generalizing n a with
  | zero =>
    simp only [pow_zero] at h
    simp only [pad, List.foldl_nil, pow_zero]
    omega
  | succ w ih =>
    have hdiv := Nat.div_add_mod n (10 ^ w)
    rw [pad, List.foldl_cons, ih (mod_pow_lt w n), toNat_digitChar (div_pow_lt h), pow_succ]
    calc (10 * a + n / 10 ^ w) * 10 ^ w + n % 10 ^ w
        = a * (10 ^ w * 10) + (10 ^ w * (n / 10 ^ w) + n % 10 ^ w) := by ring
      _ = a * (10 ^ w * 10) + n := by rw [hdiv]

theorem digitsValue_pad (h : n < 10 ^ w) : digitsValue (pad w n) = n := by
  rw [digitsValue, foldl_pad h]
  omega

theorem parseUint_pad (h : n < 10 ^ w) (hmin : min ≤ n) (hmax : n ≤ max) :
    parseUint (pad w n) min max = some n := by
  rw [parseUint, if_pos (all_isDigit_pad h), digitsValue_pad h, if_pos ⟨hmin, hmax⟩]

end

/-! ## The fraction -/

/-- The nanoseconds of the digits behind the point; digits from the tenth on do not
    count. -/
def nanoseconds (ds : List Char) : ℕ := digitsValue (ds.take 9) * 10 ^ (9 - (ds.take 9).length)

/-- The fraction, if there is one, and what is behind it. -/
def parseFraction : List Char → ℕ × List Char
  | '.' :: c :: cs =>
    if c.isDigit then
      (nanoseconds ((c :: cs).takeWhile Char.isDigit), (c :: cs).dropWhile Char.isDigit)
    else (0, '.' :: c :: cs)
  | cs => (0, cs)

section

variable {w n : ℕ}

theorem foldl_zeros (k a : ℕ) :
    (List.replicate k '0').foldl (fun x c => 10 * x + (c.toNat - 48)) a = a * 10 ^ k := by
  induction k generalizing a with
  | zero => simp
  | succ k ih =>
    rw [List.replicate_succ, List.foldl_cons, ih, pow_succ]
    have hzero : '0'.toNat - 48 = 0 := rfl
    rw [hzero]
    ring

/-- The zeros that are left out are put back. -/
theorem nanoseconds_fraction (hw : w ≤ 9) (h : n < 10 ^ w) :
    nanoseconds (fraction w n) = n * 10 ^ (9 - w) := by
  obtain ⟨k, hk⟩ := pad_eq_fraction w n
  have hlength := congrArg List.length hk
  simp only [length_pad, List.length_append, List.length_replicate] at hlength
  have htake : (fraction w n).take 9 = fraction w n := List.take_of_length_le (by omega)
  have hvalue : n = digitsValue (fraction w n) * 10 ^ k := by
    have hpad := digitsValue_pad h
    rw [hk, digitsValue, List.foldl_append, foldl_zeros] at hpad
    exact hpad.symm
  have hexp : 9 - (fraction w n).length = k + (9 - w) := by omega
  rw [nanoseconds, htake, hexp, pow_add, ← mul_assoc, ← hvalue]

theorem takeWhile_digits {ds rest : List Char} (h : ∀ c ∈ ds, c.isDigit = true)
    (hrest : ∀ c ∈ rest.head?, c.isDigit = false) :
    (ds ++ rest).takeWhile Char.isDigit = ds ∧ (ds ++ rest).dropWhile Char.isDigit = rest := by
  induction ds with
  | nil =>
    cases rest with
    | nil => exact ⟨rfl, rfl⟩
    | cons c rest => simp [hrest c rfl]
  | cons d ds ih =>
    obtain ⟨htake, hdrop⟩ := ih fun c hc => h c (List.mem_cons_of_mem _ hc)
    simp [h d List.mem_cons_self, htake, hdrop]

/-- The digits of a fraction behind their point, and what follows. -/
def fractionThen (digits rest : List Char) : List Char :=
  (if digits = [] then [] else '.' :: digits) ++ rest

theorem parseFraction_then {rest : List Char} (hw : w ≤ 9) (h : n < 10 ^ w)
    (hrest : ∀ c ∈ rest.head?, c.isDigit = false ∧ c ≠ '.') :
    parseFraction (fractionThen (fraction w n) rest) = (n * 10 ^ (9 - w), rest) := by
  have hdigits : ∀ c ∈ fraction w n, c.isDigit = true :=
    fun c hc => isDigit_iff.mpr (mem_fraction h hc)
  rw [← nanoseconds_fraction hw h]
  unfold fractionThen
  cases hf : fraction w n with
  | nil =>
    cases rest with
    | nil => rfl
    | cons c rest =>
      have hpoint := (hrest c rfl).2
      rw [if_pos rfl, List.nil_append, parseFraction.eq_def]
      split
      · simp_all
      · rfl
  | cons d ds =>
    rw [hf] at hdigits
    obtain ⟨htake, hdrop⟩ := takeWhile_digits hdigits fun c hc => (hrest c hc).1
    rw [if_neg (by simp), List.cons_append, List.cons_append, parseFraction,
      if_pos (hdigits d List.mem_cons_self), ← List.cons_append, htake, hdrop]

end

/-! ## The timestamp -/

/-- The offset of the zone in seconds. -/
def parseZone : List Char → Option ℤ
  | ['Z'] => some 0
  | [sign, a, b, ':', c, d] =>
    match parseUint [a, b] 0 23, parseUint [c, d] 0 59 with
    | some hours, some minutes =>
      if sign = '+' then some ((hours * 60 + minutes) * 60 : ℕ)
      else if sign = '-' then some (-((hours * 60 + minutes) * 60 : ℕ))
      else none
    | _, _ => none
  | _ => none

/-- The text of the zone that is `offset` minutes ahead of UTC. -/
def zoneText (offset : ℤ) : List Char :=
  if offset = 0 then ['Z']
  else
    (if 0 < offset then '+' else '-') ::
      (pad 2 (offset.natAbs / 60) ++ ':' :: pad 2 (offset.natAbs % 60))

theorem parseZone_zoneText {offset : ℤ} (h : offset.natAbs < 1440) :
    parseZone (zoneText offset) = some (offset * 60) := by
  have hhours : parseUint (pad 2 (offset.natAbs / 60)) 0 23 = some (offset.natAbs / 60) :=
    parseUint_pad (by omega) (by omega) (by omega)
  have hminutes : parseUint (pad 2 (offset.natAbs % 60)) 0 59 = some (offset.natAbs % 60) :=
    parseUint_pad (by omega) (by omega) (by omega)
  simp only [pad] at hhours hminutes
  unfold zoneText
  split_ifs with hzero hsign
  · simp [parseZone, hzero]
  · simp only [pad, List.cons_append, List.nil_append, parseZone, hhours, hminutes]
    rw [if_pos trivial]
    congr 1
    omega
  · simp only [pad, List.cons_append, List.nil_append, parseZone, hhours, hminutes]
    rw [if_neg (by decide), if_pos trivial]
    congr 1
    omega

/-- A zone does not go on with the fraction. -/
theorem zoneText_head (offset : ℤ) :
    ∀ c ∈ (zoneText offset).head?, c.isDigit = false ∧ c ≠ '.' := by
  unfold zoneText
  split_ifs <;> simp

/-- The separators of date and time. -/
def separated (s : List Char) : Bool :=
  slice s 4 5 = ['-'] && slice s 7 8 = ['-'] && slice s 10 11 = ['T'] && slice s 13 14 = [':'] &&
    slice s 16 17 = [':']

/-- The nanoseconds of a timestamp. -/
def parseRFC3339 (s : List Char) : Option ℤ :=
  if s.length < 19 then none
  else do
    let year ← parseUint (slice s 0 4) 0 9999
    let month ← parseUint (slice s 5 7) 1 12
    let day ← parseUint (slice s 8 10) 1 (daysIn year month)
    let hour ← parseUint (slice s 11 13) 0 23
    let minute ← parseUint (slice s 14 16) 0 59
    let second ← parseUint (slice s 17 19) 0 59
    if separated s then
      let offset ← parseZone (parseFraction (s.drop 19)).2
      let seconds : ℕ :=
        (Date.mk year month day).number * 86400 + hour * 3600 + minute * 60 + second
      some ((seconds - offset) * 1000000000 + (parseFraction (s.drop 19)).1)
    else none

example : parseRFC3339 "0000-01-01T01:00:00.25+01:00".toList = some 250000000 := by decide

/-- A timestamp is read as it was written. -/
theorem parseRFC3339_written (date : Date) (hour minute second : ℕ) {w n : ℕ} {offset : ℤ}
    (hyear : date.year ≤ 9999) (hmonth : 1 ≤ date.month ∧ date.month ≤ 12)
    (hday : 1 ≤ date.day ∧ date.day ≤ daysIn date.year date.month) (hshort : date.day ≤ 31)
    (hhour : hour ≤ 23) (hminute : minute ≤ 59) (hsecond : second ≤ 59) (hw : w ≤ 9)
    (hn : n < 10 ^ w) (hoffset : offset.natAbs < 1440) :
    parseRFC3339 ((pad 4 date.year ++ '-' :: (pad 2 date.month ++ '-' :: pad 2 date.day)) ++
        'T' :: (pad 2 hour ++ ':' :: (pad 2 minute ++ ':' :: pad 2 second)) ++
        fractionThen (fraction w n) (zoneText offset)) =
      some (((date.number * 86400 + hour * 3600 + minute * 60 + second : ℕ) - offset * 60) *
        1000000000 + (n * 10 ^ (9 - w) : ℕ)) := by
  generalize hrest : fractionThen (fraction w n) (zoneText offset) = rest
  have hfraction : parseFraction rest = (n * 10 ^ (9 - w), zoneText offset) :=
    hrest ▸ parseFraction_then hw hn (zoneText_head offset)
  -- every field lies where the reader looks for it
  have hfields : ∀ y m d h i s : ℕ, ∀ text, text =
      (pad 4 y ++ '-' :: (pad 2 m ++ '-' :: pad 2 d)) ++
        'T' :: (pad 2 h ++ ':' :: (pad 2 i ++ ':' :: pad 2 s)) ++ rest →
      ¬ text.length < 19 ∧ slice text 0 4 = pad 4 y ∧ slice text 5 7 = pad 2 m ∧
        slice text 8 10 = pad 2 d ∧ slice text 11 13 = pad 2 h ∧ slice text 14 16 = pad 2 i ∧
        slice text 17 19 = pad 2 s ∧ separated text = true ∧ text.drop 19 = rest := by
    rintro y m d h i s text rfl
    refine ⟨?_, rfl, rfl, rfl, rfl, rfl, rfl, rfl, rfl⟩
    simp [pad]
  obtain ⟨hlength, h₁, h₂, h₃, h₄, h₅, h₆, hsep, hdrop⟩ :=
    hfields date.year date.month date.day hour minute second _ rfl
  rw [parseRFC3339, if_neg hlength, h₁, h₂, h₃, h₄, h₅, h₆, hsep, hdrop, hfraction,
    parseUint_pad (by omega) (by omega) hyear, Option.bind_eq_bind, Option.bind_some]
  simp only [Option.bind_eq_bind]
  rw [parseUint_pad (by omega) hmonth.1 hmonth.2, Option.bind_some,
    parseUint_pad (by omega) hday.1 hday.2, Option.bind_some,
    parseUint_pad (by omega) (by omega) hhour, Option.bind_some,
    parseUint_pad (by omega) (by omega) hminute, Option.bind_some,
    parseUint_pad (by omega) (by omega) hsecond, Option.bind_some, if_pos trivial,
    parseZone_zoneText hoffset, Option.bind_some]

end ConvoyChat.Lib
