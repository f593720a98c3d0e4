import Mathlib.Algebra.GroupWithZero.Nat
import Mathlib.Algebra.Order.BigOperators.Group.List
import Mathlib.Algebra.Order.Group.Nat
import Mathlib.Data.Nat.Find

/-!
# Days and dates

The Gregorian calendar from the first day of year 0 on: the date of a day, and that the dates
are in the order of the days.

* `unit_lt_iff`: what lies in a sequence of units (years, months) is ordered by the unit, then
  by the place in it.
* `civil_lt_iff`: the order of dates.
* `civil_bounds`: their ranges.
-/

namespace ConvoyChat.Lib

/-! ## Units -/

/-- The last unit, up to `bound`, that starts at `d` or before. -/
def unitOf (start : ℕ → ℕ) (bound d : ℕ) : ℕ := Nat.findGreatest (fun i => start i ≤ d) bound

section

variable {start : ℕ → ℕ} {bound d d' i j : ℕ}

theorem unitOf_le : unitOf start bound d ≤ bound := Nat.findGreatest_le bound

/-- `d` lies in its unit. -/
theorem unitOf_spec (hzero : start 0 = 0) (hbound : d < start (bound + 1)) :
    start (unitOf start bound d) ≤ d ∧ d < start (unitOf start bound d + 1) := by
  constructor
  · have hfirst : start 0 ≤ d := by omega
    exact Nat.findGreatest_spec (P := fun i => start i ≤ d) (Nat.zero_le bound) hfirst
  · rcases Nat.lt_or_ge (unitOf start bound d) bound with hlt | hge
    · have hnext := Nat.findGreatest_is_greatest (P := fun i => start i ≤ d)
        (Nat.lt_add_one (unitOf start bound d)) hlt
      omega
    · have heq : unitOf start bound d = bound := le_antisymm unitOf_le hge
      rw [heq]
      exact hbound

/-- The order of what lies in units. -/
theorem unit_lt_iff (hmono : Monotone start) (hi : start i ≤ d ∧ d < start (i + 1))
    (hj : start j ≤ d' ∧ d' < start (j + 1)) :
    d < d' ↔ i < j ∨ i = j ∧ d - start i < d' - start j := by
  rcases lt_trichotomy i j with hlt | rfl | hgt
  · have hle := hmono (Nat.succ_le_of_lt hlt)
    simp only [Nat.succ_eq_add_one] at hle
    omega
  · omega
  · have hle := hmono (Nat.succ_le_of_lt hgt)
    simp only [Nat.succ_eq_add_one] at hle
    omega

end

/-! ## Years and months -/

def isLeap (year : ℕ) : Bool := year % 4 = 0 && (year % 100 ≠ 0 || year % 400 = 0)

/-- The days of the years before `year`. -/
def daysBefore (year : ℕ) : ℕ :=
  365 * year + (year + 3) / 4 - (year + 99) / 100 + (year + 399) / 400

/-- Every fourth year is a leap year, apart from most of the hundredth ones. -/
theorem daysBefore_succ (year : ℕ) :
    daysBefore (year + 1) = daysBefore year + if isLeap year then 366 else 365 := by
  have hfour : (year + 1 + 3) / 4 = (year + 3) / 4 + if year % 4 = 0 then 1 else 0 := by
    split_ifs <;> omega
  have hcentury : (year + 1 + 99) / 100 = (year + 99) / 100 + if year % 100 = 0 then 1 else 0 := by
    split_ifs <;> omega
  have hera : (year + 1 + 399) / 400 = (year + 399) / 400 + if year % 400 = 0 then 1 else 0 := by
    split_ifs <;> omega
  have hless : (year + 99) / 100 ≤ 365 * year := by omega
  unfold daysBefore isLeap
  rw [hfour, hcentury, hera]
  by_cases h4 : year % 4 = 0
  · by_cases h100 : year % 100 = 0
    · by_cases h400 : year % 400 = 0
      · simp only [h4, h100, h400, if_true, decide_true, Bool.or_true, Bool.and_true]
        omega
      · simp only [h4, h100, h400, if_true, if_false, decide_true, decide_false, ne_eq,
          not_true_eq_false, Bool.or_false, Bool.and_false, Bool.false_eq_true]
        omega
    · have h400 : ¬ year % 400 = 0 := by omega
      simp only [h4, h100, h400, if_true, if_false, decide_true, ne_eq, not_false_eq_true,
        Bool.true_or, Bool.and_true]
      omega
  · have h100 : ¬ year % 100 = 0 := by omega
    have h400 : ¬ year % 400 = 0 := by omega
    simp only [h4, h100, h400, if_false, decide_false, Bool.false_and, Bool.false_eq_true]
    omega

theorem daysBefore_mono : Monotone daysBefore := by
  apply monotone_nat_of_le_succ
  intro year
  rw [daysBefore_succ]
  omega

/-- The days of the months of a year. -/
def monthDays (leap : Bool) : List ℕ :=
  [31, if leap then 29 else 28, 31, 30, 31, 30, 31, 31, 30, 31, 30, 31]

/-- The days of the months before `month`, which counts from 0. -/
def monthStart (leap : Bool) (month : ℕ) : ℕ := ((monthDays leap).take month).sum

theorem monthStart_mono (leap : Bool) : Monotone (monthStart leap) := List.monotone_sum_take _

theorem monthStart_succ_le (leap : Bool) {month : ℕ} (h : month ≤ 11) :
    monthStart leap (month + 1) ≤ monthStart leap month + 31 := by
  have hall : ∀ (leap : Bool) (month : Fin 12),
      monthStart leap (month.val + 1) ≤ monthStart leap month.val + 31 := by decide
  exact hall leap ⟨month, by omega⟩

/-! ## Dates -/

structure Date where
  year : ℕ
  month : ℕ
  day : ℕ
deriving DecidableEq, Repr

/-- The year of a day, and the day's number in it. -/
def yearOf (d : ℕ) : ℕ := unitOf daysBefore (d / 365) d

def monthOf (year dayOfYear : ℕ) : ℕ := unitOf (monthStart (isLeap year)) 11 dayOfYear

/-- The date of day `d`; month and day count from 1. -/
def civil (d : ℕ) : Date :=
  let dayOfYear := d - daysBefore (yearOf d)
  let month := monthOf (yearOf d) dayOfYear
  ⟨yearOf d, month + 1, dayOfYear - monthStart (isLeap (yearOf d)) month + 1⟩

example : civil 740167 = ⟨2026, 7, 5⟩ := by decide

theorem yearOf_spec (d : ℕ) : daysBefore (yearOf d) ≤ d ∧ d < daysBefore (yearOf d + 1) := by
  apply unitOf_spec rfl
  unfold daysBefore
  omega

theorem monthOf_spec (d : ℕ) :
    monthStart (isLeap (yearOf d)) (monthOf (yearOf d) (d - daysBefore (yearOf d))) ≤
        d - daysBefore (yearOf d) ∧
      d - daysBefore (yearOf d) <
        monthStart (isLeap (yearOf d)) (monthOf (yearOf d) (d - daysBefore (yearOf d)) + 1) := by
  have hyear := yearOf_spec d
  rw [daysBefore_succ] at hyear
  have hlength : ∀ leap : Bool, monthStart leap 12 = if leap then 366 else 365 := by decide
  apply unitOf_spec rfl
  rw [hlength]
  omega

theorem civil_lt_iff (d d' : ℕ) :
    d < d' ↔ (civil d).year < (civil d').year ∨ (civil d).year = (civil d').year ∧
      ((civil d).month < (civil d').month ∨ (civil d).month = (civil d').month ∧
        (civil d).day < (civil d').day) := by
  rw [unit_lt_iff daysBefore_mono (yearOf_spec d) (yearOf_spec d')]
  refine or_congr_right (and_congr_right fun hyear => ?_)
  have hmonth := monthOf_spec d
  have hmonth' := monthOf_spec d'
  have hyear : yearOf d = yearOf d' := hyear
  rw [← hyear] at hmonth' ⊢
  rw [unit_lt_iff (monthStart_mono _) hmonth hmonth']
  simp only [civil, ← hyear]
  omega

/-- The ranges of a date. -/
theorem civil_bounds (d : ℕ) :
    (civil d).month ≤ 12 ∧ (civil d).day ≤ 31 ∧
    (d < daysBefore 10000 → (civil d).year < 10000) := by
  have hmonth : monthOf (yearOf d) (d - daysBefore (yearOf d)) ≤ 11 := unitOf_le
  have hspec := monthOf_spec d
  have hlength := monthStart_succ_le (isLeap (yearOf d)) hmonth
  refine ⟨?_, ?_, fun hd => ?_⟩
  · simp only [civil]
    omega
  · simp only [civil]
    omega
  · by_contra hge
    have hmono := daysBefore_mono (not_lt.mp hge)
    have hyear := (yearOf_spec d).1
    simp only [civil] at hmono
    omega

end ConvoyChat.Lib
