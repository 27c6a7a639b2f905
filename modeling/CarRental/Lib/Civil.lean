import Mathlib.Order.Monotone.Basic

/-!
# CarRental.Lib.Civil

The **Gregorian calendar**, proleptic in both directions: years are integers, and
every integer is the number of a day.

`dayNumber` counts the days before a date, as the days before its year
(`daysBeforeYear`), the days before its month (`daysBeforeMonth`) and its day of the
month. Both counts are monotone and the next value is one year, or one month, further
on. So a number lies in one year only, and in one month of it only (`bracket_unique`),
which is why the numbers of two dates differ (`dayNumber_injective`).
`Date.ofDayNumber` finds the date: it estimates the year and corrects the estimate by
at most one.
-/

namespace Lib.Civil

/-! ### Years and months -/

/-- The Gregorian rule. -/
def IsLeap (y : Int) : Prop := y % 4 = 0 ∧ (y % 100 ≠ 0 ∨ y % 400 = 0)

instance (y : Int) : Decidable (IsLeap y) := inferInstanceAs (Decidable (_ ∧ _))

/-- How many days a month has. -/
def monthLength (y m : Int) : Int :=
  if m = 2 then if IsLeap y then 29 else 28
  else if m = 4 ∨ m = 6 ∨ m = 9 ∨ m = 11 then 30
  else 31

/-- Days from the beginning of year 1 to the beginning of a year. -/
def daysBeforeYear (y : Int) : Int := 365 * (y - 1) + (y - 1) / 4 - (y - 1) / 100 + (y - 1) / 400

/-- Days from the beginning of a year to the beginning of a month; the month after the last is
the end of the year. -/
def daysBeforeMonth (y m : Int) : Int :=
  (367 * m - 362) / 12 - if m ≤ 2 then 0 else if IsLeap y then 1 else 2

theorem monthLength_le (y m : Int) : monthLength y m ≤ 31 := by
  unfold monthLength
  split
  · split <;> decide
  · split <;> decide

theorem one_le_monthLength (y m : Int) : 1 ≤ monthLength y m := by
  unfold monthLength
  split
  · split <;> decide
  · split <;> decide

theorem daysBeforeYear_succ (y : Int) :
    daysBeforeYear (y + 1) = daysBeforeYear y + if IsLeap y then 366 else 365 := by
  unfold daysBeforeYear
  split
  · next h =>
    unfold IsLeap at h
    omega
  · next h =>
    unfold IsLeap at h
    omega

theorem daysBeforeMonth_succ {y m : Int} (hpos : 1 ≤ m) (hle : m ≤ 12) :
    daysBeforeMonth y (m + 1) = daysBeforeMonth y m + monthLength y m := by
  have hm : m = 1 ∨ m = 2 ∨ m = 3 ∨ m = 4 ∨ m = 5 ∨ m = 6 ∨ m = 7 ∨ m = 8 ∨ m = 9 ∨ m = 10 ∨
      m = 11 ∨ m = 12 := by omega
  unfold daysBeforeMonth monthLength
  by_cases hleap : IsLeap y
  · simp only [if_pos hleap]
    rcases hm with rfl | rfl | rfl | rfl | rfl | rfl | rfl | rfl | rfl | rfl | rfl | rfl <;> rfl
  · simp only [if_neg hleap]
    rcases hm with rfl | rfl | rfl | rfl | rfl | rfl | rfl | rfl | rfl | rfl | rfl | rfl <;> rfl

@[simp] theorem daysBeforeMonth_one (y : Int) : daysBeforeMonth y 1 = 0 := rfl

theorem daysBeforeMonth_end (y : Int) :
    daysBeforeMonth y 13 = if IsLeap y then 366 else 365 := by
  unfold daysBeforeMonth
  split
  · next h => exact absurd h (by decide)
  · split <;> rfl

theorem daysBeforeYear_mono {y y' : Int} (h : y ≤ y') : daysBeforeYear y ≤ daysBeforeYear y' := by
  refine monotone_int_of_le_succ (fun y => ?_) h
  rw [daysBeforeYear_succ]
  split <;> omega

theorem daysBeforeMonth_mono (y : Int) {m m' : Int} (h : m ≤ m') :
    daysBeforeMonth y m ≤ daysBeforeMonth y m' := by
  refine monotone_int_of_le_succ (f := daysBeforeMonth y) (fun m => ?_) h
  unfold daysBeforeMonth
  split <;> split <;> omega

/-- A number lies between two neighbouring values of a monotone function in one place only. -/
theorem bracket_unique {f : Int → Int} (hf : ∀ {a b}, a ≤ b → f a ≤ f b) {n a b : Int}
    (ha : f a ≤ n) (ha' : n < f (a + 1)) (hb : f b ≤ n) (hb' : n < f (b + 1)) : a = b := by
  have hle : ∀ {a b : Int}, f a ≤ n → n < f (b + 1) → a ≤ b := by
    intro a b ha hb'
    by_contra hlt
    have := hf (show b + 1 ≤ a by omega)
    omega
  have := hle ha hb'
  have := hle hb ha'
  omega

/-! ### Dates -/

/-- A date of the calendar. -/
@[ext] structure Date where
  year : Int
  month : Int
  day : Int
  month_pos : 1 ≤ month
  month_le : month ≤ 12
  day_pos : 1 ≤ day
  day_le : day ≤ monthLength year month
  deriving DecidableEq

/-- The days from the beginning of 1970. -/
def dayNumber (y m d : Int) : Int := daysBeforeYear y + daysBeforeMonth y m + (d - 1) - 719162

namespace Date

variable (date : Date)

/-- The number of the day, counted from 1 January 1970. -/
def dayNumber : Int := Civil.dayNumber date.year date.month date.day

theorem day_le_31 : date.day ≤ 31 := Int.le_trans date.day_le (monthLength_le _ _)

/-- A date is within its month. -/
theorem dayNumber_month :
    daysBeforeMonth date.year date.month ≤ date.dayNumber + 719162 - daysBeforeYear date.year ∧
      date.dayNumber + 719162 - daysBeforeYear date.year <
        daysBeforeMonth date.year (date.month + 1) := by
  have hsucc := daysBeforeMonth_succ (y := date.year) date.month_pos date.month_le
  have hpos := date.day_pos
  have hle := date.day_le
  unfold dayNumber Civil.dayNumber
  omega

/-- A date is within its year. -/
theorem dayNumber_year :
    daysBeforeYear date.year ≤ date.dayNumber + 719162 ∧
      date.dayNumber + 719162 < daysBeforeYear (date.year + 1) := by
  have hfirst := daysBeforeMonth_mono date.year date.month_pos
  have hlast : daysBeforeMonth date.year (date.month + 1) ≤ daysBeforeMonth date.year 13 :=
    daysBeforeMonth_mono date.year (Int.add_le_add_right date.month_le 1)
  rw [daysBeforeMonth_one] at hfirst
  rw [daysBeforeMonth_end] at hlast
  have hmonth := date.dayNumber_month
  rw [daysBeforeYear_succ]
  omega

/-- Dates between two years have numbers between theirs. -/
theorem dayNumber_bounds {a b : Int} (ha : a ≤ date.year) (hb : date.year ≤ b) :
    daysBeforeYear a ≤ date.dayNumber + 719162 ∧ date.dayNumber + 719162 < daysBeforeYear (b + 1) :=
  ⟨Int.le_trans (daysBeforeYear_mono ha) date.dayNumber_year.1,
    Int.lt_of_lt_of_le date.dayNumber_year.2 (daysBeforeYear_mono (Int.add_le_add_right hb 1))⟩

theorem le_year {a : Int} (h : daysBeforeYear a ≤ date.dayNumber + 719162) : a ≤ date.year := by
  by_contra hlt
  have hnext := daysBeforeYear_mono (show date.year + 1 ≤ a by omega)
  have hyear := date.dayNumber_year
  omega

/-- **No two dates have the same number.** -/
theorem dayNumber_injective {a b : Date} (h : a.dayNumber = b.dayNumber) : a = b := by
  have ha := a.dayNumber_year
  have hb := b.dayNumber_year
  rw [← h] at hb
  have hyear := bracket_unique daysBeforeYear_mono ha.1 ha.2 hb.1 hb.2
  have ha := a.dayNumber_month
  have hb := b.dayNumber_month
  rw [← h, ← hyear] at hb
  have hmonth := bracket_unique (daysBeforeMonth_mono a.year) ha.1 ha.2 hb.1 hb.2
  refine Date.ext hyear hmonth ?_
  unfold dayNumber Civil.dayNumber at h
  rw [← hyear, ← hmonth] at h
  omega

/-! ### Months counted through the years -/

/-- The number of the month, counted from January of the year 0. -/
def monthIndex : Int := 12 * date.year + (date.month - 1)

theorem monthIndex_eq_iff {a b : Date} :
    a.monthIndex = b.monthIndex ↔ a.year = b.year ∧ a.month = b.month := by
  have ha := a.month_pos
  have ha' := a.month_le
  have hb := b.month_pos
  have hb' := b.month_le
  unfold monthIndex
  omega

/-- The first day of a month. -/
def firstOfMonth (n : Int) : Date where
  year := n / 12
  month := n % 12 + 1
  day := 1
  month_pos := by omega
  month_le := by omega
  day_pos := by decide
  day_le := one_le_monthLength _ _

end Date

/-! ### The date of a number -/

/-- The year of a day, whose number here counts from the beginning of year 1. -/
def yearOf (n : Int) : Int :=
  let estimate := 400 * n / 146097 + 1
  if n < daysBeforeYear estimate then estimate - 1
  else if daysBeforeYear (estimate + 1) ≤ n then estimate + 1
  else estimate

theorem yearOf_spec (n : Int) :
    daysBeforeYear (yearOf n) ≤ n ∧ n < daysBeforeYear (yearOf n + 1) := by
  unfold yearOf
  dsimp only
  split
  · next h =>
    unfold daysBeforeYear at h ⊢
    omega
  · split
    · next h =>
      unfold daysBeforeYear at h ⊢
      omega
    · omega

/-- The month of a day of the year; the first day is day zero. -/
def monthOf (y k : Int) : Int :=
  let leap : Int := if IsLeap y then 1 else 0
  (12 * (if k < 59 + leap then k else k + 2 - leap) + 373) / 367

theorem monthOf_spec {y k : Int} (hpos : 0 ≤ k) (hlt : k < if IsLeap y then 366 else 365) :
    1 ≤ monthOf y k ∧ monthOf y k ≤ 12 ∧
      daysBeforeMonth y (monthOf y k) ≤ k ∧ k < daysBeforeMonth y (monthOf y k + 1) := by
  unfold monthOf daysBeforeMonth
  by_cases hleap : IsLeap y
  · simp only [if_pos hleap] at hlt ⊢
    split <;> omega
  · simp only [if_neg hleap] at hlt ⊢
    split <;> omega

/-- The date of the `k`-th day of a year. -/
def Date.ofDayOfYear (y k : Int) (hpos : 0 ≤ k) (hlt : k < if IsLeap y then 366 else 365) :
    Date where
  year := y
  month := monthOf y k
  day := k - daysBeforeMonth y (monthOf y k) + 1
  month_pos := (monthOf_spec hpos hlt).1
  month_le := (monthOf_spec hpos hlt).2.1
  day_pos := by
    have hspec := monthOf_spec hpos hlt
    omega
  day_le := by
    have hspec := monthOf_spec hpos hlt
    have hsucc := daysBeforeMonth_succ (y := y) hspec.1 hspec.2.1
    omega

theorem dayOfYear_spec (n : Int) :
    0 ≤ n - daysBeforeYear (yearOf n) ∧
      n - daysBeforeYear (yearOf n) < if IsLeap (yearOf n) then 366 else 365 := by
  have hspec := yearOf_spec n
  rw [daysBeforeYear_succ] at hspec
  omega

/-- The date of a day. -/
def Date.ofDayNumber (n : Int) : Date :=
  .ofDayOfYear (yearOf (n + 719162)) (n + 719162 - daysBeforeYear (yearOf (n + 719162)))
    (dayOfYear_spec _).1 (dayOfYear_spec _).2

@[simp] theorem dayNumber_ofDayNumber (n : Int) : (Date.ofDayNumber n).dayNumber = n := by
  unfold Date.dayNumber dayNumber Date.ofDayNumber Date.ofDayOfYear
  dsimp only
  omega

end Lib.Civil
