import CarRental.Dates.Dart
import CarRental.Lib.Bucket
import Mathlib.Data.List.Nodup

/-!
# CarRental.Dates.FinancialChart

The **financial chart** of the dashboard: incomes and expenses added up for each of
the last 7 days, 12 months or 5 years.

A bucket has a key, the beginning of the texts it counts: a record is counted when its
`recordedAt` starts with the key. The keys of days and months are what the local clock
shows at the bucket's date. For a month this date is the beginning of the month; for a
day it is a number of times 24 hours before the beginning of today, and there a clock
change in between shows. Once the clocks went forward, the days before the change are
reached an hour too early, at 23 o'clock of the day before: the day of the change is
missing (`forward_change_skips_day`), and the days before it are off by one.

`chart_partitions_iff` says that this is the only way in which the chart goes wrong but for
dates long ago: the buckets partition the records of the last days, months or years
exactly when the clock shows, at the date of each bucket, the day or month the bucket is
meant for, and the window starts late enough. Days may go back to the year 0, before which
keys lose their sign; months to the year 10, before which there is no label for them; years
to 1000, before which keys have less than four digits and begin later years as well.

Amounts are elements of a commutative group, in place of the doubles of the source.
-/

namespace CarRental.FinancialChart

open Lib Lib.Civil Dart

/-! ### The chart -/

/-- `ChartPeriod` -/
inductive ChartPeriod
  | day
  | month
  | year
  deriving DecidableEq

/-- What a loop of the chart computes before it goes through the records. -/
structure Bucket where
  label : Text
  date : DateTime
  key : Text

/-- `DateFormat('yyyy')`, which leaves out the sign -/
def formatYear (year : Int) : Text := padded 4 (year.natAbs : Int)

/-- `DateFormat('yyyy-MM')` -/
def formatMonth (date : Date) : Text := formatYear date.year ++ dash :: padded 2 date.month

/-- `DateFormat('yyyy-MM-dd')` -/
def formatDay (date : Date) : Text :=
  formatYear date.year ++ dash :: (padded 2 date.month ++ dash :: padded 2 date.day)

/-- The day `i` times 24 hours before the beginning of today. -/
def dayBucket (zone : Zone) (today : Date) (i : Int) : Option Bucket := do
  let midnight ← DateTime.new zone today.year today.month today.day
  let date ← midnight.subtractDays i
  let shown := date.date zone
  return ⟨padded 2 shown.day ++ (0x2F :: padded 2 shown.month), date, formatDay shown⟩

/-- The names of the months, as `_getMonthLabel` has them. -/
def months : List Text :=
  ["Jan", "Fév", "Mar", "Avr", "Mai", "Juin", "Juil", "Août", "Sept", "Oct", "Nov", "Déc"].map text

/-- `'${months[month - 1]} ${year.toString().substring(2)}'` -/
def getMonthLabel (month year : Int) : Option Text := do
  let name ← months[(month - 1).toNat]?
  let digits := intText year
  if digits.length < 2 then none else some (name ++ (0x20 :: digits.drop 2))

/-- The month `i` months ago. `~/` rounds toward zero, so the year is corrected by hand. -/
def monthBucket (zone : Zone) (today : Date) (i : Int) : Option Bucket := do
  let yearOffset := (today.month - 1 - i).tdiv 12
  let m := (today.month - i) % 12
  let m := if m ≤ 0 then m + 12 else m
  let y := today.year + (if today.month - 1 - i < 0 then yearOffset - 1 else yearOffset)
  let date ← DateTime.new zone y m 1
  let label ← getMonthLabel m y
  return ⟨label, date, formatMonth (date.date zone)⟩

/-- The year `i` years ago, whose key is its label. -/
def yearBucket (zone : Zone) (today : Date) (i : Int) : Option Bucket := do
  let y := today.year - i
  let date ← DateTime.new zone y 1 1
  return ⟨intText y, date, intText y⟩

namespace ChartPeriod

/-- The body of the loop, before it goes through the records. -/
def bucket : ChartPeriod → Zone → Date → Int → Option Bucket
  | day => dayBucket
  | month => monthBucket
  | year => yearBucket

/-- How many days, months or years the chart shows. -/
def size : ChartPeriod → Nat
  | day => 7
  | month => 12
  | year => 5

/-- How far back the buckets are, from the oldest to the current one. -/
def offsets (period : ChartPeriod) : List Nat := (List.range period.size).reverse

/-- The loop; it throws if one of its iterations does. -/
def buckets (period : ChartPeriod) (zone : Zone) (now : DateTime) : Option (List Bucket) :=
  period.offsets.mapM fun (i : Nat) => period.bucket zone (now.date zone) i

end ChartPeriod

/-- An income or an expense. -/
structure RecordModel (K : Type) where
  recordedAt : Text
  amount : K

/-- What the chart draws for a bucket. -/
structure FinancialChartDataPoint (K : Type) where
  label : Text
  date : DateTime
  income : K
  expense : K
  profit : K

/-- The three numbers above the chart. -/
structure Totals (K : Type) where
  totalIncome : K
  totalExpense : K
  totalProfit : K

/-- `recordedAt.startsWith(key)` -/
def Bucket.counts (b : Bucket) (recordedAt : Text) : Bool := b.key.isPrefixOf recordedAt

section Amounts

variable {K : Type} [AddCommGroup K]

/-- The two loops over the records. -/
def Bucket.dataPoint (incomes expenses : List (RecordModel K)) (b : Bucket) :
    FinancialChartDataPoint K :=
  let incSum := tally (fun r => b.counts r.recordedAt) RecordModel.amount incomes
  let expSum := tally (fun r => b.counts r.recordedAt) RecordModel.amount expenses
  ⟨b.label, b.date, incSum, expSum, incSum - expSum⟩

/-- `_getAggregatedData` -/
def getAggregatedData (period : ChartPeriod) (zone : Zone) (now : DateTime)
    (incomes expenses : List (RecordModel K)) : Option (List (FinancialChartDataPoint K)) := do
  return (← period.buckets zone now).map (Bucket.dataPoint incomes expenses)

/-- The totals above the chart. -/
def totals (dataPoints : List (FinancialChartDataPoint K)) : Totals K :=
  let totalIncome := dataPoints.foldl (fun sum p => sum + p.income) 0
  let totalExpense := dataPoints.foldl (fun sum p => sum + p.expense) 0
  ⟨totalIncome, totalExpense, totalIncome - totalExpense⟩

end Amounts

/-! ### Keys and dates -/

/-- A text as the server writes it: a date with four digits for the year, and something behind. -/
structure IsoDated where
  date : Date
  year_nonneg : 0 ≤ date.year
  year_lt : date.year < 10000
  time : Text

/-- The text itself. -/
def IsoDated.recordedAt (d : IsoDated) : Text :=
  isoDate d.date.year.toNat d.date.month.toNat d.date.day.toNat ++ d.time

/-- Four or more digits begin such a text only if they are its year. -/
theorem digits_prefix_iff {digits ks rest : Text} {y : Nat} (hall : ∀ c ∈ digits, isDigit c = true)
    (hlen : 4 ≤ digits.length) :
    digits ++ ks <+: fixed 4 y ++ dash :: rest ↔ digits = fixed 4 y ∧ ks <+: dash :: rest := by
  have hfour : (fixed 4 y : Text).length = 4 := length_fixed 4 y
  by_cases hlen' : digits.length = 4
  · exact append_prefix_append (hlen'.trans hfour.symm)
  · constructor
    · -- a fifth digit would stand where the dash is
      intro hprefix
      obtain ⟨t, ht⟩ := hprefix
      have hfifth : (fixed 4 y ++ dash :: rest)[4]? = some dash := by
        rw [List.getElem?_append_right (by rw [hfour]), hfour]
        rfl
      rw [← ht, List.append_assoc, List.getElem?_append_left (by omega)] at hfifth
      exact absurd (hall dash (List.mem_of_getElem? hfifth)) (by decide)
    · intro h
      rw [h.1] at hlen'
      exact absurd hfour hlen'

theorem padded_year_prefix_iff {y y' : Nat} (hy' : y' < 10000) (ks rest : Text) :
    padded 4 (y : Int) ++ dash :: ks <+: fixed 4 y' ++ dash :: rest ↔ y = y' ∧ ks <+: rest := by
  have hpadded : padded 4 (y : Int) = (decimal y).leftpad 4 (DigitSigns.digit 0) := by
    unfold padded
    rw [intText_natCast]
  have hlen : (padded 4 (y : Int)).length = max 4 (decimal y : Text).length := by
    rw [hpadded, List.length_leftpad]
  have hall : ∀ c ∈ padded 4 (y : Int), isDigit c = true := by
    intro c hc
    rw [hpadded] at hc
    rcases List.mem_append.mp hc with hc | hc
    · rw [List.eq_of_mem_replicate hc]
      exact isDigit_digit (by decide)
    · exact isDigit_of_mem_decimal hc
  have hyear : padded 4 (y : Int) = fixed 4 y' ↔ y = y' := by
    constructor
    · intro h
      rw [h, length_fixed] at hlen
      have hy : y < 10 ^ 4 := by
        rw [← Nat.not_le, ← lt_length_decimal_iff (α := CodeUnit) (by decide)]
        omega
      rw [padded_natCast (by decide) hy] at h
      exact fixed_injective hy hy' h
    · intro h
      rw [h]
      exact padded_natCast (by decide) hy'
  rw [digits_prefix_iff hall (by omega), hyear, List.prefix_cons_inj]

theorem decimal_year_prefix_iff {y y' : Nat} (hy : 1000 ≤ y) (hy' : y' < 10000) (rest : Text) :
    decimal y <+: fixed 4 y' ++ dash :: rest ↔ y = y' := by
  have hlen : 3 < (decimal y : Text).length := (lt_length_decimal_iff (by decide)).mpr hy
  rw [← List.append_nil (decimal y), digits_prefix_iff (fun c hc => isDigit_of_mem_decimal hc) hlen]
  constructor
  · intro h
    have hfour := length_decimal.mp ((congrArg List.length h.1).trans (length_fixed 4 y'))
    rw [decimal_eq_fixed hfour] at h
    exact fixed_injective hfour.2.1 hy' h.1
  · intro h
    rw [h]
    refine ⟨decimal_eq_fixed ⟨by decide, hy', Or.inr ?_⟩, List.nil_prefix⟩
    show 1000 ≤ y'
    omega

/-- A shorter year begins a later one, too. -/
theorem exists_longer_year {y : Nat} (hy : y < 1000) :
    ∃ y' < 10000, y < y' ∧ 10 * y ≤ y' ∧ (decimal y : Text) <+: fixed 4 y' := by
  obtain ⟨w, hw⟩ := exists_needsDigits y
  have hlen : ¬ 3 < (decimal y : Text).length := by
    rw [lt_length_decimal_iff (by decide)]
    omega
  rw [length_decimal.mpr hw] at hlen
  have hlast : 1 < 10 ^ (4 - w) := Nat.one_lt_pow (by omega) (by decide)
  have hsplit : (fixed (w + (4 - w)) (y * 10 ^ (4 - w) + 1) : Text) =
      fixed w y ++ fixed (4 - w) 1 := fixed_append hlast w y
  rw [show w + (4 - w) = 4 by omega] at hsplit
  obtain ⟨hpos, hlt, -⟩ := id hw
  refine ⟨y * 10 ^ (4 - w) + 1, ?_, ?_, ?_, ?_⟩
  · interval_cases w <;> omega
  · interval_cases w <;> omega
  · interval_cases w <;> omega
  · rw [hsplit, decimal_eq_fixed hw]
    exact List.prefix_append _ _

/-- The fields of a date, as natural numbers. -/
theorem exists_fields {date : Date} (h : 0 ≤ date.year) :
    ∃ y m d : Nat, date.year = y ∧ date.month = m ∧ date.day = d ∧ m < 100 ∧ d < 100 := by
  have hm := date.month_pos
  have hm' := date.month_le
  have hd := date.day_pos
  have hd' := date.day_le_31
  exact ⟨date.year.toNat, date.month.toNat, date.day.toNat, by omega, by omega, by omega, by omega,
    by omega⟩

theorem IsoDated.recordedAt_eq (r : IsoDated) {y m d : Nat} (hy : r.date.year = y)
    (hm : r.date.month = m) (hd : r.date.day = d) :
    r.recordedAt = fixed 4 y ++ dash :: (fixed 2 m ++ dash :: (fixed 2 d ++ r.time)) := by
  unfold recordedAt isoDate
  rw [hy, hm, hd]
  simp only [Int.toNat_natCast, List.append_assoc, List.cons_append]

/-- A text begins with the key of a day when it is of that day. -/
theorem formatDay_prefix_iff {date : Date} (hdate : 0 ≤ date.year) (r : IsoDated) :
    formatDay date <+: r.recordedAt ↔ r.date = date := by
  obtain ⟨y, m, d, hy, hm, hd, hm', hd'⟩ := exists_fields hdate
  obtain ⟨y₁, m₁, d₁, hy₁, hm₁, hd₁, hm₁', hd₁'⟩ := exists_fields r.year_nonneg
  have hlt := r.year_lt
  have hdays : fixed 2 d <+: fixed 2 d₁ ++ r.time ↔ d = d₁ := by
    have hdays : (fixed 2 d ++ [] : Text) <+: _ ↔ _ := fixed_prefix_iff hd' hd₁' [] r.time
    rw [List.append_nil] at hdays
    exact hdays.trans (and_iff_left List.nil_prefix)
  unfold formatDay formatYear
  rw [r.recordedAt_eq hy₁ hm₁ hd₁, hy, hm, hd, Int.natAbs_natCast, padded_two hm', padded_two hd',
    padded_year_prefix_iff (by omega), fixed_prefix_iff hm' hm₁', List.prefix_cons_inj, hdays,
    Date.ext_iff, hy, hm, hd, hy₁, hm₁, hd₁]
  omega

/-- A text begins with the key of a month when it is of that month. -/
theorem formatMonth_prefix_iff {date : Date} (hdate : 0 ≤ date.year) (r : IsoDated) :
    formatMonth date <+: r.recordedAt ↔ r.date.monthIndex = date.monthIndex := by
  obtain ⟨y, m, d, hy, hm, hd, hm', hd'⟩ := exists_fields hdate
  obtain ⟨y₁, m₁, d₁, hy₁, hm₁, hd₁, hm₁', hd₁'⟩ := exists_fields r.year_nonneg
  have hlt := r.year_lt
  have hmonths : fixed 2 m <+: fixed 2 m₁ ++ dash :: (fixed 2 d₁ ++ r.time) ↔ m = m₁ := by
    have hmonths : (fixed 2 m ++ [] : Text) <+: _ ↔ _ :=
      fixed_prefix_iff hm' hm₁' [] (dash :: (fixed 2 d₁ ++ r.time))
    rw [List.append_nil] at hmonths
    exact hmonths.trans (and_iff_left List.nil_prefix)
  unfold formatMonth formatYear
  rw [r.recordedAt_eq hy₁ hm₁ hd₁, hy, hm, Int.natAbs_natCast, padded_two hm',
    padded_year_prefix_iff (by omega), hmonths, Date.monthIndex_eq_iff, hy, hm, hy₁, hm₁]
  omega

/-- A text begins with a year of four digits when it is of that year. -/
theorem intText_prefix_iff {year : Int} (hyear : 1000 ≤ year) (r : IsoDated) :
    intText year <+: r.recordedAt ↔ r.date.year = year := by
  obtain ⟨y, hy⟩ := Int.eq_ofNat_of_zero_le (show 0 ≤ year by omega)
  obtain ⟨y₁, m₁, d₁, hy₁, hm₁, hd₁, -, -⟩ := exists_fields r.year_nonneg
  have hlt := r.year_lt
  rw [r.recordedAt_eq hy₁ hm₁ hd₁, hy, hy₁]
  show intText ((y : Nat) : Int) <+: _ ↔ _
  rw [intText_natCast, decimal_year_prefix_iff (by omega) (by omega)]
  omega

/-! ### What the buckets are meant for -/

namespace ChartPeriod

variable (period : ChartPeriod)

/-- Days, months or years, counted. -/
def index : Date → Int :=
  match period with
  | day => Date.dayNumber
  | month => Date.monthIndex
  | year => Date.year

/-- The last 7 days, 12 months or 5 years. -/
def InSpan (today date : Date) : Prop :=
  period.index today - period.size < period.index date ∧ period.index date ≤ period.index today

instance (today date : Date) : Decidable (period.InSpan today date) :=
  inferInstanceAs (Decidable (_ ∧ _))

/-- What the buckets are meant for, from the oldest to the current one. -/
def indices (today : Date) : List Int :=
  period.offsets.map fun (i : Nat) => period.index today - i

theorem mem_offsets {i : Nat} : i ∈ period.offsets ↔ i < period.size := by
  unfold offsets
  rw [List.mem_reverse, List.mem_range]

theorem mem_indices {today date : Date} :
    period.index date ∈ period.indices today ↔ period.InSpan today date := by
  unfold indices InSpan
  rw [List.mem_map]
  constructor
  · intro h
    obtain ⟨i, hi, hindex⟩ := h
    have hlt := period.mem_offsets.mp hi
    omega
  · intro h
    refine ⟨(period.index today - period.index date).toNat, period.mem_offsets.mpr ?_, ?_⟩
    · omega
    · omega

theorem nodup_indices (today : Date) : (period.indices today).Nodup := by
  unfold indices offsets
  refine List.Nodup.map ?_ (List.nodup_reverse.mpr List.nodup_range)
  intro i j h
  have hij : period.index today - (i : Int) = period.index today - (j : Int) := h
  omega

/-- The first day, month or year that has a key and a label of its own. -/
def earliest : ChartPeriod → Int
  | day => dayNumber 0 1 1
  | month => 12 * 10
  | year => 1000

/-- The window does not start before that. -/
def Keyed (today : Date) : Prop := period.earliest + period.size ≤ period.index today + 1

instance (today : Date) : Decidable (period.Keyed today) := inferInstanceAs (Decidable (_ ≤ _))

/-- The clock shows, at the date of the bucket, what the bucket is meant for. -/
def ShownAt (zone : Zone) (today : Date) (i : Nat) : Prop :=
  match period with
  | day =>
    (zone.dateAt (zone.startOfDay today - i * microsecondsPerDay)).dayNumber = today.dayNumber - i
  | month =>
    (zone.dateAt (zone.startOfDay (.firstOfMonth (today.monthIndex - i)))).monthIndex =
      today.monthIndex - i
  | year => True

instance (zone : Zone) (today : Date) (i : Nat) : Decidable (period.ShownAt zone today i) :=
  match period with
  | day => inferInstanceAs (Decidable (_ = _))
  | month => inferInstanceAs (Decidable (_ = _))
  | year => inferInstanceAs (Decidable True)

/-- A bucket is the one of a day, a month or a year. -/
def StandsFor (zone : Zone) (n : Int) (b : Bucket) : Prop :=
  match period with
  | day => (b.date.date zone).dayNumber = n
  | month => (b.date.date zone).monthIndex = n
  | year => b.label = intText n

end ChartPeriod

/-! ### One bucket -/

section Buckets

variable {zone : Zone} {today : Date} {i : Nat} {b : Bucket}

theorem dayBucket_eq_some (h : dayBucket zone today i = some b) :
    b.date.date zone = zone.dateAt (zone.startOfDay today - i * microsecondsPerDay) ∧
      b.key = formatDay (b.date.date zone) := by
  obtain ⟨midnight, hmidnight, h⟩ := Option.bind_eq_some_iff.mp h
  obtain ⟨date, hdate, h⟩ := Option.bind_eq_some_iff.mp h
  cases h
  obtain ⟨hvalue, hutc⟩ := DateTime.new_eq_some hmidnight
  obtain ⟨hvalue', hutc'⟩ := DateTime.withValue_eq_some hdate
  rw [DateTime.localTime_date] at hvalue
  rw [hutc] at hutc'
  refine ⟨?_, rfl⟩
  show date.date zone = _
  rw [DateTime.date_eq_dateAt hutc', hvalue', hvalue]
  rfl

theorem exists_dayBucket (hlow : -270000 ≤ today.year) (hhigh : today.year ≤ 270000) (hi : i < 7) :
    ∃ b, dayBucket zone today i = some b := by
  obtain ⟨midnight, hnew, -, -, hweek⟩ := DateTime.exists_new zone today hlow hhigh
  have hrange : -maxMicrosecondsSinceEpoch ≤ midnight.value - i * microsecondsPerDay ∧
      midnight.value - i * microsecondsPerDay ≤ maxMicrosecondsSinceEpoch := by
    have hin := midnight.in_range
    simp only [maxMicrosecondsSinceEpoch, microsecondsPerDay] at hin hweek ⊢
    omega
  have hdate : midnight.subtractDays i = some ⟨_, midnight.isUtc, hrange⟩ := dif_pos hrange
  unfold dayBucket
  rw [hnew]
  simp only [Option.bind_eq_bind, Option.bind_some, hdate]
  exact ⟨_, rfl⟩

/-- The loop over the months goes to the month it is meant for. -/
theorem monthBucket_eq (hi : i < 12) :
    monthBucket zone today i =
      (DateTime.new zone (Date.firstOfMonth (today.monthIndex - i)).year
        (Date.firstOfMonth (today.monthIndex - i)).month
        (Date.firstOfMonth (today.monthIndex - i)).day).bind fun date =>
        (getMonthLabel (Date.firstOfMonth (today.monthIndex - i)).month
          (Date.firstOfMonth (today.monthIndex - i)).year).bind fun label =>
          some ⟨label, date, formatMonth (date.date zone)⟩ := by
  have hpos := today.month_pos
  have hle := today.month_le
  have hoffset : (today.month - 1 - i).tdiv 12 = 0 := by
    have hlow : -12 < today.month - 1 - i := by omega
    have hhigh : today.month - 1 - i < 12 := by omega
    interval_cases today.month - 1 - (i : Int) <;> rfl
  have hyear : today.year + (if today.month - 1 - i < 0 then 0 - 1 else 0) =
      (today.monthIndex - i) / 12 := by
    unfold Date.monthIndex
    split <;> omega
  have hmonth : (if (today.month - i) % 12 ≤ 0 then (today.month - i) % 12 + 12
      else (today.month - i) % 12) = (today.monthIndex - i) % 12 + 1 := by
    unfold Date.monthIndex
    split <;> omega
  unfold monthBucket
  dsimp only
  rw [hoffset, hyear, hmonth]
  rfl

theorem monthBucket_eq_some (hi : i < 12) (h : monthBucket zone today i = some b) :
    b.date.date zone = zone.dateAt (zone.startOfDay (.firstOfMonth (today.monthIndex - i))) ∧
      b.key = formatMonth (b.date.date zone) := by
  rw [monthBucket_eq hi] at h
  obtain ⟨date, hdate, h⟩ := Option.bind_eq_some_iff.mp h
  obtain ⟨label, hlabel, h⟩ := Option.bind_eq_some_iff.mp h
  cases h
  obtain ⟨hvalue, hutc⟩ := DateTime.new_eq_some hdate
  rw [DateTime.localTime_date] at hvalue
  refine ⟨?_, rfl⟩
  show date.date zone = _
  rw [DateTime.date_eq_dateAt hutc, hvalue]
  rfl

theorem exists_getMonthLabel {month year : Int} (hpos : 1 ≤ month) (hle : month ≤ 12)
    (hyear : 10 ≤ year) : ∃ label, getMonthLabel month year = some label := by
  obtain ⟨name, hname⟩ : ∃ name, months[(month - 1).toNat]? = some name :=
    ⟨_, List.getElem?_eq_getElem (show (month - 1).toNat < 12 by omega)⟩
  have hdigits : ¬ (intText year).length < 2 := by
    obtain ⟨y, hy⟩ := Int.eq_ofNat_of_zero_le (show 0 ≤ year by omega)
    rw [hy, intText_natCast, Nat.not_lt]
    exact (lt_length_decimal_iff (w := 1) (by decide)).mpr (by omega)
  unfold getMonthLabel
  rw [hname]
  exact ⟨_, if_neg hdigits⟩

/-- Years with one digit have no label. -/
theorem ten_le_of_getMonthLabel {month year : Int} {label : Text} (hyear : 0 ≤ year)
    (h : getMonthLabel month year = some label) : 10 ≤ year := by
  obtain ⟨name, -, h⟩ := Option.bind_eq_some_iff.mp h
  have hdigits : ¬ (intText year).length < 2 := by
    intro hshort
    simp [hshort] at h
  obtain ⟨y, hy⟩ := Int.eq_ofNat_of_zero_le hyear
  rw [hy, intText_natCast, Nat.not_lt] at hdigits
  have hten := (lt_length_decimal_iff (α := CodeUnit) (w := 1) (by decide)).mp hdigits
  omega

theorem exists_monthBucket (hkeyed : ChartPeriod.month.Keyed today)
    (hhigh : today.year ≤ 270000) (hi : i < 12) : ∃ b, monthBucket zone today i = some b := by
  have hpos := today.month_pos
  have hle := today.month_le
  have hindex : today.monthIndex = 12 * today.year + (today.month - 1) := rfl
  have hyear : (Date.firstOfMonth (today.monthIndex - i)).year = (today.monthIndex - i) / 12 := rfl
  have hfirst : 120 + 12 ≤ today.monthIndex + 1 := hkeyed
  obtain ⟨date, hnew, -⟩ := DateTime.exists_new zone (.firstOfMonth (today.monthIndex - i))
    (by omega) (by omega)
  obtain ⟨label, hlabel⟩ := exists_getMonthLabel
    (Date.firstOfMonth (today.monthIndex - i)).month_pos
    (Date.firstOfMonth (today.monthIndex - i)).month_le
    (show 10 ≤ (Date.firstOfMonth (today.monthIndex - i)).year by omega)
  rw [monthBucket_eq hi, hnew, hlabel]
  exact ⟨_, rfl⟩

theorem yearBucket_eq_some (h : yearBucket zone today i = some b) :
    b.label = intText (today.year - i) ∧ b.key = intText (today.year - i) := by
  obtain ⟨date, -, h⟩ := Option.bind_eq_some_iff.mp h
  cases h
  exact ⟨rfl, rfl⟩

theorem exists_yearBucket (hlow : 0 ≤ today.year) (hhigh : today.year ≤ 270000) (hi : i < 5) :
    ∃ b, yearBucket zone today i = some b := by
  have hfirst : 1 ≤ monthLength (today.year - i) 1 := one_le_monthLength _ _
  obtain ⟨date, hnew, -⟩ := DateTime.exists_new zone
    ⟨today.year - i, 1, 1, by decide, by decide, by decide, hfirst⟩
    (show -270000 ≤ today.year - i by omega) (show today.year - i ≤ 270000 by omega)
  exact ⟨_, Option.bind_eq_some_iff.mpr ⟨date, hnew, rfl⟩⟩

namespace ChartPeriod

variable {period : ChartPeriod}

theorem exists_bucket (hlow : 0 ≤ today.year) (hhigh : today.year ≤ 270000)
    (hkeyed : period.Keyed today) (hi : i < period.size) :
    ∃ b, period.bucket zone today i = some b := by
  cases period with
  | day => exact exists_dayBucket (by omega) hhigh hi
  | month => exact exists_monthBucket hkeyed hhigh hi
  | year => exact exists_yearBucket hlow hhigh hi

/-- A bucket is the one it is meant to be when the clock shows that at its date. -/
theorem standsFor_iff (hi : i < period.size) (h : period.bucket zone today i = some b) :
    period.StandsFor zone (period.index today - i) b ↔ period.ShownAt zone today i := by
  cases period with
  | day =>
    show (b.date.date zone).dayNumber = _ ↔ _
    rw [(dayBucket_eq_some h).1]
    exact Iff.rfl
  | month =>
    show (b.date.date zone).monthIndex = _ ↔ _
    rw [(monthBucket_eq_some hi h).1]
    exact Iff.rfl
  | year => exact iff_of_true (yearBucket_eq_some h).1 trivial

/-- Such a bucket counts the records of its day, month or year. -/
theorem counts_iff (hkeyed : period.Keyed today) (hi : i < period.size)
    (h : period.bucket zone today i = some b)
    (hstands : period.StandsFor zone (period.index today - i) b) (r : IsoDated) :
    b.counts r.recordedAt = true ↔ period.index r.date = period.index today - i := by
  unfold Bucket.counts
  rw [ List.isPrefixOf_iff_prefix]
  cases period with
  | day =>
    have hshown : (b.date.date zone).dayNumber = today.dayNumber - i := hstands
    have hlt : i < 7 := hi
    have hyear : 0 ≤ (b.date.date zone).year := by
      have hfirst : dayNumber 0 1 1 + 7 ≤ today.dayNumber + 1 := hkeyed
      have hzero : dayNumber 0 1 1 + 719162 = daysBeforeYear 0 := by decide
      exact Date.le_year _ (by omega)
    rw [(dayBucket_eq_some h).2, formatDay_prefix_iff hyear]
    show r.date = b.date.date zone ↔ r.date.dayNumber = today.dayNumber - i
    rw [← hshown]
    exact ⟨congrArg Date.dayNumber, Date.dayNumber_injective⟩
  | month =>
    have hshown : (b.date.date zone).monthIndex = today.monthIndex - i := hstands
    have hlt : i < 12 := hi
    have hyear : 0 ≤ (b.date.date zone).year := by
      have hle := (b.date.date zone).month_le
      have hfirst : 120 + 12 ≤ today.monthIndex + 1 := hkeyed
      unfold Date.monthIndex at hshown hfirst
      omega
    rw [(monthBucket_eq_some hi h).2, formatMonth_prefix_iff hyear, hshown]
    exact Iff.rfl
  | year =>
    have hlt : i < 5 := hi
    have hfirst : 1000 + 5 ≤ today.year + 1 := hkeyed
    rw [(yearBucket_eq_some h).2, intText_prefix_iff (by omega)]
    exact Iff.rfl

end ChartPeriod

end Buckets

/-! ### The whole chart -/

/-- An income or an expense with a dated text. -/
structure DatedRecord (K : Type) extends IsoDated where
  amount : K

/-- The record as the chart gets it. -/
def DatedRecord.model {K : Type} (r : DatedRecord K) : RecordModel K := ⟨r.recordedAt, r.amount⟩

/-- Each record of the last days, months or years is counted by one bucket, any other by none. -/
def CountedOnce (period : ChartPeriod) (today : Date) (buckets : List Bucket) : Prop :=
  Partition (fun b (r : IsoDated) => b.counts r.recordedAt)
    (fun r => decide (period.InSpan today r.date)) buckets

/-- The amounts dated in the last days, months or years. -/
def amountInSpan {K : Type} [AddCommGroup K] (period : ChartPeriod) (today : Date)
    (records : List (DatedRecord K)) : K :=
  ((records.filter fun r => period.InSpan today r.date).map DatedRecord.amount).sum

/-- What the chart is for. -/
structure PartitionsWindow (K : Type) [AddCommGroup K] (period : ChartPeriod) (zone : Zone)
    (now : DateTime) : Prop where
  /-- The buckets are consecutive and end with the current one. -/
  buckets : ∃ buckets, period.buckets zone now = some buckets ∧
    List.Forall₂ (period.StandsFor zone) (period.indices (now.date zone)) buckets ∧
    CountedOnce period (now.date zone) buckets
  /-- The totals are the sums over the span. -/
  totals : ∀ incomes expenses : List (DatedRecord K), ∃ points,
    getAggregatedData period zone now (incomes.map DatedRecord.model)
      (expenses.map DatedRecord.model) = some points ∧
    totals points =
      ⟨amountInSpan period (now.date zone) incomes, amountInSpan period (now.date zone) expenses,
        amountInSpan period (now.date zone) incomes - amountInSpan period (now.date zone) expenses⟩

/-- At the date of each bucket the clock shows what the bucket is meant for. -/
def ClockKeeps (period : ChartPeriod) (zone : Zone) (today : Date) : Prop :=
  ∀ i ∈ period.offsets, period.ShownAt zone today i

instance (period : ChartPeriod) (zone : Zone) (today : Date) :
    Decidable (ClockKeeps period zone today) :=
  inferInstanceAs (Decidable (∀ i ∈ period.offsets, _))

section Chart

variable {K : Type} [AddCommGroup K] {period : ChartPeriod} {zone : Zone} {now : DateTime}
  {buckets : List Bucket}

/-- The sums of the buckets are those of the records in the span. -/
theorem sum_dataPoints {today : Date} (h : CountedOnce period today buckets)
    (records : List (DatedRecord K)) :
    (buckets.map fun b => tally (fun r => b.counts r.recordedAt) RecordModel.amount
      (records.map DatedRecord.model)).sum = amountInSpan period today records := by
  have hrecords : Partition (fun b (r : DatedRecord K) => b.counts r.recordedAt)
      (fun r => decide (period.InSpan today r.date)) buckets := fun r => h r.toIsoDated
  have hmap : (fun b : Bucket => tally (fun r => b.counts r.recordedAt) RecordModel.amount
      (records.map DatedRecord.model)) =
        fun b => tally (fun r => b.counts r.recordedAt) DatedRecord.amount records :=
    funext fun b => List.foldl_map
  rw [hmap, sum_tallies hrecords, tally_eq_sum]
  rfl

theorem totals_dataPoints {today : Date} (h : CountedOnce period today buckets)
    (incomes expenses : List (DatedRecord K)) :
    totals (buckets.map
        (Bucket.dataPoint (incomes.map DatedRecord.model) (expenses.map DatedRecord.model))) =
      ⟨amountInSpan period today incomes, amountInSpan period today expenses,
        amountInSpan period today incomes - amountInSpan period today expenses⟩ := by
  have hincome := sum_dataPoints h incomes
  have hexpense := sum_dataPoints h expenses
  unfold totals
  simp only [foldl_add_eq_sum, List.map_map]
  rw [← hincome, ← hexpense]
  rfl

/-- Each bucket comes from its offset. -/
theorem forall₂_bucket (h : period.buckets zone now = some buckets) :
    List.Forall₂
      (fun (i : Nat) b => i < period.size ∧ period.bucket zone (now.date zone) i = some b)
      period.offsets buckets :=
  (List.forall₂_and_left _ _).mpr ⟨fun _ hi => period.mem_offsets.mp hi, mapM_eq_some_iff.mp h⟩

theorem standsFor_buckets_iff (h : period.buckets zone now = some buckets) :
    List.Forall₂ (period.StandsFor zone) (period.indices (now.date zone)) buckets ↔
      ClockKeeps period zone (now.date zone) := by
  unfold ChartPeriod.indices
  rw [List.forall₂_map_left_iff]
  constructor
  · intro hstands
    have hshown : List.Forall₂ (fun (i : Nat) _ => period.ShownAt zone (now.date zone) i ∧ True)
        period.offsets buckets :=
      (forall₂_bucket h).mp
        (fun i b hb hstands => ⟨(ChartPeriod.standsFor_iff hb.1 hb.2).mp hstands, trivial⟩) hstands
    exact ((List.forall₂_and_left _ _).mp hshown).1
  · intro hkeeps
    have hshown := (List.forall₂_and_left _ _).mpr ⟨hkeeps, forall₂_bucket h⟩
    exact hshown.imp fun i b hb => (ChartPeriod.standsFor_iff hb.2.1 hb.2.2).mpr hb.1

theorem partition_buckets (hkeyed : period.Keyed (now.date zone))
    (h : period.buckets zone now = some buckets)
    (hstands : List.Forall₂ (period.StandsFor zone) (period.indices (now.date zone)) buckets) :
    CountedOnce period (now.date zone) buckets := by
  apply partition_of_index (fun r => period.index r.date) (period.nodup_indices (now.date zone))
  · intro r
    rw [decide_eq_true_iff, period.mem_indices]
  · unfold ChartPeriod.indices at hstands ⊢
    rw [List.forall₂_map_left_iff] at hstands ⊢
    exact (forall₂_bucket h).mp
      (fun i b hb hstands r => ChartPeriod.counts_iff hkeyed hb.1 hb.2 hstands r) hstands

/-! ### Windows that start too early -/

theorem not_countedOnce {today : Date} {b : Bucket} (hb : b ∈ buckets) (r : IsoDated)
    (hcounts : b.counts r.recordedAt = true) (hspan : ¬ period.InSpan today r.date) :
    ¬ CountedOnce period today buckets := by
  intro h
  have hzero := h r
  rw [if_neg (by simpa using hspan), List.countP_eq_zero] at hzero
  exact hzero b hb hcounts

/-- The 31st of December. -/
def lastDay (year : Int) : Date := ⟨year, 12, 31, by decide, by decide, by decide, le_refl 31⟩

/-- Two thousand years ago the last day of the year -1 had the key of that of the year 1. -/
theorem day_keyed (hlow : 0 ≤ (now.date zone).year)
    (h : ChartPeriod.day.buckets zone now = some buckets)
    (hkeeps : ClockKeeps .day zone (now.date zone))
    (hcounted : CountedOnce .day (now.date zone) buckets) :
    ChartPeriod.day.Keyed (now.date zone) := by
  by_contra hearly
  have hstart : ¬ dayNumber 0 1 1 + 7 ≤ (now.date zone).dayNumber + 1 := hearly
  have hzero : dayNumber 0 1 1 + 719162 = daysBeforeYear 0 := by decide
  have hyear := daysBeforeYear_mono hlow
  have hyear' := (now.date zone).dayNumber_year
  obtain ⟨i, hi⟩ := Int.eq_ofNat_of_zero_le
    (show 0 ≤ (now.date zone).dayNumber - dayNumber 0 1 1 + 1 by omega)
  have hmem : i ∈ ChartPeriod.day.offsets :=
    ChartPeriod.day.mem_offsets.mpr (show i < 7 by omega)
  obtain ⟨b, hb, hbucket⟩ := exists_of_mapM h hmem
  obtain ⟨hdate, hkey⟩ := dayBucket_eq_some hbucket
  have hshown : (b.date.date zone).dayNumber = (now.date zone).dayNumber - i := by
    rw [hdate]
    exact hkeeps i hmem
  have hlast : b.date.date zone = lastDay (-1) := by
    have hbefore : (lastDay (-1)).dayNumber = dayNumber 0 1 1 - 1 := by decide
    exact Date.dayNumber_injective (by omega)
  refine not_countedOnce hb ⟨lastDay 1, by decide, by decide, []⟩ ?_ ?_ hcounted
  · unfold Bucket.counts
    rw [ List.isPrefixOf_iff_prefix, hkey, hlast]
    have hsame : formatDay (lastDay 1) <+:
        IsoDated.recordedAt ⟨lastDay 1, by decide, by decide, []⟩ :=
      (formatDay_prefix_iff (by decide) _).mpr rfl
    exact hsame
  · have hlater : dayNumber 0 1 1 + 7 ≤ (lastDay 1).dayNumber := by decide
    intro hspan
    have hle : (lastDay 1).dayNumber ≤ (now.date zone).dayNumber := hspan.2
    omega

theorem month_keyed (hlow : 0 ≤ (now.date zone).year)
    (h : ChartPeriod.month.buckets zone now = some buckets) :
    ChartPeriod.month.Keyed (now.date zone) := by
  by_contra hearly
  have hstart : ¬ 120 + 12 ≤ (now.date zone).monthIndex + 1 := hearly
  have hpos := (now.date zone).month_pos
  have hindex : (now.date zone).monthIndex =
    12 * (now.date zone).year + ((now.date zone).month - 1) := rfl
  -- the current month, or the last one of the year 9
  obtain ⟨i, hi, hnine⟩ : ∃ i : Nat, i < 12 ∧ 0 ≤ (now.date zone).monthIndex - i ∧
      (now.date zone).monthIndex - i < 120 :=
    ⟨((now.date zone).monthIndex - 119).toNat, by omega, by omega, by omega⟩
  obtain ⟨b, -, hbucket⟩ := exists_of_mapM h (ChartPeriod.month.mem_offsets.mpr hi)
  replace hbucket : monthBucket zone (now.date zone) i = some b := hbucket
  rw [monthBucket_eq hi] at hbucket
  obtain ⟨date, -, hbucket⟩ := Option.bind_eq_some_iff.mp hbucket
  obtain ⟨label, hlabel, -⟩ := Option.bind_eq_some_iff.mp hbucket
  have hyear : (Date.firstOfMonth ((now.date zone).monthIndex - i)).year =
    ((now.date zone).monthIndex - i) / 12 := rfl
  have hten := ten_le_of_getMonthLabel (by omega) hlabel
  omega

theorem year_keyed (hlow : 0 ≤ (now.date zone).year)
    (h : ChartPeriod.year.buckets zone now = some buckets)
    (hcounted : CountedOnce .year (now.date zone) buckets) :
    ChartPeriod.year.Keyed (now.date zone) := by
  by_contra hearly
  have hstart : ¬ 1000 + 5 ≤ (now.date zone).year + 1 := hearly
  -- the current year, or the year 999
  obtain ⟨i, hi, hshort⟩ : ∃ i : Nat, i < 5 ∧ 0 ≤ (now.date zone).year - i ∧
      (now.date zone).year - i < 1000 ∧ (i = 0 ∨ (now.date zone).year - i = 999) :=
    ⟨((now.date zone).year - 999).toNat, by omega, by omega, by omega, by omega⟩
  obtain ⟨b, hb, hbucket⟩ := exists_of_mapM h (ChartPeriod.year.mem_offsets.mpr hi)
  obtain ⟨y, hy⟩ := Int.eq_ofNat_of_zero_le hshort.1
  obtain ⟨y', hlt, hlater, hten, hprefix⟩ := exists_longer_year (show y < 1000 by omega)
  refine not_countedOnce hb ⟨lastDay y', Int.natCast_nonneg y', ?_, []⟩ ?_ ?_ hcounted
  · show (y' : Int) < 10000
    omega
  · unfold Bucket.counts
    rw [ List.isPrefixOf_iff_prefix, (yearBucket_eq_some hbucket).2, hy,
      IsoDated.recordedAt_eq _ (y := y') (m := 12) (d := 31) rfl rfl rfl]
    show intText ((y : Nat) : Int) <+: _
    rw [intText_natCast]
    exact hprefix.trans (List.prefix_append _ _)
  · intro hspan
    have hle : (y' : Int) ≤ (now.date zone).year := hspan.2
    omega

theorem keyed_of_counted (hlow : 0 ≤ (now.date zone).year)
    (h : period.buckets zone now = some buckets) (hkeeps : ClockKeeps period zone (now.date zone))
    (hcounted : CountedOnce period (now.date zone) buckets) : period.Keyed (now.date zone) := by
  cases period with
  | day => exact day_keyed hlow h hkeeps hcounted
  | month => exact month_keyed hlow h
  | year => exact year_keyed hlow h hcounted

/-- **The chart partitions its window** exactly when the window does not start too early and the
clock keeps the days and months. -/
theorem chart_partitions_iff (K : Type) [AddCommGroup K] (period : ChartPeriod) (zone : Zone)
    (now : DateTime) (hlow : 0 ≤ (now.date zone).year) (hhigh : (now.date zone).year ≤ 270000) :
    PartitionsWindow K period zone now ↔
      period.Keyed (now.date zone) ∧ ClockKeeps period zone (now.date zone) := by
  constructor
  · intro h
    obtain ⟨shown, hshown, hstands, hcounted⟩ := h.buckets
    have hkeeps := (standsFor_buckets_iff hshown).mp hstands
    exact ⟨keyed_of_counted hlow hshown hkeeps hcounted, hkeeps⟩
  · intro hboth
    obtain ⟨hkeyed, hkeeps⟩ := hboth
    obtain ⟨buckets, hbuckets⟩ : ∃ buckets, period.buckets zone now = some buckets :=
      exists_mapM fun i hi =>
        ChartPeriod.exists_bucket hlow hhigh hkeyed (period.mem_offsets.mp hi)
    have hstands := (standsFor_buckets_iff hbuckets).mpr hkeeps
    have hpartition := partition_buckets hkeyed hbuckets hstands
    refine ⟨⟨buckets, hbuckets, hstands, hpartition⟩, fun incomes expenses => ⟨_, ?_,
      totals_dataPoints hpartition incomes expenses⟩⟩
    unfold getAggregatedData
    rw [hbuckets]
    rfl

end Chart

/-! ### A year with clock changes -/

/-- Morocco in 2026: an hour ahead of UTC, except around Ramadan. -/
def moroccoOffset (t : Int) : Int :=
  if t < dayNumber 2026 2 15 * microsecondsPerDay + 2 * microsecondsPerHour then microsecondsPerHour
  else if t < dayNumber 2026 3 22 * microsecondsPerDay + 2 * microsecondsPerHour then 0
  else microsecondsPerHour

theorem moroccoOffset_bounds (t : Int) :
    0 ≤ moroccoOffset t ∧ moroccoOffset t ≤ microsecondsPerHour := by
  unfold moroccoOffset
  split
  · decide
  · split <;> decide

/-- For a time that the clock does not show, or shows twice, the library takes the offset that
applies where the time would be without clock changes. -/
def morocco : Zone where
  offset := moroccoOffset
  resolve := fun t => t - moroccoOffset (t - microsecondsPerHour)
  resolve_near := by
    intro t
    have h := moroccoOffset_bounds (t - microsecondsPerHour)
    simp only [microsecondsPerHour, microsecondsPerDay] at h ⊢
    omega

/-- Three days after the clocks went back, in UTC. -/
def noonOfFebruary18 : DateTime :=
  ⟨dayNumber 2026 2 18 * microsecondsPerDay + 12 * microsecondsPerHour, false, by decide⟩

/-- Two days after they went forward, by the local clock. -/
def noonOfMarch24 : DateTime :=
  ⟨dayNumber 2026 3 24 * microsecondsPerDay + 11 * microsecondsPerHour, false, by decide⟩

/-- Three days after the clocks went back, the days of the chart are right. -/
theorem chart_partitions_back_change :
    0 ≤ (noonOfFebruary18.date morocco).year ∧ (noonOfFebruary18.date morocco).year ≤ 270000 ∧
      PartitionsWindow Int .day morocco noonOfFebruary18 :=
  ⟨by decide, by decide, (chart_partitions_iff Int .day morocco noonOfFebruary18 (by decide)
    (by decide)).mpr ⟨by decide, by decide⟩⟩

/-- An amount of 100, on the day of the forward change. -/
def paymentOfMarch22 : DatedRecord Int where
  date := ⟨2026, 3, 22, by decide, by decide, by decide, by decide⟩
  year_nonneg := by decide
  year_lt := by decide
  time := text "T10:00:00"
  amount := 100

/-- **Two days after the clocks went forward a day is missing.** Its records are in no bucket, and
not in the totals. -/
theorem forward_change_skips_day :
    ChartPeriod.day.InSpan (noonOfMarch24.date morocco) paymentOfMarch22.date ∧
      ((ChartPeriod.day.buckets morocco noonOfMarch24).map fun buckets =>
        buckets.countP (·.counts paymentOfMarch22.recordedAt)) = some 0 ∧
      (getAggregatedData .day morocco noonOfMarch24 [paymentOfMarch22.model] []).map totals =
        some ⟨0, 0, 0⟩ ∧
      ¬ PartitionsWindow Int .day morocco noonOfMarch24 := by
  have hspan : ChartPeriod.day.InSpan (noonOfMarch24.date morocco) paymentOfMarch22.date := by
    decide
  have hcount : ((ChartPeriod.day.buckets morocco noonOfMarch24).map fun buckets =>
      buckets.countP (·.counts paymentOfMarch22.recordedAt)) = some 0 := rfl
  refine ⟨hspan, hcount, rfl, ?_⟩
  intro h
  obtain ⟨buckets, hbuckets, -, hpartition⟩ := h.buckets
  have hone := hpartition paymentOfMarch22.toIsoDated
  rw [if_pos (decide_eq_true hspan)] at hone
  rw [hbuckets] at hcount
  exact absurd (hone.symm.trans (Option.some.inj hcount)) (by decide)

end CarRental.FinancialChart
