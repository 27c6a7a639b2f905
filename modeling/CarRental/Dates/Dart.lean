import CarRental.Lib.Civil
import CarRental.Lib.Matcher
import CarRental.Text
import Mathlib.Tactic.IntervalCases

/-!
# CarRental.Dates.Dart

What the app's dates use of the **Dart library**: `int.tryParse`, and `DateTime` with its
constructor, its getters and its parser.

* A `DateTime` is a count of microseconds, within a range of 10⁸ days on either side
  of 1970; one outside throws, which is `none` here. Its fields are those the local
  clock shows then.
* A zone says how far the local clock is from UTC at each instant (`offset`), and
  which instant the library takes for a local time (`resolve`). Nothing is assumed of
  the two but that `resolve` stays within a day. So a clock change may skip a local
  time or repeat it, and the library may pick any instant for it.
* The constructor normalises: months beyond a year go to other years, and days, hours
  and minutes are added up whatever they are. Sums are exact where the library's wrap
  around at 64 bits. The difference does not show: a caller that compares the fields
  with what it gave rejects the result of either.
-/

namespace CarRental.Dart

open Lib Lib.Civil DigitSigns

/-! ### Strings and integers -/

/-- The value of a hexadecimal digit. -/
def hexDigit? (c : CodeUnit) : Option Nat :=
  if 0x61 ≤ c ∧ c ≤ 0x66 then some (c.toNat - 0x57)
  else if 0x41 ≤ c ∧ c ≤ 0x46 then some (c.toNat - 0x37)
  else digit? c

/-- Hexadecimal digits. Without a minus sign they may use all 64 bits. -/
def parseHex (negative : Bool) (digits : Text) : Option Int := do
  if digits = [] then none
  let n : Nat ← digits.foldlM (fun (n : Nat) c => (hexDigit? c).map (16 * n + ·)) 0
  if negative then if n ≤ 2 ^ 63 then some (-(n : Int)) else none
  else if n < 2 ^ 63 then some n
  else if n < 2 ^ 64 then some (n - 2 ^ 64)
  else none

/-- Decimal digits that fit into 64 bits. -/
def parseDecimal (negative : Bool) (digits : Text) : Option Int :=
  if digits = [] ∨ ¬ digits.all isDigit then none
  else
    let n : Int := if negative then -numeral digits else numeral digits
    if -2 ^ 63 ≤ n ∧ n < 2 ^ 63 then some n else none

/-- What is behind the sign: decimal, or hexadecimal after `0x`. -/
def parseUnsigned (negative : Bool) : Text → Option Int
  | 0x30 :: x :: digits =>
    if x = 'x' ∨ x = 'X' then parseHex negative digits
    else parseDecimal negative (0x30 :: x :: digits)
  | digits => parseDecimal negative digits

/-- `int.tryParse` -/
def tryParse (source : Text) : Option Int :=
  match trim source with
  | 0x2B :: digits => parseUnsigned false digits
  | 0x2D :: digits => parseUnsigned true digits
  | digits => parseUnsigned false digits

theorem isWhitespace_of_isDigit {c : CodeUnit} (h : isDigit c = true) : isWhitespace c = false := by
  obtain ⟨d, hd, rfl⟩ := isDigit_iff.mp h
  interval_cases d <;> decide

/-- Digits are read as the number they stand for. -/
theorem tryParse_digits {digits : Text} (hne : digits ≠ []) (hall : ∀ c ∈ digits, isDigit c = true)
    (hlt : numeral digits < 2 ^ 63) : tryParse digits = some (numeral digits) := by
  have hdecimal : parseDecimal false digits = some (numeral digits) := by
    have hdigits : ¬ (digits = [] ∨ ¬ digits.all isDigit) := by
      rw [not_or, not_not, List.all_eq_true]
      exact ⟨hne, hall⟩
    have hrange : -2 ^ 63 ≤ (numeral digits : Int) ∧ (numeral digits : Int) < 2 ^ 63 := by omega
    exact (if_neg hdigits).trans (if_pos hrange)
  have hunsigned : parseUnsigned false digits = some (numeral digits) := by
    unfold parseUnsigned
    split
    · next x rest =>
      have hx : ¬ (x = 'x' ∨ x = 'X') := by
        have hdigit := hall x (by simp)
        intro hx
        rcases hx with rfl | rfl <;> exact absurd hdigit (by decide)
      rw [if_neg hx]
      exact hdecimal
    · exact hdecimal
  have htrim : trim digits = digits :=
    trimEnds_of_none fun c hc => isWhitespace_of_isDigit (hall c hc)
  unfold tryParse
  rw [htrim]
  split
  · exact absurd (hall 0x2B (by simp)) (by decide)
  · exact absurd (hall 0x2D (by simp)) (by decide)
  · exact hunsigned

theorem tryParse_fixed {w n : Nat} (hw : 0 < w) (hn : n < 10 ^ w) (hlt : n < 2 ^ 63) :
    tryParse (fixed w n) = some (n : Int) := by
  have hread : tryParse (fixed w n) = some ((numeral (fixed w n : Text) : Nat) : Int) :=
    tryParse_digits (List.ne_nil_of_length_pos (by rw [length_fixed]; exact hw))
      (fun c hc => isDigit_of_mem_fixed hc) (by rw [numeral_fixed hn]; exact hlt)
  rw [numeral_fixed hn] at hread
  exact hread

/-! ### Instants and the local clock -/

/-- `Duration.microsecondsPerSecond` -/
def microsecondsPerSecond : Int := 1000000
/-- `Duration.microsecondsPerMinute` -/
def microsecondsPerMinute : Int := 60000000
/-- `Duration.microsecondsPerHour` -/
def microsecondsPerHour : Int := 3600000000
/-- `Duration.microsecondsPerDay` -/
def microsecondsPerDay : Int := 86400000000
/-- 10⁸ days. -/
def maxMicrosecondsSinceEpoch : Int := 8640000000000000000

/-- A local zone, in microseconds. -/
structure Zone where
  offset : Int → Int
  resolve : Int → Int
  resolve_near : ∀ t, t - microsecondsPerDay ≤ resolve t ∧ resolve t ≤ t + microsecondsPerDay

/-- What the local clock shows at an instant. -/
def Zone.clock (zone : Zone) (t : Int) : Int := t + zone.offset t

/-- The date that the local clock shows. -/
def Zone.dateAt (zone : Zone) (t : Int) : Date := .ofDayNumber (zone.clock t / microsecondsPerDay)

/-- The instant that the library takes for the beginning of a day. -/
def Zone.startOfDay (zone : Zone) (date : Date) : Int :=
  zone.resolve (date.dayNumber * microsecondsPerDay)

/-- At the beginning of a day the clock shows that day. -/
def Zone.Shows (zone : Zone) (date : Date) : Prop := zone.dateAt (zone.startOfDay date) = date

/-- A zone without clock changes. -/
def Zone.fixed (offset : Int) (h : -microsecondsPerDay ≤ offset ∧ offset ≤ microsecondsPerDay) :
    Zone where
  offset := fun _ => offset
  resolve := fun t => t - offset
  resolve_near := fun _ => by omega

/-- A moment within the range, with the clock it is shown on. -/
structure DateTime where
  value : Int
  isUtc : Bool
  in_range : -maxMicrosecondsSinceEpoch ≤ value ∧ value ≤ maxMicrosecondsSinceEpoch

namespace DateTime

/-- `DateTime._withValue`, which throws outside the range. -/
def withValue (value : Int) (isUtc : Bool) : Option DateTime :=
  if h : -maxMicrosecondsSinceEpoch ≤ value ∧ value ≤ maxMicrosecondsSinceEpoch then
    some ⟨value, isUtc, h⟩
  else none

/-- The fields added up, as a time without a zone. -/
def localTime (year month day hour minute second microsecond : Int) : Int :=
  dayNumber (year + (month - 1) / 12) ((month - 1) % 12 + 1) day * microsecondsPerDay
    + hour * microsecondsPerHour + minute * microsecondsPerMinute
    + second * microsecondsPerSecond + microsecond

/-- `_brokenDownDateToValue`: the moment at which the clock shows the fields. A day more than the
range is let through here, for the offset of the zone. -/
def brokenDownDateToValue (zone : Zone)
    (year month day hour minute second microsecond : Int) (isUtc : Bool) : Option Int :=
  let t := localTime year month day hour minute second microsecond
  if isUtc then some t
  else if t < -(maxMicrosecondsSinceEpoch + microsecondsPerDay)
      ∨ maxMicrosecondsSinceEpoch + microsecondsPerDay < t then none
  else some (zone.resolve t)

/-- `DateTime(year, month, day, hour, minute)` -/
def new (zone : Zone) (year month day : Int) (hour minute : Int := 0) : Option DateTime := do
  withValue (← brokenDownDateToValue zone year month day hour minute 0 0 false) false

/-- `subtract(Duration(days: days))` -/
def subtractDays (dt : DateTime) (days : Int) : Option DateTime :=
  withValue (dt.value - days * microsecondsPerDay) dt.isUtc

section Getters

variable (zone : Zone) (dt : DateTime)

/-- What its clock shows: the local one, or that of UTC. -/
def clock : Int := if dt.isUtc then dt.value else zone.clock dt.value

/-- The day the clock shows. -/
def date : Date := .ofDayNumber (dt.clock zone / microsecondsPerDay)

/-- `hour` -/
def hour : Int := dt.clock zone % microsecondsPerDay / microsecondsPerHour

/-- `minute` -/
def minute : Int := dt.clock zone % microsecondsPerHour / microsecondsPerMinute

end Getters

/-! ### Fields given and fields shown -/

/-- The fields of a date add up to the beginning of its day. -/
theorem localTime_date (date : Date) :
    localTime date.year date.month date.day 0 0 0 0 = date.dayNumber * microsecondsPerDay := by
  have hpos := date.month_pos
  have hle := date.month_le
  have hyear : date.year + (date.month - 1) / 12 = date.year := by omega
  have hmonth : (date.month - 1) % 12 + 1 = date.month := by omega
  unfold localTime
  rw [hyear, hmonth]
  simp only [Int.zero_mul, Int.add_zero]
  rfl

theorem withValue_eq_some {value : Int} {isUtc : Bool} {dt : DateTime}
    (h : withValue value isUtc = some dt) : dt.value = value ∧ dt.isUtc = isUtc := by
  unfold withValue at h
  split at h
  · cases h
    exact ⟨rfl, rfl⟩
  · exact absurd h (by simp)

theorem brokenDownDateToValue_eq_some {zone : Zone} {year month day hour minute : Int} {value : Int}
    (h : brokenDownDateToValue zone year month day hour minute 0 0 false = some value) :
    value = zone.resolve (localTime year month day hour minute 0 0) := by
  unfold brokenDownDateToValue at h
  dsimp only at h
  rw [if_neg (by decide)] at h
  split at h
  · exact absurd h (by simp)
  · exact (Option.some.inj h).symm

theorem new_eq_some {zone : Zone} {year month day hour minute : Int} {dt : DateTime}
    (h : new zone year month day hour minute = some dt) :
    dt.value = zone.resolve (localTime year month day hour minute 0 0) ∧ dt.isUtc = false := by
  obtain ⟨value, hvalue, hdt⟩ := Option.bind_eq_some_iff.mp h
  rw [← brokenDownDateToValue_eq_some hvalue]
  exact withValue_eq_some hdt

/-- The constructor returns the beginning of the day, for dates of a few hundred thousand years.
A week before it is still in range. -/
theorem exists_new (zone : Zone) (date : Date) (hlow : -270000 ≤ date.year)
    (hhigh : date.year ≤ 270000) :
    ∃ dt, new zone date.year date.month date.day = some dt ∧ dt.value = zone.startOfDay date ∧
      dt.isUtc = false ∧ -maxMicrosecondsSinceEpoch + 7 * microsecondsPerDay ≤ dt.value := by
  have hfirst : -98700000 ≤ daysBeforeYear (-270000) := by decide
  have hlast : daysBeforeYear (270000 + 1) ≤ 98700000 := by decide
  have hnumber := date.dayNumber_bounds hlow hhigh
  have hnear := zone.resolve_near (date.dayNumber * microsecondsPerDay)
  have hgiven : ¬ (date.dayNumber * microsecondsPerDay
        < -(maxMicrosecondsSinceEpoch + microsecondsPerDay)
      ∨ maxMicrosecondsSinceEpoch + microsecondsPerDay < date.dayNumber * microsecondsPerDay) := by
    simp only [maxMicrosecondsSinceEpoch, microsecondsPerDay]
    omega
  have hweek : -maxMicrosecondsSinceEpoch + 7 * microsecondsPerDay ≤ zone.startOfDay date ∧
      zone.startOfDay date ≤ maxMicrosecondsSinceEpoch := by
    unfold Zone.startOfDay
    simp only [maxMicrosecondsSinceEpoch, microsecondsPerDay] at hnear ⊢
    omega
  have hrange : -maxMicrosecondsSinceEpoch ≤ zone.startOfDay date ∧
      zone.startOfDay date ≤ maxMicrosecondsSinceEpoch := by
    simp only [maxMicrosecondsSinceEpoch, microsecondsPerDay] at hweek ⊢
    omega
  refine ⟨⟨_, false, hrange⟩, ?_, rfl, rfl, hweek.1⟩
  refine Option.bind_eq_some_iff.mpr ⟨zone.startOfDay date, ?_, dif_pos hrange⟩
  unfold brokenDownDateToValue
  rw [localTime_date]
  exact if_neg hgiven

theorem date_eq_dateAt {zone : Zone} {dt : DateTime} (h : dt.isUtc = false) :
    dt.date zone = zone.dateAt dt.value := by
  unfold date clock Zone.dateAt
  rw [h]
  rfl

/-- **The fields come back** when they are those of a date, and the clock shows it. -/
theorem new_date_iff {zone : Zone} {year month day : Int} {dt : DateTime}
    (h : new zone year month day = some dt) :
    ((dt.date zone).year = year ∧ (dt.date zone).month = month ∧ (dt.date zone).day = day) ↔
      ∃ date : Date, date.year = year ∧ date.month = month ∧ date.day = day ∧ zone.Shows date := by
  obtain ⟨hvalue, hutc⟩ := new_eq_some h
  have hdate : ∀ {date : Date}, date.year = year → date.month = month → date.day = day →
      dt.date zone = zone.dateAt (zone.startOfDay date) := by
    intro date hyear hmonth hday
    rw [date_eq_dateAt hutc, hvalue, ← hyear, ← hmonth, ← hday, localTime_date]
    rfl
  constructor
  · intro hfields
    obtain ⟨hyear, hmonth, hday⟩ := hfields
    exact ⟨dt.date zone, hyear, hmonth, hday, (hdate hyear hmonth hday).symm⟩
  · intro hshown
    obtain ⟨date, hyear, hmonth, hday, hshows⟩ := hshown
    rw [hdate hyear hmonth hday, hshows]
    exact ⟨hyear, hmonth, hday⟩

end DateTime

/-! ### The parser -/

/-- The digits captured by the parser's regular expression, and the signs in front of the year and
of the offset. -/
structure Captures where
  yearSign : Option CodeUnit
  year : Text
  month : Text
  day : Text
  hour : Text := []
  minute : Text := []
  second : Text := []
  fraction : Text := []
  /-- Nothing, a `Z`, or an offset with its sign, hours and minutes. -/
  zone : Option (Option (CodeUnit × Text × Text)) := none

section Format

open Matcher

/-- `\d{lo,hi}` -/
def digits (lo hi : Nat) : Matcher CodeUnit Text := run isDigit lo hi

theorem first_digits {lo hi w n : Nat} {rest : Text} (hlo : lo ≤ w) (hhi : w ≤ hi)
    (hstop : w = hi ∨ ∀ c ∈ rest.head?, isDigit c = false) :
    first (digits lo hi) (fixed w n ++ rest) = some (fixed w n, rest) := by
  have hlen : (fixed w n : Text).length = w := length_fixed w n
  rw [← hlen] at hlo hhi hstop
  exact first_run (fun c hc => isDigit_of_mem_fixed hc) hlo hhi hstop

theorem first_twoDigits (n : Nat) (rest : Text) :
    first (digits 2 2) (fixed 2 n ++ rest) = some (fixed 2 n, rest) :=
  first_digits (by decide) (by decide) (Or.inl rfl)

theorem first_sign {c : CodeUnit} {signs : List CodeUnit} (h : signs.contains c = true)
    (rest : Text) : first (oneOf signs) (c :: rest) = some (c, rest) := first_satisfy h rest

/-- A numeral does not begin with a sign. -/
theorem oneOf_fixed {signs : List CodeUnit} (hsigns : signs.any isDigit = false) {w : Nat}
    (hw : 0 < w) (n : Nat) (rest : Text) : oneOf signs (fixed w n ++ rest) = [] := by
  obtain ⟨c, text, htext⟩ := List.exists_cons_of_length_pos
    (show 0 < (fixed w n : Text).length by rw [length_fixed]; exact hw)
  have hc : isDigit c = true := by
    apply isDigit_of_mem_fixed (w := w) (n := n)
    rw [htext]
    exact List.mem_cons_self
  have hnot : ¬ signs.contains c = true := by
    rw [List.contains_iff_mem]
    intro hmem
    exact absurd (List.any_eq_true.mpr ⟨c, hmem, hc⟩) (by simp [hsigns])
  rw [htext]
  exact if_neg hnot

/-- `(?:[.,](\d+))?` -/
def fractionFormat : Matcher CodeUnit Text := do
  let fraction ← opt (do
    let _ ← oneOf ['.', ',']
    fun text => run isDigit 1 text.length text)
  return fraction.getD []

/-- `(?::?(\d\d)(?:[.,](\d+))?)?` -/
def secondFormat : Matcher CodeUnit (Text × Text) := do
  let second ← opt (do
    let _ ← opt (oneOf [':'])
    let second ← digits 2 2
    return (second, ← fractionFormat))
  return second.getD ([], [])

/-- `(?::?(\d\d)…)?` -/
def minuteFormat : Matcher CodeUnit (Text × Text × Text) := do
  let minute ← opt (do
    let _ ← opt (oneOf [':'])
    let minute ← digits 2 2
    return (minute, ← secondFormat))
  return minute.getD ([], [], [])

/-- `( ?[zZ]| ?([-+])(\d\d)(?::?(\d\d))?)?` -/
def zoneFormat : Matcher CodeUnit (Option (Option (CodeUnit × Text × Text))) :=
  opt (orElse
    (do
      let _ ← opt (oneOf [' '])
      let _ ← oneOf ['z', 'Z']
      return none)
    (do
      let _ ← opt (oneOf [' '])
      let sign ← oneOf ['-', '+']
      let hour ← digits 2 2
      let minute ← opt (do
        let _ ← opt (oneOf [':'])
        digits 2 2)
      return some (sign, hour, minute.getD [])))

/-- `(?:[ T](\d\d)…)?$`, behind a date -/
def timeFormat (date : Captures) : Matcher CodeUnit Captures := do
  let time ← opt (do
    let _ ← oneOf [' ', 'T']
    let hour ← digits 2 2
    let (minute, second, fraction) ← minuteFormat
    let zone ← zoneFormat
    return { date with hour, minute, second, fraction, zone })
  endOfText
  return time.getD date

/-- `^([+-]?\d{4,6})-?(\d\d)-?(\d\d)…` -/
def parseFormat : Matcher CodeUnit Captures := do
  let yearSign ← opt (oneOf ['+', '-'])
  let year ← digits 4 6
  let _ ← opt (oneOf ['-'])
  let month ← digits 2 2
  let _ ← opt (oneOf ['-'])
  let day ← digits 2 2
  timeFormat { yearSign, year, month, day }

end Format

/-- `parseMilliAndMicroseconds`: the first six digits, with zeros behind them. -/
def parseFraction (fraction : Text) : Int := numeral ((fraction.take 6).rightpad 6 (digit 0))

/-- The number with the sign that was read. -/
def signed (sign : Option CodeUnit) (n : Int) : Int := if sign = some '-' then -n else n

/-- `DateTime.parse`. A zone in the text makes the result one of UTC. -/
def DateTime.parse (zone : Zone) (formattedString : Text) : Option DateTime := do
  let (captures, _) ← parseFormat.first formattedString
  let years := signed captures.yearSign (numeral captures.year)
  let minuteDifference :=
    match captures.zone with
    | some (some (sign, hour, minute)) => signed (some sign) (numeral minute + 60 * numeral hour)
    | _ => 0
  let isUtc := captures.zone.isSome
  let value ← brokenDownDateToValue zone years (numeral captures.month) (numeral captures.day)
    (numeral captures.hour) (numeral captures.minute - minuteDifference) (numeral captures.second)
    (parseFraction captures.fraction) isUtc
  withValue value isUtc

end CarRental.Dart
