import CarRental.Lib.Civil
import CarRental.Lib.Matcher
import CarRental.Text
import Mathlib.Tactic.IntervalCases

/-!
# CarRental.Dates.Java

What the server's dates use of the **Java library**: the formatters of
`java.time` and the rules by which they make a date of the fields they have read.

Formatters parse strictly, in two phases. A number field reads its digits as far as
its width goes (`NumberPrinterParser.parse`); then the fields are resolved. A pattern
given to `ofPattern` is resolved smartly: a day that the month does not have becomes
the last day of the month (`resolveSmart`). The ISO formatters are resolved strictly.

`parse_run` says what is left behind by a number that a separator follows: the number
took all the digits there were. That is what keeps two patterns from reading one text.
-/

namespace CarRental.Java

open Lib Lib.Civil

theorem not_blank_of_isDigit {c : CodeUnit} (h : isDigit c = true) :
    decide (c ≤ 0x20) = false := by
  obtain ⟨d, hd, rfl⟩ := isDigit_iff.mp h
  interval_cases d <;> decide

/-! ### Number fields -/

/-- `java.time.format.SignStyle`, as far as the patterns use it -/
inductive SignStyle
  | normal
  | notNegative
  | exceedsPad
  deriving DecidableEq

/-- What stood in front of the digits. -/
inductive Sign
  | none
  | plus
  | minus
  deriving DecidableEq

/-- The number with its sign. -/
def Sign.apply : Sign → Nat → Int
  | .minus, n => -n
  | _, n => n

/-- A numeric field of a pattern. -/
structure NumberPrinterParser where
  minWidth : Nat
  maxWidth : Nat
  signStyle : SignStyle

namespace NumberPrinterParser

variable (p : NumberPrinterParser)

/-- The digits are enough, a minus zero is refused, and a number that exceeds the pad width has a
plus sign, and no other has. -/
def Accepts (sign : Sign) (width : Nat) (total : Int) : Prop :=
  p.minWidth ≤ width ∧ (sign = .minus → total ≠ 0) ∧
    (p.signStyle = .exceedsPad → sign = .plus → p.minWidth < width) ∧
    (p.signStyle = .exceedsPad → sign = .none → width ≤ p.minWidth)

instance (sign : Sign) (width : Nat) (total : Int) : Decidable (p.Accepts sign width total) :=
  inferInstanceAs (Decidable (_ ∧ _ ∧ _ ∧ _))

/-- The digits behind the sign. A number that does not fit in 64 bits leaves its last digit. -/
def parseDigits (sign : Sign) (text : Text) : Option (Int × Text) :=
  let digits := (text.take p.maxWidth).takeWhile isDigit
  let total := sign.apply (numeral digits)
  if ¬ p.Accepts sign digits.length total then none
  else if total < -2 ^ 63 ∨ 2 ^ 63 ≤ total then
    some (total.tdiv 10, text.drop (digits.length - 1))
  else some (total, text.drop digits.length)

/-- `NumberPrinterParser.parse`, with what is left of the text. -/
def parse : Text → Option (Int × Text)
  | 0x2B :: rest => if p.signStyle = .exceedsPad then p.parseDigits .plus rest else none
  | 0x2D :: rest => if p.signStyle = .notNegative then none else p.parseDigits .minus rest
  | text => p.parseDigits .none text

end NumberPrinterParser

/-- `yyyy`, a year of the era, at least four digits -/
def yyyy : NumberPrinterParser := ⟨4, 19, .exceedsPad⟩

/-- `MM`, `dd` and the fields of the time of day -/
def twoDigits : NumberPrinterParser := ⟨2, 2, .notNegative⟩

/-- `M`, `d` -/
def anyDigits : NumberPrinterParser := ⟨1, 19, .normal⟩

/-- A sign of the pattern itself. -/
def literal (c : CodeUnit) : Text → Option Text
  | [] => none
  | d :: rest => if d = c then some rest else none

/-- Three numbers with separators between them, and nothing behind. -/
def parseThree (separator : CodeUnit) (p q r : NumberPrinterParser) (text : Text) :
    Option (Int × Int × Int) := do
  let (a, text) ← p.parse text
  let text ← literal separator text
  let (b, text) ← q.parse text
  let text ← literal separator text
  let (c, text) ← r.parse text
  if text = [] then some (a, b, c) else none

/-! ### Dates -/

/-- The fields that a date is made of, as they are written. -/
structure Fields where
  year : Int
  month : Int
  day : Int
  deriving DecidableEq

/-- `LocalDate.of` -/
def dateOf (f : Fields) : Option Date :=
  if h : 1 ≤ f.month ∧ f.month ≤ 12 ∧ 1 ≤ f.day ∧ f.day ≤ monthLength f.year f.month then
    some ⟨f.year, f.month, f.day, h.1, h.2.1, h.2.2.1, h.2.2.2⟩
  else none

theorem dateOf_eq_some {f : Fields} {date : Date} :
    dateOf f = some date ↔ date.year = f.year ∧ date.month = f.month ∧ date.day = f.day := by
  constructor
  · intro h
    unfold dateOf at h
    split at h
    · cases h
      exact ⟨rfl, rfl, rfl⟩
    · exact absurd h (by simp)
  · intro h
    obtain ⟨hyear, hmonth, hday⟩ := h
    have hvalid : 1 ≤ f.month ∧ f.month ≤ 12 ∧ 1 ≤ f.day ∧ f.day ≤ monthLength f.year f.month := by
      rw [← hyear, ← hmonth, ← hday]
      exact ⟨date.month_pos, date.month_le, date.day_pos, date.day_le⟩
    unfold dateOf
    rw [dif_pos hvalid]
    exact congrArg some (Date.ext hyear.symm hmonth.symm hday.symm)

/-- Every field within its range, whatever the others are. -/
def Fields.InRange (f : Fields) : Prop :=
  -999999999 ≤ f.year ∧ f.year ≤ 999999999 ∧ 1 ≤ f.month ∧ f.month ≤ 12 ∧ 1 ≤ f.day ∧ f.day ≤ 31

instance (f : Fields) : Decidable f.InRange := inferInstanceAs (Decidable (_ ∧ _))

/-- `ResolverStyle.SMART`, of a year of the era. -/
def resolveSmart (f : Fields) : Option Date :=
  if 1 ≤ f.year ∧ f.InRange then
    if f.month = 4 ∨ f.month = 6 ∨ f.month = 9 ∨ f.month = 11 then
      dateOf { f with day := min f.day 30 }
    else if f.month = 2 then
      dateOf { f with day := min f.day (if IsLeap f.year then 29 else 28) }
    else dateOf f
  else none

/-- `ResolverStyle.STRICT`, of a year. -/
def resolveStrict (f : Fields) : Option Date := if f.InRange then dateOf f else none

/-! ### `ISO_LOCAL_DATE_TIME` -/

/-- The time of day, in seconds; the fraction of a second is read and not kept. -/
def parseIsoTime (text : Text) : Option Int := do
  let (hour, text) ← twoDigits.parse text
  let text ← literal ':' text
  let (minute, text) ← twoDigits.parse text
  -- the seconds are optional, and so is their fraction
  let (second, text) := (do
    let (second, text) ← twoDigits.parse (← literal ':' text)
    match literal '.' text with
    | some fraction => return (second, fraction.drop ((fraction.take 9).takeWhile isDigit).length)
    | none => return (second, text)).getD (0, text)
  if text = [] ∧ 0 ≤ hour ∧ hour ≤ 23 ∧ 0 ≤ minute ∧ minute ≤ 59 ∧ 0 ≤ second ∧ second ≤ 59 then
    some (hour * 3600 + minute * 60 + second)
  else none

/-- `LocalDateTime.parse`, in seconds of local time. -/
def parseIsoDateTime (text : Text) : Option Int := do
  let (year, text) ← (⟨4, 10, .exceedsPad⟩ : NumberPrinterParser).parse text
  let text ← literal '-' text
  let (month, text) ← twoDigits.parse text
  let text ← literal '-' text
  let (day, text) ← twoDigits.parse text
  let time ← (literal 'T' text).or (literal 't' text)
  let seconds ← parseIsoTime time
  let date ← resolveStrict ⟨year, month, day⟩
  return date.dayNumber * 86400 + seconds

/-! ### `ISO_LOCAL_DATE` -/

/-- `LocalDate.parse` -/
def parseIsoDate (text : Text) : Option Date := do
  let (year, month, day) ← parseThree '-' ⟨4, 10, .exceedsPad⟩ twoDigits twoDigits text
  resolveStrict ⟨year, month, day⟩

/-- The year of `LocalDate.toString`: at least four digits, and a sign if they are more. -/
def yearText (year : Int) : Text :=
  if year.natAbs < 1000 then
    if year < 0 then '-' :: fixed 4 year.natAbs else fixed 4 year.natAbs
  else if 9999 < year then '+' :: intText year
  else intText year

/-- `LocalDate.toString` -/
def dateText (date : Date) : Text :=
  yearText date.year ++ dash :: (fixed 2 date.month.toNat ++ dash :: fixed 2 date.day.toNat)

/-! ### What number fields read -/

/-- A text behind its sign. -/
def unsigned : Text → Text
  | 0x2B :: rest => rest
  | 0x2D :: rest => rest
  | text => text

theorem literal_eq_some {c : CodeUnit} {text rest : Text} (h : literal c text = some rest) :
    text = c :: rest := by
  cases text with
  | nil => exact absurd h (by simp [literal])
  | cons d text =>
    rw [literal] at h
    split at h
    · next hd => rw [hd, Option.some.inj h]
    · exact absurd h (by simp)

theorem literal_cons (c : CodeUnit) (rest : Text) : literal c (c :: rest) = some rest := if_pos rfl

namespace NumberPrinterParser

variable {p : NumberPrinterParser}

/-- The digits read are at the front of the text. -/
theorem take_digits (text : Text) (n : Nat) :
    text.take ((text.take n).takeWhile isDigit).length = (text.take n).takeWhile isDigit := by
  have hprefix : (text.take n).takeWhile isDigit <+: text :=
    ( List.takeWhile_prefix _).trans ( List.take_prefix n text)
  exact (List.prefix_iff_eq_take.mp hprefix).symm

theorem parseDigits_run {sign : Sign} {text rest : Text} {v : Int} {c : CodeUnit}
    (h : p.parseDigits sign text = some (v, c :: rest)) (hc : isDigit c = false) :
    p.minWidth ≤ (text.takeWhile isDigit).length ∧ (text.takeWhile isDigit).length ≤ p.maxWidth ∧
      text.dropWhile isDigit = c :: rest := by
  have hfront := take_digits text p.maxWidth
  have hwidth : ((text.take p.maxWidth).takeWhile isDigit).length ≤ p.maxWidth :=
    Nat.le_trans ( List.takeWhile_prefix _).length_le (List.length_take_le _ _)
  have hdigits : ∀ d ∈ (text.take p.maxWidth).takeWhile isDigit, isDigit d = true :=
    fun d hd => List.mem_takeWhile_imp hd
  unfold parseDigits at h
  generalize (text.take p.maxWidth).takeWhile isDigit = digits at h hfront hwidth hdigits
  dsimp only at h
  split at h
  · exact absurd h (by simp)
  next haccepts =>
  have hmin := (not_not.mp haccepts).1
  split at h
  · next hlarge =>
    -- the last digit is left behind, and that is no separator
    have hrest : text.drop (digits.length - 1) = c :: rest := (Prod.mk.inj (Option.some.inj h)).2
    have hpos : 0 < digits.length := by
      apply List.length_pos_iff.mpr
      intro hnil
      rw [hnil] at hlarge
      cases sign <;> exact absurd hlarge (by decide)
    have hmem : c ∈ digits := by
      rw [← hfront]
      apply List.mem_of_getElem?
      rw [List.getElem?_take_of_lt (Nat.sub_lt hpos Nat.one_pos), ← List.head?_drop, hrest]
      rfl
    rw [hdigits c hmem] at hc
    exact absurd hc (by decide)
  · have hrest : text.drop digits.length = c :: rest := (Prod.mk.inj (Option.some.inj h)).2
    have htext := List.take_append_drop digits.length text
    rw [hfront, hrest] at htext
    rw [← htext, List.takeWhile_append_of_pos hdigits, List.dropWhile_append_of_pos hdigits,
      List.takeWhile_cons_of_neg (by simp [hc]), List.dropWhile_cons_of_neg (by simp [hc]),
      List.append_nil]
    exact ⟨hmin, hwidth, rfl⟩

/-- **What a number leaves** in front of a separator: it took all the digits there were. -/
theorem parse_run {text rest : Text} {v : Int} {c : CodeUnit}
    (h : p.parse text = some (v, c :: rest)) (hc : isDigit c = false) :
    p.minWidth ≤ ((unsigned text).takeWhile isDigit).length ∧
      ((unsigned text).takeWhile isDigit).length ≤ p.maxWidth ∧
      (unsigned text).dropWhile isDigit = c :: rest := by
  unfold parse at h
  split at h
  · split at h
    · exact parseDigits_run h hc
    · exact absurd h (by simp)
  · split at h
    · exact absurd h (by simp)
    · exact parseDigits_run h hc
  · next hplus hminus =>
    have hunsigned : unsigned text = text := by
      unfold unsigned
      split
      · exact absurd rfl (hplus _)
      · exact absurd rfl (hminus _)
      · rfl
    rw [hunsigned]
    exact parseDigits_run h hc

/-- A numeral of a width that the field takes is read as its number. -/
theorem parse_fixed {w n : Nat} {rest : Text} (hw : 0 < w) (hmin : p.minWidth = w)
    (hmax : w ≤ p.maxWidth) (hn : n < 10 ^ w) (hlt : n < 2 ^ 63)
    (hstop : w = p.maxWidth ∨ ∀ c ∈ rest.head?, isDigit c = false) :
    p.parse (fixed w n ++ rest) = some ((n : Int), rest) := by
  have hall : ∀ c ∈ (fixed w n : Text), isDigit c = true := fun c hc => isDigit_of_mem_fixed hc
  have hlen : (fixed w n : Text).length = w := length_fixed w n
  rw [← hlen] at hmax hstop
  have hdigits : p.parseDigits .none (fixed w n ++ rest) = some ((n : Int), rest) := by
    unfold parseDigits
    dsimp only
    rw [takeWhile_take_append hall hmax hstop, numeral_fixed hn, hlen, List.drop_left' hlen]
    have haccepts : p.Accepts .none w n :=
      ⟨hmin.le, fun h => absurd h (by decide), fun _ h => absurd h (by decide), fun _ _ => hmin.ge⟩
    have hfits : ¬ ((n : Int) < -2 ^ 63 ∨ 2 ^ 63 ≤ (n : Int)) := by omega
    exact (if_neg (not_not.mpr haccepts)).trans (if_neg hfits)
  obtain ⟨c, text, htext⟩ := List.exists_cons_of_length_pos (hlen ▸ hw)
  have hc : isDigit c = true := hall c (by rw [htext]; exact List.mem_cons_self)
  rw [htext, List.cons_append] at hdigits ⊢
  unfold parse
  split
  · next heq =>
    rw [(List.cons.inj heq).1] at hc
    exact absurd hc (by decide)
  · next heq =>
    rw [(List.cons.inj heq).1] at hc
    exact absurd hc (by decide)
  · exact hdigits

end NumberPrinterParser

theorem twoDigits_fixed {n : Nat} (hn : n < 100) (rest : Text) :
    twoDigits.parse (fixed 2 n ++ rest) = some ((n : Int), rest) :=
  NumberPrinterParser.parse_fixed (by decide) rfl (by decide) hn (by omega) (Or.inl rfl)

/-! ### Dates with a year of four digits -/

section FourDigits

variable {date : Date} {y m d : Nat}

theorem dateText_eq (hyear : date.year = y) (hmonth : date.month = m) (hday : date.day = d)
    (hy : y < 10000) : dateText date = isoDate y m d := by
  have hyearText : yearText (y : Int) = fixed 4 y := by
    unfold yearText
    rw [Int.natAbs_natCast]
    split
    · exact if_neg (by omega)
    · rw [if_neg (by omega), intText_natCast]
      exact decimal_eq_fixed ⟨by decide, hy, Or.inr (by omega)⟩
  unfold dateText isoDate
  rw [hyear, hmonth, hday, hyearText, Int.toNat_natCast, Int.toNat_natCast]

theorem parseIsoDate_isoDate (hyear : date.year = y) (hmonth : date.month = m)
    (hday : date.day = d) (hy : y < 10000) : parseIsoDate (isoDate y m d) = some date := by
  have hmonth' := date.month_le
  have hmonth'' := date.month_pos
  have hday' := date.day_le_31
  have hday'' := date.day_pos
  have hfirst : (⟨4, 10, .exceedsPad⟩ : NumberPrinterParser).parse (isoDate y m d) =
      some ((y : Int), dash :: (fixed 2 m ++ dash :: fixed 2 d)) :=
    NumberPrinterParser.parse_fixed (by decide) rfl (by decide) hy (by omega)
      (Or.inr fun c hc => by cases hc; decide)
  have hlast : twoDigits.parse (fixed 2 d) = some ((d : Int), []) := by
    have hparse := twoDigits_fixed (show d < 100 by omega) []
    rwa [List.append_nil] at hparse
  have hthree : parseThree dash ⟨4, 10, .exceedsPad⟩ twoDigits twoDigits (isoDate y m d) =
      some ((y : Int), (m : Int), (d : Int)) := by
    unfold parseThree
    rw [hfirst]
    simp only [Option.bind_eq_bind, Option.bind_some, literal_cons,
      twoDigits_fixed (show m < 100 by omega), hlast, if_true]
  have hrange : Fields.InRange ⟨y, m, d⟩ := by
    show -999999999 ≤ (y : Int) ∧ (y : Int) ≤ 999999999 ∧ 1 ≤ (m : Int) ∧ (m : Int) ≤ 12
      ∧ 1 ≤ (d : Int) ∧ (d : Int) ≤ 31
    omega
  unfold parseIsoDate
  rw [hthree]
  show resolveStrict ⟨y, m, d⟩ = some date
  unfold resolveStrict
  rw [if_pos hrange]
  exact dateOf_eq_some.mpr ⟨hyear, hmonth, hday⟩

end FourDigits

end CarRental.Java
