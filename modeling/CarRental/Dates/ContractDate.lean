import CarRental.Dates.Dart
import CarRental.Dates.Java

/-!
# CarRental.Dates.ContractDate

The **date fields of the contract form**: five text fields (day, month, year, hour,
minute) are put together to the text that is sent (`formBuildIsoDateTime`), the server
reads it as a `LocalDateTime`, and the text of a stored contract is taken apart again
(`isoPartsFive`).

The form takes whatever `int.tryParse` takes, and lets `DateTime` decide whether it is
a date. Months, days, hours and minutes are padded to two digits; the year is not
padded. So a year of four digits goes through and comes back, and any other year makes
a text that is not of the ISO form (`contract_date_iff`): the year 26 is sent as
"26-06-11T10:00:00", which neither the server nor the app can read.
-/

namespace CarRental.ContractListScreen

open Lib Lib.Civil Dart

/-! ### The form -/

/-- The five integers of a date. -/
structure Parts where
  day : Int
  month : Int
  year : Int
  hour : Int
  minute : Int

/-- The integers in the five fields. -/
def readParts (j m a h mn : Text) : Option Parts := do
  let day ← tryParse (trim j)
  let month ← tryParse (trim m)
  let year ← tryParse (trim a)
  let hour ← tryParse (trim h)
  let minute ← tryParse (trim mn)
  return ⟨day, month, year, hour, minute⟩

/-- The text that is sent; the seconds are always 00. -/
def Parts.encode (parts : Parts) : Text :=
  intText parts.year ++ dash :: (padded 2 parts.month ++ dash :: (padded 2 parts.day
    ++ timeMark :: (padded 2 parts.hour ++ colon :: (padded 2 parts.minute
    ++ colon :: [0x30, 0x30]))))

/-- The parts are those that a date and time shows. -/
def Parts.Shown (parts : Parts) (zone : Zone) (dt : DateTime) : Prop :=
  (dt.date zone).year = parts.year ∧ (dt.date zone).month = parts.month ∧
    (dt.date zone).day = parts.day ∧ dt.hour zone = parts.hour ∧ dt.minute zone = parts.minute

instance (parts : Parts) (zone : Zone) (dt : DateTime) : Decidable (parts.Shown zone dt) :=
  inferInstanceAs (Decidable (_ ∧ _ ∧ _ ∧ _ ∧ _))

/-- `_formBuildIsoDateTime`: the parts have to be what the clock shows at the `DateTime` built from
them. -/
def formBuildIsoDateTime (zone : Zone) (j m a h mn : Text) : Option Text :=
  if trim j = [] ∧ trim m = [] ∧ trim a = [] ∧ trim h = [] ∧ trim mn = [] then none
  else do
    let parts ← readParts j m a h mn
    let dt ← DateTime.new zone parts.year parts.month parts.day parts.hour parts.minute
    if parts.Shown zone dt then some parts.encode else none

/-- The parts, as plain numbers. -/
def Parts.texts (parts : Parts) : List Text :=
  [intText parts.day, intText parts.month, intText parts.year, intText parts.hour,
    intText parts.minute]

/-- `_isoPartsFive`: five dashes for a text without a date. -/
def isoPartsFive (zone : Zone) (iso : Text) : List Text :=
  if iso = [] then List.replicate 5 [dash]
  else
    match DateTime.parse zone iso with
    | none => List.replicate 5 [dash]
    | some dt =>
      let date := dt.date zone
      Parts.texts ⟨date.day, date.month, date.year, dt.hour zone, dt.minute zone⟩

/-! ### The ISO form -/

/-- A date and time, down to the second, with four digits for the year. -/
def isoDateTime (y m d h mn s : Nat) : Text :=
  fixed 4 y ++ dash :: (fixed 2 m ++ dash :: (fixed 2 d
    ++ timeMark :: (fixed 2 h ++ colon :: (fixed 2 mn ++ colon :: fixed 2 s))))

theorem length_isoDateTime (y m d h mn s : Nat) : (isoDateTime y m d h mn s).length = 19 := by
  simp [isoDateTime]

section IsoDateTime

variable {y m d h mn : Nat}

open Matcher in
theorem minuteFormat_isoTime :
    first minuteFormat (colon :: (fixed 2 mn ++ colon :: fixed 2 0)) =
      some ((fixed 2 mn, fixed 2 0, []), []) := by
  have hcolon : ∀ rest, first (opt (oneOf [colon])) (colon :: rest) = some (some colon, rest) :=
    fun rest => first_opt (first_sign (by decide) rest)
  have hfraction : first fractionFormat [] = some ([], []) := rfl
  have hsecond : first secondFormat (colon :: fixed 2 0) = some ((fixed 2 0, []), []) :=
    first_bind (first_opt (first_bind (hcolon _) (first_bind (first_twoDigits 0 [])
      (first_bind hfraction rfl)))) rfl
  exact first_bind (first_opt (first_bind (hcolon _) (first_bind (first_twoDigits mn _)
    (first_bind hsecond rfl)))) rfl

open Matcher in
theorem parseFormat_isoDateTime :
    parseFormat.first (isoDateTime y m d h mn 0) =
      some (⟨none, fixed 4 y, fixed 2 m, fixed 2 d, fixed 2 h, fixed 2 mn, fixed 2 0, [], none⟩,
        []) := by
  have hsign : first (opt (oneOf ['+', '-'] : Matcher CodeUnit CodeUnit))
      (isoDateTime y m d h mn 0) = some (none, isoDateTime y m d h mn 0) :=
    first_opt_none (oneOf_fixed (by decide) (by decide) y _)
  have hyear : ∀ rest : Text, first (digits 4 6) (fixed 4 y ++ dash :: rest) =
      some (fixed 4 y, dash :: rest) := by
    intro rest
    refine first_digits (by decide) (by decide) (Or.inr ?_)
    intro c hc
    cases hc
    decide
  have hdash : ∀ rest, first (opt (oneOf [dash])) (dash :: rest) = some (some dash, rest) :=
    fun rest => first_opt (first_sign (by decide) rest)
  have hzone : first zoneFormat [] = some (none, []) := rfl
  refine first_bind hsign (first_bind (hyear _) ?_)
  refine first_bind (hdash _) (first_bind (first_twoDigits m _) ?_)
  refine first_bind (hdash _) (first_bind (first_twoDigits d _) ?_)
  refine first_bind (first_opt (first_bind (first_sign (by decide) _)
    (first_bind (first_twoDigits h _) (first_bind minuteFormat_isoTime
      (first_bind hzone rfl))))) ?_
  rfl

/-- The app reads the ISO form as its fields. -/
theorem parse_isoDateTime (zone : Zone) (hy : y < 10000) (hm : m < 100) (hd : d < 100)
    (hh : h < 100) (hmn : mn < 100) :
    DateTime.parse zone (isoDateTime y m d h mn 0) = DateTime.new zone y m d h mn := by
  have hyear : numeral (fixed 4 y : Text) = y := numeral_fixed hy
  have htwo : ∀ {n : Nat}, n < 100 → numeral (fixed 2 n : Text) = n := fun hn => numeral_fixed hn
  unfold DateTime.parse
  rw [parseFormat_isoDateTime]
  simp only [Option.bind_eq_bind, Option.bind_some, hyear, htwo hm, htwo hd, htwo hh, htwo hmn,
    Int.sub_zero]
  rfl

section Server

open Java

theorem parseIsoTime_eq (hh : h ≤ 23) (hmn : mn ≤ 59) :
    parseIsoTime (fixed 2 h ++ colon :: (fixed 2 mn ++ colon :: fixed 2 0)) =
      some ((h : Int) * 3600 + mn * 60 + 0) := by
  have hsecond : twoDigits.parse (fixed 2 0) = some (0, []) := rfl
  have hliteral : literal '.' [] = none := rfl
  have hrange : True ∧ 0 ≤ (h : Int) ∧ (h : Int) ≤ 23 ∧ 0 ≤ (mn : Int) ∧ (mn : Int) ≤ 59
      ∧ (0 : Int) ≤ 0 ∧ (0 : Int) ≤ 59 := ⟨trivial, by omega⟩
  unfold parseIsoTime
  simp only [Option.bind_eq_bind, Option.bind_some, twoDigits_fixed (show h < 100 by omega),
    twoDigits_fixed (show mn < 100 by omega), literal_cons, hsecond, hliteral, Option.pure_def,
    Option.getD_some]
  exact if_pos hrange

/-- The server reads the ISO form as the time it stands for. -/
theorem parseIsoDateTime_isoDateTime {date : Date} (hyear : date.year = y) (hmonth : date.month = m)
    (hday : date.day = d) (hy : y < 10000) (hh : h ≤ 23) (hmn : mn ≤ 59) :
    parseIsoDateTime (isoDateTime y m d h mn 0) =
      some (date.dayNumber * 86400 + ((h : Int) * 3600 + mn * 60 + 0)) := by
  have hmonth' := date.month_le
  have hday' := date.day_le_31
  have hfirst : (⟨4, 10, .exceedsPad⟩ : NumberPrinterParser).parse (isoDateTime y m d h mn 0) =
      some ((y : Int), dash :: (fixed 2 m ++ dash :: (fixed 2 d
        ++ timeMark :: (fixed 2 h ++ colon :: (fixed 2 mn ++ colon :: fixed 2 0))))) :=
    NumberPrinterParser.parse_fixed (by decide) rfl (by decide) hy (by omega)
      (Or.inr fun c hc => by cases hc; decide)
  have hresolved : resolveStrict ⟨y, m, d⟩ = some date := by
    have hrange : Fields.InRange ⟨y, m, d⟩ := by
      show -999999999 ≤ (y : Int) ∧ (y : Int) ≤ 999999999 ∧ 1 ≤ (m : Int) ∧ (m : Int) ≤ 12
        ∧ 1 ≤ (d : Int) ∧ (d : Int) ≤ 31
      have hmonth'' := date.month_pos
      have hday'' := date.day_pos
      omega
    unfold resolveStrict
    rw [if_pos hrange]
    exact dateOf_eq_some.mpr ⟨hyear, hmonth, hday⟩
  unfold parseIsoDateTime
  rw [hfirst]
  simp only [Option.bind_eq_bind, Option.bind_some, literal_cons,
    twoDigits_fixed (show m < 100 by omega), twoDigits_fixed (show d < 100 by omega),
    Option.some_or, parseIsoTime_eq hh hmn, hresolved, Option.pure_def]

end Server

end IsoDateTime

/-! ### What the form sends -/

theorem formBuildIsoDateTime_eq_some {zone : Zone} {j m a h mn s : Text}
    (hbuild : formBuildIsoDateTime zone j m a h mn = some s) :
    ∃ parts dt, readParts j m a h mn = some parts ∧
      DateTime.new zone parts.year parts.month parts.day parts.hour parts.minute = some dt ∧
      parts.Shown zone dt ∧ s = parts.encode := by
  unfold formBuildIsoDateTime at hbuild
  split at hbuild
  · exact absurd hbuild (by simp)
  · obtain ⟨parts, hparts, hbuild⟩ := Option.bind_eq_some_iff.mp hbuild
    obtain ⟨dt, hdt, hbuild⟩ := Option.bind_eq_some_iff.mp hbuild
    split at hbuild
    · next hshown => exact ⟨parts, dt, hparts, hdt, hshown, (Option.some.inj hbuild).symm⟩
    · exact absurd hbuild (by simp)

/-- The clock shows hours and minutes. -/
theorem hour_minute_bounds (zone : Zone) (dt : DateTime) :
    (0 ≤ dt.hour zone ∧ dt.hour zone ≤ 23) ∧ (0 ≤ dt.minute zone ∧ dt.minute zone ≤ 59) := by
  unfold DateTime.hour DateTime.minute
  simp only [microsecondsPerDay, microsecondsPerHour, microsecondsPerMinute]
  omega

/-- What was entered as numbers that are not negative, and how it is sent. -/
theorem Parts.Shown.encode {parts : Parts} {zone : Zone} {dt : DateTime}
    (hshown : parts.Shown zone dt) :
    ∃ m d h mn : Nat, parts.month = m ∧ parts.day = d ∧ parts.hour = h ∧ parts.minute = mn ∧
      m < 100 ∧ d < 100 ∧ h ≤ 23 ∧ mn ≤ 59 ∧
      parts.encode = intText parts.year ++ dash :: (fixed 2 m ++ dash :: (fixed 2 d
        ++ timeMark :: (fixed 2 h ++ colon :: (fixed 2 mn ++ colon :: fixed 2 0)))) := by
  obtain ⟨hyear, hmonth, hday, hhour, hminute⟩ := hshown
  have hbounds := hour_minute_bounds zone dt
  have hm := (dt.date zone).month_pos
  have hm' := (dt.date zone).month_le
  have hd := (dt.date zone).day_pos
  have hd' := (dt.date zone).day_le_31
  obtain ⟨m, hpm⟩ := Int.eq_ofNat_of_zero_le (show 0 ≤ parts.month by omega)
  obtain ⟨d, hpd⟩ := Int.eq_ofNat_of_zero_le (show 0 ≤ parts.day by omega)
  obtain ⟨h, hph⟩ := Int.eq_ofNat_of_zero_le (show 0 ≤ parts.hour by omega)
  obtain ⟨mn, hpmn⟩ := Int.eq_ofNat_of_zero_le (show 0 ≤ parts.minute by omega)
  refine ⟨m, d, h, mn, hpm, hpd, hph, hpmn, by omega, by omega, by omega, by omega, ?_⟩
  unfold Parts.encode
  rw [hpm, hpd, hph, hpmn, padded_two (by omega), padded_two (by omega), padded_two (by omega),
    padded_two (by omega)]
  rfl

theorem isoPartsFive_of_parse {zone : Zone} {parts : Parts} {dt : DateTime} {iso : Text}
    (hparse : DateTime.parse zone iso = some dt) (hshown : parts.Shown zone dt) :
    isoPartsFive zone iso = parts.texts := by
  obtain ⟨hyear, hmonth, hday, hhour, hminute⟩ := hshown
  have hne : iso ≠ [] := by
    intro hnil
    rw [hnil] at hparse
    cases hparse
  unfold isoPartsFive
  rw [if_neg hne, hparse]
  dsimp only
  rw [hyear, hmonth, hday, hhour, hminute]

/-! ### What goes through -/

/-- A text is of the ISO form with four digits for the year. -/
def WireForm (s : Text) : Prop :=
  ∃ y m d h mn sec : Nat, y < 10000 ∧ s = isoDateTime y m d h mn sec

/-- What was entered goes through: the text has the form, the server reads it as the time that was
entered, and the form shows the numbers again. -/
structure GoesThrough (zone : Zone) (parts : Parts) (s : Text) : Prop where
  form : WireForm s
  server : Java.parseIsoDateTime s =
    some (dayNumber parts.year parts.month parts.day * 86400
      + (parts.hour * 3600 + parts.minute * 60 + 0))
  back : isoPartsFive zone s = parts.texts

/-- A year that is written with four digits. -/
theorem year_of_intText {year : Int} {y : Nat} (h : intText year = fixed 4 y) :
    1000 ≤ year ∧ year ≤ 9999 := by
  unfold intText at h
  split at h
  · have hdash : isDigit dash = true := by
      apply isDigit_of_mem_fixed (w := 4) (n := y)
      rw [← h]
      exact List.mem_cons_self
    exact absurd hdash (by decide)
  · have hlength := congrArg List.length h
    rw [length_fixed] at hlength
    have hthree := lt_length_decimal_iff (α := CodeUnit) (w := 3) (n := year.natAbs) (by decide)
    have hfour := lt_length_decimal_iff (α := CodeUnit) (w := 4) (n := year.natAbs) (by decide)
    omega

/-- Only a year of four digits makes a text of the form. -/
theorem year_of_wireForm {year : Int} {m d h mn : Nat}
    (hform : WireForm (intText year ++ dash :: (fixed 2 m ++ dash :: (fixed 2 d
      ++ timeMark :: (fixed 2 h ++ colon :: (fixed 2 mn ++ colon :: fixed 2 0)))))) :
    1000 ≤ year ∧ year ≤ 9999 := by
  obtain ⟨y, m', d', h', mn', sec, -, hs⟩ := hform
  have hlength := congrArg List.length hs
  rw [length_isoDateTime] at hlength
  simp only [List.length_append, List.length_cons, length_fixed] at hlength
  have hyear : (intText year).length = (fixed 4 y : Text).length := by
    rw [length_fixed]
    omega
  exact year_of_intText (List.append_inj_left hs hyear)

/-- **A date goes through exactly when its year has four digits.** -/
theorem contract_date_iff (zone : Zone) (j m a h mn s : Text) (parts : Parts)
    (hparts : readParts j m a h mn = some parts)
    (hbuild : formBuildIsoDateTime zone j m a h mn = some s) :
    GoesThrough zone parts s ↔ 1000 ≤ parts.year ∧ parts.year ≤ 9999 := by
  obtain ⟨read, dt, hread, hdt, hshown, rfl⟩ := formBuildIsoDateTime_eq_some hbuild
  rw [hparts] at hread
  cases hread
  obtain ⟨m, d, h, mn, hm, hd, hh, hmn, hm', hd', hh', hmn', hencode⟩ := hshown.encode
  rw [hencode]
  constructor
  · intro hgoes
    exact year_of_wireForm hgoes.form
  · intro hyear
    obtain ⟨y, hy⟩ := Int.eq_ofNat_of_zero_le (show 0 ≤ parts.year by omega)
    have hfour : intText parts.year = fixed 4 y := by
      rw [hy]
      refine (intText_natCast y).trans (decimal_eq_fixed ⟨by decide, ?_, Or.inr ?_⟩)
      · show y < 10000
        omega
      · show 1000 ≤ y
        omega
    have hy' : y < 10000 := by omega
    have hsent : intText parts.year ++ dash :: (fixed 2 m ++ dash :: (fixed 2 d
        ++ timeMark :: (fixed 2 h ++ colon :: (fixed 2 mn ++ colon :: fixed 2 0)))) =
        isoDateTime y m d h mn 0 := by
      rw [hfour]
      rfl
    rw [hsent]
    obtain ⟨hdyear, hdmonth, hdday, hdhour, hdminute⟩ := id hshown
    refine ⟨⟨y, m, d, h, mn, 0, hy', rfl⟩, ?_, ?_⟩
    · rw [parseIsoDateTime_isoDateTime (hdyear.trans hy) (hdmonth.trans hm) (hdday.trans hd) hy' hh'
        hmn', Date.dayNumber, hdyear, hdmonth, hdday, hh, hmn]
    · rw [hy, hm, hd, hh, hmn] at hdt
      rw [← parse_isoDateTime zone hy' hm' hd' (by omega) (by omega)] at hdt
      exact isoPartsFive_of_parse hdt hshown

/-- A zone one hour ahead of UTC. -/
def oneHourAhead : Zone := .fixed microsecondsPerHour (by decide)

theorem contract_date_june :
    GoesThrough oneHourAhead ⟨11, 6, 2026, 9, 5⟩ (isoDateTime 2026 6 11 9 5 0) :=
  (contract_date_iff oneHourAhead (decimal 11) (decimal 6) (decimal 2026) (decimal 9) (decimal 5) _
    _ rfl rfl).mpr (by decide)

/-- The year 26 makes a text that neither side can read. -/
theorem short_year_lost :
    ∃ s, formBuildIsoDateTime oneHourAhead (decimal 11) (decimal 6) (decimal 26) (decimal 10)
        (decimal 0) = some s ∧
      ¬ WireForm s ∧ Java.parseIsoDateTime s = none ∧
      isoPartsFive oneHourAhead s = List.replicate 5 [dash] := by
  refine ⟨_, rfl, ?_, rfl, rfl⟩
  intro hform
  obtain ⟨y, m, d, h, mn, sec, -, hs⟩ := hform
  have hlength := congrArg List.length hs
  rw [length_isoDateTime] at hlength
  exact absurd hlength (by decide)

end CarRental.ContractListScreen
