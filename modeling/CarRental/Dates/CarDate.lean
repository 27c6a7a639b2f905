import CarRental.Dates.Dart
import CarRental.Dates.Java

/-!
# CarRental.Dates.CarDate

The **dates of a car** (next inspection, last oil change, insurance expiry) from the
text of the form to the server: `DateInputValidator.isValidIsoDate` in the app,
`CarController.parseLocalDate` in the server.

No text is read by two of the server's three patterns (`parseUnresolved_unique`). What
it reads is the date that was written, unless the month does not have the day: the
server then takes the last day of the month, where the app refuses. The other way
round, the app accepts the year 0000, which the server does not have.
`car_date_faithful_iff` says that these are all the cases, apart from a local clock
that does not show the day at its midnight.
-/

namespace CarRental

open Lib Lib.Civil

/-! ### The server -/

namespace CarController

open Java

/-- `yyyy-MM-dd`, `dd-MM-yyyy` and `d/M/yyyy` -/
inductive DatePattern
  | yearFirst
  | dayFirst
  | slashes
  deriving DecidableEq

namespace DatePattern

/-- The fields as they are written, before they are made a date. -/
def parseUnresolved : DatePattern → Text → Option Fields
  | yearFirst, text =>
    (parseThree '-' yyyy twoDigits twoDigits text).map fun (y, m, d) => ⟨y, m, d⟩
  | dayFirst, text =>
    (parseThree '-' twoDigits twoDigits yyyy text).map fun (d, m, y) => ⟨y, m, d⟩
  | slashes, text =>
    (parseThree '/' anyDigits anyDigits yyyy text).map fun (d, m, y) => ⟨y, m, d⟩

/-- `LocalDate.parse(text, DateTimeFormatter.ofPattern(pattern))` -/
def parse (pattern : DatePattern) (text : Text) : Option Date :=
  (pattern.parseUnresolved text).bind resolveSmart

end DatePattern

/-- `CarController.parseLocalDate`: the three patterns in turn, or the message of the exception. -/
def parseLocalDate (dateStr : Option Text) : Except Text (Option Date) :=
  match dateStr with
  | none => .ok none
  | some dateStr =>
    let cleaned := trim dateStr
    if cleaned = [] then .ok none
    else
      match DatePattern.yearFirst.parse cleaned with
      | some date => .ok (some date)
      | none =>
        match DatePattern.dayFirst.parse cleaned with
        | some date => .ok (some date)
        | none =>
          match DatePattern.slashes.parse cleaned with
          | some date => .ok (some date)
          | none =>
            .error (text "Format de date invalide (" ++ dateStr
              ++ text "). Utilisez YYYY-MM-DD ou DD-MM-YYYY.")

end CarController

/-! ### The app -/

namespace DateInputValidator

open Dart Matcher

/-- `^(\d{4})-(\d{2})-(\d{2})$` -/
def isoDateFormat : Matcher CodeUnit (Text × Text × Text) := do
  let year ← digits 4 4
  let _ ← oneOf ['-']
  let month ← digits 2 2
  let _ ← oneOf ['-']
  let day ← digits 2 2
  endOfText
  return (year, month, day)

/-- `DateInputValidator.isValidIsoDate`; there is no answer where `DateTime` throws. -/
def isValidIsoDate (zone : Zone) (value : Text) : Option Bool :=
  let trimmed := trim value
  if trimmed = [] then some true
  else
    match isoDateFormat.first trimmed with
    | none => some false
    | some ((year, month, day), _) =>
      match tryParse year, tryParse month, tryParse day with
      | some year, some month, some day => do
        let parsed ← DateTime.new zone year month day
        let date := parsed.date zone
        return date.year = year && date.month = month && date.day = day
      | _, _, _ => some false

end DateInputValidator

/-! ### One pattern at most -/

namespace CarController

open Java NumberPrinterParser

theorem parseThree_first {separator : CodeUnit} {p q r : NumberPrinterParser} {text : Text}
    {fields : Int × Int × Int} (h : parseThree separator p q r text = some fields) :
    ∃ v rest, p.parse text = some (v, separator :: rest) := by
  obtain ⟨⟨v, behind⟩, hv, h⟩ := Option.bind_eq_some_iff.mp h
  obtain ⟨rest, hrest, -⟩ := Option.bind_eq_some_iff.mp h
  exact ⟨v, rest, by rw [hv, literal_eq_some hrest]⟩

namespace DatePattern

/-- What stands between the fields. -/
def separator : DatePattern → CodeUnit
  | slashes => '/'
  | _ => '-'

/-- How the first field is read. -/
def firstField : DatePattern → NumberPrinterParser
  | yearFirst => yyyy
  | dayFirst => twoDigits
  | slashes => anyDigits

theorem parseUnresolved_first {pattern : DatePattern} {text : Text} {f : Fields}
    (h : pattern.parseUnresolved text = some f) :
    ∃ v rest, pattern.firstField.parse text = some (v, pattern.separator :: rest) := by
  cases pattern with
  | yearFirst =>
    obtain ⟨_, h, -⟩ := Option.map_eq_some_iff.mp h
    exact parseThree_first h
  | dayFirst =>
    obtain ⟨_, h, -⟩ := Option.map_eq_some_iff.mp h
    exact parseThree_first h
  | slashes =>
    obtain ⟨_, h, -⟩ := Option.map_eq_some_iff.mp h
    exact parseThree_first h

/-- **A text is read by one pattern at most.** -/
theorem parseUnresolved_unique {p q : DatePattern} {text : Text} {f g : Fields}
    (hp : p.parseUnresolved text = some f) (hq : q.parseUnresolved text = some g) : p = q := by
  have hdigit : ∀ pattern : DatePattern, isDigit pattern.separator = false := by
    intro pattern
    cases pattern <;> decide
  obtain ⟨_, _, hp⟩ := parseUnresolved_first hp
  obtain ⟨_, _, hq⟩ := parseUnresolved_first hq
  obtain ⟨hpmin, hpmax, hpsep⟩ := parse_run hp (hdigit p)
  obtain ⟨hqmin, hqmax, hqsep⟩ := parse_run hq (hdigit q)
  -- the patterns differ in their separators, or in the digits in front of the first
  have hsep : p.separator = q.separator := by
    rw [hpsep] at hqsep
    exact (List.cons.inj hqsep).1
  cases p <;> cases q <;> first
    | rfl
    | exact absurd hsep (by decide)
    | (simp only [firstField, yyyy, twoDigits] at hpmin hpmax hqmin hqmax; omega)

end DatePattern

/-! ### What the server makes of the fields -/

/-- The day is cut down to the length of the month. -/
theorem resolveSmart_eq {f : Fields} (hyear : 1 ≤ f.year) (hrange : f.InRange) :
    resolveSmart f = dateOf { f with day := min f.day (monthLength f.year f.month) } := by
  have hday : f.day ≤ 31 := hrange.2.2.2.2.2
  unfold resolveSmart monthLength
  rw [if_pos ⟨hyear, hrange⟩]
  by_cases hfeb : f.month = 2
  · rw [if_pos hfeb, if_neg (by omega), if_pos hfeb]
  · rw [if_neg hfeb, if_neg hfeb]
    split
    · rfl
    · rw [Int.min_eq_left hday]

theorem resolveSmart_eq_some {f : Fields} {date : Date} (h : resolveSmart f = some date) :
    (1 ≤ f.year ∧ f.InRange) ∧ date.year = f.year ∧ date.month = f.month ∧
      date.day = min f.day (monthLength f.year f.month) := by
  have hrange : 1 ≤ f.year ∧ f.InRange := by
    by_contra hno
    unfold resolveSmart at h
    rw [if_neg hno] at h
    exact absurd h (by simp)
  rw [resolveSmart_eq hrange.1 hrange.2] at h
  exact ⟨hrange, dateOf_eq_some.mp h⟩

theorem exists_resolveSmart {f : Fields} (hyear : 1 ≤ f.year) (hrange : f.InRange) :
    ∃ date, resolveSmart f = some date := by
  have hlength := one_le_monthLength f.year f.month
  rw [resolveSmart_eq hyear hrange]
  obtain ⟨-, -, hmonth, hmonth', hday, -⟩ := hrange
  exact ⟨_, dif_pos ⟨hmonth, hmonth', Int.le_min.mpr ⟨hday, hlength⟩, Int.min_le_right _ _⟩⟩

theorem DatePattern.parse_eq_some {pattern : DatePattern} {text : Text} {date : Date} :
    pattern.parse text = some date ↔
      ∃ f, pattern.parseUnresolved text = some f ∧ resolveSmart f = some date :=
  Option.bind_eq_some_iff

/-- The other patterns give nothing. -/
theorem DatePattern.parse_eq_none {p q : DatePattern} {text : Text} {f : Fields}
    (hp : p.parseUnresolved text = some f) (hne : q ≠ p) : q.parse text = none := by
  rw [Option.eq_none_iff_forall_not_mem]
  intro date hdate
  obtain ⟨g, hg, -⟩ := parse_eq_some.mp hdate
  exact hne (parseUnresolved_unique hg hp)

/-- Two patterns do not give two dates. -/
theorem DatePattern.parse_unique {p q : DatePattern} {text : Text} {a b : Date}
    (ha : p.parse text = some a) (hb : q.parse text = some b) : a = b := by
  obtain ⟨f, hf, -⟩ := parse_eq_some.mp ha
  obtain ⟨g, hg, -⟩ := parse_eq_some.mp hb
  have hpq := parseUnresolved_unique hf hg
  rw [hpq, hb] at ha
  exact (Option.some.inj ha).symm

/-- The server returns a date when one of its patterns gives it. -/
theorem parseLocalDate_eq_ok {s : Text} {date : Date} :
    parseLocalDate (some s) = .ok (some date) ↔
      ∃ pattern f, DatePattern.parseUnresolved pattern (trim s) = some f ∧
        resolveSmart f = some date := by
  constructor
  · intro h
    unfold parseLocalDate at h
    dsimp only at h
    split at h
    · cases h
    · split at h
      · next hparse =>
        cases h
        exact ⟨.yearFirst, DatePattern.parse_eq_some.mp hparse⟩
      · split at h
        · next hparse =>
          cases h
          exact ⟨.dayFirst, DatePattern.parse_eq_some.mp hparse⟩
        · split at h
          · next hparse =>
            cases h
            exact ⟨.slashes, DatePattern.parse_eq_some.mp hparse⟩
          · cases h
  · intro h
    obtain ⟨pattern, f, hf, hdate⟩ := h
    have hparse : pattern.parse (trim s) = some date := DatePattern.parse_eq_some.mpr ⟨f, hf, hdate⟩
    have hne : trim s ≠ [] := by
      intro hnil
      rw [hnil] at hf
      cases pattern <;> cases hf
    unfold parseLocalDate
    dsimp only
    rw [if_neg hne]
    -- the patterns tried before this one fail, since no text is read by two
    cases pattern with
    | yearFirst => rw [hparse]
    | dayFirst =>
      have hfirst : DatePattern.yearFirst.parse (trim s) = none :=
        DatePattern.parse_eq_none hf (by decide)
      rw [hfirst, hparse]
    | slashes =>
      have hfirst : DatePattern.yearFirst.parse (trim s) = none :=
        DatePattern.parse_eq_none hf (by decide)
      have hsecond : DatePattern.dayFirst.parse (trim s) = none :=
        DatePattern.parse_eq_none hf (by decide)
      rw [hfirst, hsecond, hparse]

end CarController

/-! ### Texts of the ISO shape -/

section IsoDate

variable {y m d : Nat}

theorem mem_isoDate {c : CodeUnit} (h : c ∈ isoDate y m d) : isDigit c = true ∨ c = dash := by
  unfold isoDate at h
  simp only [List.mem_append, List.mem_cons] at h
  rcases h with h | rfl | h | rfl | h
  · exact Or.inl (isDigit_of_mem_fixed h)
  · exact Or.inr rfl
  · exact Or.inl (isDigit_of_mem_fixed h)
  · exact Or.inr rfl
  · exact Or.inl (isDigit_of_mem_fixed h)

theorem isoDate_ne_nil : isoDate y m d ≠ [] := by
  intro h
  have hlen := congrArg List.length h
  simp [isoDate] at hlen

theorem dart_trim_isoDate : Dart.trim (isoDate y m d) = isoDate y m d := by
  apply trimEnds_of_none
  intro c hc
  rcases mem_isoDate hc with hdigit | rfl
  · exact Dart.isWhitespace_of_isDigit hdigit
  · decide

theorem java_trim_isoDate : Java.trim (isoDate y m d) = isoDate y m d := by
  apply trimEnds_of_none
  intro c hc
  rcases mem_isoDate hc with hdigit | rfl
  · exact Java.not_blank_of_isDigit hdigit
  · decide

open Dart Matcher DateInputValidator in
theorem isoDateFormat_isoDate :
    isoDateFormat.first (isoDate y m d) = some ((fixed 4 y, fixed 2 m, fixed 2 d), []) := by
  have hdash : ∀ rest, first (oneOf [dash]) (dash :: rest) = some (dash, rest) :=
    first_satisfy (by decide)
  have hday := first_twoDigits d []
  rw [List.append_nil] at hday
  refine first_bind (first_digits (by decide) (by decide) (Or.inl rfl)) ?_
  refine first_bind (hdash _) ?_
  refine first_bind (first_twoDigits m _) ?_
  refine first_bind (hdash _) ?_
  exact first_bind hday rfl

variable (hy : y < 10000) (hm : m < 100) (hd : d < 100)

include hy hm hd

open Java CarController in
theorem parseUnresolved_isoDate :
    DatePattern.yearFirst.parseUnresolved (isoDate y m d) = some ⟨y, m, d⟩ := by
  have hyear : yyyy.parse (isoDate y m d) =
      some ((y : Int), dash :: (fixed 2 m ++ dash :: fixed 2 d)) :=
    NumberPrinterParser.parse_fixed (by decide) rfl (by decide) hy (by omega)
      (Or.inr fun c hc => by cases hc; decide)
  have hday := twoDigits_fixed hd []
  rw [List.append_nil] at hday
  show (parseThree '-' yyyy twoDigits twoDigits (isoDate y m d)).map _ = _
  unfold parseThree
  rw [hyear]
  simp only [Option.bind_eq_bind, Option.bind_some, literal_cons, twoDigits_fixed hm, hday, if_true,
    Option.map_some]

open Java CarController in
/-- The server takes every day up to the 31st, and no year 0. -/
theorem parseLocalDate_isoDate_iff :
    (∃ date, parseLocalDate (some (isoDate y m d)) = .ok (some date)) ↔
      1 ≤ (y : Int) ∧ Fields.InRange ⟨y, m, d⟩ := by
  have hread := parseUnresolved_isoDate hy hm hd
  constructor
  · intro h
    obtain ⟨date, hdate⟩ := h
    obtain ⟨pattern, f, hf, hresolved⟩ := parseLocalDate_eq_ok.mp hdate
    rw [java_trim_isoDate] at hf
    have hpattern := DatePattern.parseUnresolved_unique hf hread
    rw [hpattern, hread] at hf
    cases hf
    exact (resolveSmart_eq_some hresolved).1
  · intro h
    obtain ⟨date, hdate⟩ := exists_resolveSmart h.1 h.2
    refine ⟨date, parseLocalDate_eq_ok.mpr ⟨.yearFirst, _, ?_, hdate⟩⟩
    rw [java_trim_isoDate]
    exact hread

open Dart DateInputValidator in
/-- The app takes the dates of the calendar that its clock shows. -/
theorem isValidIsoDate_isoDate_iff {zone : Zone} :
    isValidIsoDate zone (isoDate y m d) = some true ↔
      ∃ date : Date, date.year = y ∧ date.month = m ∧ date.day = d ∧ zone.Shows date := by
  have hvalid : isValidIsoDate zone (isoDate y m d) =
      (DateTime.new zone y m d).bind fun parsed =>
        some ((parsed.date zone).year = y && (parsed.date zone).month = m
          && (parsed.date zone).day = d) := by
    unfold isValidIsoDate
    rw [dart_trim_isoDate, if_neg isoDate_ne_nil, isoDateFormat_isoDate]
    dsimp only
    rw [tryParse_fixed (by decide) hy (by omega), tryParse_fixed (by decide) hm (by omega),
      tryParse_fixed (by decide) hd (by omega)]
    rfl
  rw [hvalid]
  constructor
  · intro h
    obtain ⟨parsed, hnew, hfields⟩ := Option.bind_eq_some_iff.mp h
    apply (DateTime.new_date_iff hnew).mp
    simpa [and_assoc] using hfields
  · intro h
    obtain ⟨date, hyear, hmonth, hday, -⟩ := id h
    obtain ⟨parsed, hnew, -⟩ := DateTime.exists_new zone date (by omega) (by omega)
    rw [hyear, hmonth, hday] at hnew
    rw [hnew, Option.bind_some]
    have hfields := (DateTime.new_date_iff hnew).mpr h
    simp [hfields]

end IsoDate

/-! ### The dates of a car -/

section Faithful

open Dart Java CarController DateInputValidator

/-- A text goes through as the date that is written in it. -/
structure Faithful (zone : Zone) (s : Text) : Prop where
  /-- A date that the server returns is the one written, in the pattern that reads the text. -/
  written : ∀ date, parseLocalDate (some s) = .ok (some date) →
    ∃ pattern f, DatePattern.parseUnresolved pattern (Java.trim s) = some f ∧
      (∀ other, (DatePattern.parseUnresolved other (Java.trim s)).isSome → other = pattern) ∧
      date.year = f.year ∧ date.month = f.month ∧ date.day = f.day
  unambiguous : ∀ (p q : DatePattern) (a b : Date), p.parse (Java.trim s) = some a →
    q.parse (Java.trim s) = some b → a = b
  /-- For a text of the ISO shape, the server returns a date when the app accepts it. -/
  validated : ∀ y m d : Nat, y < 10000 → m < 100 → d < 100 → s = isoDate y m d →
    ((∃ date, parseLocalDate (some s) = .ok (some date)) ↔ isValidIsoDate zone s = some true)

/-- The day written is in the month, wherever the server looks at it. -/
def DayInMonth (s : Text) : Prop :=
  ∀ (pattern : DatePattern) (f : Fields), pattern.parseUnresolved (Java.trim s) = some f →
    1 ≤ f.year → f.InRange → f.day ≤ monthLength f.year f.month

/-- Both sides know the date: its year is not 0, and the clock shows its day. -/
def KnownToBoth (zone : Zone) (s : Text) : Prop :=
  ∀ date : Date, 0 ≤ date.year → date.year < 10000 →
    s = isoDate date.year.toNat date.month.toNat date.day.toNat →
    (1 ≤ date.year ↔ zone.Shows date)

/-- The server's answer for a text that a pattern reads. -/
theorem written_iff {s : Text} {pattern : DatePattern} {f : Fields} {date : Date}
    (hf : pattern.parseUnresolved (Java.trim s) = some f) :
    parseLocalDate (some s) = .ok (some date) ↔ resolveSmart f = some date := by
  rw [parseLocalDate_eq_ok]
  constructor
  · intro h
    obtain ⟨other, g, hg, hdate⟩ := h
    have hother := DatePattern.parseUnresolved_unique hg hf
    rw [hother, hf] at hg
    cases hg
    exact hdate
  · intro h
    exact ⟨pattern, f, hf, h⟩

theorem dayInMonth_of_faithful {zone : Zone} {s : Text} (h : Faithful zone s) : DayInMonth s := by
  intro pattern f hf hyear hrange
  obtain ⟨date, hdate⟩ := exists_resolveSmart hyear hrange
  obtain ⟨other, g, hg, -, -, -, hday⟩ := h.written date ((written_iff hf).mpr hdate)
  have hother := DatePattern.parseUnresolved_unique hg hf
  rw [hother, hf] at hg
  cases hg
  have hcut := (resolveSmart_eq_some hdate).2.2.2
  omega

/-- A date is given by its fields. -/
theorem exists_shows_iff {zone : Zone} {date : Date} :
    (∃ other : Date, other.year = date.year ∧ other.month = date.month ∧ other.day = date.day ∧
      zone.Shows other) ↔ zone.Shows date := by
  constructor
  · intro h
    obtain ⟨other, hyear, hmonth, hday, hshows⟩ := h
    rw [Date.ext hyear hmonth hday] at hshows
    exact hshows
  · intro h
    exact ⟨date, rfl, rfl, rfl, h⟩

/-- What the two sides say to the text of a date. -/
theorem validated_iff {zone : Zone} {date : Date} (hlow : 0 ≤ date.year)
    (hhigh : date.year < 10000) {s : Text}
    (hs : s = isoDate date.year.toNat date.month.toNat date.day.toNat) :
    ((∃ d, parseLocalDate (some s) = .ok (some d)) ↔ 1 ≤ date.year) ∧
      (isValidIsoDate zone s = some true ↔ zone.Shows date) := by
  have hmonth := date.month_pos
  have hmonth' := date.month_le
  have hday := date.day_pos
  have hday' := date.day_le_31
  rw [hs, parseLocalDate_isoDate_iff (by omega) (by omega) (by omega),
    isValidIsoDate_isoDate_iff (by omega) (by omega) (by omega), Int.toNat_of_nonneg hlow,
    Int.toNat_of_nonneg (by omega), Int.toNat_of_nonneg (by omega), exists_shows_iff]
  refine ⟨⟨fun h => h.1, fun h => ⟨h, ?_⟩⟩, Iff.rfl⟩
  show -999999999 ≤ date.year ∧ date.year ≤ 999999999 ∧ _
  exact ⟨by omega, by omega, hmonth, hmonth', hday, hday'⟩

/-- What the server returns is written in the text if its day is in the month. -/
theorem written_of_dayInMonth {s : Text} (hday : DayInMonth s) {date : Date}
    (hdate : parseLocalDate (some s) = .ok (some date)) :
    ∃ pattern f, DatePattern.parseUnresolved pattern (Java.trim s) = some f ∧
      (∀ other, (DatePattern.parseUnresolved other (Java.trim s)).isSome → other = pattern) ∧
      date.year = f.year ∧ date.month = f.month ∧ date.day = f.day := by
  obtain ⟨pattern, f, hf, hresolved⟩ := parseLocalDate_eq_ok.mp hdate
  obtain ⟨⟨hyear, hrange⟩, hyear', hmonth', hcut⟩ := resolveSmart_eq_some hresolved
  refine ⟨pattern, f, hf, ?_, hyear', hmonth', ?_⟩
  · intro other hother
    obtain ⟨g, hg⟩ := Option.isSome_iff_exists.mp hother
    exact DatePattern.parseUnresolved_unique hg hf
  · rw [hcut, Int.min_eq_left (hday pattern f hf hyear hrange)]

/-- The two sides agree on a text of the ISO shape when its day is in the month and both know the
date. -/
theorem validated_of_known {zone : Zone} {s : Text} (hday : DayInMonth s)
    (hknown : KnownToBoth zone s) {y m d : Nat} (hy : y < 10000) (hm : m < 100) (hd : d < 100)
    (hs : s = isoDate y m d) :
    (∃ date, parseLocalDate (some s) = .ok (some date)) ↔ isValidIsoDate zone s = some true := by
  -- either side makes the text that of a date, and then they agree on it
  have hdated : ∀ date : Date, date.year = y → date.month = m → date.day = d →
      ((∃ d, parseLocalDate (some s) = .ok (some d)) ↔ isValidIsoDate zone s = some true) := by
    intro date hyear hmonth hday
    have hsame : s = isoDate date.year.toNat date.month.toNat date.day.toNat := by
      rw [hyear, hmonth, hday]
      exact hs
    obtain ⟨hserver, happ⟩ := validated_iff (by omega) (by omega) hsame
    rw [hserver, happ]
    exact hknown date (by omega) (by omega) hsame
  constructor
  · intro h
    have hin := h
    rw [hs, parseLocalDate_isoDate_iff hy hm hd] at hin
    have hread : DatePattern.yearFirst.parseUnresolved (Java.trim s) = some ⟨y, m, d⟩ := by
      rw [hs, java_trim_isoDate]
      exact parseUnresolved_isoDate hy hm hd
    have hlast := hday .yearFirst _ hread hin.1 hin.2
    obtain ⟨-, -, hmonth, hmonth', hfirst, -⟩ := hin.2
    exact (hdated ⟨y, m, d, hmonth, hmonth', hfirst, hlast⟩ rfl rfl rfl).mp h
  · intro h
    have hshown := h
    rw [hs, isValidIsoDate_isoDate_iff hy hm hd] at hshown
    obtain ⟨date, hyear, hmonth, hday, -⟩ := hshown
    exact (hdated date hyear hmonth hday).mpr h

/-- **Car dates go through as they are written** exactly when the day is in the month and both
sides know the date. -/
theorem car_date_faithful_iff (zone : Zone) (s : Text) :
    Faithful zone s ↔ DayInMonth s ∧ KnownToBoth zone s := by
  constructor
  · intro h
    refine ⟨dayInMonth_of_faithful h, ?_⟩
    intro date hlow hhigh hs
    obtain ⟨hserver, happ⟩ := validated_iff hlow hhigh hs
    have hmonth := date.month_le
    have hday := date.day_le_31
    rw [← hserver, ← happ]
    exact h.validated _ _ _ (by omega) (by omega) (by omega) hs
  · intro h
    obtain ⟨hday, hknown⟩ := h
    refine ⟨?_, ?_, ?_⟩
    · exact fun date hdate => written_of_dayInMonth hday hdate
    · exact fun p q a b ha hb => DatePattern.parse_unique ha hb
    · exact fun y m d hy hm hd hs => validated_of_known hday hknown hy hm hd hs

/-- "2025-02-30" is the 28th to the server, and no date to the app, in any zone: it does not go
through as it is written. -/
theorem february_30_clipped :
    parseLocalDate (some (isoDate 2025 2 30)) =
        .ok (some ⟨2025, 2, 28, by decide, by decide, by decide, by decide⟩) ∧
      ∀ zone, isValidIsoDate zone (isoDate 2025 2 30) ≠ some true ∧
        ¬ Faithful zone (isoDate 2025 2 30) := by
  have hserver : parseLocalDate (some (isoDate 2025 2 30)) =
      .ok (some ⟨2025, 2, 28, by decide, by decide, by decide, by decide⟩) := rfl
  have happ : ∀ zone, isValidIsoDate zone (isoDate 2025 2 30) ≠ some true := by
    intro zone
    rw [Ne, isValidIsoDate_isoDate_iff (by decide) (by decide) (by decide)]
    intro h
    obtain ⟨date, hyear, hmonth, hday, -⟩ := h
    have hlast := date.day_le
    rw [hyear, hmonth, hday] at hlast
    exact absurd hlast (by decide)
  refine ⟨hserver, fun zone => ⟨happ zone, fun h => ?_⟩⟩
  exact happ zone ((h.validated 2025 2 30 (by decide) (by decide) (by decide) rfl).mp ⟨_, hserver⟩)

end Faithful

end CarRental
