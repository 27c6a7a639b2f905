import Mathlib.Algebra.Order.Ring.Rat
import Mathlib.Tactic.FieldSimp
import Mathlib.Tactic.NormNum
import CarRental.Dialog.NewContract

/-!
# CarRental.Dialog.EditContract

**The dialog for an existing contract**, `_showUnifiedContractSheet` with `existing`: what
"Enregistrer" sends when nothing was edited.

The form has a quantity and a unit price for every line of the bill. Only the prices and the
totals are stored, each rounded to the cent by its column. When the dialog is opened again the
quantities are guessed: hours and days are the duration, weeks and months are 1, and the stored
supplement is shown as the price of the insurance. The total is then computed anew.

* `resave_eq` — what an untouched form sends: all figures as stored but the three totals;
* `untouched_save_iff` — the contracts of the form for new contracts for which these are the
  stored ones;
* `resaved_stable` — from the second untouched save on nothing changes any more.

Numbers are exact, rationals in place of doubles, until they reach a column.
-/

namespace CarRental.EditContract

open Lib
open NewContract (ContractForm)

/-! ### Figures -/

/-- The figures of a contract: exact as they are sent, in cents as they are stored. -/
structure FiguresOf (μ : Type) where
  durationDays : Int
  pricePerHour : μ
  pricePerDay : μ
  pricePerWeek : μ
  pricePerMonth : μ
  withInsurance : Bool
  totalPrice : μ
  supplement : μ
  totalGeneral : μ
  paymentCash : μ
  paymentCheck : μ
  paymentDeposit : μ
  deriving DecidableEq

/-- The same figures with other amounts. -/
def FiguresOf.map {μ ν : Type} (f : μ → ν) (x : FiguresOf μ) : FiguresOf ν where
  durationDays := x.durationDays
  pricePerHour := f x.pricePerHour
  pricePerDay := f x.pricePerDay
  pricePerWeek := f x.pricePerWeek
  pricePerMonth := f x.pricePerMonth
  withInsurance := x.withInsurance
  totalPrice := f x.totalPrice
  supplement := f x.supplement
  totalGeneral := f x.totalGeneral
  paymentCash := f x.paymentCash
  paymentCheck := f x.paymentCheck
  paymentDeposit := f x.paymentDeposit

/-- What a `DECIMAL(19,2)` column keeps of a number. -/
def column (x : ℚ) : Amount := roundHalfAway (x.num * 100) x.den

/-- The number a stored amount is read back as. -/
def hundredths (a : Amount) : ℚ := a / 100

/-- The row of the figures. -/
def FiguresOf.stored (sent : FiguresOf ℚ) : FiguresOf Amount := sent.map column

/-- The figures of a row, as the app gets them. -/
def FiguresOf.shown (row : FiguresOf Amount) : FiguresOf ℚ := row.map hundredths

/-- The number an amount of a request stands for. -/
def value (x : Decimal) : ℚ := x.unscaled / 10 ^ x.scale

theorem column_eq_of_div {n : Int} {d : Nat} (hd : 0 < d) :
    column ((n : ℚ) / d) = roundHalfAway (n * 100) d := by
  have hne : (d : ℚ) ≠ 0 := by exact_mod_cast Nat.ne_of_gt hd
  have hden : (((n : ℚ) / d).den : ℚ) ≠ 0 := by exact_mod_cast ((n : ℚ) / d).den_ne_zero
  refine roundHalfAway_congr ((n : ℚ) / d).den_pos hd ?_
  -- the reduced fraction is the same number; only the fraction differs
  have hcross : (((n : ℚ) / d).num : ℚ) * d = n * ((n : ℚ) / d).den := by
    rw [← div_eq_div_iff hden hne]
    exact Rat.num_div_den _
  have hcross' : ((n : ℚ) / d).num * (d : Int) = n * ((n : ℚ) / d).den := by exact_mod_cast hcross
  rw [Int.mul_right_comm, hcross', Int.mul_right_comm]

/-- The column is the one the server rounds to. -/
theorem column_value (x : Decimal) : column (value x) = x.stored := by
  have hpos : 0 < 10 ^ x.scale := Nat.pow_pos (by decide)
  have hdiv := column_eq_of_div (n := x.unscaled) hpos
  rw [Nat.cast_pow] at hdiv
  exact hdiv

@[simp] theorem column_hundredths (a : Amount) : column (hundredths a) = a := by
  have hdiv := column_eq_of_div (n := a) (show 0 < 100 by decide)
  rw [show (100 : Int) = ((100 : Nat) : Int) from rfl, roundHalfAway_mul a (by decide)] at hdiv
  exact hdiv

@[simp] theorem stored_shown (row : FiguresOf Amount) : row.shown.stored = row := by
  simp [FiguresOf.shown, FiguresOf.stored, FiguresOf.map]

theorem shown_inj {row row' : FiguresOf Amount} : row.shown = row'.shown ↔ row = row' := by
  refine ⟨fun h => ?_, fun h => h ▸ rfl⟩
  rw [← stored_shown row, h, stored_shown]

/-! ### The form -/

/-- How the app reads numbers from the fields of the form and writes them there. What it writes
are days and stored amounts, and those it reads back. -/
structure Numerals where
  /-- `_formParseDouble` -/
  double : String → ℚ
  /-- `_formParseInt` -/
  int : String → Int
  /-- `toString` of a `double` with a stored amount -/
  showAmount : Amount → String
  /-- `toString` of an `int` -/
  showInt : Int → String
  double_showAmount : ∀ a, double (showAmount a) = hundredths a
  double_showInt : ∀ n, double (showInt n) = n
  int_showInt : ∀ n, int (showInt n) = n
  double_zero : double "0" = 0
  double_one : double "1" = 1

variable (numerals : Numerals)

/-- `_formCalcLine` -/
def formCalcLine (q p : String) : ℚ := numerals.double q * numerals.double p

/-- The five lines of the bill. -/
def bill (form : ContractForm) : ℚ :=
  formCalcLine numerals form.qHour form.pHour + formCalcLine numerals form.qDay form.pDay +
    formCalcLine numerals form.qWeek form.pWeek + formCalcLine numerals form.qMonth form.pMonth +
    formCalcLine numerals form.qInsurance form.pInsurance

/-- The figures "Enregistrer" sends, for a new contract and for an existing one. -/
def figures (form : ContractForm) : FiguresOf ℚ :=
  let total := bill numerals form
  let supplement := numerals.double form.supplement
  { durationDays := numerals.int form.durJ
    pricePerHour := numerals.double form.pHour
    pricePerDay := numerals.double form.pDay
    pricePerWeek := numerals.double form.pWeek
    pricePerMonth := numerals.double form.pMonth
    withInsurance := 0 < numerals.double form.qInsurance
    totalPrice := total
    supplement := supplement
    totalGeneral := total + supplement
    paymentCash := numerals.double form.paymentCash
    paymentCheck := numerals.double form.paymentCheck
    paymentDeposit := numerals.double form.paymentDeposit }

/-- The form as it is opened on a contract with these figures; `form` has its car, dates and
places. -/
def opened (existing : FiguresOf Amount) (form : ContractForm) : ContractForm :=
  { form with
    durJ := numerals.showInt existing.durationDays
    qHour := numerals.showInt existing.durationDays
    pHour := numerals.showAmount existing.pricePerHour
    qDay := numerals.showInt existing.durationDays
    pDay := numerals.showAmount existing.pricePerDay
    qWeek := "1"
    pWeek := numerals.showAmount existing.pricePerWeek
    qMonth := "1"
    pMonth := numerals.showAmount existing.pricePerMonth
    qInsurance := if existing.withInsurance then "1" else "0"
    pInsurance :=
      if existing.withInsurance then numerals.showAmount existing.supplement else "0"
    supplement := "0"
    paymentCash := numerals.showAmount existing.paymentCash
    paymentCheck := numerals.showAmount existing.paymentCheck
    paymentDeposit := numerals.showAmount existing.paymentDeposit }

/-- What is sent when the dialog is opened on a contract and saved without an edit. -/
def resave (form : ContractForm) (existing : FiguresOf Amount) : FiguresOf ℚ :=
  figures numerals (opened numerals existing form)

/-! ### What an untouched form sends -/

/-- The bill with the guessed quantities, in cents. -/
def guessed (existing : FiguresOf Amount) : Amount :=
  existing.durationDays * existing.pricePerHour + existing.durationDays * existing.pricePerDay +
    existing.pricePerWeek + existing.pricePerMonth

/-- The row after an untouched save: the supplement becomes part of the bill if there is an
insurance, and is lost otherwise. -/
def resaved (existing : FiguresOf Amount) : FiguresOf Amount :=
  let total := guessed existing + if existing.withInsurance then existing.supplement else 0
  { existing with totalPrice := total, supplement := 0, totalGeneral := total }

attribute [simp] Numerals.double_showAmount Numerals.double_showInt Numerals.int_showInt
  Numerals.double_zero Numerals.double_one

variable {numerals} {existing : FiguresOf Amount} {form : ContractForm}

theorem bill_opened : bill numerals (opened numerals existing form) =
    hundredths (guessed existing + if existing.withInsurance then existing.supplement else 0) := by
  unfold bill opened formCalcLine guessed hundredths
  -- the stored supplement comes back as the price of the insurance, if there is one
  cases existing.withInsurance with
  | true =>
    simp [hundredths]
    ring
  | false =>
    simp [hundredths]
    ring

/-- Everything is sent as it is stored but the totals. -/
theorem resave_eq : resave numerals form existing = (resaved existing).shown := by
  have hzero : hundredths 0 = 0 := by simp [hundredths]
  unfold resave figures
  rw [bill_opened]
  cases hinsurance : existing.withInsurance with
  | true => simp [opened, resaved, FiguresOf.shown, FiguresOf.map, hinsurance, hzero]
  | false => simp [opened, resaved, FiguresOf.shown, FiguresOf.map, hinsurance, hzero]

/-- The contracts that an untouched save leaves as they are. -/
theorem resaved_eq_self_iff : resaved existing = existing ↔
    existing.supplement = 0 ∧ existing.totalPrice = guessed existing ∧
      existing.totalGeneral = existing.totalPrice := by
  have hadded (h : existing.supplement = 0) :
      guessed existing + (if existing.withInsurance then existing.supplement else 0) =
        guessed existing := by
    rw [h, ite_self, Int.add_zero]
  constructor
  · intro h
    have hsupplement : existing.supplement = 0 := (congrArg FiguresOf.supplement h).symm
    have htotal := congrArg FiguresOf.totalPrice h
    have hgeneral := congrArg FiguresOf.totalGeneral h
    dsimp only [resaved] at htotal hgeneral
    rw [hadded hsupplement] at htotal hgeneral
    exact ⟨hsupplement, htotal.symm, hgeneral.symm.trans htotal⟩
  · rintro ⟨hsupplement, htotal, hgeneral⟩
    unfold resaved
    dsimp only
    rw [hadded hsupplement, ← htotal]
    clear hadded htotal
    obtain ⟨_, _, _, _, _, _, totalPrice, supplement, totalGeneral, _, _, _⟩ := existing
    dsimp only at hsupplement hgeneral ⊢
    rw [hsupplement, hgeneral]

/-- **When saving an untouched form changes nothing.** A contract of the form for new contracts is
sent as it is stored exactly if nothing of the supplement was stored, the bill in cents is the
one with the guessed quantities and the stored prices, and the supplement has not moved the
rounded total. -/
theorem untouched_save_iff (numerals : Numerals) (typed form : ContractForm) :
    resave numerals form (figures numerals typed).stored = (figures numerals typed).stored.shown ↔
      column (numerals.double typed.supplement) = 0 ∧
      column (bill numerals typed) =
        numerals.int typed.durJ * column (numerals.double typed.pHour) +
          numerals.int typed.durJ * column (numerals.double typed.pDay) +
          column (numerals.double typed.pWeek) + column (numerals.double typed.pMonth) ∧
      column (bill numerals typed + numerals.double typed.supplement) =
        column (bill numerals typed) := by
  rw [resave_eq, shown_inj, resaved_eq_self_iff]
  rfl

/-- **From the second untouched save on nothing changes.** The first one moves or drops the
supplement; if it moved it into the bill, the second one drops it from there. -/
theorem resaved_stable (n : Nat) : resaved^[n + 2] existing = resaved^[2] existing := by
  have hfixed : resaved (resaved^[2] existing) = resaved^[2] existing := by
    -- after two saves the supplement is gone from the bill, insured or not
    have htwice : resaved^[2] existing =
        { existing with
          totalPrice := guessed existing, supplement := 0, totalGeneral := guessed existing } := by
      show resaved (resaved existing) = _
      cases hinsurance : existing.withInsurance with
      | true => simp [resaved, guessed, hinsurance]
      | false => simp [resaved, guessed, hinsurance]
    rw [htwice, resaved_eq_self_iff]
    exact ⟨rfl, rfl, rfl⟩
  rw [Function.iterate_add_apply]
  exact Function.iterate_fixed hfixed n

/-! ### Decimal numerals -/

/-- An integer without a sign. -/
def readNatural (s : List Char) : Option Int :=
  if s.all isDigit then some (numeral s) else none

/-- A decimal number without a sign; behind a point there are digits. -/
def readUnsigned (s : List Char) : Option ℚ :=
  match s.dropWhile isDigit with
  | [] => some (numeral s)
  | '.' :: d :: rest =>
    if (d :: rest).all isDigit then
      some (numeral (s.takeWhile isDigit ++ d :: rest) / 10 ^ (d :: rest).length)
    else none
  | _ => none

/-- What is read with or without a sign in front. -/
def readSigned {α : Type} [Neg α] (read : List Char → Option α) : List Char → Option α
  | '-' :: s => (read s).map (- ·)
  | '+' :: s => read s
  | s => read s

/-- A sign in front of a negative number. -/
def signed (n : Int) (s : List Char) : List Char := if n < 0 then '-' :: s else s

/-- The digits behind the point, one of them at least and no further zero. -/
def cents (n : Nat) : List Char := if n % 10 = 0 then fixed 1 (n / 10) else fixed 2 n

/-- The magnitude of an amount as a double is written. -/
def unsignedAmount (n : Nat) : List Char := decimal (n / 100) ++ '.' :: cents (n % 100)

/-- The signs numbers are written with. -/
def Plain (c : Char) : Prop := isDigit c = true ∨ c = '.' ∨ c = '-'

theorem Plain.clean {c : Char} (h : Plain c) : Dart.isBlank c = false ∧ c ≠ ',' := by
  rcases h with h | rfl | rfl
  · obtain ⟨d, hd, rfl⟩ := isDigit_iff.mp h
    have hall : ∀ d < 10, Dart.isBlank (DigitSigns.digit d) = false ∧
        (DigitSigns.digit d : Char) ≠ ',' := by decide
    exact hall d hd
  · decide
  · decide

theorem not_sign_of_isDigit {c : Char} (h : isDigit c = true) : c ≠ '-' ∧ c ≠ '+' := by
  constructor
  · rintro rfl
    exact absurd h (by decide)
  · rintro rfl
    exact absurd h (by decide)

theorem dropWhile_digits {a b : List Char} (ha : ∀ c ∈ a, isDigit c = true) :
    (a ++ '.' :: b).dropWhile isDigit = '.' :: b ∧ (a ++ '.' :: b).takeWhile isDigit = a := by
  rw [List.dropWhile_append_of_pos ha, List.takeWhile_append_of_pos ha]
  exact ⟨rfl, List.append_nil a⟩

theorem readNatural_decimal (n : Nat) : readNatural (decimal n) = some (n : Int) := by
  have hall : (decimal n : List Char).all isDigit = true :=
    List.all_eq_true.mpr fun c => isDigit_of_mem_decimal
  rw [readNatural, if_pos hall, numeral_decimal]

theorem readUnsigned_decimal (n : Nat) : readUnsigned (decimal n) = some (n : ℚ) := by
  have hdrop : (decimal n : List Char).dropWhile isDigit = [] :=
    List.dropWhile_eq_nil_iff.mpr fun c => isDigit_of_mem_decimal
  simp [readUnsigned, hdrop, numeral_decimal]

theorem readUnsigned_fraction (n : Nat) {fraction : List Char} (hne : fraction ≠ [])
    (hdigits : ∀ c ∈ fraction, isDigit c = true) :
    readUnsigned (decimal n ++ '.' :: fraction) =
      some (n + numeral fraction / 10 ^ fraction.length : ℚ) := by
  obtain ⟨hdrop, htake⟩ := dropWhile_digits (a := decimal n) (b := fraction)
    fun c => isDigit_of_mem_decimal
  have hpow : (10 ^ fraction.length : ℚ) ≠ 0 := by positivity
  have hvalue : (numeral (decimal n ++ fraction) / 10 ^ fraction.length : ℚ) =
      n + numeral fraction / 10 ^ fraction.length := by
    rw [numeral_append, numeral_decimal]
    push_cast
    field_simp
  unfold readUnsigned
  rw [hdrop, htake]
  cases fraction with
  | nil => exact absurd rfl hne
  | cons d rest =>
    show (if (d :: rest).all isDigit then
      some (numeral (decimal n ++ d :: rest) / 10 ^ (d :: rest).length : ℚ) else none) = _
    rw [if_pos (List.all_eq_true.mpr hdigits), hvalue]

theorem cents_spec {n : Nat} (h : n < 100) :
    cents n ≠ [] ∧ (∀ c ∈ cents n, isDigit c = true) ∧
      (numeral (cents n) / 10 ^ (cents n).length : ℚ) = n / 100 := by
  unfold cents
  split
  · next hzero =>
    obtain ⟨k, rfl⟩ := Nat.dvd_of_mod_eq_zero hzero
    refine ⟨List.ne_nil_of_length_pos (by simp), fun c => isDigit_of_mem_fixed, ?_⟩
    rw [Nat.mul_div_cancel_left _ (by decide), numeral_fixed (by omega), length_fixed]
    push_cast
    ring
  · refine ⟨List.ne_nil_of_length_pos (by simp), fun c => isDigit_of_mem_fixed, ?_⟩
    rw [numeral_fixed h, length_fixed]
    norm_num

theorem readUnsigned_unsignedAmount (n : Nat) :
    readUnsigned (unsignedAmount n) = some (n / 100 : ℚ) := by
  obtain ⟨hne, hdigits, hvalue⟩ := cents_spec (Nat.mod_lt n (show 0 < 100 by decide))
  have hsplit : (n : ℚ) = 100 * (n / 100 : Nat) + (n % 100 : Nat) := by
    exact_mod_cast (Nat.div_add_mod n 100).symm
  rw [unsignedAmount, readUnsigned_fraction _ hne hdigits, hvalue]
  congr 1
  rw [eq_div_iff (by norm_num), hsplit]
  ring

theorem readSigned_signed {α : Type} [Neg α] {read : List Char → Option α} {n : Int}
    {s : List Char} {x : α} (hread : read s = some x)
    (hhead : ∀ c ∈ s.head?, c ≠ '-' ∧ c ≠ '+') :
    readSigned read (signed n s) = some (if n < 0 then -x else x) := by
  unfold signed
  split
  · rw [readSigned, hread]
    rfl
  · unfold readSigned
    split
    · exact absurd rfl (hhead '-' rfl).1
    · exact absurd rfl (hhead '+' rfl).2
    · exact hread

/-- What a field of the form holds, without the blanks around it. -/
def fieldText (s : String) : List Char := (Dart.trimString s).toList

/-- Texts of plain signs are read as they are, with a comma for the point or without. -/
theorem fieldText_ofList {s : List Char} (h : ∀ c ∈ s, Plain c) :
    fieldText (String.ofList s) = s ∧ s.map (fun c => if c = ',' then '.' else c) = s := by
  constructor
  · unfold fieldText Dart.trimString
    rw [String.toList_ofList, String.toList_ofList, trimEnds_of_none fun c hc => (h c hc).clean.1]
  · calc s.map (fun c => if c = ',' then '.' else c)
        = s.map id := List.map_congr_left fun c hc => if_neg (h c hc).clean.2
      _ = s := List.map_id s

theorem plain_signed {n : Int} {s : List Char} (h : ∀ c ∈ s, Plain c) :
    ∀ c ∈ signed n s, Plain c := by
  unfold signed
  split
  · exact List.forall_mem_cons.mpr ⟨Or.inr (Or.inr rfl), h⟩
  · exact h

theorem plain_decimal (n : Nat) : ∀ c ∈ decimal n, Plain c :=
  fun _ hc => Or.inl (isDigit_of_mem_decimal hc)

theorem plain_unsignedAmount (n : Nat) : ∀ c ∈ unsignedAmount n, Plain c := by
  have hcents := (cents_spec (Nat.mod_lt n (show 0 < 100 by decide))).2.1
  exact List.forall_mem_append.mpr ⟨plain_decimal _,
    List.forall_mem_cons.mpr ⟨Or.inr (Or.inl rfl), fun c hc => Or.inl (hcents c hc)⟩⟩

theorem head_decimal (n : Nat) : ∀ c ∈ (decimal n).head?, c ≠ '-' ∧ c ≠ '+' :=
  fun _ hc => not_sign_of_isDigit (isDigit_of_mem_decimal (List.mem_of_mem_head? hc))

theorem head_decimal_point (n : Nat) (b : List Char) :
    ∀ c ∈ (decimal n ++ '.' :: b).head?, c ≠ '-' ∧ c ≠ '+' := by
  intro c hc
  cases hdigits : (decimal n : List Char) with
  | nil =>
    rw [hdigits] at hc
    obtain rfl : '.' = c := Option.some.inj hc
    decide
  | cons d rest =>
    rw [hdigits] at hc
    refine head_decimal n c ?_
    rw [hdigits]
    exact hc

theorem natAbs_signed (n : Int) : (if n < 0 then -(n.natAbs : Int) else n.natAbs) = n := by
  split <;> omega

theorem natAbs_signed_rat (n : Int) : (if n < 0 then -(n.natAbs : ℚ) else n.natAbs) = n := by
  rw [← Int.cast_natCast, ← Int.cast_neg, ← apply_ite (Int.cast (R := ℚ)), natAbs_signed]

/-- Numbers in decimal notation. Exponents and hexadecimal digits, which Dart reads as well, are
left out: the form never writes them. -/
def decimals : Numerals where
  double s := (readSigned readUnsigned
    ((fieldText s).map fun c => if c = ',' then '.' else c)).getD 0
  int s := (readSigned readNatural (fieldText s)).getD 0
  showAmount a := String.ofList (signed a (unsignedAmount a.natAbs))
  showInt n := String.ofList (signed n (decimal n.natAbs))
  double_showAmount a := by
    obtain ⟨htext, hmap⟩ := fieldText_ofList (plain_signed (n := a) (plain_unsignedAmount a.natAbs))
    have hread := readSigned_signed (n := a) (readUnsigned_unsignedAmount a.natAbs)
      (head_decimal_point _ _)
    rw [htext, hmap, hread, Option.getD_some, ← neg_div, ← ite_div, natAbs_signed_rat]
    rfl
  double_showInt n := by
    obtain ⟨htext, hmap⟩ := fieldText_ofList (plain_signed (n := n) (plain_decimal n.natAbs))
    have hread := readSigned_signed (n := n) (readUnsigned_decimal n.natAbs) (head_decimal _)
    rw [htext, hmap, hread, Option.getD_some, natAbs_signed_rat]
  int_showInt n := by
    have hread := readSigned_signed (n := n) (readNatural_decimal n.natAbs) (head_decimal _)
    rw [(fieldText_ofList (plain_signed (plain_decimal n.natAbs))).1, hread, Option.getD_some,
      natAbs_signed]
  double_zero := by rfl
  double_one := by rfl

/-- Three days at 300 with a supplement of 50. -/
def threeDays : ContractForm where
  selectedCarId := 1
  dep := {}
  prev := {}
  durJ := "3"
  qDay := "3"
  pDay := "300"
  supplement := "50"

/-- The contract is stored with 950.00; opening it and saving it sends 900, without the
supplement. -/
theorem untouched_save_loses_supplement :
    (figures decimals threeDays).stored.shown.totalGeneral = 950 ∧
    (resave decimals threeDays (figures decimals threeDays).stored).totalGeneral = 900 := by
  have hduration : decimals.int "3" = 3 := decimals.int_showInt 3
  have hthree : decimals.double "3" = 3 := decimals.double_showInt 3
  have hprice : decimals.double "300" = 300 := decimals.double_showInt 300
  have hsupplement : decimals.double "50" = 50 := decimals.double_showInt 50
  have hcolumn : column 0 = 0 ∧ column 300 = 30000 ∧ column 50 = 5000 ∧ column 900 = 90000 ∧
      column 950 = 95000 := by decide
  have hfigures : (figures decimals threeDays).stored =
      { durationDays := 3, pricePerHour := 0, pricePerDay := 30000, pricePerWeek := 0
        pricePerMonth := 0, withInsurance := false, totalPrice := 90000, supplement := 5000
        totalGeneral := 95000, paymentCash := 0, paymentCheck := 0, paymentDeposit := 0 } := by
    norm_num [figures, bill, formCalcLine, threeDays, FiguresOf.stored, FiguresOf.map, hduration,
      hthree, hprice, hsupplement, hcolumn]
  rw [hfigures, resave_eq]
  norm_num [resaved, guessed, FiguresOf.shown, FiguresOf.map, hundredths]

end CarRental.EditContract
