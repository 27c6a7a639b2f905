import Mathlib.Algebra.Ring.Nat
import Mathlib.Data.List.Induction
import Mathlib.Data.Nat.Log
import Mathlib.Tactic.Ring

/-!
# CarRental.Lib.Numeral

**Decimal numerals** over an alphabet that has a sign for each digit.

`fixed w n` is the numeral of `n` with exactly `w` digits, and everything else comes
back to it: `decimal n` has as many digits as the number needs (`decimal_eq_fixed`),
and filling it up with zeros gives the fixed numeral (`leftpad_decimal`). `numeral`
reads a list of digits, with zeros in front or without.
-/

namespace Lib

theorem append_prefix_append {α : Type} {a b c d : List α} (h : a.length = c.length) :
    a ++ b <+: c ++ d ↔ a = c ∧ b <+: d := by
  constructor
  · intro hprefix
    obtain ⟨t, ht⟩ := hprefix
    rw [List.append_assoc] at ht
    obtain ⟨hac, hbd⟩ := List.append_inj ht h
    exact ⟨hac, t, hbd⟩
  · intro hboth
    obtain ⟨rfl, hprefix⟩ := hboth
    exact (List.prefix_append_right_inj a).mpr hprefix

/-- An alphabet with signs for the ten digits. -/
class DigitSigns (α : Type) where
  /-- The sign for a digit. -/
  digit : Nat → α
  /-- The digit a sign stands for, if it does. -/
  digit? : α → Option Nat
  digit?_digit : ∀ {d : Nat}, d < 10 → digit? (digit d) = some d
  digit?_eq_some : ∀ {c : α} {d : Nat}, digit? c = some d → d < 10 ∧ digit d = c

open DigitSigns

variable {α : Type} [DigitSigns α]

/-- Is the sign a digit? -/
def isDigit (c : α) : Bool := (digit? c).isSome

theorem isDigit_digit {d : Nat} (h : d < 10) : isDigit (digit d : α) = true := by
  unfold isDigit
  rw [digit?_digit h]
  rfl

theorem isDigit_iff {c : α} : isDigit c = true ↔ ∃ d < 10, c = digit d := by
  constructor
  · intro h
    obtain ⟨d, hd⟩ := Option.isSome_iff_exists.mp h
    exact ⟨d, (digit?_eq_some hd).1, (digit?_eq_some hd).2.symm⟩
  · intro h
    obtain ⟨d, hd, rfl⟩ := h
    exact isDigit_digit hd

/-! ### Numerals of a given width -/

/-- The last `w` digits of a number. -/
def fixed : Nat → Nat → List α
  | 0, _ => []
  | w + 1, n => fixed w (n / 10) ++ [digit (n % 10)]

/-- The number that digits stand for. -/
def numeral (text : List α) : Nat := text.foldl (fun n c => 10 * n + (digit? c).getD 0) 0

theorem numeral_concat (text : List α) {d : Nat} (h : d < 10) :
    numeral (text ++ [digit d]) = 10 * numeral text + d := by
  unfold numeral
  rw [List.foldl_append, List.foldl_cons, List.foldl_nil, digit?_digit h, Option.getD_some]

/-- What stands in front counts as many powers of ten as there are digits behind it. -/
theorem numeral_append (a b : List α) :
    numeral (a ++ b) = numeral a * 10 ^ b.length + numeral b := by
  have hconcat : ∀ (l : List α) (c : α), numeral (l ++ [c]) = 10 * numeral l + (digit? c).getD 0 :=
    fun l c => List.foldl_append
  induction b using List.reverseRecOn with
  | nil => simp [numeral]
  | append_singleton b c ih =>
    rw [← List.append_assoc, hconcat, ih, hconcat, List.length_append, List.length_singleton,
      Nat.pow_succ]
    ring

@[simp] theorem length_fixed (w n : Nat) : (fixed w n : List α).length = w := by
  induction w generalizing n with
  | zero => rfl
  | succ w ih => rw [fixed, List.length_append, ih, List.length_singleton]

theorem isDigit_of_mem_fixed {w n : Nat} {c : α} (h : c ∈ fixed w n) : isDigit c = true := by
  induction w generalizing n with
  | zero => exact absurd h List.not_mem_nil
  | succ w ih =>
    rw [fixed] at h
    rcases List.mem_append.mp h with h | h
    · exact ih h
    · rw [List.mem_singleton.mp h]
      exact isDigit_digit (Nat.mod_lt n (by decide))

theorem numeral_fixed {w n : Nat} (h : n < 10 ^ w) : numeral (fixed w n : List α) = n := by
  induction w generalizing n with
  | zero =>
    rw [Nat.pow_zero] at h
    show 0 = n
    omega
  | succ w ih =>
    rw [Nat.pow_succ] at h
    rw [fixed, numeral_concat _ (Nat.mod_lt n (by decide)), ih (by omega)]
    omega

/-- Digits are the numeral, of their width, of the number they stand for. -/
theorem fixed_numeral {text : List α} (h : ∀ c ∈ text, isDigit c = true) :
    fixed text.length (numeral text) = text ∧ numeral text < 10 ^ text.length := by
  induction text using List.reverseRecOn with
  | nil => exact ⟨rfl, Nat.one_pos⟩
  | append_singleton text c ih =>
    obtain ⟨hfixed, hlt⟩ := ih fun c hc => h c (List.mem_append_left _ hc)
    obtain ⟨d, hd, rfl⟩ := isDigit_iff.mp (h c (by simp))
    rw [numeral_concat _ hd, List.length_append, List.length_singleton]
    have hdiv : (10 * numeral text + d) / 10 = numeral text := by omega
    have hmod : (10 * numeral text + d) % 10 = d := by omega
    rw [fixed, hdiv, hmod, hfixed, Nat.pow_succ]
    exact ⟨rfl, by omega⟩

theorem fixed_injective {w n n' : Nat} (hn : n < 10 ^ w) (hn' : n' < 10 ^ w)
    (h : (fixed w n : List α) = fixed w n') : n = n' := by
  have hnum := congrArg numeral h
  rw [numeral_fixed hn, numeral_fixed hn'] at hnum
  exact hnum

/-- Numerals of one width in front are compared as numbers. -/
theorem fixed_prefix_iff {w n n' : Nat} (hn : n < 10 ^ w) (hn' : n' < 10 ^ w) (b d : List α) :
    fixed w n ++ b <+: fixed w n' ++ d ↔ n = n' ∧ b <+: d := by
  rw [append_prefix_append (by rw [length_fixed, length_fixed])]
  constructor
  · intro h
    exact ⟨fixed_injective hn hn' h.1, h.2⟩
  · intro h
    rw [h.1]
    exact ⟨rfl, h.2⟩

/-- A wider numeral has zeros in front. -/
theorem fixed_succ_of_lt {w n : Nat} (h : n < 10 ^ w) :
    (fixed (w + 1) n : List α) = digit 0 :: fixed w n := by
  induction w generalizing n with
  | zero =>
    rw [Nat.pow_zero] at h
    have hn : n = 0 := by omega
    rw [hn]
    rfl
  | succ w ih =>
    rw [Nat.pow_succ] at h
    rw [fixed, ih (by omega), List.cons_append, fixed]

theorem fixed_add_of_lt {w n : Nat} (h : n < 10 ^ w) (k : Nat) :
    (fixed (w + k) n : List α) = List.replicate k (digit 0) ++ fixed w n := by
  induction k with
  | zero => rfl
  | succ k ih =>
    have hlt : n < 10 ^ (w + k) :=
      Nat.lt_of_lt_of_le h (Nat.pow_le_pow_right (by decide) (by omega))
    rw [← Nat.add_assoc, fixed_succ_of_lt hlt, ih, List.replicate_succ, List.cons_append]

/-- The first digits of a numeral are a numeral, and so are the last ones. -/
theorem fixed_append {k c : Nat} (hc : c < 10 ^ k) (w n : Nat) :
    (fixed (w + k) (n * 10 ^ k + c) : List α) = fixed w n ++ fixed k c := by
  induction k generalizing c with
  | zero =>
    rw [Nat.pow_zero] at hc
    rw [fixed, List.append_nil, Nat.pow_zero, Nat.mul_one, Nat.lt_one_iff.mp hc, Nat.add_zero,
      Nat.add_zero]
  | succ k ih =>
    rw [Nat.pow_succ] at hc
    have hdiv : (n * 10 ^ (k + 1) + c) / 10 = n * 10 ^ k + c / 10 := by
      rw [Nat.pow_succ, ← Nat.mul_assoc]
      omega
    have hmod : (n * 10 ^ (k + 1) + c) % 10 = c % 10 := by
      rw [Nat.pow_succ, ← Nat.mul_assoc]
      omega
    rw [← Nat.add_assoc, fixed, fixed, hdiv, hmod, ih (by omega), List.append_assoc]

/-! ### Numerals as wide as the number -/

/-- The numeral of a number that needs at most `fuel` digits. -/
def decimalUpTo : Nat → Nat → List α
  | 0, _ => []
  | fuel + 1, n =>
    if n < 10 then [digit n] else decimalUpTo fuel (n / 10) ++ [digit (n % 10)]

/-- The numeral without zeros in front. -/
def decimal (n : Nat) : List α := decimalUpTo (n + 1) n

/-- `w` digits are needed for `n`, and are enough. -/
def NeedsDigits (w n : Nat) : Prop := 0 < w ∧ n < 10 ^ w ∧ (w = 1 ∨ 10 ^ (w - 1) ≤ n)

theorem exists_needsDigits (n : Nat) : ∃ w, NeedsDigits w n := by
  refine ⟨Nat.log 10 n + 1, Nat.succ_pos _, Nat.lt_pow_succ_log_self (by decide) n, ?_⟩
  rcases Nat.eq_zero_or_pos n with rfl | hn
  · exact Or.inl (by simp)
  · exact Or.inr (Nat.pow_log_le_self 10 (Nat.ne_of_gt hn))

theorem decimalUpTo_eq_fixed {fuel w n : Nat} (h : NeedsDigits w n) (hfuel : n < fuel) :
    (decimalUpTo fuel n : List α) = fixed w n := by
  induction fuel generalizing w n with
  | zero => exact absurd hfuel (Nat.not_lt_zero n)
  | succ fuel ih =>
    obtain ⟨hpos, hlt, hneeds⟩ := h
    obtain ⟨w, rfl⟩ := Nat.exists_eq_succ_of_ne_zero (Nat.ne_of_gt hpos)
    rw [decimalUpTo, fixed]
    split
    · next hsmall =>
      have hw : w = 0 := by
        rcases hneeds with hneeds | hneeds
        · omega
        · by_contra hw
          have : 10 ^ 1 ≤ 10 ^ w := Nat.pow_le_pow_right (by decide) (by omega)
          rw [Nat.succ_sub_one] at hneeds
          omega
      rw [hw, fixed, List.nil_append, Nat.mod_eq_of_lt hsmall]
    · next hlarge =>
      rw [Nat.succ_eq_add_one, Nat.pow_succ] at hlt
      have hw : 0 < w := by
        by_contra hw
        have hzero : w = 0 := by omega
        rw [hzero] at hlt
        omega
      have hdiv : NeedsDigits w (n / 10) := by
        refine ⟨hw, by omega, ?_⟩
        by_cases hone : w = 1
        · exact Or.inl hone
        · rcases hneeds with hneeds | hneeds
          · omega
          · right
            have hpow : 10 ^ w = 10 ^ (w - 1) * 10 := by
              rw [← Nat.pow_succ, Nat.succ_eq_add_one, Nat.sub_add_cancel hw]
            rw [Nat.succ_sub_one] at hneeds
            omega
      rw [ih hdiv (by omega)]

theorem decimal_eq_fixed {w n : Nat} (h : NeedsDigits w n) : (decimal n : List α) = fixed w n :=
  decimalUpTo_eq_fixed h (Nat.lt_succ_self n)

theorem length_decimal {w n : Nat} : (decimal n : List α).length = w ↔ NeedsDigits w n := by
  constructor
  · intro h
    obtain ⟨v, hv⟩ := exists_needsDigits n
    rw [decimal_eq_fixed hv, length_fixed] at h
    rw [← h]
    exact hv
  · intro h
    rw [decimal_eq_fixed h, length_fixed]

/-- More than `w` digits are needed from `10 ^ w` on. -/
theorem lt_length_decimal_iff {w n : Nat} (hw : 0 < w) :
    w < (decimal n : List α).length ↔ 10 ^ w ≤ n := by
  obtain ⟨v, hv⟩ := exists_needsDigits n
  rw [length_decimal.mpr hv]
  obtain ⟨-, hlt, hneeds⟩ := hv
  constructor
  · intro hwv
    have hpow : 10 ^ w ≤ 10 ^ (v - 1) := Nat.pow_le_pow_right (by decide) (by omega)
    exact Nat.le_trans hpow (hneeds.resolve_left (by omega))
  · intro hle
    exact (Nat.pow_lt_pow_iff_right (by decide)).mp (Nat.lt_of_le_of_lt hle hlt)

theorem numeral_decimal (n : Nat) : numeral (decimal n : List α) = n := by
  obtain ⟨w, hw⟩ := exists_needsDigits n
  rw [decimal_eq_fixed hw, numeral_fixed hw.2.1]

theorem isDigit_of_mem_decimal {n : Nat} {c : α} (h : c ∈ decimal n) : isDigit c = true := by
  obtain ⟨w, hw⟩ := exists_needsDigits n
  rw [decimal_eq_fixed hw] at h
  exact isDigit_of_mem_fixed h

/-- Filling up with zeros. -/
theorem leftpad_decimal {w n : Nat} (hw : 0 < w) (h : n < 10 ^ w) :
    (decimal n).leftpad w (digit 0 : α) = fixed w n := by
  obtain ⟨v, hv⟩ := exists_needsDigits n
  have hlen : (decimal n : List α).length = v := length_decimal.mpr hv
  have hle : v ≤ w := by
    rw [← hlen, ← Nat.not_lt, lt_length_decimal_iff hw]
    omega
  rw [List.leftpad, hlen, decimal_eq_fixed hv, ← fixed_add_of_lt hv.2.1, Nat.add_sub_cancel' hle]

end Lib
