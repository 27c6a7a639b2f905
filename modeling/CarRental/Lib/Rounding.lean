import Mathlib.Algebra.Ring.Int.Defs
import Mathlib.Algebra.Ring.Nat

/-!
# CarRental.Lib.Rounding

**Rounding half away from zero**: what becomes of an exact quotient in a column that keeps
whole units only.

The quotient is given by its numerator and its denominator, so nothing is divided before it
is rounded. The magnitude is rounded and the sign put back, which makes the rounding odd.
Three facts carry what is said about amounts: whole units are kept as they are
(`roundHalfAway_mul`), exactly the numbers below one half are lost
(`roundHalfAway_pos_iff`), and it does not matter which fraction a number is given by
(`roundHalfAway_congr`).
-/

namespace Lib

/-- The whole number nearest to `n / d`; half a unit goes away from zero. -/
def roundHalfAway (n : Int) (d : Nat) : Int :=
  n.sign * ((2 * n.natAbs + d) / (2 * d) : Nat)

variable {n : Int} {d : Nat}

/-- A whole number of units is kept. -/
theorem roundHalfAway_mul (k : Int) (hd : 0 < d) : roundHalfAway (k * d) d = k := by
  have hquot : (2 * (k.natAbs * d) + d) / (2 * d) = k.natAbs := by
    rw [Nat.add_comm, Nat.mul_left_comm, Nat.mul_comm k.natAbs,
      Nat.add_mul_div_left _ _ (by omega), Nat.div_eq_of_lt (by omega), Nat.zero_add]
  have hsign : (k * (d : Int)).sign = k.sign := by
    rw [Int.sign_mul, Int.sign_natCast_of_ne_zero (by omega), Int.mul_one]
  unfold roundHalfAway
  rw [hsign, Int.natAbs_mul, Int.natAbs_natCast, hquot, Int.sign_mul_natAbs]

/-- The fraction need not be reduced. -/
theorem roundHalfAway_mul_right {k : Nat} (hk : 0 < k) :
    roundHalfAway (n * k) (d * k) = roundHalfAway n d := by
  have hsign : (n * (k : Int)).sign = n.sign := by
    rw [Int.sign_mul, Int.sign_natCast_of_ne_zero (by omega), Int.mul_one]
  unfold roundHalfAway
  rw [hsign, Int.natAbs_mul, Int.natAbs_natCast, ← Nat.mul_assoc, ← Nat.mul_assoc, ← Nat.add_mul,
    Nat.mul_div_mul_right _ _ hk]

/-- Equal fractions are rounded alike. -/
theorem roundHalfAway_congr {n' : Int} {d' : Nat} (hd : 0 < d) (hd' : 0 < d')
    (h : n * d' = n' * d) : roundHalfAway n d = roundHalfAway n' d' := by
  rw [← roundHalfAway_mul_right hd', h, Nat.mul_comm, roundHalfAway_mul_right hd]

theorem roundHalfAway_nonneg (hn : 0 ≤ n) : 0 ≤ roundHalfAway n d :=
  Int.mul_nonneg (Int.sign_nonneg_iff.mpr hn) (Int.natCast_nonneg _)

/-- At least one unit is left exactly from half a unit on. -/
theorem roundHalfAway_pos_iff (hd : 0 < d) : 0 < roundHalfAway n d ↔ (d : Int) ≤ 2 * n := by
  have hquot : 0 < (2 * n.natAbs + d) / (2 * d) ↔ d ≤ 2 * n.natAbs := by
    rw [Nat.div_pos_iff]
    omega
  unfold roundHalfAway
  generalize (2 * n.natAbs + d) / (2 * d) = q at hquot ⊢
  rcases Int.lt_trichotomy n 0 with hneg | rfl | hpos
  · rw [Int.sign_eq_neg_one_of_neg hneg]
    omega
  · rw [Int.sign_zero]
    omega
  · rw [Int.sign_eq_one_of_pos hpos, Int.one_mul]
    omega

end Lib
