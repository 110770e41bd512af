import EventLog.Binary64.Nearest
import Mathlib.Algebra.Order.Field.Power
import Mathlib.Algebra.Order.Field.Rat
import Mathlib.Tactic.Linarith

/-!
# Values of floating-point numbers

A finite number denotes a rational one, its sign times its significand scaled by a power of two
(`Binary64.value?`). `natural?_eq_some`: the natural number of a floating-point number is the one it
denotes, and there is none if it denotes another number or nothing.
-/

namespace EventLog.Binary64

/-- The rational number that a finite number denotes. -/
def value? (x : Binary64) : Option ℚ :=
  if x.isFinite then some ((if x.negative then -1 else 1) * x.significand * 2 ^ x.exponent)
  else none

/-- A number scaled by a power of two with no fraction. -/
theorem scaled_eq_natCast_of_nonneg {e : ℤ} (he : 0 ≤ e) (m n : ℕ) :
    (m : ℚ) * 2 ^ e = n ↔ m * 2 ^ e.toNat = n := by
  obtain ⟨k, rfl⟩ := Int.eq_ofNat_of_zero_le he
  rw [Int.toNat_natCast, zpow_natCast]
  exact_mod_cast Iff.rfl

/-- A number scaled by a negative power of two is natural if it is a multiple of the unit. -/
theorem scaled_eq_natCast_of_neg {e : ℤ} (he : e < 0) (m n : ℕ) :
    (m : ℚ) * 2 ^ e = n ↔ m = n * 2 ^ (-e).toNat := by
  obtain ⟨k, hk⟩ := Int.eq_ofNat_of_zero_le (Int.neg_nonneg.2 he.le)
  obtain rfl : e = -k := by omega
  have hunit : (2 : ℚ) ^ k ≠ 0 := pow_ne_zero k two_ne_zero
  rw [neg_neg, Int.toNat_natCast, zpow_neg, zpow_natCast, mul_inv_eq_iff_eq_mul₀ hunit]
  exact_mod_cast Iff.rfl

/-- Division that leaves no rest gives the factor. -/
theorem exactQuotient_eq_some {unit : ℕ} (hunit : 0 < unit) (m n : ℕ) :
    (if m % unit = 0 then some (m / unit) else none) = some n ↔ m = n * unit := by
  constructor
  · intro h
    split at h
    · next hrest =>
      obtain rfl := Option.some.inj h
      exact (Nat.div_mul_cancel (Nat.dvd_of_mod_eq_zero hrest)).symm
    · cases h
  · rintro rfl
    rw [if_pos (Nat.mul_mod_left n unit), Nat.mul_div_cancel n hunit]

/-- The natural number of a floating-point number is the one that it denotes. -/
theorem natural?_eq_some {x : Binary64} {n : ℕ} :
    x.natural? = some n ↔ x.value? = some (n : ℚ) := by
  rw [natural?, value?]
  cases x.isFinite with
  | false => simp
  | true =>
    by_cases hbelow : x.negative = true ∧ x.significand ≠ 0
    · -- a number below zero is no natural one
      have hpos : (0 : ℚ) < x.significand * 2 ^ x.exponent :=
        mul_pos (Nat.cast_pos.2 (Nat.pos_of_ne_zero hbelow.2)) (zpow_pos two_pos x.exponent)
      have hne : (-1 * x.significand * 2 ^ x.exponent : ℚ) ≠ n := by
        have hnonneg : (0 : ℚ) ≤ n := Nat.cast_nonneg n
        intro h
        linarith
      have hguard : (!true || (x.negative && decide (x.significand ≠ 0))) = true := by
        simpa using hbelow
      rw [if_pos hguard, if_pos hbelow.1, if_pos rfl, Option.some.injEq]
      exact iff_of_false nofun hne
    · have hguard : ¬ (!true || (x.negative && decide (x.significand ≠ 0))) = true := by
        simpa using hbelow
      have hsign : (if x.negative then -1 else 1) * (x.significand : ℚ) = x.significand := by
        split
        · next hnegative =>
          have hzero : x.significand = 0 := by
            by_contra h
            exact hbelow ⟨hnegative, h⟩
          rw [hzero, Nat.cast_zero, mul_zero]
        · exact one_mul _
      rw [if_neg hguard, hsign, if_pos rfl, Option.some.injEq]
      split
      · next he => rw [Option.some.injEq, scaled_eq_natCast_of_nonneg he, Nat.pow_eq]
      · next he =>
        rw [scaled_eq_natCast_of_neg (Int.not_le.1 he)]
        exact exactQuotient_eq_some (Nat.two_pow_pos _) x.significand n

end EventLog.Binary64
