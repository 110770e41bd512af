import EventLog.Binary64.Nearest
import Mathlib.Algebra.Order.Ring.Int

/-!
# The range of floating-point arithmetic

`isFinite_product`: the product of numbers nearest to naturals is finite as long as the naturals are
not too large together. All bounds are powers of two with some room to spare, so that only exponents
have to be compared: a fraction below `2 ^ k` has a magnitude of at most `k + 1025` steps of the
exponent (`nearestMagnitude_le`), and a number of such a magnitude is a significand below `2 ^ 53`
at an exponent of at most `k - 50`.
-/

namespace EventLog.Binary64

/-! ## Rounding -/

/-- Rounding goes up by one at most. -/
theorem roundHalfEven_le (num den : Nat) : roundHalfEven num den ≤ num / den + 1 := by
  unfold roundHalfEven
  dsimp only
  split
  · exact Nat.le_succ _
  · split
    · exact Nat.le_refl _
    · have := Nat.mod_lt (num / den) (y := 2) (by decide)
      omega

/-- A fraction scaled by a power of two is bounded by the lengths of its numerator and its
denominator. -/
theorem scaled_lt (num : Nat) {den t : Nat} {e : Int} (hden : 0 < den)
    (h : (num.log2 : Int) + 1 ≤ den.log2 + e + t) :
    num * 2 ^ (-e).toNat / (den * 2 ^ e.toNat) < 2 ^ t := by
  refine Nat.div_lt_of_lt_mul ?_
  calc num * 2 ^ (-e).toNat
      < 2 ^ (num.log2 + 1) * 2 ^ (-e).toNat :=
        Nat.mul_lt_mul_of_pos_right Nat.lt_log2_self (Nat.two_pow_pos _)
    _ = 2 ^ (num.log2 + 1 + (-e).toNat) := (Nat.pow_add ..).symm
    _ ≤ 2 ^ (den.log2 + e.toNat + t) := Nat.pow_le_pow_right (by decide) (by omega)
    _ = 2 ^ den.log2 * 2 ^ e.toNat * 2 ^ t := by rw [Nat.pow_add, Nat.pow_add]
    _ ≤ den * 2 ^ e.toNat * 2 ^ t :=
        Nat.mul_le_mul_right _ (Nat.mul_le_mul_right _ (Nat.log2_self_le hden.ne'))

/-- The magnitude nearest to a fraction below a power of two. -/
theorem nearestMagnitude_le {num den k : Nat} (hden : 0 < den) (h : num < den * 2 ^ k) :
    nearestMagnitude num den ≤ (k + 1025) * 2 ^ 52 := by
  unfold nearestMagnitude
  split
  · exact Nat.zero_le _
  next hnum =>
  have hlog : num.log2 ≤ den.log2 + k := by
    have hlt : num < 2 ^ (den.log2 + 1 + k) := calc
      num < den * 2 ^ k := h
      _ ≤ 2 ^ (den.log2 + 1) * 2 ^ k := Nat.mul_le_mul_right _ (Nat.le_of_lt Nat.lt_log2_self)
      _ = 2 ^ (den.log2 + 1 + k) := (Nat.pow_add ..).symm
    have := (Nat.log2_lt hnum).2 hlt
    omega
  have hfloor : floorLog2 num den = (num.log2 : Int) - den.log2 ∨
      floorLog2 num den = (num.log2 : Int) - den.log2 - 1 := by
    unfold floorLog2
    dsimp only
    split
    · exact .inl rfl
    · exact .inr rfl
  refine Nat.le_trans (Nat.min_le_left _ _) ?_
  have hround := roundHalfEven_le (num * 2 ^ (-max (floorLog2 num den - 52) (-1074)).toNat)
    (den * 2 ^ (max (floorLog2 num den - 52) (-1074)).toNat)
  simp only [Nat.pow_eq]
  rcases hfloor with hfloor | hfloor
  · have hscaled := scaled_lt num (t := 53) (e := max (floorLog2 num den - 52) (-1074)) hden
      (by omega)
    omega
  · have hscaled := scaled_lt num (t := 54) (e := max (floorLog2 num den - 52) (-1074)) hden
      (by omega)
    omega

/-! ## Numbers and their magnitudes -/

/-- The magnitude of a number is the one that it was made with. -/
theorem magnitude_ofMagnitude {m : Nat} (h : m ≤ infiniteMagnitude) :
    (ofMagnitude false m).magnitude = m := by
  have hinfinite : infiniteMagnitude < 2 ^ 63 := by decide
  have hbits : (UInt64.ofNat m).toNat = m := UInt64.toNat_ofNat_of_lt' (by
    change m < 2 ^ 64
    omega)
  rw [ofMagnitude, magnitude, if_neg Bool.false_ne_true, Nat.add_zero, hbits]
  exact Nat.mod_eq_of_lt (by simpa only [Nat.pow_eq] using Nat.lt_of_le_of_lt h hinfinite)

/-- A number has a significand of 53 bits. -/
theorem significand_lt (x : Binary64) : x.significand < 2 ^ 53 := by
  have hmod := Nat.mod_lt x.magnitude (y := 2 ^ 52) (by decide)
  have hdiv := Nat.div_add_mod x.magnitude (2 ^ 52)
  rw [significand, exponentField]
  simp only [Nat.pow_eq]
  split <;> omega

/-- The exponent of a number grows with its magnitude. -/
theorem exponent_le {x : Binary64} {k : Nat} (h : x.magnitude ≤ (k + 1025) * 2 ^ 52) :
    x.exponent ≤ k - 50 := by
  have hfield : x.exponentField ≤ k + 1025 := by
    rw [exponentField]
    simp only [Nat.pow_eq]
    omega
  rw [exponent]
  omega

/-- The magnitude of the number nearest to a natural number below a power of two. -/
theorem magnitude_ofNat_le {n k : Nat} (h : n < 2 ^ k) :
    (ofNat n).magnitude ≤ (k + 1025) * 2 ^ 52 := by
  have hnearest : nearestMagnitude n 1 ≤ (k + 1025) * 2 ^ 52 :=
    nearestMagnitude_le Nat.one_pos (by rwa [Nat.one_mul])
  have hinfinite : nearestMagnitude n 1 ≤ infiniteMagnitude := by
    unfold nearestMagnitude
    split
    · exact Nat.zero_le _
    · exact Nat.min_le_right _ _
  exact (magnitude_ofMagnitude hinfinite).trans_le hnearest

/-- The product of the numbers nearest to naturals is finite as long as these have at most 1015 bits
together. -/
theorem isFinite_product {m n j k : Nat} (hm : m < 2 ^ j) (hn : n < 2 ^ k) (h : j + k ≤ 1015) :
    ((ofNat m).product (ofNat n)).isFinite = true := by
  have hx := exponent_le (magnitude_ofNat_le hm)
  have hy := exponent_le (magnitude_ofNat_le hn)
  rw [product]
  generalize ofNat m = x at *
  generalize ofNat n = y at *
  have hsignificands : x.significand * y.significand < 2 ^ 106 := calc
    x.significand * y.significand < 2 ^ 53 * 2 ^ 53 :=
      Nat.mul_lt_mul'' (significand_lt x) (significand_lt y)
    _ = 2 ^ 106 := (Nat.pow_add 2 53 53).symm
  have hfraction : x.significand * y.significand * 2 ^ (x.exponent + y.exponent).toNat <
      2 ^ (-(x.exponent + y.exponent)).toNat * 2 ^ (j + k + 6) := calc
    x.significand * y.significand * 2 ^ (x.exponent + y.exponent).toNat
      < 2 ^ 106 * 2 ^ (x.exponent + y.exponent).toNat :=
        Nat.mul_lt_mul_of_pos_right hsignificands (Nat.two_pow_pos _)
    _ = 2 ^ (106 + (x.exponent + y.exponent).toNat) := (Nat.pow_add ..).symm
    _ ≤ 2 ^ ((-(x.exponent + y.exponent)).toNat + (j + k + 6)) :=
        Nat.pow_le_pow_right (by decide) (by omega)
    _ = 2 ^ (-(x.exponent + y.exponent)).toNat * 2 ^ (j + k + 6) := Nat.pow_add ..
  have hmagnitude := nearestMagnitude_le (Nat.two_pow_pos _) hfraction
  have hinfinite : infiniteMagnitude = 2047 * 2 ^ 52 := by decide
  have hlt : nearestMagnitude (x.significand * y.significand * 2 ^ (x.exponent + y.exponent).toNat)
      (2 ^ (-(x.exponent + y.exponent)).toNat) < infiniteMagnitude := by omega
  rw [isFinite, decide_eq_true_iff]
  exact (magnitude_ofMagnitude (Nat.le_of_lt hlt)).trans_lt hlt

end EventLog.Binary64
