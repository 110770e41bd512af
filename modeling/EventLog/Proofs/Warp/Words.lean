import Mathlib.Algebra.Order.Ring.Int
import EventLog.Warp

/-!
# Time warps in words

The scan subtracts timestamps in signed words of 128 bits and compares deviations as unsigned ones.
No operation of it overflows, at either end of the range of timestamps (`exactInWords`), so the
words hold the integers of `delta` and `warps`.
-/

namespace EventLog

/-! ## Operations on words -/

/-- The bits of a word that differences are computed in. -/
def wordSize : Nat := 128

/-- A timestamp as a word. -/
def wide (n : UInt64) : BitVec wordSize :=
  n.toBitVec.setWidth wordSize

/-- The difference between two timestamps as a signed word. -/
def wideDelta (previous current : UInt64) : BitVec wordSize :=
  wide current - wide previous

/-- The size of the deviation of a step from the expected one, as an unsigned word. -/
def wideDeviation (expected observed : BitVec wordSize) : BitVec wordSize :=
  (observed - expected).abs

/-- Whether a timestamp behind another one warps against an expected step, decided on words. -/
def wideWarps (tolerance : UInt64) (expected : BitVec wordSize) (previous current : UInt64) :
    Bool :=
  (wide tolerance).ult (wideDeviation expected (wideDelta previous current)) &&
    expected.slt (wide current)

/-! ## What words hold -/

/-- The word of a timestamp holds it. -/
@[simp]
theorem toNat_wide (n : UInt64) : (wide n).toNat = n.toNat :=
  BitVec.toNat_setWidth_of_le (by decide)

/-- The word of a timestamp holds it as a signed word. -/
@[simp]
theorem toInt_wide (n : UInt64) : (wide n).toInt = n.toNat := by
  have h := n.toNat_lt
  rw [BitVec.toInt_eq_toNat_of_lt (by rw [toNat_wide, wordSize]; omega), toNat_wide]

/-- A difference lies between those of the ends of the range. -/
theorem delta_bounds (previous current : UInt64) :
    -2 ^ 64 < delta previous current ∧ delta previous current < 2 ^ 64 := by
  have hprevious := previous.toNat_lt
  have hcurrent := current.toNat_lt
  rw [delta]
  omega

/-- No difference overflows. -/
theorem ssubOverflow_wide (previous current : UInt64) :
    (wide current).ssubOverflow (wide previous) = false := by
  have h := delta_bounds previous current
  rw [delta] at h
  rw [BitVec.ssubOverflow, toInt_wide, toInt_wide, wordSize, Bool.or_eq_false_iff]
  exact ⟨decide_eq_false (by omega), decide_eq_false (by omega)⟩

/-- The difference of words holds that of timestamps. -/
@[simp]
theorem toInt_wideDelta (previous current : UInt64) :
    (wideDelta previous current).toInt = delta previous current := by
  have h := ssubOverflow_wide previous current
  rw [wideDelta, BitVec.toInt_sub_of_not_ssubOverflow (by rw [h]; decide), toInt_wide, toInt_wide]
  rfl

/-- What is computed on words for a timestamp behind another one, against the step between two more,
does not overflow and is exact. -/
structure ExactInWords (first second previous current : UInt64) : Prop where
  delta_fits : (wide current).ssubOverflow (wide previous) = false
  delta_exact : (wideDelta previous current).toInt = delta previous current
  deviation_fits : (wideDelta previous current).ssubOverflow (wideDelta first second) = false
  deviation_exact : (wideDeviation (wideDelta first second) (wideDelta previous current)).toNat =
    (delta previous current - delta first second).natAbs
  warps_exact : ∀ tolerance, wideWarps tolerance (wideDelta first second) previous current =
    warps tolerance (delta first second) previous current

/-- No deviation of steps overflows. -/
theorem ssubOverflow_wideDelta (first second previous current : UInt64) :
    (wideDelta previous current).ssubOverflow (wideDelta first second) = false := by
  have hexpected := delta_bounds first second
  have hobserved := delta_bounds previous current
  rw [BitVec.ssubOverflow, toInt_wideDelta, toInt_wideDelta, wordSize, Bool.or_eq_false_iff]
  exact ⟨decide_eq_false (by omega), decide_eq_false (by omega)⟩

/-- The size of the deviation of steps is held by its word. -/
theorem toNat_wideDeviation (first second previous current : UInt64) :
    (wideDeviation (wideDelta first second) (wideDelta previous current)).toNat =
      (delta previous current - delta first second).natAbs := by
  have hsub := ssubOverflow_wideDelta first second previous current
  have hdeviation : (wideDelta previous current - wideDelta first second).toInt =
      delta previous current - delta first second := by
    rw [BitVec.toInt_sub_of_not_ssubOverflow (by rw [hsub]; decide), toInt_wideDelta,
      toInt_wideDelta]
  rw [wideDeviation, ← hdeviation, BitVec.toNat_abs, BitVec.toInt_eq_msb_cond]
  split
  · omega
  · omega

/-- Words are exact over the full range of timestamps. -/
theorem exactInWords (first second previous current : UInt64) :
    ExactInWords first second previous current where
  delta_fits := ssubOverflow_wide previous current
  delta_exact := toInt_wideDelta previous current
  deviation_fits := ssubOverflow_wideDelta first second previous current
  deviation_exact := toNat_wideDeviation first second previous current
  warps_exact := fun tolerance => by
    rw [wideWarps, warps, BitVec.ult_eq_decide, BitVec.slt_eq_decide, toNat_wide, toInt_wide,
      toNat_wideDeviation, toInt_wideDelta]

end EventLog
