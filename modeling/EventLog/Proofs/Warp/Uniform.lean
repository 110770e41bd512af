import Mathlib.Data.List.Chain
import Mathlib.Data.List.Range
import EventLog.Proofs.Warp.Exact

/-!
# Clocks that never warp

`detect_uniform`: a clock that goes on by the same step is never reported, neither while it runs on
nor where it wraps, whatever its size. A scan finds nothing exactly if no two neighbours among the
checked entries warp (`detect_eq_nil`), and two neighbours do not warp if they keep to the step, or
if the second one is not larger than the step (`KeepsTo`). A counter that wraps is of the second
kind: it stood below its modulus, so what the step carries it to behind the modulus is less than the
step (`counter_succ`). The number of wraps plays no part, since only neighbours are compared.
-/

namespace EventLog

/-! ## Scans that find nothing -/

/-- Nothing is found behind an entry exactly if no two neighbours warp. -/
theorem anomaliesFrom_eq_nil {tolerance : UInt64} {expected : Int} (index : Nat) (previous : UInt64)
    (series : List UInt64) :
    anomaliesFrom tolerance expected index previous series = [] ↔
      (previous :: series).IsChain fun p c => warps tolerance expected p c = false := by
  induction series generalizing index previous with
  | nil => simp [anomaliesFrom]
  | cons current rest ih =>
    rw [List.isChain_cons_cons, ← ih (index + 1) current, anomaliesFrom]
    split
    · next h => simp [h]
    · next h => simp [h]

/-- A scan finds nothing exactly if no two neighbours among the checked entries warp. -/
theorem detect_eq_nil {settings : WarpSettings} {series : List UInt64} :
    detect settings series = [] ↔
      ∀ step, expectedStep? (settings.checked series) = some step →
        (settings.checked series).IsChain fun p c => warps settings.tolerance step p c = false := by
  unfold detect
  rcases settings.checked series with _ | ⟨first, _ | ⟨second, rest⟩⟩
  · simp [expectedStep?]
  · simp [expectedStep?]
  · simp [expectedStep?, anomaliesFrom_eq_nil]

/-- Neighbours that keep to a step, or of which the second is not larger than the step. -/
def KeepsTo (step : Int) (previous current : UInt64) : Prop :=
  delta previous current = step ∨ (current.toNat : Int) ≤ step

theorem KeepsTo.warps_eq_false {step : Int} {previous current : UInt64}
    (h : KeepsTo step previous current) (tolerance : UInt64) :
    warps tolerance step previous current = false := by
  rw [warps, Bool.and_eq_false_iff, decide_eq_false_iff_not, decide_eq_false_iff_not]
  rcases h with h | h
  · left
    rw [h, Int.sub_self]
    exact Nat.not_lt_zero _
  · right
    exact Int.not_lt.2 h

/-- A series whose neighbours keep to its first step has no anomaly, however much is checked. -/
theorem detect_eq_nil_of_keepsTo {series : List UInt64} (step : Int)
    (hstep : ∀ first, expectedStep? series = some first → first = step)
    (h : series.IsChain (KeepsTo step)) (settings : WarpSettings) :
    detect settings series = [] := by
  refine detect_eq_nil.2 fun expected hexpected => ?_
  obtain ⟨-, first, second, hfirst, hsecond, hdelta⟩ := expectedStep?_checked.1 hexpected
  obtain rfl := hstep expected (expectedStep?_eq_some.2 ⟨first, second, hfirst, hsecond, hdelta⟩)
  rw [checked_eq_take]
  exact (h.take _).imp fun _ _ hkeeps => hkeeps.warps_eq_false settings.tolerance

/-! ## Clocks -/

/-- The first readings of a clock, by the number that it shows at each tick. -/
def readings (clock : Nat → Nat) (length : Nat) : List UInt64 :=
  (List.range length).map fun tick => UInt64.ofNat (clock tick)

/-- A counter that starts somewhere, is raised by a step at each tick, and wraps at a modulus. -/
def counter (modulus start step : Nat) (tick : Nat) : Nat :=
  (start + tick * step) % modulus

/-- A clock that starts somewhere and goes on by a step, which may be negative. -/
def progression (start step : Int) (tick : Nat) : Nat :=
  (start + tick * step).toNat

/-- A reading is the word of what the clock shows then. -/
theorem getElem?_readings {clock : Nat → Nat} {length tick : Nat} {reading : UInt64} :
    (readings clock length)[tick]? = some reading ↔
      tick < length ∧ reading = UInt64.ofNat (clock tick) := by
  rw [readings, List.getElem?_eq_some_iff]
  simp [eq_comm]

/-- A clock that fits words, and of which each reading is the first step behind the one before it or
not larger than that step, has no anomaly. -/
theorem detect_readings {clock : Nat → Nat} {length : Nat} {step : Int}
    (hfits : ∀ tick < length, clock tick < 2 ^ 64)
    (hfirst : 1 < length → (clock 1 : Int) - clock 0 = step)
    (hnext : ∀ tick, tick + 1 < length →
      (clock (tick + 1) : Int) - clock tick = step ∨ (clock (tick + 1) : Int) ≤ step)
    (settings : WarpSettings) : detect settings (readings clock length) = [] := by
  have htoNat : ∀ tick < length, (UInt64.ofNat (clock tick)).toNat = clock tick :=
    fun tick htick => UInt64.toNat_ofNat_of_lt' (hfits tick htick)
  refine detect_eq_nil_of_keepsTo step (fun expected hexpected => ?_) ?_ settings
  · obtain ⟨first, second, h0, h1, rfl⟩ := expectedStep?_eq_some.1 hexpected
    obtain ⟨hpos, rfl⟩ := getElem?_readings.1 h0
    obtain ⟨hlength, rfl⟩ := getElem?_readings.1 h1
    rw [delta, htoNat 0 hpos, htoNat 1 hlength, hfirst hlength]
  · rw [readings, List.isChain_map, List.isChain_range]
    intro tick htick
    have hlater : tick + 1 < length := by omega
    rw [KeepsTo, delta, htoNat tick (Nat.lt_of_succ_lt hlater), htoNat (tick + 1) hlater]
    exact hnext tick hlater

/-- Where a counter does not stand a step behind its last reading, it has wrapped, and then it is
less than the step: it stood below the modulus. -/
theorem counter_succ {modulus start step : Nat} (h : start + step < modulus) (tick : Nat) :
    counter modulus start step (tick + 1) = counter modulus start step tick + step ∨
      counter modulus start step (tick + 1) < step := by
  have hbelow : counter modulus start step tick < modulus := Nat.mod_lt _ (by omega)
  have hnext : counter modulus start step (tick + 1) =
      (counter modulus start step tick + step) % modulus := by
    rw [counter, counter, Nat.mod_add_mod, Nat.succ_mul, Nat.add_assoc]
  rcases Nat.lt_or_ge (counter modulus start step tick + step) modulus with hfits | hwraps
  · left
    rw [hnext, Nat.mod_eq_of_lt hfits]
  · right
    rw [hnext, Nat.mod_eq_sub_mod hwraps, Nat.mod_eq_of_lt (by omega)]
    omega

/-- A counter that goes on by a step modulo its size is never reported, if its first interval does
not wrap yet, however large it is, however long the series, and however often it wraps. No more is a
clock that goes on by a step in either direction, for as long as it shows a word. -/
theorem detect_uniform (settings : WarpSettings) (length : Nat) :
    (∀ modulus start step : Nat, modulus ≤ 2 ^ 64 → start + step < modulus →
        detect settings (readings (counter modulus start step) length) = []) ∧
      ∀ start step : Int,
        (∀ tick < length, 0 ≤ start + tick * step ∧ start + tick * step < 2 ^ 64) →
        detect settings (readings (progression start step) length) = [] := by
  refine ⟨fun modulus start step hmodulus hstart => ?_, fun start step hwords => ?_⟩
  · have hfits : ∀ tick < length, counter modulus start step tick < 2 ^ 64 := fun tick _ =>
      Nat.lt_of_lt_of_le (Nat.mod_lt _ (by omega)) hmodulus
    have hfirst : (counter modulus start step 1 : Int) - counter modulus start step 0 = step := by
      rw [counter, counter, Nat.one_mul, Nat.zero_mul, Nat.mod_eq_of_lt hstart,
        Nat.mod_eq_of_lt (by omega)]
      omega
    refine detect_readings hfits (fun _ => hfirst) (fun tick _ => ?_) settings
    rcases counter_succ hstart tick with hnext | hnext
    · exact .inl (by omega)
    · exact .inr (by omega)
  · have hshows : ∀ tick < length, (progression start step tick : Int) = start + tick * step :=
      fun tick htick => Int.toNat_of_nonneg (hwords tick htick).1
    have hfits : ∀ tick < length, progression start step tick < 2 ^ 64 := fun tick htick => by
      have hword := (hwords tick htick).2
      rw [← hshows tick htick] at hword
      exact_mod_cast hword
    have hnext : ∀ tick, tick + 1 < length →
        (progression start step (tick + 1) : Int) - progression start step tick = step := by
      intro tick htick
      rw [hshows tick (Nat.lt_of_succ_lt htick), hshows (tick + 1) htick]
      push_cast
      rw [Int.add_mul]
      omega
    exact detect_readings hfits (fun h => hnext 0 h) (fun tick h => .inl (hnext tick h)) settings

/-- A counter of one byte that wraps twice, and a clock that runs backwards to zero. -/
theorem detect_uniform_byte :
    readings (counter 256 100 50) 11 = [100, 150, 200, 250, 44, 94, 144, 194, 244, 38, 88] ∧
      detect ⟨0, none⟩ (readings (counter 256 100 50) 11) = [] ∧
      readings (progression 20 (-5)) 5 = [20, 15, 10, 5, 0] ∧
      detect ⟨0, none⟩ (readings (progression 20 (-5)) 5) = [] := by
  have hcounter := (detect_uniform ⟨0, none⟩ 11).1 256 100 50 (by decide) (by decide)
  have hbackward := (detect_uniform ⟨0, none⟩ 5).2 20 (-5) (by decide)
  exact ⟨by decide, hcounter, by decide, hbackward⟩

end EventLog
