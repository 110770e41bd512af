import EventLog.Proofs.Warp.Exact

/-!
# What the condition on overflows hides

An entry that deviates from the first step is not reported if its timestamp is not larger than that
step. `hidden_iff_lowLanding` says which entries this hides: those that deviate to the slow or
backward side and land on a timestamp between zero and the step, and no others. It rests on one
comparison (`step_lt_current_of_lt_delta`): timestamps are not negative, so a timestamp is at least
as large as the interval in front of it, and where that is larger than the step, so is the
timestamp. A step below zero is smaller than every timestamp, and then nothing is hidden.
-/

namespace EventLog

/-- A checked entry of a series that is not the first: its index, the timestamp in front of it and
its own, and the first step of the series, over the integers. -/
structure CheckedEntry (settings : WarpSettings) (series : List UInt64) (index : Nat)
    (previous current : UInt64) (step : Int) : Prop where
  index_pos : 1 ≤ index
  checked : index < settings.checkedLength series.length
  previous : series[index - 1]? = some previous
  current : series[index]? = some current
  step : ∃ first second, series[0]? = some first ∧ series[1]? = some second ∧
    step = (second.toNat : Int) - first.toNat

/-- The report of a scan has an anomaly with an index. -/
def Reported (settings : WarpSettings) (series : List UInt64) (index : Nat) : Prop :=
  ∃ a ∈ (scan settings series).anomalies, a.index = index

/-- An interval deviates from a step by more than the tolerance. -/
def OffSchedule (tolerance : UInt64) (step : Int) (previous current : UInt64) : Prop :=
  tolerance.toNat < (delta previous current - step).natAbs

section
variable {settings : WarpSettings} {series : List UInt64} {index : Nat} {previous current : UInt64}
  {step : Int}

/-- What is reported of a checked entry is what stands there. -/
theorem CheckedEntry.anomaly_eq (h : CheckedEntry settings series index previous current step)
    {a : Anomaly} (ha : a ∈ (scan settings series).anomalies) (hindex : a.index = index) :
    a = ⟨index, previous, current, delta previous current, step⟩ := by
  obtain ⟨⟨-, hprevious, hcurrent, hobserved, first, second, hfirst, hsecond, hexpected⟩, -⟩ :=
    mem_detect.1 ha
  obtain ⟨first', second', hfirst', hsecond', hstep⟩ := h.step
  rw [hindex, h.previous, Option.some.injEq] at hprevious
  rw [hindex, h.current, Option.some.injEq] at hcurrent
  rw [hfirst', Option.some.injEq] at hfirst
  rw [hsecond', Option.some.injEq] at hsecond
  subst hfirst hsecond
  rw [Anomaly.mk.injEq]
  refine ⟨hindex, hprevious.symm, hcurrent.symm, ?_, hexpected.trans hstep.symm⟩
  rw [hobserved, ← hprevious, ← hcurrent, delta]

/-- A checked entry is reported if it is off schedule and its timestamp is larger than the step. -/
theorem CheckedEntry.reported_iff (h : CheckedEntry settings series index previous current step) :
    Reported settings series index ↔
      OffSchedule settings.tolerance step previous current ∧ step < current.toNat := by
  constructor
  · rintro ⟨a, ha, hindex⟩
    obtain ⟨-, -, hoff, hpast⟩ := mem_detect.1 ha
    obtain rfl := h.anomaly_eq ha hindex
    exact ⟨hoff, hpast⟩
  · rintro ⟨hoff, hpast⟩
    refine ⟨⟨index, previous, current, delta previous current, step⟩, mem_detect.2 ?_, rfl⟩
    exact ⟨⟨h.index_pos, h.previous, h.current, rfl, h.step⟩, h.checked, hoff, hpast⟩

/-- Where an interval is larger than the step, so is the timestamp behind it. -/
theorem step_lt_current_of_lt_delta (h : step < delta previous current) :
    step < current.toNat := by
  rw [delta] at h
  omega

/-- No entry with a forward deviation is hidden, however its timestamp compares to the step, and the
entries off schedule that are hidden are those with a slow or backward deviation and a timestamp
between zero and the step. So a series that begins with a step backward hides no entry at all. What
is reported of an entry is its index, both timestamps and both differences. -/
theorem hidden_iff_lowLanding
    (h : CheckedEntry settings series index previous current step) :
    (step + settings.tolerance.toNat < delta previous current →
        Reported settings series index) ∧
      (OffSchedule settings.tolerance step previous current ∧ ¬ Reported settings series index ↔
        delta previous current < step - settings.tolerance.toNat ∧
          0 ≤ (current.toNat : Int) ∧ (current.toNat : Int) ≤ step) ∧
      (step < 0 → (Reported settings series index ↔
        OffSchedule settings.tolerance step previous current)) ∧
      ∀ a ∈ (scan settings series).anomalies, a.index = index →
        a = ⟨index, previous, current, delta previous current, step⟩ := by
  have hreported := h.reported_iff
  refine ⟨fun hforward => ?_, ?_, fun hnegative => ?_, fun a ha => h.anomaly_eq ha⟩
  · have hlarger : step < delta previous current := by omega
    refine hreported.2 ⟨?_, step_lt_current_of_lt_delta hlarger⟩
    rw [OffSchedule]
    omega
  · rw [hreported, OffSchedule]
    constructor
    · rintro ⟨hoff, hhidden⟩
      have hlow : ¬ step < current.toNat := fun hpast => hhidden ⟨hoff, hpast⟩
      have hnotForward : ¬ step < delta previous current :=
        mt step_lt_current_of_lt_delta hlow
      omega
    · rintro ⟨hslow, -, hlow⟩
      exact ⟨by omega, fun hreport => by omega⟩
  · exact hreported.trans (and_iff_left (by omega))

end

/-- A series with a step of a hundred, which falls behind, lands below the step and jumps ahead. -/
def seriesWithDip : List UInt64 := [0, 100, 150, 60, 500]

/-- Of its entries off schedule, the one that lands below the step is hidden. The one before it is
slow as well, but its timestamp is larger than the step. -/
theorem hidden_iff_lowLanding_dip :
    CheckedEntry .default seriesWithDip 3 150 60 100 ∧
      (OffSchedule 10 100 150 60 ∧ ¬ Reported .default seriesWithDip 3) ∧
      CheckedEntry .default seriesWithDip 2 100 150 100 ∧ Reported .default seriesWithDip 2 ∧
      CheckedEntry .default seriesWithDip 4 60 500 100 ∧ Reported .default seriesWithDip 4 := by
  have hdip : CheckedEntry .default seriesWithDip 3 150 60 100 :=
    ⟨by decide, by decide, rfl, rfl, 0, 100, rfl, rfl, rfl⟩
  have hslow : CheckedEntry .default seriesWithDip 2 100 150 100 :=
    ⟨by decide, by decide, rfl, rfl, 0, 100, rfl, rfl, rfl⟩
  have hahead : CheckedEntry .default seriesWithDip 4 60 500 100 :=
    ⟨by decide, by decide, rfl, rfl, 0, 100, rfl, rfl, rfl⟩
  obtain ⟨-, hhidden, -⟩ := hidden_iff_lowLanding hdip
  obtain ⟨hforward, -⟩ := hidden_iff_lowLanding hahead
  exact ⟨hdip, hhidden.2 ⟨by decide, by decide, by decide⟩, hslow, ⟨_, .head _, rfl⟩, hahead,
    hforward (by decide)⟩

end EventLog
