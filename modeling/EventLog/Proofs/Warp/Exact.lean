import EventLog.Proofs.Warp.Words

/-!
# Time warps are found exactly

`scan_exact`: the anomalies of a series are its warping entries, each once and in order, and the
report of a scan counts what was compared with what. The scan goes from entry to entry
(`mem_anomaliesFrom_cons`), so an anomaly has the values of the entry that is as far from the first
one as its index says (`mem_anomaliesFrom`).
-/

namespace EventLog

variable {tolerance : UInt64} {expected : Int}

/-! ## Going through a series -/

/-- An entry that follows another one is an anomaly if it warps; the others are found behind it. -/
theorem mem_anomaliesFrom_cons {index : Nat} {previous current : UInt64} {rest : List UInt64}
    {a : Anomaly} :
    a ∈ anomaliesFrom tolerance expected index previous (current :: rest) ↔
      (a = ⟨index, previous, current, delta previous current, expected⟩ ∧
        warps tolerance expected previous current = true) ∨
      a ∈ anomaliesFrom tolerance expected (index + 1) current rest := by
  rw [anomaliesFrom]
  split
  · next h => rw [List.mem_cons, and_iff_left h]
  · next h => rw [or_iff_right (fun ha => h ha.2)]

/-- An anomaly is not found before the index that the search starts with. -/
theorem le_of_mem_anomaliesFrom {series : List UInt64} {index : Nat} {previous : UInt64}
    {a : Anomaly} (h : a ∈ anomaliesFrom tolerance expected index previous series) :
    index ≤ a.index := by
  induction series generalizing index previous with
  | nil => cases h
  | cons current rest ih =>
    rcases mem_anomaliesFrom_cons.1 h with ⟨rfl, -⟩ | h
    · exact Nat.le_refl index
    · exact Nat.le_of_succ_le (ih h)

/-- Anomalies are found in the order of their indices, each once. -/
theorem pairwise_anomaliesFrom (index : Nat) (previous : UInt64) (series : List UInt64) :
    (anomaliesFrom tolerance expected index previous series).Pairwise
      fun a b => a.index < b.index := by
  induction series generalizing index previous with
  | nil => exact List.Pairwise.nil
  | cons current rest ih =>
    rw [anomaliesFrom]
    split
    · exact List.pairwise_cons.2 ⟨fun a ha => le_of_mem_anomaliesFrom ha, ih (index + 1) current⟩
    · exact ih (index + 1) current

/-- The anomalies behind an entry are the warping entries there, with their values. -/
theorem mem_anomaliesFrom {series : List UInt64} {index : Nat} {previous : UInt64} {a : Anomaly} :
    a ∈ anomaliesFrom tolerance expected index previous series ↔
      ∃ i, a.index = index + i ∧ (previous :: series)[i]? = some a.previous ∧
        series[i]? = some a.current ∧ a.observed = delta a.previous a.current ∧
        a.expected = expected ∧ warps tolerance expected a.previous a.current = true := by
  induction series generalizing index previous with
  | nil => simp [anomaliesFrom]
  | cons current rest ih =>
    rw [mem_anomaliesFrom_cons, ih]
    constructor
    · rintro (⟨rfl, hw⟩ | ⟨i, hi, hvalues⟩)
      · exact ⟨0, rfl, rfl, rfl, rfl, rfl, hw⟩
      · exact ⟨i + 1, by omega, hvalues⟩
    · rintro ⟨_ | i, hi, hp, hc, ho, he, hw⟩
      · cases hp
        cases hc
        refine .inl ⟨?_, hw⟩
        rw [Anomaly.mk.injEq]
        exact ⟨hi, rfl, rfl, ho, he⟩
      · exact .inr ⟨i, by omega, hp, hc, ho, he, hw⟩

/-! ## What is checked -/

/-- How many entries of a series of some length are checked. -/
def WarpSettings.checkedLength (settings : WarpSettings) (length : Nat) : Nat :=
  match settings.scanLimit with
  | none => length
  | some limit => min length limit.toNat

/-- The checked part of a series is its beginning of that length. -/
theorem checked_eq_take (settings : WarpSettings) (series : List UInt64) :
    settings.checked series = series.take (settings.checkedLength series.length) := by
  unfold WarpSettings.checked WarpSettings.checkedLength
  cases settings.scanLimit with
  | none => exact List.take_length.symm
  | some limit => exact List.take_eq_take_min.trans (by rw [Nat.min_comm])

/-- No more entries are checked than there are. -/
theorem checkedLength_le (settings : WarpSettings) (length : Nat) :
    settings.checkedLength length ≤ length := by
  unfold WarpSettings.checkedLength
  cases settings.scanLimit with
  | none => exact Nat.le_refl length
  | some limit => exact Nat.min_le_left ..

/-- The number of checked entries. -/
theorem length_checked (settings : WarpSettings) (series : List UInt64) :
    (settings.checked series).length = settings.checkedLength series.length := by
  rw [checked_eq_take, List.length_take_of_le (checkedLength_le settings series.length)]

/-- The checked entries are entries of the series. -/
theorem getElem?_checked (settings : WarpSettings) (series : List UInt64) (i : Nat) (x : UInt64) :
    (settings.checked series)[i]? = some x ↔
      i < settings.checkedLength series.length ∧ series[i]? = some x := by
  rw [checked_eq_take, List.getElem?_take]
  split
  · next h => exact (and_iff_right h).symm
  · next h => exact ⟨nofun, fun hi => absurd hi.1 h⟩

/-! ## The expected step -/

/-- A step is expected if there are two entries, and it is the one between them. -/
theorem expectedStep?_eq_some {series : List UInt64} {step : Int} :
    expectedStep? series = some step ↔
      ∃ first second, series[0]? = some first ∧ series[1]? = some second ∧
        step = delta first second := by
  rcases series with _ | ⟨first, _ | ⟨second, rest⟩⟩
  · simp [expectedStep?]
  · simp [expectedStep?]
  · simp [expectedStep?, eq_comm]

/-- The anomalies of a series are the warping entries that are checked. -/
theorem mem_detect_checked {settings : WarpSettings} {series : List UInt64} {a : Anomaly} :
    a ∈ detect settings series ↔
      1 ≤ a.index ∧ (settings.checked series)[a.index - 1]? = some a.previous ∧
        (settings.checked series)[a.index]? = some a.current ∧
        a.observed = delta a.previous a.current ∧
        expectedStep? (settings.checked series) = some a.expected ∧
        warps settings.tolerance a.expected a.previous a.current = true := by
  unfold detect
  rcases settings.checked series with _ | ⟨first, _ | ⟨second, rest⟩⟩
  · simp [expectedStep?]
  · simp [expectedStep?]
  · rw [mem_anomaliesFrom, expectedStep?, Option.some.injEq]
    constructor
    · rintro ⟨i, hi, hp, hc, ho, he, hw⟩
      rw [hi, Nat.add_comm 1 i]
      exact ⟨Nat.le_add_left 1 i, hp, hc, ho, he.symm, he ▸ hw⟩
    · rintro ⟨hi, hp, hc, ho, he, hw⟩
      obtain ⟨i, hi⟩ := Nat.exists_eq_add_of_le hi
      rw [hi, Nat.add_comm 1 i] at hp hc
      exact ⟨i, hi, hp, hc, ho, he.symm, he ▸ hw⟩

/-- The step that is expected of the checked entries is the first one of the series. -/
theorem expectedStep?_checked {settings : WarpSettings} {series : List UInt64} {step : Int} :
    expectedStep? (settings.checked series) = some step ↔
      2 ≤ settings.checkedLength series.length ∧ ∃ first second, series[0]? = some first ∧
        series[1]? = some second ∧ step = delta first second := by
  simp only [expectedStep?_eq_some, getElem?_checked]
  constructor
  · rintro ⟨first, second, ⟨-, hfirst⟩, ⟨hlen, hsecond⟩, hstep⟩
    exact ⟨hlen, first, second, hfirst, hsecond, hstep⟩
  · rintro ⟨hlen, first, second, hfirst, hsecond, hstep⟩
    exact ⟨first, second, ⟨Nat.lt_of_succ_lt hlen, hfirst⟩, ⟨hlen, hsecond⟩, hstep⟩

/-! ## The report of a scan -/

/-- An anomaly says of an entry of a series what stands there, and by how much it differs from the
one before it, over the integers. -/
structure Anomaly.Describes (series : List UInt64) (a : Anomaly) : Prop where
  index_pos : 1 ≤ a.index
  previous : series[a.index - 1]? = some a.previous
  current : series[a.index]? = some a.current
  observed : a.observed = (a.current.toNat : Int) - a.previous.toNat
  expected : ∃ first second, series[0]? = some first ∧ series[1]? = some second ∧
    a.expected = (second.toNat : Int) - first.toNat

/-- The anomalies of a series are descriptions of the checked entries that deviate by more than the
tolerance from the first step, and are larger than it. -/
theorem mem_detect {settings : WarpSettings} {series : List UInt64} {a : Anomaly} :
    a ∈ detect settings series ↔
      a.Describes series ∧ a.index < settings.checkedLength series.length ∧
        settings.tolerance.toNat < (a.observed - a.expected).natAbs ∧
        a.expected < a.current.toNat := by
  rw [mem_detect_checked, getElem?_checked, getElem?_checked, expectedStep?_checked, warps,
    Bool.and_eq_true, decide_eq_true_iff, decide_eq_true_iff]
  constructor
  · rintro ⟨hpos, ⟨-, hp⟩, ⟨hlt, hc⟩, ho, ⟨-, he⟩, hoff, hpast⟩
    rw [ho]
    exact ⟨⟨hpos, hp, hc, ho, he⟩, hlt, hoff, hpast⟩
  · rintro ⟨⟨hpos, hp, hc, ho, he⟩, hlt, hoff, hpast⟩
    rw [ho] at hoff
    exact ⟨hpos, ⟨Nat.lt_of_le_of_lt (Nat.sub_le ..) hlt, hp⟩, ⟨hlt, hc⟩, ho,
      ⟨Nat.lt_of_le_of_lt hpos hlt, he⟩, hoff, hpast⟩

/-- Anomalies are in the order of their indices, each once. -/
theorem pairwise_detect (settings : WarpSettings) (series : List UInt64) :
    (detect settings series).Pairwise fun a b => a.index < b.index := by
  unfold detect
  split
  · exact pairwise_anomaliesFrom ..
  · exact List.Pairwise.nil

/-- All anomalies of a report were compared with its step. -/
theorem expected_of_mem_scan {settings : WarpSettings} {series : List UInt64} {a : Anomaly}
    (h : a ∈ (scan settings series).anomalies) :
    (scan settings series).expected = some a.expected :=
  (mem_detect_checked.1 h).2.2.2.2.1

/-- There are no anomalies without a step. -/
theorem anomalies_eq_nil_of_expected {settings : WarpSettings} {series : List UInt64}
    (h : (scan settings series).expected = none) : (scan settings series).anomalies = [] := by
  refine List.eq_nil_iff_forall_not_mem.2 fun a ha => ?_
  rw [expected_of_mem_scan ha] at h
  cases h

/-- A scan finds exactly the warping entries, in order and each once, without overflowing, and its
report agrees with them: it counts all entries and the checked ones, and has the first step if two
entries were checked, which is the step every anomaly was compared with. -/
theorem scan_exact (settings : WarpSettings) (series : List UInt64) :
    ((detect settings series).Pairwise fun a b => a.index < b.index) ∧
      (∀ a, a ∈ detect settings series ↔
        a.Describes series ∧ a.index < settings.checkedLength series.length ∧
          settings.tolerance.toNat < (a.observed - a.expected).natAbs ∧
          a.expected < a.current.toNat) ∧
      (∀ first second previous current, ExactInWords first second previous current) ∧
      (scan settings series).parsed = series.length ∧
      (scan settings series).checked = settings.checkedLength series.length ∧
      settings.checkedLength series.length ≤ series.length ∧
      (∀ step, (scan settings series).expected = some step ↔
        2 ≤ settings.checkedLength series.length ∧ ∃ first second, series[0]? = some first ∧
          series[1]? = some second ∧ step = (second.toNat : Int) - first.toNat) ∧
      (scan settings series).anomalies = detect settings series ∧
      (∀ a ∈ (scan settings series).anomalies, (scan settings series).expected = some a.expected) ∧
      ((scan settings series).expected = none → (scan settings series).anomalies = []) := by
  refine ⟨pairwise_detect settings series, fun a => mem_detect, exactInWords, rfl,
    length_checked settings series, checkedLength_le settings series.length,
    fun step => expectedStep?_checked, rfl, fun a => expected_of_mem_scan, fun hnone => ?_⟩
  exact anomalies_eq_nil_of_expected hnone

end EventLog
