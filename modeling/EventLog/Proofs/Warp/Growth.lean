import Mathlib.Data.List.Sort
import EventLog.Proofs.Warp.Exact

/-!
# Limits, tolerances and longer series

`detect_consistent`: the settings of a scan only select among the anomalies of a series, and entries
that are appended to a series leave what was found before them as it is. Anomalies are in the order
of their indices, so a scan is determined by which anomalies it has (`detect_eq_filter`), and that
is settled entry by entry: the entries that are described, and the step they are compared with, are
the same in a series, in the part of it that is checked, and in a series that goes on behind it
(`Anomaly.describes_append`), as long as there are two entries to take the step from.
-/

namespace EventLog

/-! ## Anomalies in order -/

/-- An anomaly comes before another one. -/
def Anomaly.Before (a b : Anomaly) : Prop := a.index < b.index

instance : Std.Irrefl Anomaly.Before := ⟨fun a => Nat.lt_irrefl a.index⟩

instance : Std.Antisymm Anomaly.Before := ⟨fun _ _ h h' => absurd h' (Nat.lt_asymm h)⟩

/-- A scan is what another one has of some kind, if it has exactly the anomalies of that kind. -/
theorem detect_eq_filter {settings settings' : WarpSettings} {series series' : List UInt64}
    {p : Anomaly → Bool}
    (h : ∀ a, a ∈ detect settings series ↔ a ∈ detect settings' series' ∧ p a = true) :
    detect settings series = (detect settings' series').filter p := by
  have hsorted : (detect settings series).Pairwise Anomaly.Before := pairwise_detect settings series
  have hfiltered : ((detect settings' series').filter p).Pairwise Anomaly.Before :=
    (pairwise_detect settings' series').filter p
  exact hsorted.eq_of_mem_iff hfiltered fun a => by rw [h, List.mem_filter]

/-- The anomalies up to an index come first. -/
theorem filter_index_isPrefix {anomalies : List Anomaly} (h : anomalies.Pairwise Anomaly.Before)
    (bound : Nat) : anomalies.filter (·.index < bound) <+: anomalies := by
  induction h with
  | nil => exact List.prefix_refl []
  | @cons a rest hrest _ ih =>
    rw [List.filter_cons]
    split
    · exact (List.prefix_cons_inj a).2 ih
    · next ha =>
      -- what follows has larger indices still
      have hnone : rest.filter (·.index < bound) = [] := by
        refine List.filter_eq_nil_iff.2 fun b hb => ?_
        have hlt : a.index < b.index := hrest b hb
        simp only [decide_eq_true_eq] at ha ⊢
        omega
      rw [hnone]
      exact List.nil_prefix

/-! ## Longer series -/

/-- Behind two entries, a series may go on without changing what is said of its entries. -/
theorem Anomaly.describes_append {series : List UInt64} (hlength : 2 ≤ series.length)
    (later : List UInt64) {a : Anomaly} (hindex : a.index < series.length) :
    a.Describes (series ++ later) ↔ a.Describes series := by
  have hget : ∀ i < series.length, (series ++ later)[i]? = series[i]? :=
    fun i hi => List.getElem?_append_left hi
  constructor
  · rintro ⟨hpos, hprevious, hcurrent, hobserved, hstep⟩
    rw [hget 0 (by omega), hget 1 hlength] at hstep
    rw [hget _ (by omega)] at hprevious hcurrent
    exact ⟨hpos, hprevious, hcurrent, hobserved, hstep⟩
  · rintro ⟨hpos, hprevious, hcurrent, hobserved, hstep⟩
    rw [← hget 0 (by omega), ← hget 1 hlength] at hstep
    rw [← hget _ (by omega)] at hprevious hcurrent
    exact ⟨hpos, hprevious, hcurrent, hobserved, hstep⟩

/-- The checked entries are those before the end and before the limit. -/
theorem lt_checkedLength {settings : WarpSettings} {index length : Nat} :
    index < settings.checkedLength length ↔
      index < length ∧ settings.scanLimit.all (index < ·.toNat) = true := by
  unfold WarpSettings.checkedLength
  cases settings.scanLimit with
  | none => simp
  | some limit => simp

/-! ## Scans compared -/

section
variable {series later : List UInt64} {tolerance larger : UInt64}

/-- The settings select the anomalies before the limit that deviate by more than the tolerance. -/
theorem detect_eq_filter_settings (h : tolerance ≤ larger) (limit : Option UInt64) :
    detect ⟨larger, limit⟩ series = (detect ⟨tolerance, none⟩ series).filter fun a =>
      limit.all (a.index < ·.toNat) ∧ larger.toNat < (a.observed - a.expected).natAbs := by
  rw [UInt64.le_iff_toNat_le] at h
  refine detect_eq_filter fun a => ?_
  simp only [mem_detect, lt_checkedLength, Option.all_none, decide_eq_true_eq, and_true]
  constructor
  · rintro ⟨hdescribes, ⟨hend, hlimit⟩, hoff, hpast⟩
    exact ⟨⟨hdescribes, hend, Nat.lt_of_le_of_lt h hoff, hpast⟩, hlimit, hoff⟩
  · rintro ⟨⟨hdescribes, hend, -, hpast⟩, hlimit, hoff⟩
    exact ⟨hdescribes, ⟨hend, hlimit⟩, hoff, hpast⟩

/-- What is found in a longer series before the end of the shorter one is what is found in the
shorter one. -/
theorem filter_detect_append (h : 2 ≤ series.length) (settings : WarpSettings) :
    (detect settings (series ++ later)).filter (·.index < series.length) =
      detect settings series := by
  symm
  refine detect_eq_filter fun a => ?_
  simp only [mem_detect, lt_checkedLength, List.length_append, decide_eq_true_eq]
  constructor
  · rintro ⟨hdescribes, ⟨hend, hlimit⟩, hwarps⟩
    exact ⟨⟨(Anomaly.describes_append h later hend).2 hdescribes,
      ⟨Nat.lt_add_right later.length hend, hlimit⟩, hwarps⟩, hend⟩
  · rintro ⟨⟨hdescribes, ⟨-, hlimit⟩, hwarps⟩, hend⟩
    exact ⟨(Anomaly.describes_append h later hend).1 hdescribes, ⟨hend, hlimit⟩, hwarps⟩

/-- What is found in a longer series begins with what is found in the shorter one. -/
theorem detect_isPrefix_append (h : 2 ≤ series.length) (settings : WarpSettings) :
    detect settings series <+: detect settings (series ++ later) := by
  have hprefix :=
    filter_index_isPrefix (pairwise_detect settings (series ++ later)) series.length
  rwa [filter_detect_append h] at hprefix

end

/-- The settings select the anomalies before the limit that deviate by more than the tolerance,
among those found without a limit and with a tolerance that is no larger. Entries that are appended
to two or more leave what was found before them as it is, and further anomalies come behind it. -/
theorem detect_consistent (series later : List UInt64) (tolerance larger : UInt64)
    (limit : Option UInt64) :
    (tolerance ≤ larger →
        detect ⟨larger, limit⟩ series = (detect ⟨tolerance, none⟩ series).filter fun a =>
          limit.all (a.index < ·.toNat) ∧ larger.toNat < (a.observed - a.expected).natAbs) ∧
      (2 ≤ series.length →
        (detect ⟨larger, limit⟩ (series ++ later)).filter (·.index < series.length) =
            detect ⟨larger, limit⟩ series ∧
          detect ⟨larger, limit⟩ series <+: detect ⟨larger, limit⟩ (series ++ later)) :=
  ⟨fun h => detect_eq_filter_settings h limit, fun h =>
    ⟨filter_detect_append h ⟨larger, limit⟩, detect_isPrefix_append h ⟨larger, limit⟩⟩⟩

/-- A series with a step of ten, a small jump, a large one, and a step backward. -/
def seriesWithJumps : List UInt64 := [0, 10, 25, 1000, 995]

/-- The larger tolerance leaves the large jump alone, the limit takes away the step backward, and a
jump that is appended comes behind both. -/
theorem detect_consistent_jumps :
    (detect ⟨3, none⟩ seriesWithJumps).map (·.index) = [2, 3, 4] ∧
      (detect ⟨10, some 4⟩ seriesWithJumps = (detect ⟨3, none⟩ seriesWithJumps).filter fun a =>
        (some 4).all (a.index < UInt64.toNat ·) ∧ 10 < (a.observed - a.expected).natAbs) ∧
      (detect ⟨10, some 4⟩ seriesWithJumps).map (·.index) = [3] ∧
      ((detect ⟨10, none⟩ (seriesWithJumps ++ [9000])).filter (·.index < seriesWithJumps.length) =
          detect ⟨10, none⟩ seriesWithJumps ∧
        detect ⟨10, none⟩ seriesWithJumps <+: detect ⟨10, none⟩ (seriesWithJumps ++ [9000])) ∧
      (detect ⟨10, none⟩ (seriesWithJumps ++ [9000])).map (·.index) = [3, 4, 5] := by
  have hselects := (detect_consistent seriesWithJumps [] 3 10 (some 4)).1 (by decide)
  have hgrows := (detect_consistent seriesWithJumps [9000] 3 10 none).2 (by decide)
  exact ⟨by decide, hselects, by decide, hgrows, by decide⟩

end EventLog
