import EventLog.Proofs.Binary64.Values
import EventLog.Proofs.Record.Fields
import Mathlib.Data.Rat.Floor

/-!
# Counters are exact

Whatever its numeric form, a cell denotes a rational number (`Cell.value?`), and it holds a counter
exactly if that number is natural and fits an unsigned word (`Cell.counter?_eq_some`). So a counter
is never rounded, clamped or wrapped, and there is no other reason to refuse one: for floating-point
numbers that is what a test for a fraction and a comparison of floating-point numbers decide
(`Cell.isSome_counter?_float`). `classify_exact` says this of whole records, together with the
samples of waveforms.
-/

namespace EventLog

/-! ## The value of a cell -/

/-- The number that a cell denotes, if it is a number. -/
def Cell.value? : Cell → Option ℚ
  | .integer n => some n.toInt
  | .unsigned n => some n.toNat
  | .float x => x.value?
  | .text _ | .sequence _ | .other _ => none

/-- A cell holds the counter that equals the number it denotes. -/
theorem Cell.counter?_eq_some {cell : Cell} {n : UInt64} :
    cell.counter? = some n ↔ cell.value? = some (n.toNat : ℚ) := by
  cases cell with
  | integer i =>
    have hvalue : (Cell.integer i).value? = some (n.toNat : ℚ) ↔ i.toInt = n.toNat := by
      rw [Cell.value?, Option.some.injEq]
      exact_mod_cast Iff.rfl
    have hword : i.toInt < 2 ^ 63 := i.toInt_lt
    rw [hvalue, Cell.counter?]
    split
    · next hnonneg =>
      have hsize : i.toInt.toNat < UInt64.size := by
        rw [UInt64.size]
        omega
      rw [Option.some.injEq, ← UInt64.toNat_inj, UInt64.toNat_ofNat_of_lt' hsize]
      omega
    · next hnegative =>
      exact iff_of_false nofun fun h => hnegative (h ▸ Int.natCast_nonneg n.toNat)
  | unsigned m =>
    rw [Cell.counter?, Cell.value?, Option.some.injEq, Option.some.injEq, Nat.cast_inj,
      UInt64.toNat_inj]
  | float x =>
    have hcounter : (Cell.float x).counter? = some n ↔ x.natural? = some n.toNat := by
      rw [Cell.counter?]
      cases x.natural? with
      | none => exact iff_of_false nofun nofun
      | some m =>
        rw [Option.bind_eq_bind, Option.bind_some, Option.some.injEq]
        split
        · next hm => rw [Option.some.injEq, ← UInt64.toNat_inj, UInt64.toNat_ofNat_of_lt' hm]
        · next hm => exact iff_of_false nofun fun h => hm (h ▸ n.toNat_lt)
    rw [hcounter, Cell.value?, Binary64.natural?_eq_some]
  | text _ | sequence _ | other _ => exact iff_of_false nofun nofun

/-- A cell with a natural number below `2 ^ 64` holds a counter. -/
theorem Cell.exists_counter?_eq {cell : Cell} {n : ℕ} (hvalue : cell.value? = some (n : ℚ))
    (hn : n < 2 ^ 64) : ∃ counter, cell.counter? = some counter := by
  refine ⟨UInt64.ofNat n, Cell.counter?_eq_some.2 ?_⟩
  rwa [UInt64.toNat_ofNat_of_lt' hn]

/-- The largest counter is no floating-point number, and the nearest one is above it. -/
theorem Binary64.value?_ofNat_maxCounter :
    (Binary64.ofNat (UInt64.size - 1)).value? = some (2 ^ 64) := by
  have hfinite : (Binary64.ofNat (UInt64.size - 1)).isFinite = true := by decide
  have hpositive : (Binary64.ofNat (UInt64.size - 1)).negative = false := by decide
  have hsignificand : (Binary64.ofNat (UInt64.size - 1)).significand = 2 ^ 52 := by decide
  have hexponent : (Binary64.ofNat (UInt64.size - 1)).exponent = 12 := by decide
  rw [Binary64.value?, hfinite, hpositive, hsignificand, hexponent]
  norm_num

/-- For floating-point numbers it is enough to look for a fraction and to compare with the number
nearest to the largest counter, although that is too large itself: there is no number between the
two. -/
theorem Cell.isSome_counter?_float (x : Binary64) :
    (Cell.float x).counter?.isSome ↔
      ∃ q limit, x.value? = some q ∧ (Binary64.ofNat (UInt64.size - 1)).value? = some limit ∧
        Int.fract q = 0 ∧ 0 ≤ q ∧ q < limit := by
  rw [Option.isSome_iff_exists, Binary64.value?_ofNat_maxCounter]
  constructor
  · rintro ⟨n, hn⟩
    refine ⟨n.toNat, 2 ^ 64, Cell.counter?_eq_some.1 hn, rfl, Int.fract_natCast n.toNat,
      n.toNat.cast_nonneg, ?_⟩
    exact_mod_cast n.toNat_lt
  · rintro ⟨q, _, hq, ⟨⟩, hfract, hnonneg, hlt⟩
    obtain ⟨i, rfl⟩ := Int.fract_eq_zero_iff.1 hfract
    obtain ⟨n, rfl⟩ := Int.eq_ofNat_of_zero_le (Int.cast_nonneg_iff.1 hnonneg)
    exact Cell.exists_counter?_eq (n := n) (by exact_mod_cast hq) (by exact_mod_cast hlt)

/-! ## Exact records -/

/-- What a record has of a dataset is exact: its counters are the numbers in the cells of their
fields, and its samples are all items of the sequence in the cell of the waveform. -/
structure Record.ExactIn (record : Record) (dataset : Dataset) : Prop where
  counters : ∀ p ∈ record.counters, p.2.toNat < 2 ^ 64 ∧
    ∃ cell, dataset.fieldCell? record.kind p.1 = some cell ∧ cell.value? = some (p.2.toNat : ℚ)
  samples : record.kind = .waveform →
    dataset.fieldCell? .waveform "waveform" = some (.sequence record.samples) ∧
      ∀ sample ∈ record.samples, sample.isScalar = true

/-- The record of a node is exact in its dataset, and there is one wherever the name announces it,
the counters are naturals below `2 ^ 64` and the samples are scalars. -/
theorem classify_exact (name : String) (payload : Option Dataset) :
    (∀ record, classify name payload = some record →
      record.kind.announcedBy name = true ∧ ∃ dataset, payload = some dataset ∧
        record.ExactIn dataset) ∧
    (∀ (kind : RecordKind) (dataset : Dataset), kind.announcedBy name = true →
      payload = some dataset →
      (∀ field ∈ kind.counterNames, ∃ cell, dataset.fieldCell? kind field = some cell ∧
        ∃ n : ℕ, cell.value? = some (n : ℚ) ∧ n < 2 ^ 64) →
      (kind = .waveform → ∃ samples,
        dataset.fieldCell? .waveform "waveform" = some (.sequence samples) ∧
          ∀ sample ∈ samples, sample.isScalar = true) →
      ∃ record, classify name payload = some record ∧ record.kind = kind) := by
  refine ⟨fun record h => ?_, ?_⟩
  · obtain ⟨hname, dataset, hpayload, hcounters, hsamples⟩ := classify_eq_some.1 h
    refine ⟨hname, dataset, hpayload, fun p hp => ⟨p.2.toNat_lt, ?_⟩, fun hwaveform => ?_⟩
    · obtain ⟨cell, hcell, hcounter⟩ := Option.bind_eq_some_iff.1 (hcounters p hp)
      exact ⟨cell, hcell, Cell.counter?_eq_some.1 hcounter⟩
    · obtain ⟨cell, hcell, hitems⟩ := Option.bind_eq_some_iff.1 (hsamples hwaveform)
      obtain ⟨rfl, hscalar⟩ := Cell.samples?_eq_some.1 hitems
      exact ⟨hcell, hscalar⟩
  · rintro kind dataset hname rfl hcounters hsamples
    have hthere : ∃ record, kind.assemble (dataset.fieldCell? kind) = some record := by
      refine RecordKind.exists_assemble_eq (fun field hfield => ?_) ?_
      · obtain ⟨cell, hcell, n, hvalue, hn⟩ := hcounters field hfield
        obtain ⟨counter, hcounter⟩ := Cell.exists_counter?_eq hvalue hn
        exact ⟨counter, by rw [hcell, Option.bind_some, hcounter]⟩
      · rintro rfl
        obtain ⟨samples, hcell, hscalar⟩ := hsamples rfl
        exact ⟨samples, by rw [hcell, Option.bind_some, Cell.samples?_eq_some.2 ⟨rfl, hscalar⟩]⟩
    obtain ⟨record, hrecord⟩ := hthere
    exact ⟨record, (classify_eq_assemble hname dataset).trans hrecord,
      (RecordKind.assemble_eq_some.1 hrecord).1⟩

/-- A waveform with a negative zero, the largest counter, the largest floating-point number that is
a counter, and samples of three forms. -/
def Row.mixedNumbers : Row :=
  .compound [("waveform", .sequence [.text "x", .integer (-3), .float ⟨0x3FE0000000000000⟩]),
    ("channel", .float ⟨0x8000000000000000⟩),
    ("localTime_name", .unsigned 18446744073709551615),
    ("extendTime", .float ⟨0x43EFFFFFFFFFFFFF⟩)]

/-- It has a record, which is exact; with the next larger floating-point number it has none. -/
theorem classify_exact_mixedNumbers :
    (∃ record, classify "waveform-1" (some ⟨[.mixedNumbers]⟩) = some record ∧
      record.kind = .waveform ∧ record.ExactIn ⟨[.mixedNumbers]⟩ ∧
      record.counters.map (fun p => p.2.toNat) =
        [0, 18446744073709551615, 18446744073709549568]) ∧
      (Cell.float ⟨0x43F0000000000000⟩).counter? = none := by
  have hname : RecordKind.waveform.announcedBy "waveform-1" = true := by decide
  obtain ⟨hexact, hthere⟩ := classify_exact "waveform-1" (some ⟨[.mixedNumbers]⟩)
  have hchannel : Dataset.fieldCell? .waveform ⟨[.mixedNumbers]⟩ "channel" =
      some (.float ⟨0x8000000000000000⟩) := rfl
  have hlocal : Dataset.fieldCell? .waveform ⟨[.mixedNumbers]⟩ "localTime" =
      some (.unsigned 18446744073709551615) := rfl
  have hextend : Dataset.fieldCell? .waveform ⟨[.mixedNumbers]⟩ "extendTime" =
      some (.float ⟨0x43EFFFFFFFFFFFFF⟩) := rfl
  have hnumbers : ∀ field ∈ RecordKind.waveform.counterNames,
      ∃ cell, Dataset.fieldCell? .waveform ⟨[.mixedNumbers]⟩ field = some cell ∧
        ∃ n : ℕ, cell.value? = some (n : ℚ) ∧ n < 2 ^ 64 := by
    simp only [RecordKind.counterNames, List.forall_mem_cons]
    exact ⟨⟨_, hchannel, 0, Binary64.natural?_eq_some.1 (by decide +kernel), by decide⟩,
      ⟨_, hlocal, 18446744073709551615, rfl, by decide⟩,
      ⟨_, hextend, 18446744073709549568, Binary64.natural?_eq_some.1 (by decide), by decide⟩,
      List.forall_mem_nil _⟩
  obtain ⟨record, hrecord, hkind⟩ := hthere .waveform _ hname rfl hnumbers fun _ =>
    ⟨_, rfl, by decide⟩
  obtain ⟨-, _, hpayload, hin⟩ := hexact record hrecord
  obtain rfl := Option.some.inj hpayload
  refine ⟨⟨record, hrecord, hkind, hin, ?_⟩, by rfl⟩
  have hzero : (Cell.float ⟨0x8000000000000000⟩).counter? = some 0 := by decide +kernel
  have hlargest : (Cell.float ⟨0x43EFFFFFFFFFFFFF⟩).counter? = some 18446744073709549568 := by
    decide
  rw [classify_eq_assemble hname, RecordKind.assemble] at hrecord
  simp only [hchannel, hlocal, hextend, Option.bind_some, hzero, hlargest] at hrecord
  obtain rfl := Option.some.inj hrecord
  rfl

end EventLog
