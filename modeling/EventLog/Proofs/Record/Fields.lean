import EventLog.Record

/-!
# The cells of a record

Where a record takes its fields from. `Dataset.fieldCell?` is the cell of a field in a dataset,
found by name or by position, and `RecordKind.assemble` makes a record of the cells of its fields.
`classify_eq_assemble` says that this is all there is to the record of a node, so that two datasets
with the same cells for all fields give the same record (`classify_congr`), and `classify_eq_some`
says field by field which record that is.
-/

namespace EventLog

/-! ## Names -/

/-- The names of the fields of a record of a kind. -/
def RecordKind.fieldNames : RecordKind → List String
  | .list => ListElement.fieldNames
  | .waveform => WaveformElement.fieldNames

/-- The names of the fields of a record of a kind that are counters. -/
def RecordKind.counterNames : RecordKind → List String
  | .list => ListElement.fieldNames
  | .waveform => ["channel", "localTime", "extendTime"]

/-- The names under which a member can hold a field of a record of a kind. -/
def RecordKind.memberNames (kind : RecordKind) : List String :=
  kind.fieldNames.flatMap fun field => [field, field ++ Row.memberSuffix]

theorem RecordKind.mem_memberNames {kind : RecordKind} {name : String} :
    name ∈ kind.memberNames ↔
      ∃ field ∈ kind.fieldNames, name = field ∨ name = field ++ Row.memberSuffix := by
  simp [memberNames]

/-- A name announces one kind at most: the prefixes of the two differ in their first letter. -/
theorem RecordKind.ofName?_eq_some {kind : RecordKind} {name : String} :
    ofName? name = some kind ↔ kind.announcedBy name = true := by
  have hexclusive : RecordKind.list.announcedBy name = true →
      RecordKind.waveform.announcedBy name = false := by
    simp only [announcedBy, namePrefix]
    cases name.toList with
    | nil => exact fun _ => rfl
    | cons c cs =>
      intro h
      obtain ⟨hc, -⟩ := List.cons_prefix_cons.1 (List.isPrefixOf_iff_prefix.1 h)
      rw [← hc]
      rfl
  rw [ofName?]
  cases kind with
  | list =>
    cases RecordKind.list.announcedBy name <;> cases RecordKind.waveform.announcedBy name <;> simp
  | waveform =>
    cases hlist : RecordKind.list.announcedBy name with
    | false => cases RecordKind.waveform.announcedBy name <;> simp
    | true => simp [hexclusive hlist]

/-! ## The cells of fields -/

/-- The cell of a field of a record: found by name in the first row, but by position where a list
element has several rows. -/
def Dataset.fieldCell? (kind : RecordKind) (dataset : Dataset) (field : String) : Option Cell :=
  match kind, dataset.rows with
  | _, [] => none
  | .list, row :: _ :: _ => row.position? (ListElement.fieldNames.idxOf field)
  | _, row :: _ => row.field? field

/-- The samples that a cell holds: a sequence of scalars. -/
def Cell.samples? (cell : Cell) : Option (List Cell) := do
  let items ← cell.items?
  if items.all Cell.isScalar then some items else none

/-- The record of a kind that is made of the cells of its fields. -/
def RecordKind.assemble (kind : RecordKind) (cell? : String → Option Cell) : Option Record :=
  let counter? (field : String) : Option UInt64 := (cell? field).bind Cell.counter?
  match kind with
  | .list => do
    return .list {
      channel := ← counter? "channel"
      localTime := ← counter? "localTime"
      adcValue := ← counter? "adcValue"
      extendTime := ← counter? "extendTime" }
  | .waveform => do
    return .waveform {
      samples := ← (cell? "waveform").bind Cell.samples?
      channel := ← counter? "channel"
      localTime := ← counter? "localTime"
      extendTime := ← counter? "extendTime" }

/-- Only the cells of the fields make a difference. -/
theorem RecordKind.assemble_congr {kind : RecordKind} {cell? cell?' : String → Option Cell}
    (h : ∀ field ∈ kind.fieldNames, cell? field = cell?' field) :
    kind.assemble cell? = kind.assemble cell?' := by
  cases kind with
  | list =>
    simp only [fieldNames, ListElement.fieldNames, List.forall_mem_cons] at h
    obtain ⟨hchannel, hlocal, hadc, hextend, -⟩ := h
    simp only [assemble, hchannel, hlocal, hadc, hextend]
  | waveform =>
    simp only [fieldNames, WaveformElement.fieldNames, List.forall_mem_cons] at h
    obtain ⟨hchannel, hlocal, hextend, hwaveform, -⟩ := h
    simp only [assemble, hchannel, hlocal, hextend, hwaveform]

section

variable {name : String} {kind : RecordKind}

/-- The record of a node is made of the cells of its fields. -/
theorem classify_eq_assemble (hname : kind.announcedBy name = true) (dataset : Dataset) :
    classify name (some dataset) = kind.assemble (dataset.fieldCell? kind) := by
  have hkind : RecordKind.ofName? name = some kind := RecordKind.ofName?_eq_some.2 hname
  obtain ⟨rows⟩ := dataset
  rw [classify, hkind]
  match kind, rows with
  | .list, [] | .waveform, [] => rfl
  | .list, [row] =>
    have hlayout : RecordLayout.of? ⟨[row]⟩ = some .compound := rfl
    simp [hlayout, Row.listElement?, Row.listField?, RecordKind.assemble, Dataset.fieldCell?,
      Option.bind_assoc]
  | .list, row :: second :: later =>
    have hlayout : RecordLayout.of? ⟨row :: second :: later⟩ = some .flat := rfl
    have hchannel : ListElement.fieldNames.idxOf "channel" = 0 := by decide
    have hlocal : ListElement.fieldNames.idxOf "localTime" = 1 := by decide
    have hadc : ListElement.fieldNames.idxOf "adcValue" = 2 := by decide
    have hextend : ListElement.fieldNames.idxOf "extendTime" = 3 := by decide
    simp [hlayout, Row.listElement?, Row.listField?, RecordKind.assemble, Dataset.fieldCell?,
      Option.bind_assoc, hchannel, hlocal, hadc, hextend]
  | .waveform, row :: later =>
    obtain ⟨layout, hlayout⟩ : ∃ layout, RecordLayout.of? ⟨row :: later⟩ = some layout := by
      cases later <;> exact ⟨_, rfl⟩
    have hsamples : row.samples? = (row.field? "waveform").bind Cell.samples? := rfl
    simp [hlayout, hsamples, Row.waveformElement?, RecordKind.assemble, Dataset.fieldCell?,
      Option.bind_assoc]

/-- Two datasets with the same cells for the fields of a record give the same record. -/
theorem classify_congr (hname : kind.announcedBy name = true) {dataset dataset' : Dataset}
    (h : ∀ field ∈ kind.fieldNames,
      dataset.fieldCell? kind field = dataset'.fieldCell? kind field) :
    classify name (some dataset) = classify name (some dataset') := by
  rw [classify_eq_assemble hname, classify_eq_assemble hname, RecordKind.assemble_congr h]

end

/-! ## Records by their fields -/

/-- The kind of a record. -/
def Record.kind : Record → RecordKind
  | .list _ => .list
  | .waveform _ => .waveform

/-- The counters of a record with the names of their fields. -/
def Record.counters : Record → List (String × UInt64)
  | .list e => [("channel", e.channel), ("localTime", e.localTime), ("adcValue", e.adcValue),
      ("extendTime", e.extendTime)]
  | .waveform w =>
    [("channel", w.channel), ("localTime", w.localTime), ("extendTime", w.extendTime)]

/-- The samples of a record. -/
def Record.samples : Record → List Cell
  | .list _ => []
  | .waveform w => w.samples

/-- The samples in a cell are its items if these are scalars. -/
theorem Cell.samples?_eq_some {cell : Cell} {samples : List Cell} :
    cell.samples? = some samples ↔
      cell = .sequence samples ∧ ∀ sample ∈ samples, sample.isScalar = true := by
  cases cell with
  | sequence items =>
    have h : (Cell.sequence items).samples? =
        if items.all Cell.isScalar then some items else none := rfl
    rw [h]
    split
    · next hall =>
      rw [Option.some.injEq, Cell.sequence.injEq]
      refine ⟨fun heq => ⟨heq, heq ▸ List.all_eq_true.1 hall⟩, And.left⟩
    · next hall =>
      refine iff_of_false nofun fun hsequence => hall ?_
      rw [Cell.sequence.inj hsequence.1]
      exact List.all_eq_true.2 hsequence.2
  | integer _ | unsigned _ | float _ | text _ | other _ =>
    exact iff_of_false nofun fun h => nomatch h.1

/-- The record made of the cells of its fields is the one of that kind that has the counter of each
cell in its field, and the samples in the cell of the waveform. -/
theorem RecordKind.assemble_eq_some {kind : RecordKind} {cell? : String → Option Cell}
    {record : Record} :
    kind.assemble cell? = some record ↔
      record.kind = kind ∧
        (∀ p ∈ record.counters, (cell? p.1).bind Cell.counter? = some p.2) ∧
        (kind = .waveform → (cell? "waveform").bind Cell.samples? = some record.samples) := by
  constructor
  · intro h
    cases kind with
    | list =>
      obtain ⟨channel, hchannel, h⟩ := Option.bind_eq_some_iff.1 h
      obtain ⟨localTime, hlocal, h⟩ := Option.bind_eq_some_iff.1 h
      obtain ⟨adcValue, hadc, h⟩ := Option.bind_eq_some_iff.1 h
      obtain ⟨extendTime, hextend, h⟩ := Option.bind_eq_some_iff.1 h
      obtain rfl := Option.some.inj h
      simp only [Record.counters, List.forall_mem_cons]
      exact ⟨rfl, ⟨hchannel, hlocal, hadc, hextend, nofun⟩, nofun⟩
    | waveform =>
      obtain ⟨samples, hsamples, h⟩ := Option.bind_eq_some_iff.1 h
      obtain ⟨channel, hchannel, h⟩ := Option.bind_eq_some_iff.1 h
      obtain ⟨localTime, hlocal, h⟩ := Option.bind_eq_some_iff.1 h
      obtain ⟨extendTime, hextend, h⟩ := Option.bind_eq_some_iff.1 h
      obtain rfl := Option.some.inj h
      simp only [Record.counters, List.forall_mem_cons]
      exact ⟨rfl, ⟨hchannel, hlocal, hextend, nofun⟩, fun _ => hsamples⟩
  · rintro ⟨rfl, hcounters, hsamples⟩
    cases record with
    | list e =>
      simp only [Record.counters, List.forall_mem_cons] at hcounters
      obtain ⟨hchannel, hlocal, hadc, hextend, -⟩ := hcounters
      simp only [assemble, Record.kind, hchannel, hlocal, hadc, hextend]
      rfl
    | waveform w =>
      simp only [Record.counters, List.forall_mem_cons] at hcounters
      obtain ⟨hchannel, hlocal, hextend, -⟩ := hcounters
      simp only [assemble, Record.kind, hchannel, hlocal, hextend, hsamples rfl]
      rfl

/-- There is a record made of the cells if all its counters are there, and its samples. -/
theorem RecordKind.exists_assemble_eq {kind : RecordKind} {cell? : String → Option Cell}
    (hcounters : ∀ field ∈ kind.counterNames, ∃ n, (cell? field).bind Cell.counter? = some n)
    (hsamples : kind = .waveform →
      ∃ samples, (cell? "waveform").bind Cell.samples? = some samples) :
    ∃ record, kind.assemble cell? = some record := by
  cases kind with
  | list =>
    simp only [counterNames, ListElement.fieldNames, List.forall_mem_cons] at hcounters
    obtain ⟨⟨channel, hchannel⟩, ⟨localTime, hlocal⟩, ⟨adcValue, hadc⟩, ⟨extendTime, hextend⟩, -⟩ :=
      hcounters
    exact ⟨.list ⟨channel, localTime, adcValue, extendTime⟩,
      by simp [assemble, hchannel, hlocal, hadc, hextend]⟩
  | waveform =>
    simp only [counterNames, List.forall_mem_cons] at hcounters
    obtain ⟨⟨channel, hchannel⟩, ⟨localTime, hlocal⟩, ⟨extendTime, hextend⟩, -⟩ := hcounters
    obtain ⟨samples, hsamples⟩ := hsamples rfl
    exact ⟨.waveform ⟨channel, localTime, extendTime, samples⟩,
      by simp [assemble, hchannel, hlocal, hextend, hsamples]⟩

/-- A node is a record of the kind that its name announces, with the counters and the samples in the
cells of its dataset. -/
theorem classify_eq_some {name : String} {payload : Option Dataset} {record : Record} :
    classify name payload = some record ↔
      record.kind.announcedBy name = true ∧ ∃ dataset, payload = some dataset ∧
        (∀ p ∈ record.counters,
          (dataset.fieldCell? record.kind p.1).bind Cell.counter? = some p.2) ∧
        (record.kind = .waveform →
          (dataset.fieldCell? .waveform "waveform").bind Cell.samples? = some record.samples) := by
  constructor
  · intro h
    obtain ⟨kind, hkind, h'⟩ := Option.bind_eq_some_iff.1 h
    obtain ⟨dataset, rfl, -⟩ := Option.bind_eq_some_iff.1 h'
    have hname := RecordKind.ofName?_eq_some.1 hkind
    rw [classify_eq_assemble hname] at h
    obtain ⟨rfl, hcounters, hsamples⟩ := RecordKind.assemble_eq_some.1 h
    exact ⟨hname, dataset, rfl, hcounters, fun hwaveform => hwaveform ▸ hsamples hwaveform⟩
  · rintro ⟨hname, dataset, rfl, hcounters, hsamples⟩
    rw [classify_eq_assemble hname]
    exact RecordKind.assemble_eq_some.2
      ⟨rfl, hcounters, fun hwaveform => hwaveform ▸ hsamples hwaveform⟩

end EventLog
