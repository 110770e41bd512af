import EventLog.Proofs.Record.Members

/-!
# Layouts of list elements

`classify_layouts`: the fields of a list element are found alike by name, in the one row of its
dataset, and by position, in the first of several rows, as long as its members stand in the order of
the fields. In each layout a field has the cell that stands at its place in the list of fields
(`field?_members`, `position?_members`).
-/

namespace EventLog

/-- The name of the member with a field, suffixed or bare. -/
def Row.memberName (suffixed : Bool) (field : String) : String :=
  if suffixed then field ++ Row.memberSuffix else field

namespace ListElement

/-- Cells for the fields of a list element, in the order of the fields. -/
def fieldCells (channel localTime adcValue extendTime : Cell) : List (String × Cell) :=
  fieldNames.zip [channel, localTime, adcValue, extendTime]

/-- The members with these cells, each under the bare or under the suffixed name of its field. -/
def members (suffixed : String → Bool) (channel localTime adcValue extendTime : Cell) :
    List (String × Cell) :=
  (fieldCells channel localTime adcValue extendTime).map fun (field, cell) =>
    (Row.memberName (suffixed field) field, cell)

variable (suffixed : String → Bool) (channel localTime adcValue extendTime : Cell)

/-- The names of the fields stay distinct whether or not they are suffixed. -/
theorem nodup_members :
    ((members suffixed channel localTime adcValue extendTime).map Prod.fst).Nodup := by
  have hnames : (members suffixed channel localTime adcValue extendTime).map Prod.fst =
      fieldNames.map fun field => Row.memberName (suffixed field) field := rfl
  rw [hnames]
  simp only [fieldNames, List.map_cons, List.map_nil]
  generalize suffixed "channel" = a
  generalize suffixed "localTime" = b
  generalize suffixed "adcValue" = c
  generalize suffixed "extendTime" = d
  revert a b c d
  decide

/-- Every field is found by name in the member that has its cell. -/
theorem field?_members {tail : List (String × Cell)}
    (htail : ∀ m ∈ tail, m.1 ∉ RecordKind.list.memberNames) :
    ∀ field ∈ fieldNames,
      (Row.compound (members suffixed channel localTime adcValue extendTime ++ tail)).field? field =
        (fieldCells channel localTime adcValue extendTime).lookup field := by
  intro field hfield
  have hdistinct := nodup_members suffixed channel localTime adcValue extendTime
  obtain ⟨cell, hcell⟩ : ∃ cell,
      (fieldCells channel localTime adcValue extendTime).lookup field = some cell :=
    exists_lookup_eq_some hfield
  have hmember : (Row.memberName (suffixed field) field, cell) ∈
      members suffixed channel localTime adcValue extendTime :=
    List.mem_map.2 ⟨(field, cell), mem_of_lookup hcell, rfl⟩
  have hnamed : field ∈ RecordKind.list.fieldNames := hfield
  rw [field?_of_perm hdistinct (List.Perm.refl _) (fun m hm => .inl (htail m hm)) hnamed, hcell,
    field?_eq_some_iff hdistinct]
  cases hsuffixed : suffixed field with
  | false => exact .inl (by rwa [hsuffixed] at hmember)
  | true =>
    refine .inr ⟨fun hbare => ?_, by rwa [hsuffixed] at hmember⟩
    -- a member with the bare name would be that of this field, which is suffixed, or a suffixed one
    obtain ⟨_, hm, hname⟩ := List.mem_map.1 hbare
    obtain ⟨⟨other, _⟩, hother, rfl⟩ := List.mem_map.1 hm
    have hothername : other ∈ fieldNames := (List.of_mem_zip hother).1
    cases hs : suffixed other with
    | false =>
      obtain rfl : other = field := by simpa [hs, Row.memberName] using hname
      simp [hs] at hsuffixed
    | true =>
      refine RecordKind.list.ne_suffixed field hfield other hothername ?_
      simpa [hs, Row.memberName] using hname.symm

/-- Every field is found by position in the member that has its cell. -/
theorem position?_members (tail : List (String × Cell)) :
    ∀ field ∈ fieldNames,
      (Row.compound (members suffixed channel localTime adcValue extendTime ++ tail)).position?
          (fieldNames.idxOf field) =
        (fieldCells channel localTime adcValue extendTime).lookup field := by
  simp only [fieldNames, List.forall_mem_cons]
  exact ⟨rfl, rfl, rfl, rfl, List.forall_mem_nil _⟩

/-- Every field is found by position among bare cells. -/
theorem position?_flat (more : List Cell) :
    ∀ field ∈ fieldNames,
      (Row.flat (channel :: localTime :: adcValue :: extendTime :: more)).position?
          (fieldNames.idxOf field) =
        (fieldCells channel localTime adcValue extendTime).lookup field := by
  simp only [fieldNames, List.forall_mem_cons]
  exact ⟨rfl, rfl, rfl, rfl, List.forall_mem_nil _⟩

end ListElement

/-- With the four fields in order, whether their names are suffixed or not, and any members of other
names behind them, a row gives the same list element by name and by position, and so does a flat row
with the same cells; it gives one if all four cells are counters. Later rows make no difference. -/
theorem classify_layouts {name : String} (hname : RecordKind.list.announcedBy name = true)
    (suffixed : String → Bool) (c₀ c₁ c₂ c₃ : Cell) {tail : List (String × Cell)}
    (htail : ∀ m ∈ tail, m.1 ∉ RecordKind.list.memberNames) :
    let row := Row.compound (ListElement.members suffixed c₀ c₁ c₂ c₃ ++ tail)
    (∀ second later, classify name (some ⟨row :: second :: later⟩) = classify name (some ⟨[row]⟩)) ∧
      (∀ more second later,
        classify name (some ⟨.flat (c₀ :: c₁ :: c₂ :: c₃ :: more) :: second :: later⟩) =
          classify name (some ⟨[row]⟩)) ∧
      (∀ record, classify name (some ⟨[row]⟩) = some record ↔
        ∃ a b c d, c₀.counter? = some a ∧ c₁.counter? = some b ∧ c₂.counter? = some c ∧
          c₃.counter? = some d ∧ record = .list ⟨a, b, c, d⟩) ∧
      ((classify name (some ⟨[row]⟩)).isSome ↔
        ∀ cell ∈ [c₀, c₁, c₂, c₃], cell.counter?.isSome) := by
  intro row
  have hbyName := ListElement.field?_members suffixed c₀ c₁ c₂ c₃ htail
  have hbyPosition := ListElement.position?_members suffixed c₀ c₁ c₂ c₃ tail
  have hflat := ListElement.position?_flat c₀ c₁ c₂ c₃
  have hcells : RecordKind.list.assemble (Dataset.fieldCell? .list ⟨[row]⟩) =
      RecordKind.list.assemble fun field => (ListElement.fieldCells c₀ c₁ c₂ c₃).lookup field :=
    RecordKind.assemble_congr hbyName
  have hassemble : classify name (some ⟨[row]⟩) = do
      return .list ⟨← c₀.counter?, ← c₁.counter?, ← c₂.counter?, ← c₃.counter?⟩ :=
    (classify_eq_assemble hname ⟨[row]⟩).trans hcells
  have hrecord (record : Record) : classify name (some ⟨[row]⟩) = some record ↔
      ∃ a b c d, c₀.counter? = some a ∧ c₁.counter? = some b ∧ c₂.counter? = some c ∧
        c₃.counter? = some d ∧ record = .list ⟨a, b, c, d⟩ := by
    simp [hassemble, Option.bind_eq_some_iff, @eq_comm _ record]
  refine ⟨fun second later => ?_, fun more second later => ?_, hrecord, ?_⟩
  · exact classify_congr hname fun field hfield =>
      (hbyPosition field hfield).trans (hbyName field hfield).symm
  · exact classify_congr hname fun field hfield =>
      (hflat more field hfield).trans (hbyName field hfield).symm
  · simp [Option.isSome_iff_exists, hrecord]

/-- A row with two suffixed names, numbers of all forms, and a member twice behind the fields. -/
def Row.halfSuffixed : Row :=
  .compound [("channel", .integer 1), ("localTime_name", .unsigned 18446744073709551615),
    ("adcValue", .float ⟨0x4010000000000000⟩), ("extendTime_name", .integer 0),
    ("__pad_name", .text "x"), ("__pad_name", .other .null)]

/-- The row has its record alone, in front of another row, and with its cells as a flat row. -/
theorem classify_layouts_halfSuffixed :
    (∀ m ∈ [("__pad_name", Cell.text "x"), ("__pad_name", .other .null)],
        m.1 ∉ RecordKind.list.memberNames) ∧
      classify "list-3" (some ⟨[.halfSuffixed]⟩) =
        some (.list ⟨1, 18446744073709551615, 4, 0⟩) ∧
      classify "list-3" (some ⟨[.halfSuffixed, .malformed .null]⟩) =
        some (.list ⟨1, 18446744073709551615, 4, 0⟩) ∧
      classify "list-3" (some ⟨[.flat [.integer 1, .unsigned 18446744073709551615,
          .float ⟨0x4010000000000000⟩, .integer 0, .text "x"], .flat []]⟩) =
        some (.list ⟨1, 18446744073709551615, 4, 0⟩) := by
  have htail : ∀ m ∈ [("__pad_name", Cell.text "x"), ("__pad_name", .other .null)],
      m.1 ∉ RecordKind.list.memberNames := by
    simp only [List.forall_mem_cons]
    decide
  have hname : RecordKind.list.announcedBy "list-3" = true := by decide
  obtain ⟨hlater, hflat, hrecord, -⟩ := classify_layouts hname
    (fun field => field == "localTime" || field == "extendTime") (.integer 1)
    (.unsigned 18446744073709551615) (.float ⟨0x4010000000000000⟩) (.integer 0) htail
  have hone := (hrecord _).2 ⟨1, 18446744073709551615, 4, 0, rfl, rfl, rfl, rfl, rfl⟩
  exact ⟨htail, hone, (hlater _ []).trans hone, (hflat [.text "x"] _ []).trans hone⟩

end EventLog
