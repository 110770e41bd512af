import EventLog.Proofs.Lookup
import EventLog.Proofs.Record.Fields

/-!
# Fields found by name

A field that is found by name is the member with the bare name, wherever that stands, and only where
there is none the member with the suffixed name (`field?_eq_some_iff`). So the order of members
makes no difference, and neither do members whose names no field has, or has only in its suffixed
form beside the bare one (`field?_of_perm`).
-/

namespace EventLog

/-- The datasets of which the fields of a record are found by name: those of waveforms, and of list
elements those with one row. The list is that of what stands behind the first row. -/
def RecordKind.ByName {α : Type} : RecordKind → List α → Prop
  | .list, later => later = []
  | .waveform, _ => True

/-- A member is idle beside others with these names: no field is found under its name, or only one
that is there under its bare name. -/
def RecordKind.Idle (kind : RecordKind) (names : List String) (name : String) : Prop :=
  name ∉ kind.memberNames ∨
    ∃ field ∈ kind.fieldNames, name = field ++ Row.memberSuffix ∧ field ∈ names

/-- No field has the suffixed name of another. -/
theorem RecordKind.ne_suffixed (kind : RecordKind) :
    ∀ field ∈ kind.fieldNames, ∀ other ∈ kind.fieldNames, field ≠ other ++ Row.memberSuffix := by
  cases kind <;> decide

variable {kind : RecordKind} {members : List (String × Cell)}

/-- A field is in the member with its bare name, or else in the one with its suffixed name. -/
theorem field?_eq_some_iff (hdistinct : (members.map Prod.fst).Nodup) (field : String)
    {cell : Cell} :
    (Row.compound members).field? field = some cell ↔ (field, cell) ∈ members ∨
      (field ∉ members.map Prod.fst ∧ (field ++ Row.memberSuffix, cell) ∈ members) := by
  have hlookup (name : String) {cell : Cell} :
      members.lookup name = some cell ↔ (name, cell) ∈ members :=
    lookup_eq_some_iff_mem (singleValued_of_nodup hdistinct name)
  rw [Row.field?, ← hlookup, ← hlookup]
  by_cases hbare : field ∈ members.map Prod.fst
  · obtain ⟨found, hfound⟩ := exists_lookup_eq_some hbare
    simp [hfound, hbare]
  · simp [lookup_eq_none_of_notMem hbare, hbare]

/-- A field is found as without any idle members, and in any order of the members. -/
theorem field?_of_perm {idle members' : List (String × Cell)}
    (hdistinct : (members.map Prod.fst).Nodup) (hperm : members'.Perm (members ++ idle))
    (hidle : ∀ m ∈ idle, kind.Idle (members.map Prod.fst) m.1) {field : String}
    (hfield : field ∈ kind.fieldNames) :
    (Row.compound members').field? field = (Row.compound members).field? field := by
  have hbare : field ∉ idle.map Prod.fst := by
    intro h
    obtain ⟨m, hm, rfl⟩ := List.mem_map.1 h
    rcases hidle m hm with hnone | ⟨other, hother, hname, -⟩
    · exact hnone (RecordKind.mem_memberNames.2 ⟨m.1, hfield, .inl rfl⟩)
    · exact kind.ne_suffixed m.1 hfield other hother hname
  rw [Row.field?, Row.field?, lookup_of_perm hdistinct hperm hbare]
  by_cases hthere : field ∈ members.map Prod.fst
  · obtain ⟨cell, hcell⟩ := exists_lookup_eq_some hthere
    rw [hcell, Option.some_or, Option.some_or]
  · have hsuffixed : field ++ Row.memberSuffix ∉ idle.map Prod.fst := by
      intro h
      obtain ⟨m, hm, hname⟩ := List.mem_map.1 h
      rcases hidle m hm with hnone | ⟨other, -, hother, hnames⟩
      · exact hnone (RecordKind.mem_memberNames.2 ⟨field, hfield, .inr hname⟩)
      · rw [hname, String.append_left_inj] at hother
        exact hthere (hother ▸ hnames)
    rw [lookup_of_perm hdistinct hperm hsuffixed]

/-- Where fields are found by name, they are found in the first row. -/
theorem fieldCell?_byName {later : List Row} (h : kind.ByName later) (row : Row) (field : String) :
    Dataset.fieldCell? kind ⟨row :: later⟩ field = row.field? field := by
  cases kind with
  | list =>
    obtain rfl : later = [] := h
    rfl
  | waveform => cases later <;> rfl

end EventLog
