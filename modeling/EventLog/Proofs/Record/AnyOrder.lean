import EventLog.Proofs.Record.Members
import EventLog.Proofs.Snapshot.PayloadRows
import EventLog.Proofs.Store.NormalForm

/-!
# Records from members in any order

Where fields are found by name, `classify_anyOrder` says that a record depends neither on the order
of the members nor on idle ones among them. A payload is read with the members of its rows in the
order of their names, so a row in it has its members in another order than the same text read by
itself, and repeated names lose all but the last member. As long as names are distinct, the record
is the same for both.
-/

namespace EventLog

open EventLog.Json (Phrase Blank sortedMember)

/-- The names of the members of a row. -/
def Row.names : Row → List String
  | .compound members => members.map Prod.fst
  | .flat _ | .malformed _ => []

/-- The same members in any order, among others that are idle. -/
def RecordKind.Rearranged (kind : RecordKind) (members members' : List (String × Cell)) : Prop :=
  ∃ idle : List (String × Cell), members'.Perm (members ++ idle) ∧
    ∀ m ∈ idle, kind.Idle (members.map Prod.fst) m.1

/-- The fields of a row do not depend on the order in which its members are read, if they have
distinct names. -/
theorem field?_ofJson_sorted {document : Json} (hdistinct : (Row.ofJson document).names.Nodup)
    (field : String) :
    (Row.ofJson document.sorted).field? field = (Row.ofJson document).field? field := by
  cases document with
  | null | bool _ | integer _ | float _ | string _ => rfl
  | array items => rw [Row.ofJson_sorted_array, Row.ofJson]
  | object members =>
    have hnames : (members.map Prod.fst).Nodup := by
      rw [Row.ofJson, Row.names, List.map_map] at hdistinct
      exact hdistinct
    -- the members of the sorted object are the same ones, each with the same cell
    have hperm : ((Json.sortedMembers members).map fun m => (m.1, Cell.ofJson m.2)).Perm
        ((members.map fun m => (m.1, Cell.ofJson m.2)) ++ []) := by
      rw [List.append_nil]
      refine ((Json.sortedMembers_perm hnames).map _).trans (List.Perm.of_eq ?_)
      rw [List.map_map]
      exact List.map_congr_left fun m _ => congrArg (Prod.mk m.1) (Cell.ofJson_sorted m.2)
    exact congrArg₂ Option.or (lookup_of_perm hdistinct hperm List.not_mem_nil)
      (lookup_of_perm hdistinct hperm List.not_mem_nil)

/-- A row that is written within limits is read by itself as what it denotes. -/
theorem Row.read_document {row : Phrase} {value : Json} (h : row.within? Json.maxDepth = some value)
    (spaces : List Blank) : Row.read (row.document spaces) = .ok (.ofJson value) := by
  have hread := Json.read_text row spaces
  rw [h] at hread
  rw [Row.read]
  cases hdocument : Json.read (row.document spaces) with
  | error fault =>
    rw [hdocument] at hread
    cases hread
  | ok v =>
    rw [hdocument] at hread
    rw [Option.some.inj hread]
    rfl

variable {name : String} {kind : RecordKind}

/-- The fields of rearranged members are those of the members as they were. -/
theorem fieldCell?_rearranged {members members' : List (String × Cell)} {later' : List Row}
    (hdistinct : (members.map Prod.fst).Nodup) (h : kind.Rearranged members members')
    (hbyName : kind.ByName later') :
    ∀ field ∈ kind.fieldNames, Dataset.fieldCell? kind ⟨.compound members' :: later'⟩ field =
      (Row.compound members).field? field := by
  obtain ⟨idle, hperm, hidle⟩ := h
  intro field hfield
  exact (fieldCell?_byName hbyName _ field).trans (field?_of_perm hdistinct hperm hidle hfield)

/-- The fields of a loaded dataset are those of its first row, as it is stored. -/
theorem fieldCell?_loaded {payload : Phrase} {document : Json} {row : Phrase}
    {later : List Phrase} (hvalue : payload.value? = some document)
    (hrows : payload.rows? = some (row :: later)) (hbyName : kind.ByName later) :
    ∃ value dataset, row.value? = some value ∧ Dataset.ofDocument? document = some dataset ∧
      ∀ field, dataset.fieldCell? kind field = (Row.ofJson value.sorted).field? field := by
  obtain ⟨values, hvalues, hdataset⟩ := ofDocument?_of_rows? hvalue hrows
  rw [List.mapM_cons] at hvalues
  obtain ⟨value, hrow, hvalues⟩ := Option.bind_eq_some_iff.1 hvalues
  obtain ⟨others, hothers, hvalues⟩ := Option.bind_eq_some_iff.1 hvalues
  obtain rfl := Option.some.inj hvalues
  have hlater : kind.ByName (others.map fun row => Row.ofJson row.sorted) := by
    cases kind with
    | list =>
      obtain rfl : later = [] := hbyName
      obtain rfl := Option.some.inj hothers
      rfl
    | waveform => trivial
  exact ⟨value, _, hrow, hdataset, fieldCell?_byName hlater _⟩

/-- Where fields are found by name, the record of a node depends neither on the order of the members
nor on idle ones among them, and a field is in the member with its bare name or else in the one with
its suffixed name. So of every row in the payload of a node that is loaded, the record of the node
is the one that the row has when its text is read by itself, if names are distinct. -/
theorem classify_anyOrder (hname : kind.announcedBy name = true) :
    (∀ (members members' : List (String × Cell)) (later later' : List Row),
      (members.map Prod.fst).Nodup → kind.Rearranged members members' →
      kind.ByName later → kind.ByName later' →
        classify name (some ⟨.compound members' :: later'⟩) =
            classify name (some ⟨.compound members :: later⟩) ∧
          ∀ field ∈ kind.fieldNames, ∀ cell,
            Dataset.fieldCell? kind ⟨.compound members' :: later'⟩ field = some cell ↔
              (field, cell) ∈ members ∨ (field ∉ members.map Prod.fst ∧
                (field ++ Row.memberSuffix, cell) ∈ members)) ∧
    (∀ (p : Phrase) (s : Sketch) (behind : List Blank) (path : String) (root : Node)
      (address : List Nat) (children : List Sketch) (payload row : Phrase) (later : List Phrase)
      (spaces : List Blank),
      p.sketch? Json.maxDepth = some s →
      loadStore path (.ok (p.document behind).toUTF8) = .ok root →
      s.at? address = some ⟨name, children, some payload⟩ →
      payload.rows? = some (row :: later) → kind.ByName later →
        ∃ direct node, Row.read (row.document spaces) = .ok direct ∧
          root.at? address = some node ∧ node.name = name ∧
          (direct.names.Nodup →
            classify node.name node.payload = classify name (some ⟨[direct]⟩))) := by
  refine ⟨?_, ?_⟩
  · intro members members' later later' hdistinct hrearranged hlater hlater'
    have hfield := fieldCell?_rearranged hdistinct hrearranged hlater'
    refine ⟨classify_congr hname fun field hf => ?_, fun field hf cell => ?_⟩
    · rw [hfield field hf, fieldCell?_byName hlater]
    · rw [hfield field hf, field?_eq_some_iff hdistinct]
  · intro p s behind path root address children payload row later spaces hs hroot hat hrows hbyName
    obtain ⟨hlevels, document, hvalue, hnode⟩ := payload_of_loadStore hs hroot hat
    obtain ⟨value, dataset, hrow, hdataset, hfield⟩ := fieldCell?_loaded hvalue hrows hbyName
    -- the row nests no deeper than its payload, so it is read by itself
    have hwithin : row.within? Json.maxDepth = some value := by
      have := Phrase.levels_of_rows? hrows row List.mem_cons_self
      rw [Phrase.within?, if_pos (by omega), hrow]
    rw [hdataset] at hnode
    refine ⟨.ofJson value, _, Row.read_document hwithin spaces, hnode, rfl, fun hdistinct => ?_⟩
    refine classify_congr hname fun field _ => ?_
    have hone : kind.ByName ([] : List Row) := by cases kind <;> trivial
    rw [hfield, field?_ofJson_sorted hdistinct, fieldCell?_byName hone]

/-- The fields of a list element, one of them suffixed. -/
def Row.fourFields : List (String × Cell) :=
  [("channel", .integer 1), ("localTime_name", .integer 2), ("adcValue", .integer 3),
    ("extendTime", .integer 4)]

/-- A member that is no field, and a suffixed name beside the bare one. -/
def Row.idleMembers : List (String × Cell) := [("x", .sequence []), ("channel_name", .integer 9)]

/-- A number of one digit other than zero. -/
def Json.Phrase.digit (d : Nat) : Phrase :=
  .number ⟨false, .leading ⟨(d - 1) % 9, Nat.mod_lt _ (by decide)⟩ [], none, none⟩

/-- All these members as they are written, the last one first. -/
def Json.Phrase.reversedRow : Phrase :=
  .object [.space] [(.ofText "channel_name", .digit 9), (.ofText "x", .array [] []),
    (.ofText "extendTime", .digit 4), (.ofText "adcValue", .digit 3),
    (.ofText "localTime_name", .digit 2), (.ofText "channel", .digit 1)]

/-- The payload with this row alone. -/
def Json.Phrase.reversedPayload : Phrase :=
  .object [] [(.ofText "rows", .array [] [([], reversedRow)])]

/-- A document with a list element that has this payload. -/
def Json.Phrase.reversedDocument : Phrase :=
  .object [] [(.ofText "name", .string (.ofText "/")), (.ofText "children", .array [] [([],
    .object [] [(.ofText "payload", reversedPayload),
      (.ofText "name", .string (.ofText "list-0"))])])]

/-- Its sketch. -/
def Sketch.reversed : Sketch := ⟨"/", [⟨"list-0", [], some .reversedPayload⟩], none⟩

/-- The record of the loaded list element is that of the row read by itself, and of its fields in
order. -/
theorem classify_anyOrder_reversed :
    Row.read (Phrase.reversedRow.document []) =
        .ok (.compound (Row.fourFields ++ Row.idleMembers).reverse) ∧
      ∃ root node, loadStore "store.json" (.ok (Phrase.reversedDocument.document []).toUTF8) =
          .ok root ∧ root.at? [0] = some node ∧
        classify node.name node.payload =
          classify "list-0" (some ⟨[.compound (Row.fourFields ++ Row.idleMembers).reverse]⟩) ∧
        classify node.name node.payload = some (.list ⟨1, 2, 3, 4⟩) := by
  have hname : RecordKind.list.announcedBy "list-0" = true := by decide
  obtain ⟨horder, hloaded⟩ := classify_anyOrder hname
  have hwithin : Phrase.reversedRow.within? Json.maxDepth = some (.object [("channel_name",
      .integer 9), ("x", .array []), ("extendTime", .integer 4), ("adcValue", .integer 3),
      ("localTime_name", .integer 2), ("channel", .integer 1)]) := by rfl
  have hread : Row.read (Phrase.reversedRow.document []) =
      .ok (.compound (Row.fourFields ++ Row.idleMembers).reverse) :=
    Row.read_document hwithin []
  -- the members are the fields and the idle ones, in another order
  have hidle : ∀ m ∈ Row.idleMembers, RecordKind.list.Idle (Row.fourFields.map Prod.fst) m.1 := by
    simp only [Row.idleMembers, List.forall_mem_cons]
    exact ⟨.inl (by decide), .inr ⟨"channel", by decide, by decide, by decide⟩,
      List.forall_mem_nil _⟩
  have hsame := (horder Row.fourFields _ [] [] (by decide)
    ⟨Row.idleMembers, List.reverse_perm _, hidle⟩ rfl rfl).1
  -- the document is loaded, since its payload denotes something
  have hsketch : Phrase.reversedDocument.sketch? Json.maxDepth = some Sketch.reversed := by rfl
  have hpayloads : ∀ q ∈ Sketch.reversed.payloads Json.maxDepth,
      q.2.levels ≤ q.1 ∧ ∀ l ∈ q.2.lexemes, l.Denotes := by
    have hone : Sketch.reversed.payloads Json.maxDepth = [(124, .reversedPayload)] := by rfl
    rw [hone, List.forall_mem_singleton]
    exact ⟨by decide, (Phrase.isSome_value? _).1 (by decide)⟩
  obtain ⟨root, hroot⟩ := (loadStore_text hsketch [] "store.json").1.2 hpayloads
  obtain ⟨direct, node, hdirect, hnode, -, hrecord⟩ := hloaded _ _ [] _ root [0] [] _ .reversedRow
    [] [] hsketch hroot rfl rfl rfl
  obtain rfl := Except.ok.inj (hread.symm.trans hdirect)
  have hnode' := hrecord (by decide)
  exact ⟨hread, root, node, hroot, hnode, hnode', hnode'.trans hsame⟩

end EventLog
