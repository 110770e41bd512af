import EventLog.Proofs.Snapshot.Rewrite
import EventLog.Proofs.Walk.Exact

/-!
# The order of stored members

A compound row that is read by position depends on the order of its members. A payload is read as a
document first, and that has its members by name: `storedOrder_iff` says that a row is loaded as it
was stored, and its record is the one that was stored, exactly if the members stand in the order of
their names in the text.
-/

namespace EventLog

open Json (Ascending sortedMember sortedMembers)

/-! ## Loaded rows -/

/-- The first row of the dataset of a node. -/
def Node.firstRow? (node : Node) : Option Row :=
  node.payload.bind fun dataset => dataset.rows.head?

/-- A compound row as it is stored, with the members in the order of the text. -/
def Row.stored (members : List (String × Json)) : Row :=
  .compound (members.map fun (name, value) => (name, Cell.ofJson value))

/-- The names of the members of a row are those of the loaded row exactly if they are in order. -/
theorem stored_sortedMembers {members : List (String × Json)} :
    Row.stored (sortedMembers members) = Row.stored members ↔ Ascending members := by
  constructor
  · intro h
    have hnames := congrArg (List.map Prod.fst) (Row.compound.inj h)
    rw [List.map_map, List.map_map] at hnames
    have hascending := Json.ascending_sortedMembers members
    rw [Ascending, ← List.pairwise_map] at hascending ⊢
    exact hnames ▸ hascending
  · intro h
    rw [Json.sortedMembers_of_ascending h, Row.stored, List.map_map]
    refine congrArg Row.compound (List.map_congr_left fun m _ => ?_)
    exact congrArg (Prod.mk m.1) (Cell.ofJson_sorted m.2)

/-! ## Records by position -/

/-- The counter of an unsigned number in a document is that number. -/
theorem counter?_ofJson (n : UInt64) : (Cell.ofJson (.integer n.toNat)).counter? = some n := by
  have hmax : Int64.maxValue.toInt = 2 ^ 63 - 1 := Int64.toInt_maxValue
  rw [Cell.ofJson]
  split
  · next hsmall =>
    have hint : (Int64.ofInt n.toNat).toInt = n.toNat :=
      Int64.toInt_ofInt_of_le (by omega) (by omega)
    rw [Cell.counter?, hint, if_pos (Int.natCast_nonneg _), Int.toNat_natCast, UInt64.ofNat_toNat]
  · rw [Cell.counter?, Int.toNat_natCast, UInt64.ofNat_toNat]

/-- The counter at a position of a stored row is that of the value there. -/
theorem listField?_stored {members : List (String × Json)} {i : Nat} {n : UInt64} (name : String)
    (h : (members.map Prod.snd)[i]? = some (.integer n.toNat)) :
    (Row.stored members).listField? .flat name i = some n := by
  rw [List.getElem?_map, Option.map_eq_some_iff] at h
  obtain ⟨m, hm, hvalue⟩ := h
  have hcell : (Row.stored members).position? i = some (Cell.ofJson (.integer n.toNat)) := by
    rw [Row.stored, Row.position?, List.getElem?_map, hm, ← hvalue]
    rfl
  change ((Row.stored members).position? i).bind Cell.counter? = some n
  rw [hcell, Option.bind_some, counter?_ofJson]

/-- The list element of a stored row with four counters in front has these. -/
theorem listElement?_stored {members : List (String × Json)} {a b c d : UInt64}
    {others : List Json} (h : members.map Prod.snd =
      .integer a.toNat :: .integer b.toNat :: .integer c.toNat :: .integer d.toNat :: others) :
    (Row.stored members).listElement? .flat = some ⟨a, b, c, d⟩ := by
  have hchannel := listField?_stored "channel" (i := 0) (n := a) (by rw [h]; rfl)
  have hlocal := listField?_stored "localTime" (i := 1) (n := b) (by rw [h]; rfl)
  have hadc := listField?_stored "adcValue" (i := 2) (n := c) (by rw [h]; rfl)
  have hextend := listField?_stored "extendTime" (i := 3) (n := d) (by rw [h]; rfl)
  simp [Row.listElement?, hchannel, hlocal, hadc, hextend]

/-- A list element in a dataset of several rows is the one in the first row, by position. -/
theorem classify_flat {name : String} (hname : RecordKind.list.announcedBy name = true)
    {row second : Row} {rest : List Row} :
    classify name (some ⟨row :: second :: rest⟩) = (row.listElement? .flat).map Record.list := by
  have hkind : RecordKind.ofName? name = some .list := if_pos hname
  simp only [classify, hkind, Option.map_eq_bind]
  rfl

/-! ## Stored order -/

/-- The table of a tree has a line for the node at an address, of this record. -/
def ExportsAt (settings : TableSettings) (root : Node) (address : List Nat) (record : Record) :
    Prop :=
  ∃ (k : Nat) (d : Node.Descendant) (visit : Visit),
    root.descendants[k]? = some d ∧ d.address = address ∧
    (walk settings.includeGlobalTime root)[k]? = some visit ∧ visit.record = some record ∧
    record.render settings.includeGlobalTime visit.context ∈ exportLines settings root

/-- The table of a tree has a line for every record below the root. -/
theorem exportsAt_of_reaches (settings : TableSettings) {root node : Node} {address : List Nat}
    {names : List String} (h : root.Reaches address names node) {record : Record}
    (hrecord : classify node.name node.payload = some record) :
    ExportsAt settings root address record := by
  have hmem : ⟨address, names, node⟩ ∈ root.descendants := Node.mem_descendants.2 h
  obtain ⟨k, hk⟩ := List.getElem?_of_mem hmem
  let visit := (Standing.root.along settings.includeGlobalTime names).visit node
  have hvisit : (walk settings.includeGlobalTime root)[k]? = some visit := by
    rw [walk_eq_map, List.getElem?_map, hk]
    rfl
  have hline : visit.line? settings.includeGlobalTime =
      some (record.render settings.includeGlobalTime visit.context) := by
    rw [Visit.line?, show visit.record = some record from hrecord]
    rfl
  refine ⟨k, _, visit, hk, rfl, hvisit, hrecord, ?_⟩
  have hmemline := List.mem_filterMap.2 ⟨visit, List.mem_of_getElem? hvisit, hline⟩
  unfold exportLines
  split
  · exact (List.mergeSort_perm _ _).mem_iff.2 hmemline
  · exact hmemline

/-- The first row of a loaded node has the members by their names. -/
theorem firstRow?_node (name : String) (children : List Outline) (members : List (String × Json))
    (later : List Json) :
    (Outline.node ⟨name, children, some (.object
      [("rows", .array (.object members :: later))])⟩).firstRow? =
        some (Row.stored (sortedMembers members)) := by
  rw [Outline.node, Option.bind_some, Dataset.ofDocument?_rows]
  rfl

/-- The record of a loaded node with several rows is read from its first row by position. -/
theorem classify_node {name : String} (hname : RecordKind.list.announcedBy name = true)
    (children : List Outline) (members : List (String × Json)) (second : Json) (later : List Json) :
    classify name (Outline.node ⟨name, children, some (.object
      [("rows", .array (.object members :: second :: later))])⟩).payload =
        ((Row.stored (sortedMembers members)).listElement? .flat).map Record.list := by
  rw [Outline.node, Option.bind_some, Dataset.ofDocument?_rows]
  exact classify_flat hname

/-- A snapshot has a node that is named as a list element and has several rows, the first of them an
object with distinct names and four counters in front. That row is loaded with its members by their
names, so it is the row as it is stored, and these counters are the record of the node and in its
line, exactly if the members are in the order of their names in the text. -/
theorem storedOrder_iff {text : String} {source : Outline}
    (hsource : Snapshot.outline text = .ok source) {address : List Nat} {name : String}
    {children : List Outline} {members : List (String × Json)} {second : Json} {later : List Json}
    (hat : source.at? address = some ⟨name, children, some (.object
      [("rows", .array (.object members :: second :: later))])⟩)
    (hname : RecordKind.list.announcedBy name = true)
    (hdistinct : (members.map Prod.fst).Nodup) {a b c d : UInt64} {others : List Json}
    (hvalues : members.map Prod.snd =
      .integer a.toNat :: .integer b.toNat :: .integer c.toNat :: .integer d.toNat :: others)
    (path : String) :
    loadStore path (.ok text.toUTF8) = .ok source.node ∧
      ∃ node, source.node.at? address = some node ∧ node.name = name ∧
        node.firstRow? = some (Row.stored (sortedMembers members)) ∧
        (sortedMembers members).Perm (members.map sortedMember) ∧
        ((node.firstRow? = some (Row.stored members) ∧
            classify node.name node.payload = some (.list ⟨a, b, c, d⟩) ∧
            (address ≠ [] → ∀ settings,
              ExportsAt settings source.node address (.list ⟨a, b, c, d⟩))) ↔
          Ascending members) := by
  have hload : loadStore path (.ok text.toUTF8) = .ok source.node := by
    rw [loadStore, fileText_toUTF8]
    simp only [Snapshot.read, hsource, Except.map, Except.mapError]
  have hnode := Outline.at?_node source address
  rw [hat] at hnode
  have hrow := firstRow?_node name children members (second :: later)
  have hrecord := classify_node hname children members second later
  refine ⟨hload, _, hnode, rfl, hrow, Json.sortedMembers_perm hdistinct, ?_⟩
  rw [hrow, Option.some.injEq, stored_sortedMembers]
  refine ⟨fun h => h.1, fun hascending => ?_⟩
  rw [stored_sortedMembers.2 hascending, listElement?_stored hvalues] at hrecord
  refine ⟨hascending, hrecord, fun hne settings => ?_⟩
  obtain ⟨names, hreaches⟩ := Node.exists_reaches_of_at? hnode hne
  exact exportsAt_of_reaches settings hreaches hrecord

/-- A snapshot with a list element of two rows, the first with these members. -/
def Outline.ofMembers (members : List (String × Json)) : Outline :=
  ⟨"/", [⟨"list-0", [], some (.object [("rows", .array [.object members, .array []])])⟩], none⟩

/-- Members in the order of their names. -/
def membersByName : List (String × Json) :=
  [("a", .integer 1), ("b", .integer 2), ("c", .integer 3), ("d", .integer 4)]

/-- Members in the order of the fields of a list element. -/
def membersByField : List (String × Json) :=
  [("channel", .integer 1), ("localTime", .integer 2), ("adcValue", .integer 3),
    ("extendTime", .integer 4)]

/-- The text of the snapshot with members in the order of their names. -/
def Snapshot.textByName : String :=
  "\x7b\"name\":\"/\",\"children\":[\x7b\"name\":\"list-0\",\"payload\":\x7b\"rows\":[" ++
    "\x7b\"a\":1,\"b\":2,\"c\":3,\"d\":4\x7d,[]]\x7d\x7d]\x7d"

/-- The text of the snapshot with members in the order of the fields. -/
def Snapshot.textByField : String :=
  "\x7b\"name\":\"/\",\"children\":[\x7b\"name\":\"list-0\",\"payload\":\x7b\"rows\":[" ++
    "\x7b\"channel\":1,\"localTime\":2,\"adcValue\":3,\"extendTime\":4\x7d,[]]\x7d\x7d]\x7d"

/-- A row with its members by name is loaded as it is stored, and its counters are in its line. -/
theorem storedOrder_iff_byName :
    Snapshot.outline Snapshot.textByName = .ok (.ofMembers membersByName) ∧
      ExportsAt TableSettings.default (Outline.ofMembers membersByName).node [0]
        (.list ⟨1, 2, 3, 4⟩) := by
  have hsource : Snapshot.outline Snapshot.textByName = .ok (.ofMembers membersByName) := by cbv
  have hat : (Outline.ofMembers membersByName).at? [0] = some ⟨"list-0", [], some (.object
      [("rows", .array (.object membersByName :: .array [] :: []))])⟩ := rfl
  have hvalues : membersByName.map Prod.snd = .integer (1 : UInt64).toNat ::
      .integer (2 : UInt64).toNat :: .integer (3 : UInt64).toNat :: .integer (4 : UInt64).toNat ::
      [] := rfl
  have hascending : Ascending membersByName := by decide
  obtain ⟨-, node, -, -, -, -, hiff⟩ :=
    storedOrder_iff hsource hat rfl (by decide) hvalues "out.json"
  exact ⟨hsource, (hiff.2 hascending).2.2 (by decide) TableSettings.default⟩

/-- A row with its members by field is loaded in another order, and its counters are in other fields
of the record. -/
theorem storedOrder_lost :
    Snapshot.outline Snapshot.textByField = .ok (.ofMembers membersByField) ∧
      Snapshot.read Snapshot.textByField = .ok (Outline.ofMembers membersByField).node ∧
      ∃ node, (Outline.ofMembers membersByField).node.at? [0] = some node ∧
        node.firstRow? = some (.compound [("adcValue", .integer 3), ("channel", .integer 1),
          ("extendTime", .integer 4), ("localTime", .integer 2)]) ∧
        node.firstRow? ≠ some (Row.stored membersByField) ∧
        classify node.name node.payload = some (.list ⟨3, 1, 4, 2⟩) := by
  have hsource : Snapshot.outline Snapshot.textByField = .ok (.ofMembers membersByField) := by cbv
  have hread : Snapshot.read Snapshot.textByField =
      .ok (Outline.ofMembers membersByField).node := by
    simp only [Snapshot.read, hsource, Except.map]
  have hrecord : classify "list-0" (some ⟨[.compound [("adcValue", .integer 3),
      ("channel", .integer 1), ("extendTime", .integer 4), ("localTime", .integer 2)], .flat []]⟩) =
        some (.list ⟨3, 1, 4, 2⟩) := by rfl
  refine ⟨hsource, hread, _, rfl, rfl, fun h => ?_, hrecord⟩
  have hnames := congrArg (List.map Prod.fst) (Row.compound.inj (Option.some.inj h))
  exact absurd hnames (by decide)

end EventLog
