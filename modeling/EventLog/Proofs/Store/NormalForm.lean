import EventLog.Proofs.Store.Outline

/-!
# Normal forms of stored trees

A tree that was put together in memory can have data that no snapshot has: members out of order or
twice, small numbers in unsigned cells, and numbers, strings or arrays kept as documents. Its normal
form is the tree with this data in the form that reading gives it, and nothing else changed. It is
what the documents of the tree are read as: `Cell.ofJson_toJson` for cells,
`Row.ofJson_sorted_toJson` for rows, `Dataset.ofDocument?_toJson_eq` for datasets and
`Node.node_outline` for trees. A normal form is its own normal form (`Node.normal_normal`) if the
integers of the tree fit a word.
-/

namespace EventLog

/-! ## Cells -/

namespace Cell

mutual

/-- The normal form of a cell: a number is signed if it fits a signed word, and a document is kept
as such only if it is a word or an object. -/
def normal : Cell → Cell
  | .integer n => .integer n
  | .unsigned n => if n.toNat < 2 ^ 63 then .integer (Int64.ofNat n.toNat) else .unsigned n
  | .float x => .float x
  | .text s => .text s
  | .sequence items => .sequence (normalItems items)
  | .other document => ofJson document

/-- The normal forms of cells. -/
def normalItems : List Cell → List Cell
  | [] => []
  | item :: rest => normal item :: normalItems rest

end

/-- `normalItems` per item. -/
theorem normalItems_eq_map (cells : List Cell) : normalItems cells = cells.map normal := by
  induction cells with
  | nil => rfl
  | cons cell rest ih => rw [normalItems, ih, List.map_cons]

/-- What passes from the items to a sequence holds of every cell. -/
@[induction_eliminator]
theorem induction {motive : Cell → Prop} (integer : ∀ n, motive (.integer n))
    (unsigned : ∀ n, motive (.unsigned n)) (float : ∀ x, motive (.float x))
    (text : ∀ s, motive (.text s))
    (sequence : ∀ items : List Cell, (∀ item ∈ items, motive item) → motive (.sequence items))
    (other : ∀ document, motive (.other document)) (cell : Cell) : motive cell :=
  @Cell.rec motive (fun items => ∀ item ∈ items, motive item)
    integer unsigned float text sequence other
    nofun (fun _ _ head tail => List.forall_mem_cons.2 ⟨head, tail⟩) cell

/-- A cell is read from its document in its normal form. -/
theorem ofJson_toJson (cell : Cell) : ofJson cell.toJson = cell.normal := by
  have hmax : Int64.maxValue.toInt = 2 ^ 63 - 1 := Int64.toInt_maxValue
  induction cell with
  | integer n => rw [toJson, ofJson, if_pos n.toInt_le, Int64.ofInt_toInt, normal]
  | unsigned n =>
    rw [toJson, ofJson, normal]
    by_cases h : n.toNat < 2 ^ 63
    · rw [if_pos (by omega), if_pos h]
      rfl
    · rw [if_neg (by omega), if_neg h, Int.toNat_natCast, UInt64.ofNat_toNat]
  | float x => rfl
  | text s => rfl
  | sequence items ih =>
    rw [toJson, ofJson, normal, toItems_eq_map, ofItems_eq_map, normalItems_eq_map, List.map_map]
    exact congrArg Cell.sequence (List.map_congr_left ih)
  | other document => rfl

end Cell

/-! ## Rows and datasets -/

/-- The normal form of a row: members by name, the last of equal names alone, and no object or array
kept as a document. -/
def Row.normal : Row → Row
  | .compound members => .compound (Json.byName (members.map fun m => (m.1, m.2.normal)))
  | .flat cells => .flat (cells.map Cell.normal)
  | .malformed (.object members) =>
    .compound (Json.byName (members.map fun m => (m.1, Cell.ofJson m.2)))
  | .malformed (.array items) => .flat (items.map Cell.ofJson)
  | .malformed document => .malformed document

/-- The row of a sorted object has the last member of each name, in the order of the names. -/
theorem Row.ofJson_sorted_object (members : List (String × Json)) :
    Row.ofJson (Json.object members).sorted =
      .compound (Json.byName (members.map fun m => (m.1, Cell.ofJson m.2))) := by
  rw [Json.sorted, Json.sortedMembers_eq_byName, Row.ofJson]
  refine congrArg Row.compound ((Json.byName_map Cell.ofJson _).symm.trans ?_)
  rw [List.map_map]
  refine congrArg Json.byName (List.map_congr_left fun m _ => ?_)
  exact congrArg (Prod.mk m.1) (Cell.ofJson_sorted m.2)

/-- The row of a sorted array has the cells of its items. -/
theorem Row.ofJson_sorted_array (items : List Json) :
    Row.ofJson (Json.array items).sorted = .flat (items.map Cell.ofJson) := by
  rw [Json.sorted_array, Row.ofJson, List.map_map]
  exact congrArg Row.flat (List.map_congr_left fun item _ => Cell.ofJson_sorted item)

/-- A row is read from its sorted document in its normal form. -/
theorem Row.ofJson_sorted_toJson (row : Row) : Row.ofJson row.toJson.sorted = row.normal := by
  cases row with
  | compound members =>
    rw [Row.toJson, Row.ofJson_sorted_object, List.map_map, Row.normal]
    refine congrArg (Row.compound ∘ Json.byName) (List.map_congr_left fun m _ => ?_)
    exact congrArg (Prod.mk m.1) (Cell.ofJson_toJson m.2)
  | flat cells =>
    rw [Row.toJson, Row.ofJson_sorted_array, List.map_map, Row.normal]
    exact congrArg Row.flat (List.map_congr_left fun cell _ => Cell.ofJson_toJson cell)
  | malformed document =>
    cases document with
    | null | bool _ | integer _ | float _ | string _ => rfl
    | array items => exact Row.ofJson_sorted_array items
    | object members => exact Row.ofJson_sorted_object members

/-- The normal form of a dataset, row by row. -/
def Dataset.normal (dataset : Dataset) : Dataset :=
  ⟨dataset.rows.map Row.normal⟩

/-- A dataset is read from its document in its normal form. -/
theorem Dataset.ofDocument?_toJson_eq (dataset : Dataset) :
    ofDocument? dataset.toJson = some dataset.normal := by
  rw [toJson, ofDocument?_rows, normal, List.map_map]
  refine congrArg (some ∘ Dataset.mk) (List.map_congr_left fun row _ => ?_)
  exact Row.ofJson_sorted_toJson row

/-! ## Trees -/

namespace Node

mutual

/-- The normal form of a tree: names, children and payloads stay where they are. -/
def normal : Node → Node
  | ⟨name, children, payload⟩ => ⟨name, normalAll children, payload.map Dataset.normal⟩

/-- The normal forms of nodes. -/
def normalAll : List Node → List Node
  | [] => []
  | node :: rest => normal node :: normalAll rest

end

/-- `normalAll` per node. -/
theorem normalAll_eq_map (nodes : List Node) : normalAll nodes = nodes.map normal := by
  induction nodes with
  | nil => rfl
  | cons node rest ih => rw [normalAll, ih, List.map_cons]

/-- The tree of the outline of a tree is its normal form. -/
theorem node_outline (node : Node) : node.outline.node = node.normal := by
  induction node with
  | mk name children payload ih =>
    have hchildren : Outline.nodes (outlines children) = normalAll children := by
      rw [Outline.nodes_eq_map, outlines_eq_map, normalAll_eq_map, List.map_map]
      exact List.map_congr_left ih
    have hpayload : (payload.map Dataset.toJson).bind Dataset.ofDocument? =
        payload.map Dataset.normal := by
      cases payload with
      | none => rfl
      | some dataset => exact Dataset.ofDocument?_toJson_eq dataset
    rw [outline, Outline.node, normal, hchildren, hpayload]

/-- A normal form is its own normal form, if every integer in the tree fits a word. -/
theorem normal_normal {node : Node} (h : ∀ x ∈ node.toJson.scalars, x.Fits) :
    node.normal.normal = node.normal := by
  rw [← node_outline node, ← node_outline]
  refine Outline.node_outline_node (d := node.toJson.depth) ?_
  rw [toJson_outline]
  exact ⟨Nat.le_refl _, h⟩

end Node

end EventLog
