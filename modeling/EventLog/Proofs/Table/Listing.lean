import Mathlib.Data.List.Forall2
import EventLog.Listing
import EventLog.Proofs.Walk.GlobalTime
import EventLog.Table

/-!
# Tables and listings of the same records

A table and a listing are made from the same records, in the same order (`listing_exportLines`): the
nodes below the root that are records, each with the path and the context of its names. Whether
global times are included makes a difference to contexts only, so a listing does not have to know
it. A record takes one line of a table and five of a listing, and so the records of a listing are
found by counting.
-/

namespace EventLog

open Node (Descendant)

/-- A record where it was found: its path, what was inherited on the way to it, and what it is. -/
structure PlacedRecord where
  path : String
  context : Context
  record : Record

/-- The record of a node below the root, where it was found, if it is one. -/
def Node.Descendant.placed? (globalTime : Bool) (d : Descendant) : Option PlacedRecord :=
  (classify d.node.name d.node.payload).map fun record =>
    let standing := Standing.root.along globalTime d.names
    ⟨standing.path, standing.context, record⟩

/-- The records below a root, in the order of the walk. -/
def Node.placedRecords (globalTime : Bool) (root : Node) : List PlacedRecord :=
  root.descendants.filterMap (Descendant.placed? globalTime)

/-! ## Both forms -/

/-- The path along names does not depend on global times. -/
theorem path_along_root (globalTime : Bool) (names : List String) :
    (Standing.root.along globalTime names).path = (Standing.root.along false names).path :=
  (Standing.path_along globalTime Standing.root names).trans
    (Standing.path_along false Standing.root names).symm

/-- Where the records stand and what they are does not depend on global times. -/
theorem map_placedRecords (globalTime : Bool) (root : Node) :
    (root.placedRecords globalTime).map (fun r => (r.path, r.record)) =
      (root.placedRecords false).map fun r => (r.path, r.record) := by
  rw [Node.placedRecords, Node.placedRecords, List.map_filterMap, List.map_filterMap]
  refine List.filterMap_congr fun d _ => ?_
  rw [Descendant.placed?, Descendant.placed?, Option.map_map, Option.map_map]
  refine congrArg (Option.map · _) (funext fun record => congrArg (·, record) ?_)
  exact path_along_root globalTime d.names

/-- The lines of a table are those of the records. -/
theorem exportLines_eq_map (globalTime : Bool) (root : Node) :
    exportLines ⟨globalTime, false⟩ root =
      (root.placedRecords globalTime).map fun r => r.record.render globalTime r.context := by
  rw [exportLines, if_neg Bool.false_ne_true, walk_eq_map, List.filterMap_map, Node.placedRecords,
    List.map_filterMap]
  refine List.filterMap_congr fun d _ => ?_
  rw [Descendant.placed?, Option.map_map]
  rfl

/-- The lines of a visit of a listed node are those of its record. -/
theorem lines_visit (d : Descendant) :
    ((Standing.root.along false d.names).visit d.node).lines =
      (d.placed? false).toList.flatMap fun r => r.record.describe r.path := by
  rw [Descendant.placed?, Standing.visit, Visit.lines]
  cases classify d.node.name d.node.payload with
  | none => rfl
  | some record => exact (List.flatMap_singleton _ _).symm

/-- The lines of a listing are those of the records, whether global times are included or not. -/
theorem listing_eq_flatMap (globalTime : Bool) (root : Node) :
    listing root =
      (root.placedRecords globalTime).flatMap fun r => r.record.describe r.path := by
  have hfalse : listing root =
      (root.placedRecords false).flatMap fun r => r.record.describe r.path := by
    rw [listing, walk_eq_map, List.flatMap_map, Node.placedRecords,
      List.filterMap_eq_flatMap_toList, List.flatMap_assoc]
    exact List.flatMap_congr fun d _ => lines_visit d
  have hdescribe : ∀ placed : List PlacedRecord,
      (placed.flatMap fun r => r.record.describe r.path) =
        (placed.map fun r => (r.path, r.record)).flatMap fun r => r.2.describe r.1 :=
    fun placed => by rw [List.flatMap_map]
  rw [hfalse, hdescribe, hdescribe, map_placedRecords globalTime]

/-! ## Groups of five -/

/-- Every record is described in five lines. -/
theorem length_describe (path : String) (record : Record) :
    (record.describe path).length = 5 := by
  cases record <;> rfl

/-- Groups of one length have the length of all together. -/
theorem length_flatMap_of_length {α β : Type} {f : α → List β} {width : Nat}
    (hwidth : ∀ a, (f a).length = width) (l : List α) :
    (l.flatMap f).length = width * l.length := by
  induction l with
  | nil => rfl
  | cons a l ih =>
    rw [List.flatMap_cons, List.length_append, hwidth, ih, List.length_cons, Nat.mul_succ,
      Nat.add_comm]

/-- Groups of one length are found by counting. -/
theorem take_drop_flatMap {α β : Type} {f : α → List β} {width : Nat}
    (hwidth : ∀ a, (f a).length = width) {l : List α} {i : Nat} {a : α} (h : l[i]? = some a) :
    ((l.flatMap f).drop (width * i)).take width = f a := by
  induction l generalizing i with
  | nil => cases h
  | cons b l ih =>
    rw [List.flatMap_cons]
    cases i with
    | zero =>
      obtain rfl : b = a := Option.some.inj h
      rw [Nat.mul_zero, List.drop_zero, ← hwidth b, List.take_left]
    | succ i =>
      have hdrop : (f b ++ l.flatMap f).drop width = l.flatMap f := by
        rw [← hwidth b, List.drop_left]
      rw [Nat.mul_succ, Nat.add_comm, ← List.drop_drop, hdrop]
      exact ih h

/-! ## Records that one form has and the other not -/

/-- A visit has no line in a table if it is not one of a record. -/
theorem line?_eq_none {globalTime : Bool} {visit : Visit} :
    visit.line? globalTime = none ↔ visit.record = none :=
  Option.map_eq_none_iff

/-- A visit has no lines in a listing if it is not one of a record. -/
theorem lines_eq_nil {visit : Visit} : visit.lines = [] ↔ visit.record = none := by
  rw [Visit.lines]
  cases visit.record with
  | none => exact iff_of_true rfl rfl
  | some record =>
    refine iff_of_false (List.ne_nil_of_length_pos ?_) (Option.some_ne_none record)
    rw [length_describe]
    decide

/-- A visit for a table and one for a listing are of the same node, and it has a line in the one if
it has lines in the other. -/
structure Visit.Aligned (globalTime : Bool) (table listing : Visit) : Prop where
  path : table.path = listing.path
  node : table.node = listing.node
  record : table.record = listing.record
  absent : table.line? globalTime = none ↔ listing.lines = []

/-- The walks for a table and for a listing come to the same nodes, one after the other. -/
theorem walk_aligned (globalTime : Bool) (root : Node) :
    List.Forall₂ (Visit.Aligned globalTime) (walk globalTime root) (walk false root) := by
  rw [walk_eq_map, walk_eq_map, List.forall₂_map_left_iff, List.forall₂_map_right_iff,
    List.forall₂_same]
  intro d _
  refine ⟨path_along_root globalTime d.names, rfl, rfl, ?_⟩
  rw [line?_eq_none, lines_eq_nil]
  rfl

/-- A table in the order of the walk and a listing are made from one list of records. Paths and
records in it do not depend on global times. The table has the line of each record, and the listing
has five lines of each: its kind and path, and its fields in the order of the kind. So the listing
is five times as long, and the record of a line is described in the group of five at its place. A
node that the walk takes for no record has lines in neither of them. -/
theorem listing_exportLines (globalTime : Bool) (root : Node) :
    (root.placedRecords globalTime).map (fun r => (r.path, r.record)) =
        (root.placedRecords false).map (fun r => (r.path, r.record)) ∧
      exportLines ⟨globalTime, false⟩ root =
        ((root.placedRecords globalTime).map fun r => r.record.render globalTime r.context) ∧
      listing root =
        ((root.placedRecords globalTime).flatMap fun r => r.record.describe r.path) ∧
      (∀ path e, Record.describe path (.list e) =
        ["List Element: " ++ path, "    channel " ++ counterText e.channel,
          "    localTime " ++ counterText e.localTime, "    adcValue " ++ counterText e.adcValue,
          "    extendTime " ++ counterText e.extendTime]) ∧
      (∀ path w, Record.describe path (.waveform w) =
        ["Waveform Element: " ++ path, "    channel " ++ counterText w.channel,
          "    localTime " ++ counterText w.localTime,
          "    extendTime " ++ counterText w.extendTime,
          "    waveform " ++ displayAll w.samples]) ∧
      (listing root).length = 5 * (exportLines ⟨globalTime, false⟩ root).length ∧
      (∀ i r, (root.placedRecords globalTime)[i]? = some r →
        (exportLines ⟨globalTime, false⟩ root)[i]? = some (r.record.render globalTime r.context) ∧
          ((listing root).drop (5 * i)).take 5 = r.record.describe r.path) ∧
      List.Forall₂ (Visit.Aligned globalTime) (walk globalTime root) (walk false root) := by
  have hexport := exportLines_eq_map globalTime root
  have hlisting := listing_eq_flatMap globalTime root
  have hfive : ∀ r : PlacedRecord, (r.record.describe r.path).length = 5 :=
    fun r => length_describe r.path r.record
  refine ⟨map_placedRecords globalTime root, hexport, hlisting, fun path e => ?_, fun path w => ?_,
    ?_, fun i r hr => ⟨?_, ?_⟩, walk_aligned globalTime root⟩
  · simp [Record.describe, ListElement.fieldNames, fieldLine]
  · simp [Record.describe, WaveformElement.fieldNames, fieldLine]
  · rw [hlisting, hexport, List.length_map, length_flatMap_of_length hfive]
  · rw [hexport, List.getElem?_map, hr]
    rfl
  · rw [hlisting]
    exact take_drop_flatMap hfive hr

end EventLog
