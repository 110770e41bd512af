import Mathlib.Data.List.Forall2
import EventLog.Proofs.Text.SortedBy
import EventLog.Proofs.Walk.Sightings

/-!
# The order of siblings

`exportLines_rearranged`: a tree with the children of its nodes in another order, at any depth, has
the same table up to the order of the lines, and the same sorted texts. What the walk says below a
node is put together from what it says of each child (`seenBelow_mk`), and each of these parts knows
where the walk stands at the node but nothing of the other children. So the parts change places when
the children do, and the induction over the tree takes care of what is rearranged inside of them.
-/

namespace EventLog

/-- A tree with the children of any of its nodes in another order: what is below the children is
rearranged first, and then the children are. -/
inductive Node.Rearranged : Node → Node → Prop
  | node {name : String} {payload : Option Dataset} {children inside reordered : List Node}
    (hinside : List.Forall₂ Rearranged children inside) (hreordered : inside.Perm reordered) :
    Rearranged ⟨name, children, payload⟩ ⟨name, reordered, payload⟩

/-! ## What is said below a node -/

/-- What the walk says of the nodes below a node, where it stands at that node. -/
def seenBelow (globalTime : Bool) (s : Standing) (node : Node) : List Sighting :=
  (visitsBelow globalTime s.path s.context node).map Visit.sighting

/-- What the walk says of a child and of the nodes below it, where it stands at the parent. -/
def seenAt (globalTime : Bool) (s : Standing) (child : Node) : List Sighting :=
  (s.enter globalTime child.name).sighting child.name child.payload ::
    seenBelow globalTime (s.enter globalTime child.name) child

/-- What is said below a node is what is said of each child, one after the other. -/
theorem seenBelow_mk (globalTime : Bool) (s : Standing) (name : String) (children : List Node)
    (payload : Option Dataset) :
    seenBelow globalTime s ⟨name, children, payload⟩ = children.flatMap (seenAt globalTime s) := by
  change (visitsOf globalTime s.path s.context children).map Visit.sighting = _
  induction children with
  | nil => rfl
  | cons child rest ih =>
    rw [visitsOf, List.map_cons, List.map_append, ih]
    rfl

/-- What is said of a child does not depend on its siblings. -/
theorem seenBelow_siblings (globalTime : Bool) (s : Standing) (name : String)
    (front rear : List Node) (child : Node) (payload : Option Dataset) :
    seenBelow globalTime s ⟨name, front ++ child :: rear, payload⟩ =
      seenBelow globalTime s ⟨name, front, payload⟩ ++ seenAt globalTime s child ++
        seenBelow globalTime s ⟨name, rear, payload⟩ := by
  rw [seenBelow_mk, seenBelow_mk, seenBelow_mk, List.flatMap_append, List.flatMap_cons,
    List.append_assoc]

/-- Parts that are permutations of each other, one by one, make up permutations. -/
theorem perm_flatMap_of_forall₂ {α β : Type} {f : α → List β} {l l' : List α}
    (h : List.Forall₂ (fun a b => (f a).Perm (f b)) l l') : (l.flatMap f).Perm (l'.flatMap f) := by
  induction h with
  | nil => exact .refl []
  | cons hab _ ih => exact hab.append ih

namespace Node.Rearranged

theorem refl (node : Node) : node.Rearranged node := by
  induction node with
  | mk name children payload ih => exact .node (List.forall₂_same.2 ih) (.refl children)

theorem name_eq {node other : Node} (h : node.Rearranged other) : node.name = other.name := by
  cases h
  rfl

theorem payload_eq {node other : Node} (h : node.Rearranged other) :
    node.payload = other.payload := by
  cases h
  rfl

/-- Wherever the walk stands at a node, it says the same below the rearranged node, in another
order. -/
theorem perm_seenBelow {node other : Node} (h : node.Rearranged other) (globalTime : Bool)
    (s : Standing) : (seenBelow globalTime s node).Perm (seenBelow globalTime s other) := by
  induction node generalizing other s with
  | mk name children payload ih =>
    obtain ⟨hinside, hreordered⟩ := h
    have hparts := (List.forall₂_and_left _ _).2 ⟨ih, hinside⟩
    rw [seenBelow_mk, seenBelow_mk]
    refine (perm_flatMap_of_forall₂ (hparts.imp ?_)).trans (hreordered.flatMap_right _)
    rintro child inside ⟨hchild, hrearranged⟩
    rw [seenAt, seenAt, ← hrearranged.name_eq, ← hrearranged.payload_eq]
    exact (hchild hrearranged _).cons _

end Node.Rearranged

/-! ## Tables -/

/-- Sorting puts the texts of lines in order. -/
theorem map_text_sortLines (ls : List Line) :
    (sortLines ls).map Line.text = (ls.map Line.text).mergeSort fun a b => a ≤ b :=
  List.map_mergeSort fun _ _ _ _ => rfl

/-- Sorted texts do not depend on the order that the lines had. -/
theorem map_text_sortLines_of_perm {ls ls' : List Line} (h : ls.Perm ls') :
    (sortLines ls).map Line.text = (sortLines ls').map Line.text := by
  have hsorted : ∀ texts : List String,
      (texts.mergeSort fun a b => a ≤ b).Pairwise fun a b => a ≤ b :=
    Text.pairwise_mergeSort_le id
  rw [map_text_sortLines, map_text_sortLines]
  refine List.Perm.eq_of_pairwise (fun a b _ _ => String.le_antisymm) (hsorted _) (hsorted _) ?_
  exact (List.mergeSort_perm _ _).trans ((h.map _).trans (List.mergeSort_perm _ _).symm)

/-- In a tree with the children of any of its nodes in another order, the walk says the same, with
the same serials and global times, in another order. A table in the order of the walk has the same
lines in another order, and a sorted table has the same texts in the same order. What is said of a
child and of the nodes below it does not depend on its siblings. -/
theorem exportLines_rearranged {root root' : Node} (h : root.Rearranged root')
    (globalTime : Bool) :
    (sightings globalTime root).Perm (sightings globalTime root') ∧
      (exportLines ⟨globalTime, false⟩ root).Perm (exportLines ⟨globalTime, false⟩ root') ∧
      (exportLines ⟨globalTime, true⟩ root).map Line.text =
        (exportLines ⟨globalTime, true⟩ root').map Line.text ∧
      ∀ s name front child rear payload,
        seenBelow globalTime s ⟨name, front ++ child :: rear, payload⟩ =
          seenBelow globalTime s ⟨name, front, payload⟩ ++ seenAt globalTime s child ++
            seenBelow globalTime s ⟨name, rear, payload⟩ := by
  have hseen : (sightings globalTime root).Perm (sightings globalTime root') :=
    h.perm_seenBelow globalTime Standing.root
  have hlines : (exportLines ⟨globalTime, false⟩ root).Perm
      (exportLines ⟨globalTime, false⟩ root') := by
    rw [exportLines_eq_filterMap, exportLines_eq_filterMap]
    exact hseen.filterMap _
  exact ⟨hseen, hlines, map_text_sortLines_of_perm hlines,
    fun s name front child rear payload => seenBelow_siblings globalTime s name front rear child
      payload⟩

/-- A record at the local time. -/
def Node.recordAt (name : String) (localTime : Int64) : Node :=
  ⟨name, [], some ⟨[.flat [.integer 1, .integer localTime, .integer 0, .integer 0], .flat []]⟩⟩

/-- A tree with two devices of two records each. -/
def Node.twoDevices : Node :=
  ⟨"/", [
    ⟨"dig_2", [⟨"blk_8", [.recordAt "list-0" 20, .recordAt "list-1" 10], none⟩], none⟩,
    ⟨"dig_1", [⟨"blk_9", [.recordAt "list-0" 40, .recordAt "list-1" 30], none⟩], none⟩], none⟩

/-- That tree with the devices the other way round, and the records of one of them. -/
def Node.twoDevicesRearranged : Node :=
  ⟨"/", [
    ⟨"dig_1", [⟨"blk_9", [.recordAt "list-1" 30, .recordAt "list-0" 40], none⟩], none⟩,
    ⟨"dig_2", [⟨"blk_8", [.recordAt "list-0" 20, .recordAt "list-1" 10], none⟩], none⟩], none⟩

/-- The table of the devices the other way round has the same lines, and the same sorted texts. -/
theorem exportLines_rearranged_twoDevices :
    Node.twoDevices.Rearranged Node.twoDevicesRearranged ∧
      (exportLines ⟨true, false⟩ Node.twoDevices).Perm
        (exportLines ⟨true, false⟩ Node.twoDevicesRearranged) ∧
      (exportLines ⟨true, true⟩ Node.twoDevices).map Line.text =
        (exportLines ⟨true, true⟩ Node.twoDevicesRearranged).map Line.text ∧
      (exportLines ⟨true, false⟩ Node.twoDevices).map (fun l => (l.serial, l.globalTime)) =
        [(some "2", some "8"), (some "2", some "8"), (some "1", some "9"),
          (some "1", some "9")] := by
  have hrecords : Node.Rearranged
      ⟨"dig_1", [⟨"blk_9", [.recordAt "list-0" 40, .recordAt "list-1" 30], none⟩], none⟩
      ⟨"dig_1", [⟨"blk_9", [.recordAt "list-1" 30, .recordAt "list-0" 40], none⟩], none⟩ :=
    .node (.cons (.node (List.forall₂_same.2 fun node _ => .refl node) (.swap _ _ [])) .nil)
      (.refl _)
  have hrearranged : Node.twoDevices.Rearranged Node.twoDevicesRearranged :=
    .node (.cons (.refl _) (.cons hrecords .nil)) (.swap _ _ [])
  obtain ⟨-, hlines, htexts, -⟩ := exportLines_rearranged hrearranged true
  exact ⟨hrearranged, hlines, htexts, by decide⟩

end EventLog
