import EventLog.Proofs.Store.Node
import EventLog.Proofs.Walk.Paths
import EventLog.Table

/-!
# The walk and its table in closed form

`walk_eq_map`: the walk visits the nodes below the root as they are listed, and what it says of a
node depends on the names on the way alone. `walk_exact`: where all these names are plain, that is
the path, the context and the record in closed form. The induction over the tree knows nothing of
paths, and the one along names nothing of trees.
-/

namespace EventLog

open Node (Descendant descendantsFrom)

/-! ## Visits -/

/-- Where the walk stands: at a path, with what was inherited on the way. -/
structure Standing where
  path : String
  context : Context

namespace Standing

/-- Where the walk begins. -/
def root : Standing := ⟨"/", Context.empty⟩

/-- Where the walk stands at a child. -/
def enter (globalTime : Bool) (s : Standing) (name : String) : Standing :=
  ⟨childPath s.path name, s.context.derive globalTime (childPath s.path name) name⟩

/-- Where the walk stands behind names. -/
def along (globalTime : Bool) (s : Standing) (names : List String) : Standing :=
  names.foldl (enter globalTime) s

/-- The visit of a node there. -/
def visit (s : Standing) (node : Node) : Visit :=
  ⟨s.path, node, s.context, classify node.name node.payload⟩

end Standing

/-- The walk below a node visits what is listed there, wherever it stands. -/
def WalksAsListed (globalTime : Bool) (node : Node) : Prop :=
  ∀ s : Standing, visitsBelow globalTime s.path s.context node =
    node.descendants.map fun d => (s.along globalTime d.names).visit d.node

/-- Children are visited as listed if that is so below each of them. -/
theorem visitsOf_eq_map {globalTime : Bool} {children : List Node}
    (hwalk : ∀ child ∈ children, WalksAsListed globalTime child) (i : Nat) (s : Standing) :
    visitsOf globalTime s.path s.context children =
      (descendantsFrom i children).map fun d => (s.along globalTime d.names).visit d.node := by
  induction children generalizing i with
  | nil => rfl
  | cons child rest ih =>
    obtain ⟨hchild, hrest⟩ := List.forall_mem_cons.1 hwalk
    have hvisits := hchild (s.enter globalTime child.name)
    rw [Standing.enter] at hvisits
    rw [visitsOf, descendantsFrom, List.map_cons, List.map_append, List.map_map,
      ← ih hrest (i + 1)]
    simp only [hvisits]
    rfl

/-- The walk below every node visits what is listed there. -/
theorem walksAsListed (globalTime : Bool) (node : Node) : WalksAsListed globalTime node := by
  induction node with
  | mk name children payload ih => exact visitsOf_eq_map ih 0

/-- The walk visits what is listed below the root. -/
theorem walk_eq_map (globalTime : Bool) (root : Node) :
    walk globalTime root = root.descendants.map fun d =>
      (Standing.root.along globalTime d.names).visit d.node :=
  walksAsListed globalTime root Standing.root

/-! ## Plain names -/

/-- Behind plain names, the walk stands at the path along them, with the context along them. -/
theorem along_walkPath (globalTime : Bool) {front names : List String}
    (hfront : ∀ n ∈ front, PlainName n) (hnames : ∀ n ∈ names, PlainName n) :
    Standing.along globalTime ⟨walkPath front, contextOf globalTime front⟩ names =
      ⟨walkPath (front ++ names), contextOf globalTime (front ++ names)⟩ := by
  induction names generalizing front with
  | nil => rw [List.append_nil]; rfl
  | cons name rest ih =>
    obtain ⟨hname, hrest⟩ := List.forall_mem_cons.1 hnames
    have hall : ∀ n ∈ front ++ [name], PlainName n :=
      List.forall_mem_append.2 ⟨hfront, List.forall_mem_singleton.2 hname⟩
    have henter : Standing.enter globalTime ⟨walkPath front, contextOf globalTime front⟩ name =
        ⟨walkPath (front ++ [name]), contextOf globalTime (front ++ [name])⟩ := by
      rw [Standing.enter, childPath_walkPath hfront, derive_contextOf globalTime hfront hname,
        walkPath_append]
    rw [Standing.along, List.foldl_cons, henter, List.append_cons front name rest]
    exact ih hall hrest

/-- The visit of a node behind names. -/
def visitAlong (globalTime : Bool) (names : List String) (node : Node) : Visit where
  path := pathOf names
  node := node
  context := contextOf globalTime names
  record := classify node.name node.payload

/-- The visit of a node below the root, behind plain names. -/
theorem visit_along {globalTime : Bool} {root node : Node} {address : List Nat}
    {names : List String} (h : root.Reaches address names node)
    (hnames : ∀ n ∈ names, PlainName n) :
    (Standing.root.along globalTime names).visit node = visitAlong globalTime names node := by
  have hne : names ≠ [] := by cases h <;> exact List.cons_ne_nil _ _
  have hfront : ∀ n ∈ ([] : List String), PlainName n := nofun
  have halong := along_walkPath globalTime hfront hnames
  rw [contextOf_nil, List.nil_append, walkPath, walkPath, if_pos rfl, if_neg hne] at halong
  rw [Standing.root, halong]
  rfl

/-! ## Tables -/

/-- The line of a node behind names, if it is a record. -/
def lineAlong? (globalTime : Bool) (names : List String) (node : Node) : Option Line :=
  (classify node.name node.payload).map fun record =>
    record.render globalTime (contextOf globalTime names)

/-- Where all names below the root are plain, the walk visits each node below the root once, depth
first and in the order of the children, with the path, the context and the record that the names on
the way give, and an unsorted table has the lines of the records in this order. The identifier in a
name is behind its first underscore, if there is one. The name and the payload of the root make no
difference. -/
theorem walk_exact (globalTime : Bool) {root : Node}
    (h : ∀ d ∈ root.descendants, PlainName d.node.name) :
    walk globalTime root =
        (root.descendants.map fun d => visitAlong globalTime d.names d.node) ∧
      (root.descendants.Pairwise fun a b => a.address < b.address) ∧
      (∀ d, d ∈ root.descendants ↔ root.Reaches d.address d.names d.node) ∧
      (∀ d ∈ root.descendants, d.names.getLast? = some d.node.name) ∧
      (∀ name rest, suffix? name = some rest ↔
        ∃ front : String, '_' ∉ front.toList ∧ name = front ++ "_" ++ rest) ∧
      (∀ name, suffix? name = none ↔ '_' ∉ name.toList) ∧
      (walk globalTime root).length = root.count - 1 ∧
      exportLines ⟨globalTime, false⟩ root =
        (root.descendants.filterMap fun d => lineAlong? globalTime d.names d.node) ∧
      ∀ name payload, walk globalTime ⟨name, root.children, payload⟩ = walk globalTime root ∧
        ∀ sorted, exportLines ⟨globalTime, sorted⟩ ⟨name, root.children, payload⟩ =
          exportLines ⟨globalTime, sorted⟩ root := by
  have hwalk : walk globalTime root =
      root.descendants.map fun d => visitAlong globalTime d.names d.node := by
    rw [walk_eq_map]
    refine List.map_congr_left fun d hd => ?_
    have hreaches := Node.mem_descendants.1 hd
    refine visit_along hreaches fun n hn => ?_
    obtain ⟨e, he, rfl⟩ := Node.exists_descendant_of_mem_names hreaches hn
    exact h e he
  have hroot : ∀ name payload,
      walk globalTime ⟨name, root.children, payload⟩ = walk globalTime root := by
    cases root
    exact fun _ _ => rfl
  refine ⟨hwalk, Node.pairwise_descendants root, fun d => Node.mem_descendants,
    fun d hd => Node.getLast?_of_reaches (Node.mem_descendants.1 hd),
    fun name rest => suffix?_eq_some, fun name => suffix?_eq_none, ?_, ?_,
    fun name payload => ⟨hroot name payload, fun sorted => ?_⟩⟩
  · rw [hwalk, List.length_map, ← Node.length_descendants, Nat.add_sub_cancel]
  · rw [exportLines, if_neg Bool.false_ne_true, hwalk, List.filterMap_map]
    rfl
  · rw [exportLines, exportLines, hroot]

/-- A tree with a record behind a serial and a global time, which says nothing of its root. -/
def Node.sample : Node :=
  ⟨"/", [
    ⟨"run_7_a", [
      ⟨"dig_5", [
        ⟨"list-1", [], some ⟨[.flat [.integer 1, .integer 2, .integer 3, .integer 4], .flat []]⟩⟩],
        none⟩], none⟩,
    ⟨"info", [], none⟩], some ⟨[]⟩⟩

/-- The names below the root of the sample are plain, and its table has one line. -/
theorem walk_exact_sample :
    (∀ d ∈ Node.sample.descendants, PlainName d.node.name) ∧
      (walk true Node.sample).map Visit.path =
        ["/run_7_a", "/run_7_a/dig_5", "/run_7_a/dig_5/list-1", "/info"] ∧
      exportLines ⟨true, false⟩ Node.sample =
        [⟨"               5      7_a        1                2        3        4", some "7_a",
          some "5"⟩] := by
  have hplain : ∀ d ∈ Node.sample.descendants, PlainName d.node.name := by
    simp only [Node.sample, Node.descendants, Node.descendantsFrom, List.map_cons, List.map_nil,
      List.append_nil, List.cons_append, List.nil_append, List.forall_mem_cons, Descendant.under]
    exact ⟨⟨by decide, by decide⟩, ⟨by decide, by decide⟩, ⟨by decide, by decide⟩,
      ⟨by decide, by decide⟩, fun _ h => absurd h List.not_mem_nil⟩
  obtain ⟨hwalk, -, -, -, -, -, -, hlines, -⟩ := walk_exact true hplain
  refine ⟨hplain, ?_, ?_⟩
  · rw [hwalk]
    decide
  · rw [hlines]
    decide

end EventLog
