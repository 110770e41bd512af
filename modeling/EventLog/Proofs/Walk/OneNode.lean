import EventLog.Proofs.Walk.Sightings

/-!
# The payload of one node

`walk_withPayloadAt`: another payload at one node, whatever it is, changes what the walk says of
that node and of no other. The nodes of the changed tree are listed as before, each with the change
that it holds (`Node.descendants_withPayloadAt`, by induction on the tree), and a node that is not
the one with the address keeps its name and its payload, even where the change is somewhere below
it (`sighting_withPayloadAt_of_ne`). A record that goes missing takes its line with it, and the walk
goes on below it.
-/

namespace EventLog

open Node (Descendant descendantsFrom Reaches)

/-! ## Trees with another payload at one node -/

namespace Node

/-- A tree with another payload at the node with an address. -/
def withPayloadAt (payload : Option Dataset) : List Nat → Node → Node
  | [], node => { node with payload := payload }
  | i :: address, node =>
    { node with children := node.children.modify i (withPayloadAt payload address) }

theorem name_withPayloadAt (payload : Option Dataset) (address : List Nat) (node : Node) :
    (node.withPayloadAt payload address).name = node.name := by
  cases address <;> rfl

/-- A node below the root, in the tree with another payload at the node with an address. -/
def Descendant.withPayloadAt (payload : Option Dataset) (address : List Nat) (d : Descendant) :
    Descendant :=
  { d with node :=
      if d.address <+: address then
        d.node.withPayloadAt payload (address.drop d.address.length)
      else d.node }

variable {payload : Option Dataset} {address : List Nat}

/-- A node below a child is changed as it is among those below that child alone. -/
theorem under_withPayloadAt (i : Nat) (name : String) (d : Descendant) :
    (d.under i name).withPayloadAt payload (i :: address) =
      (d.withPayloadAt payload address).under i name := by
  simp only [Descendant.withPayloadAt, Descendant.under, List.cons_prefix_cons, true_and,
    List.length_cons, List.drop_succ_cons]

/-- A node with an address that begins otherwise is left as it is. -/
theorem withPayloadAt_of_head_ne {i j : Nat} {d : Descendant} {rest : List Nat}
    (hd : d.address = j :: rest) (hne : j ≠ i) : d.withPayloadAt payload (i :: address) = d := by
  have hprefix : ¬ d.address <+: i :: address := by
    rw [hd, List.cons_prefix_cons]
    exact fun h => hne h.1
  rw [Descendant.withPayloadAt, if_neg hprefix]

/-- Later children and what is below them are left as they are. -/
theorem map_withPayloadAt_of_lt {i j : Nat} (h : i < j) (children : List Node) :
    (descendantsFrom j children).map (Descendant.withPayloadAt payload (i :: address)) =
      descendantsFrom j children := by
  refine (List.map_congr_left fun d hd => ?_).trans (List.map_id _)
  obtain ⟨k, rest, hk, hjk⟩ := exists_address_of_mem_descendantsFrom hd
  exact withPayloadAt_of_head_ne hk (Nat.ne_of_gt (Nat.lt_of_lt_of_le h hjk))

/-- Among children, the payload is another one in the child that the address leads to. -/
theorem descendantsFrom_modify {children : List Node}
    (h : ∀ child ∈ children, (child.withPayloadAt payload address).descendants =
      child.descendants.map (Descendant.withPayloadAt payload address)) (j i : Nat) :
    descendantsFrom j (children.modify i (withPayloadAt payload address)) =
      (descendantsFrom j children).map
        (Descendant.withPayloadAt payload ((j + i) :: address)) := by
  induction children generalizing j i with
  | nil =>
    rw [List.modify_nil]
    rfl
  | cons child rest ih =>
    obtain ⟨hchild, hrest⟩ := List.forall_mem_cons.1 h
    cases i with
    | zero =>
      have hhead : Descendant.withPayloadAt payload (j :: address) ⟨[j], [child.name], child⟩ =
          ⟨[j], [child.name], child.withPayloadAt payload address⟩ := by
        simp [Descendant.withPayloadAt]
      have hbelow :
          Descendant.withPayloadAt payload (j :: address) ∘ Descendant.under j child.name =
            Descendant.under j child.name ∘ Descendant.withPayloadAt payload address :=
        funext (under_withPayloadAt j child.name)
      rw [Nat.add_zero j, List.modify_zero_cons, descendantsFrom, descendantsFrom, List.map_cons,
        List.map_append, List.map_map, hhead, hbelow, map_withPayloadAt_of_lt (Nat.lt_succ_self j),
        ← List.map_map, hchild, name_withPayloadAt]
    | succ i =>
      have hne : j ≠ j + (i + 1) := by omega
      have hhead : Descendant.withPayloadAt payload ((j + (i + 1)) :: address)
          ⟨[j], [child.name], child⟩ = ⟨[j], [child.name], child⟩ :=
        withPayloadAt_of_head_ne rfl hne
      have hbelow : Descendant.withPayloadAt payload ((j + (i + 1)) :: address) ∘
          Descendant.under j child.name = Descendant.under j child.name :=
        funext fun d => withPayloadAt_of_head_ne rfl hne
      have hindex : j + 1 + i = j + (i + 1) := by omega
      rw [List.modify_succ_cons, descendantsFrom, descendantsFrom, List.map_cons, List.map_append,
        List.map_map, hhead, hbelow, ih hrest (j + 1) i, hindex]

/-- Below the root of a tree with another payload at one node stands what stood there before, with
the other payload at that node. -/
theorem descendants_withPayloadAt (payload : Option Dataset) (address : List Nat) (root : Node) :
    (root.withPayloadAt payload address).descendants =
      root.descendants.map (Descendant.withPayloadAt payload address) := by
  induction root generalizing address with
  | mk name children payload' ih =>
    cases address with
    | nil =>
      refine ((List.map_congr_left fun d hd => ?_).trans (List.map_id _)).symm
      have hprefix : ¬ d.address <+: [] := fun h => address_ne_nil hd (List.prefix_nil.1 h)
      rw [Descendant.withPayloadAt, if_neg hprefix]
      rfl
    | cons i address =>
      have h := descendantsFrom_modify (fun child hchild => ih child hchild address) 0 i
      rwa [Nat.zero_add] at h

end Node

/-! ## What is said of the other nodes -/

/-- Nothing else is said of a node with another address, above, below or beside. -/
theorem sighting_withPayloadAt_of_ne {globalTime : Bool} {payload : Option Dataset}
    {address : List Nat} {d : Descendant} (hne : d.address ≠ address) :
    (d.withPayloadAt payload address).sighting globalTime = d.sighting globalTime := by
  rw [Descendant.withPayloadAt]
  split
  · next hprefix =>
    obtain ⟨rest, rfl⟩ := hprefix
    cases rest with
    | nil => exact absurd (List.append_nil _).symm hne
    | cons i rest =>
      rw [List.drop_left]
      rfl
  · rfl

/-- The node with the address has the other payload. -/
theorem withPayloadAt_self (payload : Option Dataset) (d : Descendant) :
    d.withPayloadAt payload d.address =
      ⟨d.address, d.names, { d.node with payload := payload }⟩ := by
  simp [Descendant.withPayloadAt, Node.withPayloadAt]

/-- A node below the root is listed once, with others in front of it and behind it. -/
theorem exists_front_rear {root : Node} {d : Descendant} (h : d ∈ root.descendants) :
    ∃ front rear, root.descendants = front ++ d :: rear ∧
      (∀ e ∈ front, e.address ≠ d.address) ∧ ∀ e ∈ rear, e.address ≠ d.address := by
  obtain ⟨front, rear, heq⟩ := List.append_of_mem h
  have hpairwise := Node.pairwise_descendants root
  rw [heq, List.pairwise_append, List.pairwise_cons] at hpairwise
  obtain ⟨-, ⟨hrear, -⟩, hfront⟩ := hpairwise
  refine ⟨front, rear, heq, fun e he hsame => ?_, fun e he hsame => ?_⟩
  · exact List.lt_irrefl d.address (hsame ▸ hfront e he d List.mem_cons_self)
  · exact List.lt_irrefl d.address (hsame ▸ hrear e he)

/-- The lines of the records among nodes below a root. -/
def linesOf (globalTime : Bool) (ds : List Descendant) : List Line :=
  ds.filterMap fun d => (d.sighting globalTime).line? globalTime

/-- The walk of a tree says something of one node between what it says of others, and the table has
the line of that, if it is a record, between theirs. -/
structure SeenBetween (globalTime : Bool) (front : List Descendant) (s : Sighting)
    (rear : List Descendant) (root : Node) : Prop where
  seen : sightings globalTime root = front.map (Descendant.sighting globalTime) ++
    s :: rear.map (Descendant.sighting globalTime)
  lines : exportLines ⟨globalTime, false⟩ root =
    linesOf globalTime front ++ (s.line? globalTime).toList ++ linesOf globalTime rear

/-- The lines are between those of the others if the node is. -/
theorem SeenBetween.of_sightings {globalTime : Bool} {front rear : List Descendant} {s : Sighting}
    {root : Node} (h : sightings globalTime root = front.map (Descendant.sighting globalTime) ++
      s :: rear.map (Descendant.sighting globalTime)) :
    SeenBetween globalTime front s rear root := by
  refine ⟨h, ?_⟩
  have hlines : ∀ ds : List Descendant, (ds.map (Descendant.sighting globalTime)).filterMap
      (Sighting.line? globalTime) = linesOf globalTime ds := fun ds => List.filterMap_map
  have hline : [s].filterMap (Sighting.line? globalTime) = (s.line? globalTime).toList := by
    rw [List.filterMap_cons, List.filterMap_nil]
    cases s.line? globalTime <;> rfl
  rw [exportLines_eq_filterMap, h, List.append_cons, List.filterMap_append, List.filterMap_append,
    hlines, hline, hlines]

/-- Whatever payload the root gets, the walk and the table are the same. Whatever payload a node
below the root gets, the walk comes to the same nodes in the same order, at the same addresses and
behind the same names. It says of every other node what it said before, and of this one the same
path, name and context; only the record is that of the other payload. So a table in the order of the
walk has the same lines in front of the place of this node and behind it, and at that place the line
of the new record, if there is one, instead of that of the old one, if there was one. -/
theorem walk_withPayloadAt (globalTime : Bool) (payload : Option Dataset) (root : Node) :
    (walk globalTime (root.withPayloadAt payload []) = walk globalTime root ∧
        ∀ sorted, exportLines ⟨globalTime, sorted⟩ (root.withPayloadAt payload []) =
          exportLines ⟨globalTime, sorted⟩ root) ∧
      ∀ {address names node}, root.Reaches address names node →
        (root.withPayloadAt payload address).descendants =
            root.descendants.map (Descendant.withPayloadAt payload address) ∧
          (walk globalTime root).map Visit.node = root.descendants.map Descendant.node ∧
          (walk globalTime (root.withPayloadAt payload address)).map Visit.node =
            (root.withPayloadAt payload address).descendants.map Descendant.node ∧
          ∃ front rear, root.descendants = front ++ ⟨address, names, node⟩ :: rear ∧
            SeenBetween globalTime front
              ((Standing.root.along globalTime names).sighting node.name node.payload) rear root ∧
            SeenBetween globalTime front
              ((Standing.root.along globalTime names).sighting node.name payload) rear
              (root.withPayloadAt payload address) := by
  have hroot : walk globalTime (root.withPayloadAt payload []) = walk globalTime root := by
    cases root
    rfl
  refine ⟨⟨hroot, fun sorted => by rw [exportLines, exportLines, hroot]⟩, ?_⟩
  intro address names node h
  have hdescendants := Node.descendants_withPayloadAt payload address root
  refine ⟨hdescendants, map_node_walk globalTime root, map_node_walk globalTime _, ?_⟩
  have hmem : ⟨address, names, node⟩ ∈ root.descendants := Node.mem_descendants.2 h
  obtain ⟨front, rear, heq, hfront, hrear⟩ := exists_front_rear hmem
  have hothers : ∀ ds : List Descendant, (∀ e ∈ ds, e.address ≠ address) →
      (ds.map (Descendant.withPayloadAt payload address)).map (Descendant.sighting globalTime) =
        ds.map (Descendant.sighting globalTime) := by
    intro ds hds
    rw [List.map_map]
    exact List.map_congr_left fun e he => sighting_withPayloadAt_of_ne (hds e he)
  refine ⟨front, rear, heq, .of_sightings ?_, .of_sightings ?_⟩
  · rw [sightings_eq_map, heq, List.map_append, List.map_cons]
    rfl
  · rw [sightings_eq_map, hdescendants, heq, List.map_append, List.map_cons, List.map_append,
      List.map_cons, hothers front hfront, hothers rear hrear,
      withPayloadAt_self payload ⟨address, names, node⟩]
    rfl

/-- A record with a record below it. -/
def Node.upper : Node :=
  ⟨"list-0", [
    ⟨"list-1", [], some ⟨[.flat [.integer 1, .integer 2, .integer 3, .integer 4], .flat []]⟩⟩],
    some ⟨[.flat [.integer 5, .integer 6, .integer 7, .integer 8], .flat []]⟩⟩

/-- A record to stand beside it. -/
def Node.beside : Node :=
  ⟨"list-2", [], some ⟨[.flat [.integer 9, .integer 9, .integer 9, .integer 9], .flat []]⟩⟩

/-- A tree with both. -/
def Node.nested : Node :=
  ⟨"/", [⟨"dig_7", [Node.upper, Node.beside], none⟩], none⟩

/-- A row with a text where a counter should be. -/
def Dataset.malformed : Dataset :=
  ⟨[.flat [.text "x", .integer 6, .integer 7, .integer 8], .flat []]⟩

/-- With that row, the upper record has no line, and the lines below and beside it stay. -/
theorem walk_withPayloadAt_malformed :
    Node.nested.Reaches [0, 0] ["dig_7", "list-0"] Node.upper ∧
      (∃ front rear,
        SeenBetween true front ⟨"/dig_7/list-0", "list-0", ⟨some "7", some "list-0"⟩,
          some (.list ⟨5, 6, 7, 8⟩)⟩ rear Node.nested ∧
        SeenBetween true front ⟨"/dig_7/list-0", "list-0", ⟨some "7", some "list-0"⟩, none⟩ rear
          (Node.nested.withPayloadAt (some .malformed) [0, 0])) ∧
      (exportLines ⟨false, false⟩ Node.nested).map Line.text =
        ["       7        5                6        7        8",
          "       7        1                2        3        4",
          "       7        9                9        9        9"] ∧
      (exportLines ⟨false, false⟩ (Node.nested.withPayloadAt (some .malformed) [0, 0])).map
          Line.text =
        ["       7        1                2        3        4",
          "       7        9                9        9        9"] := by
  have hupper : Node.Reaches ⟨"dig_7", [Node.upper, Node.beside], none⟩ [0] [Node.upper.name]
      Node.upper := .here rfl
  have hreaches : Node.nested.Reaches [0, 0] ["dig_7", "list-0"] Node.upper := .deeper rfl hupper
  obtain ⟨-, hbelow⟩ := walk_withPayloadAt true (some .malformed) Node.nested
  obtain ⟨-, -, -, front, rear, -, hbefore, hafter⟩ := hbelow hreaches
  exact ⟨hreaches, ⟨front, rear, hbefore, hafter⟩, by decide, by decide⟩

end EventLog
