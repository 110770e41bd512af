import EventLog.Store.Node

/-!
# Trees and the nodes below their roots

Induction over trees, and the nodes below a root. `Node.Reaches` says where a node stands: at an
address, which counts children from zero, and behind the names of the nodes on the way.
`Node.descendants` lists these nodes depth first, parents before children and children in order;
that is each of them once (`mem_descendants`), with ascending addresses (`pairwise_descendants`).
-/

namespace EventLog.Node

/-- What passes from the children to a node holds of every tree. -/
@[induction_eliminator]
theorem induction {motive : Node → Prop}
    (mk : ∀ name children payload, (∀ child ∈ children, motive child) →
      motive ⟨name, children, payload⟩) (node : Node) : motive node :=
  @Node.rec motive (fun children => ∀ child ∈ children, motive child) mk
    nofun (fun _ _ head tail => List.forall_mem_cons.2 ⟨head, tail⟩) node

/-! ## Nodes below a root -/

/-- A node stands below a root, at an address and behind the names on the way, its own included. -/
inductive Reaches : Node → List Nat → List String → Node → Prop
  | here {root child : Node} {i : Nat} (h : root.children[i]? = some child) :
    Reaches root [i] [child.name] child
  | deeper {root child node : Node} {i : Nat} {address : List Nat} {names : List String}
    (h : root.children[i]? = some child) (hbelow : Reaches child address names node) :
    Reaches root (i :: address) (child.name :: names) node

/-- The node at an address, if there is one. -/
def at? : Node → List Nat → Option Node
  | node, [] => some node
  | node, i :: address => node.children[i]?.bind fun child => at? child address

/-- A node at another address than the root's stands below the root. -/
theorem exists_reaches_of_at? {root node : Node} {address : List Nat}
    (h : root.at? address = some node) (hne : address ≠ []) :
    ∃ names, root.Reaches address names node := by
  induction address generalizing root with
  | nil => exact absurd rfl hne
  | cons i rest ih =>
    obtain ⟨child, hi, hchild⟩ := Option.bind_eq_some_iff.1 h
    cases rest with
    | nil =>
      cases hchild
      exact ⟨_, .here hi⟩
    | cons j rest =>
      obtain ⟨names, hreaches⟩ := ih hchild (List.cons_ne_nil j rest)
      exact ⟨_, .deeper hi hreaches⟩

/-- A node below a root, with its address and the names on the way. -/
structure Descendant where
  address : List Nat
  names : List String
  node : Node

/-- A node below a child, as seen from the parent of the child. -/
def Descendant.under (i : Nat) (name : String) (d : Descendant) : Descendant :=
  ⟨i :: d.address, name :: d.names, d.node⟩

mutual

/-- The nodes below a root, depth first. -/
def descendants : Node → List Descendant
  | ⟨_, children, _⟩ => descendantsFrom 0 children

/-- Some children of a root and the nodes below them, counted from an index. -/
def descendantsFrom : Nat → List Node → List Descendant
  | _, [] => []
  | i, child :: rest =>
    ⟨[i], [child.name], child⟩ ::
      ((descendants child).map (Descendant.under i child.name) ++ descendantsFrom (i + 1) rest)

end

/-- What is listed for children is the children and what is below them. -/
theorem mem_descendantsFrom {i : Nat} {children : List Node} {d : Descendant} :
    d ∈ descendantsFrom i children ↔ ∃ j child, children[j]? = some child ∧
      (d = ⟨[i + j], [child.name], child⟩ ∨
        ∃ e ∈ child.descendants, e.under (i + j) child.name = d) := by
  induction children generalizing i with
  | nil => simp [descendantsFrom]
  | cons child rest ih =>
    rw [descendantsFrom, List.mem_cons, List.mem_append, List.mem_map, ih, ← or_assoc]
    constructor
    · rintro (h | ⟨j, other, hj, h⟩)
      · exact ⟨0, child, rfl, h⟩
      · rw [Nat.add_assoc, Nat.add_comm 1 j] at h
        exact ⟨j + 1, other, hj, h⟩
    · rintro ⟨_ | j, other, hj, h⟩
      · cases hj
        exact .inl h
      · rw [Nat.add_comm j 1, ← Nat.add_assoc] at h
        exact .inr ⟨j, other, hj, h⟩

/-- What is listed below a root is what stands there. -/
theorem mem_descendants {root : Node} {d : Descendant} :
    d ∈ root.descendants ↔ root.Reaches d.address d.names d.node := by
  induction root generalizing d with
  | mk name children payload ih =>
    rw [descendants, mem_descendantsFrom]
    simp only [Nat.zero_add]
    constructor
    · rintro ⟨i, child, hi, rfl | ⟨e, he, rfl⟩⟩
      · exact .here hi
      · exact .deeper hi ((ih child (List.mem_of_getElem? hi)).1 he)
    · obtain ⟨address, names, node⟩ := d
      intro (h : Reaches _ address names node)
      cases h with
      | here hi => exact ⟨_, _, hi, .inl rfl⟩
      | deeper hi hbelow =>
        have hmem := (@ih _ (List.mem_of_getElem? hi) ⟨_, _, node⟩).2 hbelow
        exact ⟨_, _, hi, .inr ⟨_, hmem, rfl⟩⟩

/-- The names that a node was reached by end in its own. -/
theorem getLast?_of_reaches {root node : Node} {address : List Nat} {names : List String}
    (h : root.Reaches address names node) : names.getLast? = some node.name := by
  induction h with
  | here _ => rfl
  | deeper _ _ ih => rw [List.getLast?_cons, ih, Option.getD_some]

/-- The names on the way are those of nodes below the root. -/
theorem exists_descendant_of_mem_names {root node : Node} {address : List Nat}
    {names : List String} (h : root.Reaches address names node) {name : String}
    (hname : name ∈ names) : ∃ e ∈ root.descendants, e.node.name = name := by
  induction h with
  | here hi => exact ⟨⟨_, _, _⟩, mem_descendants.2 (.here hi), (List.mem_singleton.1 hname).symm⟩
  | deeper hi _ ih =>
    rcases List.mem_cons.1 hname with rfl | hname
    · exact ⟨⟨_, _, _⟩, mem_descendants.2 (.here hi), rfl⟩
    · obtain ⟨e, he, hn⟩ := ih hname
      exact ⟨⟨_, _, _⟩, mem_descendants.2 (.deeper hi (mem_descendants.1 he)), hn⟩

/-- At least one name is on the way to a node below the root. -/
theorem Reaches.names_ne_nil {root node : Node} {address : List Nat} {names : List String}
    (h : root.Reaches address names node) : names ≠ [] := by
  cases h <;> exact List.cons_ne_nil _ _

/-- The nodes on the way to a node below the root are below the root. -/
theorem exists_descendant_of_prefix {root node : Node} {address : List Nat}
    {names front : List String} (h : root.Reaches address names node) (hfront : front <+: names)
    (hne : front ≠ []) : ∃ e ∈ root.descendants, e.names = front := by
  induction h generalizing front with
  | @here root child i hi =>
    obtain ⟨rest, rfl, hrest⟩ := (List.prefix_cons_iff.1 hfront).resolve_left hne
    obtain rfl := List.prefix_nil.1 hrest
    exact ⟨⟨_, _, child⟩, mem_descendants.2 (.here hi), rfl⟩
  | @deeper root child node i address names hi _ ih =>
    obtain ⟨rest, rfl, hrest⟩ := (List.prefix_cons_iff.1 hfront).resolve_left hne
    cases rest with
    | nil => exact ⟨⟨_, _, child⟩, mem_descendants.2 (.here hi), rfl⟩
    | cons name rest =>
      obtain ⟨e, he, hnames⟩ := ih hrest (List.cons_ne_nil name rest)
      exact ⟨⟨_, _, e.node⟩, mem_descendants.2 (.deeper hi (mem_descendants.1 he)),
        congrArg (child.name :: ·) hnames⟩

/-! ## Order and number -/

/-- The address of a listed child or of a node below one begins with its index. -/
theorem exists_address_of_mem_descendantsFrom {i : Nat} {children : List Node} {d : Descendant}
    (h : d ∈ descendantsFrom i children) : ∃ j rest, d.address = j :: rest ∧ i ≤ j := by
  obtain ⟨j, _, -, rfl | ⟨e, -, rfl⟩⟩ := mem_descendantsFrom.1 h
  · exact ⟨i + j, [], rfl, Nat.le_add_right i j⟩
  · exact ⟨i + j, e.address, rfl, Nat.le_add_right i j⟩

/-- No node below a root has the address of the root. -/
theorem address_ne_nil {root : Node} {d : Descendant} (h : d ∈ root.descendants) :
    d.address ≠ [] := by
  cases root with
  | mk name children payload =>
    obtain ⟨_, _, hd, -⟩ := exists_address_of_mem_descendantsFrom h
    rw [hd]
    exact List.cons_ne_nil _ _

/-- Children and what is below them are listed by ascending addresses if each child's are. -/
theorem pairwise_descendantsFrom {i : Nat} {children : List Node}
    (h : ∀ child ∈ children, child.descendants.Pairwise fun a b => a.address < b.address) :
    (descendantsFrom i children).Pairwise fun a b => a.address < b.address := by
  induction children generalizing i with
  | nil => exact List.Pairwise.nil
  | cons child rest ih =>
    obtain ⟨hchild, hrest⟩ := List.forall_mem_cons.1 h
    have hlater : ∀ (address : List Nat), ∀ b ∈ descendantsFrom (i + 1) rest,
        i :: address < b.address := by
      intro address b hb
      obtain ⟨j, behind, hj, hij⟩ := exists_address_of_mem_descendantsFrom hb
      rw [hj]
      exact List.Lex.rel hij
    have hbelow : ∀ b ∈ child.descendants.map (Descendant.under i child.name), [i] < b.address := by
      intro b hb
      obtain ⟨e, he, rfl⟩ := List.mem_map.1 hb
      obtain ⟨j, behind, hj⟩ := List.exists_cons_of_ne_nil (address_ne_nil he)
      refine List.Lex.cons ?_
      rw [hj]
      exact List.Lex.nil
    rw [descendantsFrom, List.pairwise_cons, List.pairwise_append, List.forall_mem_append]
    refine ⟨⟨hbelow, hlater []⟩, ?_, ih hrest, ?_⟩
    · exact List.Pairwise.map _ (fun _ _ hab => List.Lex.cons hab) hchild
    · intro a ha b hb
      obtain ⟨e, -, rfl⟩ := List.mem_map.1 ha
      exact hlater e.address b hb

/-- The nodes below a root are listed by ascending addresses, so none is listed twice. -/
theorem pairwise_descendants (root : Node) :
    root.descendants.Pairwise fun a b => a.address < b.address := by
  induction root with
  | mk name children payload ih => exact pairwise_descendantsFrom ih

/-- One node for each child and those below it. -/
theorem length_descendantsFrom {i : Nat} {children : List Node}
    (h : ∀ child ∈ children, child.descendants.length + 1 = child.count) :
    (descendantsFrom i children).length = countAll children := by
  induction children generalizing i with
  | nil => rfl
  | cons child rest ih =>
    obtain ⟨hchild, hrest⟩ := List.forall_mem_cons.1 h
    rw [descendantsFrom, countAll, List.length_cons, List.length_append, List.length_map, ih hrest,
      ← hchild]
    omega

/-- All nodes of a tree but its root are below the root. -/
theorem length_descendants (root : Node) : root.descendants.length + 1 = root.count := by
  induction root with
  | mk name children payload ih => rw [descendants, count, length_descendantsFrom ih, Nat.add_comm]

end EventLog.Node
