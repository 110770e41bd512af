import EventLog.Proofs.Store.Node
import EventLog.Proofs.Store.Reread

/-!
# Outlines and trees

The document of a tree is that of its outline (`Node.toJson_outline`), so what is said of reading
and writing outlines is said of trees. A tree that came from an outline is the tree of its own
outline (`Outline.node_outline_node`), and nests no deeper than the outline if that was read where
an odd number of levels was left (`Outline.within_node`), which is where every node of a snapshot
stands.
-/

namespace EventLog

/-! ## Induction over outlines -/

/-- What passes from the children to a node holds of every outline. -/
@[induction_eliminator]
theorem Outline.induction {motive : Outline → Prop}
    (mk : ∀ name children payload, (∀ child ∈ children, motive child) →
      motive ⟨name, children, payload⟩) (outline : Outline) : motive outline :=
  @Outline.rec motive (fun children => ∀ child ∈ children, motive child) mk
    nofun (fun _ _ head tail => List.forall_mem_cons.2 ⟨head, tail⟩) outline

/-! ## The outline of a tree -/

namespace Node

/-- `toJsonAll` per node. -/
theorem toJsonAll_eq_map (nodes : List Node) : toJsonAll nodes = nodes.map toJson := by
  induction nodes with
  | nil => rfl
  | cons node rest ih => rw [toJsonAll, ih, List.map_cons]

mutual

/-- The outline of a tree, with the documents of its datasets for payloads. -/
def outline : Node → Outline
  | ⟨name, children, payload⟩ => ⟨name, outlines children, payload.map Dataset.toJson⟩

/-- The outlines of nodes. -/
def outlines : List Node → List Outline
  | [] => []
  | node :: rest => outline node :: outlines rest

end

/-- `outlines` per node. -/
theorem outlines_eq_map (nodes : List Node) : outlines nodes = nodes.map outline := by
  induction nodes with
  | nil => rfl
  | cons node rest ih => rw [outlines, ih, List.map_cons]

end Node

namespace Outline

/-- `nodes` per outline. -/
theorem nodes_eq_map (outlines : List Outline) : nodes outlines = outlines.map node := by
  induction outlines with
  | nil => rfl
  | cons outline rest ih => rw [nodes, ih, List.map_cons]

/-- The outline at an address, if there is one. -/
def at? : Outline → List Nat → Option Outline
  | outline, [] => some outline
  | outline, i :: address => outline.children[i]?.bind fun child => at? child address

/-- The tree of an outline has the same addresses. -/
theorem at?_node (outline : Outline) (address : List Nat) :
    outline.node.at? address = (outline.at? address).map node := by
  induction address generalizing outline with
  | nil => rfl
  | cons i rest ih =>
    obtain ⟨name, children, payload⟩ := outline
    rw [node, Node.at?, at?, nodes_eq_map, List.getElem?_map]
    cases children[i]? with
    | none => rfl
    | some child => exact ih child

/-! ## The document of an outline -/

/-- The document member of a payload, if there is one. -/
def payloadMember : Option Json → List (String × Json)
  | none => []
  | some document => [("payload", document)]

mutual

/-- The document of an outline. Children and payload are left out where there are none. -/
def toJson : Outline → Json
  | ⟨name, children, payload⟩ =>
    .object (("name", .string name) ::
      (Node.childrenMember (toJsonAll children) ++ payloadMember payload))

/-- The documents of outlines. -/
def toJsonAll : List Outline → List Json
  | [] => []
  | outline :: rest => toJson outline :: toJsonAll rest

end

/-- `toJsonAll` per outline. -/
theorem toJsonAll_eq_map (outlines : List Outline) : toJsonAll outlines = outlines.map toJson := by
  induction outlines with
  | nil => rfl
  | cons outline rest ih => rw [toJsonAll, ih, List.map_cons]

/-- The members of the document of an outline. -/
theorem mem_members {name : String} {children : List Outline} {payload : Option Json}
    {p : Json → Prop} :
    (∀ m ∈ ("name", .string name) ::
      (Node.childrenMember (toJsonAll children) ++ payloadMember payload), p m.2) ↔
      p (.string name) ∧ (children ≠ [] → p (.array (children.map toJson))) ∧
        ∀ document ∈ payload, p document := by
  rw [List.forall_mem_cons, List.forall_mem_append, toJsonAll_eq_map]
  cases children <;> cases payload <;> simp [Node.childrenMember, payloadMember]

/-- An outline is within limits if there is a level for it, one more for its children, and if they
and its payload are within what is left. -/
theorem within_toJson {d : Nat} {name : String} {children : List Outline} {payload : Option Json} :
    (toJson ⟨name, children, payload⟩).Within d ↔
      ∃ e, d = e + 1 ∧ (∀ child ∈ children, ∃ f, e = f + 1 ∧ child.toJson.Within f) ∧
        ∀ document ∈ payload, document.Within e := by
  rw [toJson, Json.within_object]
  refine exists_congr fun e => and_congr_right fun _ => ?_
  rw [mem_members]
  constructor
  · rintro ⟨-, hchildren, hpayload⟩
    refine ⟨fun child hc => ?_, hpayload⟩
    obtain ⟨f, rfl, hf⟩ := (Json.within_array _).1 (hchildren (List.ne_nil_of_mem hc))
    exact ⟨f, rfl, hf _ (List.mem_map_of_mem hc)⟩
  · rintro ⟨hchildren, hpayload⟩
    refine ⟨Json.within_string e name, fun hne => ?_, hpayload⟩
    obtain ⟨first, hfirst⟩ := List.exists_mem_of_ne_nil children hne
    obtain ⟨f, rfl, -⟩ := hchildren first hfirst
    rw [Json.within_array_succ, List.forall_mem_map]
    intro child hc
    obtain ⟨g, hg, hwithin⟩ := hchildren child hc
    exact (Nat.add_right_cancel hg) ▸ hwithin

/-- No floating-point number is in an outline if none is in its children and its payload. -/
theorem floatFree_toJson {name : String} {children : List Outline} {payload : Option Json} :
    (toJson ⟨name, children, payload⟩).FloatFree ↔
      (∀ child ∈ children, child.toJson.FloatFree) ∧ ∀ document ∈ payload, document.FloatFree := by
  rw [toJson, Json.floatFree_object, mem_members]
  simp only [Json.floatFree_string, true_and, Json.floatFree_array, List.forall_mem_map]
  refine and_congr_left fun _ => ⟨fun h child hc => ?_, fun h _ => h⟩
  exact h (List.ne_nil_of_mem hc) child hc

end Outline

/-! ## From an outline to its tree and back -/

/-- A tree has the document of its outline. -/
theorem Node.toJson_outline (node : Node) : node.outline.toJson = node.toJson := by
  induction node with
  | mk name children payload ih =>
    have hchildren : Outline.toJsonAll (outlines children) = toJsonAll children := by
      rw [Outline.toJsonAll_eq_map, outlines_eq_map, toJsonAll_eq_map, List.map_map]
      exact List.map_congr_left ih
    rw [outline, Outline.toJson, toJson, hchildren]
    cases payload <;> rfl

namespace Outline

/-- The tree of an outline within limits is the tree of its own outline. -/
theorem node_outline_node {d : Nat} {outline : Outline} (h : outline.toJson.Within d) :
    outline.node.outline.node = outline.node := by
  induction outline generalizing d with
  | mk name children payload ih =>
    obtain ⟨e, rfl, hchildren, hpayload⟩ := within_toJson.1 h
    have hnodes : nodes (Node.outlines (nodes children)) = nodes children := by
      simp only [nodes_eq_map, Node.outlines_eq_map, List.map_map]
      refine List.map_congr_left fun child hc => ?_
      obtain ⟨f, rfl, hf⟩ := hchildren child hc
      exact ih child hc hf
    have hdataset : ((payload.bind Dataset.ofDocument?).map Dataset.toJson).bind
        Dataset.ofDocument? = payload.bind Dataset.ofDocument? := by
      cases payload with
      | none => rfl
      | some document =>
        rw [Option.bind_some]
        cases hd : Dataset.ofDocument? document with
        | none => rfl
        | some dataset => exact Dataset.ofDocument?_toJson (hpayload document rfl) hd
    rw [node, Node.outline, node, hnodes, hdataset]

/-- The tree of an outline that was read where an odd number of levels was left needs no more of
them. -/
theorem within_node {d : Nat} {outline : Outline} (hd : d % 2 = 1) (h : outline.toJson.Within d) :
    outline.node.outline.toJson.Within d := by
  induction outline generalizing d with
  | mk name children payload ih =>
    obtain ⟨e, rfl, hchildren, hpayload⟩ := within_toJson.1 h
    rw [node, Node.outline, nodes_eq_map, Node.outlines_eq_map, List.map_map]
    refine within_toJson.2 ⟨e, rfl, List.forall_mem_map.2 fun child hc => ?_, fun document hm => ?_⟩
    · obtain ⟨f, rfl, hf⟩ := hchildren child hc
      exact ⟨f, rfl, ih child hc (by omega) hf⟩
    · obtain ⟨dataset, hdataset, rfl⟩ := Option.map_eq_some_iff.1 hm
      obtain ⟨read, hread, hdataset⟩ := Option.bind_eq_some_iff.1 hdataset
      exact Dataset.within_toJson (by omega) (hpayload read hread) hdataset

end Outline

end EventLog
