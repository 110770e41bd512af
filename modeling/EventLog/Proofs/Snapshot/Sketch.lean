import EventLog.Proofs.Json.Phrases
import EventLog.Proofs.Store.Node
import EventLog.Store.Outline

/-!
# Documents of trees

The skeleton of a document is what it says of nodes, names and children. `Phrase.sketch?` gives it,
as a `Sketch`, if it is well typed and nests within limits; the payloads in it are still the values
that are written there. A sketch has an outline, and so a tree, if each of its payloads denotes
something within the levels that are left for it (`Sketch.isSome_outline?`), and the tree does not
depend on these levels (`Sketch.node_of_outline?`).
-/

namespace EventLog

open EventLog.Json (Phrase Label Blank blanks skipSpace skipSpace_blanks)

/-! ## Documents of trees -/

namespace Json.Phrase

/-- The value behind the blanks in front of it. -/
def bare : Phrase → Phrase
  | .spaced _ value => value.bare
  | p => p

/-- The text that a string stands for. -/
def string? (p : Phrase) : Option String :=
  match p.bare with
  | .string s => s.value?.map String.ofList
  | _ => none

/-- The items of an array. -/
def items? (p : Phrase) : Option (List Phrase) :=
  match p.bare with
  | .array _ items => some (items.map Prod.snd)
  | _ => none

/-- The members of an object. -/
def members? (p : Phrase) : Option (List (Label × Phrase)) :=
  match p.bare with
  | .object _ members => some members
  | _ => none

/-- The values of the members with a name. -/
def valuesOf (name : String) (members : List (Label × Phrase)) : List Phrase :=
  members.filterMap fun m => if m.1.name.value? = some name.toList then some m.2 else none

end Json.Phrase

/-- A tree as its document has it: a payload is the value that is written there. -/
structure Sketch where
  name : String
  children : List Sketch
  payload : Option Phrase

/-- The only element, or none, of a list with one element at most. -/
def atMostOne? {α : Type} : List α → Option (Option α)
  | [] => some none
  | [a] => some (some a)
  | _ => none

namespace Json.Phrase

theorem items?_eq_some {p : Phrase} {phrases : List Phrase} (h : p.items? = some phrases) :
    ∃ front items, p.bare = .array front items ∧ phrases = items.map Prod.snd := by
  unfold items? at h
  split at h
  · next front items hbare => exact ⟨front, items, hbare, (Option.some.inj h).symm⟩
  · cases h

theorem members?_eq_some {p : Phrase} {members : List (Label × Phrase)}
    (h : p.members? = some members) : ∃ front, p.bare = .object front members := by
  unfold members? at h
  split at h
  · next front members hbare => exact ⟨front, by rw [hbare, Option.some.inj h]⟩
  · cases h

theorem string?_eq_some {p : Phrase} {text : String} (h : p.string? = some text) :
    ∃ s, p.bare = .string s := by
  unfold string? at h
  split at h
  · next s hbare => exact ⟨s, hbare⟩
  · cases h

/-- Blanks in front make no difference to what is read behind them. -/
theorem skipSpace_text (p : Phrase) (rest : List Char) :
    skipSpace (p.text ++ rest) = skipSpace (p.bare.text ++ rest) := by
  induction p with
  | spaced front value ih => rw [text, List.append_assoc, skipSpace_blanks, ih, bare]
  | _ => rfl

/-- A value is no longer without the blanks in front of it. -/
theorem length_text_bare (p : Phrase) : p.bare.text.length ≤ p.text.length := by
  induction p with
  | spaced front value ih =>
    rw [text, List.length_append, bare]
    omega
  | _ => exact Nat.le_refl _

/-- The sketch of a node with these members: one name, a string, at most one array of children, and
at most one payload, whatever that is. Other members are ignored. -/
def sketchMembers? (children? : Phrase → Option (List Sketch)) (members : List (Label × Phrase)) :
    Option Sketch := do
  let name ← (← atMostOne? (valuesOf "name" members)).bind string?
  let children ← (← atMostOne? (valuesOf "children" members)).elim (some []) children?
  let payload ← atMostOne? (valuesOf "payload" members)
  if members.all fun m => m.1.name.value?.isSome then some ⟨name, children, payload⟩ else none

/-- The sketch that a document is, if its skeleton is well typed and nests at most `depth` levels.
A node takes a level, and so does the array of its children. -/
def sketch? : Nat → Phrase → Option Sketch
  | 0, _ => none
  | 1, p => p.members?.bind (sketchMembers? fun _ => none)
  | depth + 2, p =>
    p.members?.bind (sketchMembers? fun children => children.items?.bind (·.mapM (sketch? depth)))

/-- The sketches of the children of a node with `depth` levels left inside of it. -/
def sketchChildren? : Nat → Phrase → Option (List Sketch)
  | 0, _ => none
  | depth + 1, p => p.items?.bind (·.mapM (sketch? depth))

theorem sketch?_succ (depth : Nat) (p : Phrase) :
    p.sketch? (depth + 1) = p.members?.bind (sketchMembers? (sketchChildren? depth)) := by
  cases depth <;> rfl

/-- What a well-typed node consists of. -/
theorem sketchMembers?_eq_some {children? : Phrase → Option (List Sketch)}
    {ms : List (Label × Phrase)} {s : Sketch} (h : sketchMembers? children? ms = some s) :
    (∃ p, atMostOne? (valuesOf "name" ms) = some (some p) ∧ p.string? = some s.name) ∧
      (∃ p?, atMostOne? (valuesOf "children" ms) = some p? ∧
        p?.elim (some []) children? = some s.children) ∧
      atMostOne? (valuesOf "payload" ms) = some s.payload ∧
      ∀ m ∈ ms, m.1.name.value?.isSome := by
  simp only [sketchMembers?, Option.bind_eq_bind, Option.bind_eq_some_iff] at h
  obtain ⟨_, hp, name, ⟨p, rfl, hname⟩, q?, hq, children, hchildren, payload, hpayload, h⟩ := h
  split at h
  · next hlabels =>
    obtain rfl := Option.some.inj h
    exact ⟨⟨p, hp, hname⟩, ⟨q?, hq, hchildren⟩, hpayload, List.all_eq_true.1 hlabels⟩
  · cases h

/-- The values of a field that is given at most once. -/
theorem eq_of_mem_valuesOf {name : String} {ms : List (Label × Phrase)} {m : Label × Phrase}
    (hm : m ∈ ms) (hname : m.1.name.value? = some name.toList) {p? : Option Phrase}
    (h : atMostOne? (valuesOf name ms) = some p?) : p? = some m.2 := by
  have hmem : m.2 ∈ valuesOf name ms := List.mem_filterMap.2 ⟨m, hm, if_pos hname⟩
  match valuesOf name ms, h, hmem with
  | [q], h, hmem => rw [← Option.some.inj h, List.mem_singleton.1 hmem]

end Json.Phrase

namespace Sketch

mutual

/-- The tree of a sketch. Names and children are those of the sketch; a payload is the dataset that
the value denotes, if it denotes one. -/
def node : Sketch → Node
  | ⟨name, children, payload⟩ =>
    ⟨name, nodes children, payload.bind fun p => p.value?.bind Dataset.ofDocument?⟩

/-- The trees of sketches. -/
def nodes : List Sketch → List Node
  | [] => []
  | sketch :: rest => node sketch :: nodes rest

end

mutual

/-- The payloads of a tree that is read with `depth` levels left, each with the levels that are left
for it. -/
def payloads (depth : Nat) : Sketch → List (Nat × Phrase)
  | ⟨_, children, payload⟩ =>
    payload.toList.map (Prod.mk (depth - 1)) ++ payloadsAll (depth - 2) children

/-- The payloads of trees. -/
def payloadsAll (depth : Nat) : List Sketch → List (Nat × Phrase)
  | [] => []
  | sketch :: rest => payloads depth sketch ++ payloadsAll depth rest

end

mutual

/-- The outline that is read of a tree with `depth` levels left, unless one of its payloads denotes
nothing or nests too deep. -/
def outline? (depth : Nat) : Sketch → Option Outline
  | ⟨name, children, payload⟩ => do
    return ⟨name, ← outlines? (depth - 2) children, ← payload.mapM (Phrase.within? (depth - 1))⟩

/-- The outlines of trees. -/
def outlines? (depth : Nat) : List Sketch → Option (List Outline)
  | [] => some []
  | sketch :: rest => do return (← outline? depth sketch) :: (← outlines? depth rest)

end

end Sketch

/-! ## Outlines and trees -/

namespace Sketch

/-- What passes from the children to a node holds of every sketch. -/
@[induction_eliminator]
theorem induction {motive : Sketch → Prop}
    (mk : ∀ name children payload, (∀ child ∈ children, motive child) →
      motive ⟨name, children, payload⟩) (s : Sketch) : motive s :=
  @Sketch.rec motive (fun children => ∀ child ∈ children, motive child) mk
    nofun (fun _ _ head tail => List.forall_mem_cons.2 ⟨head, tail⟩) s

/-- The payloads of children are within limits if those of each child are. -/
theorem isSome_outlines? {depth : Nat} {sketches : List Sketch}
    (h : ∀ s ∈ sketches, ∀ depth, (s.outline? depth).isSome ↔
      ∀ q ∈ s.payloads depth, (q.2.within? q.1).isSome) :
    (outlines? depth sketches).isSome ↔
      ∀ q ∈ payloadsAll depth sketches, (q.2.within? q.1).isSome := by
  induction sketches with
  | nil => exact iff_of_true rfl nofun
  | cons s rest ih =>
    obtain ⟨hs, hrest⟩ := List.forall_mem_cons.1 h
    rw [payloadsAll, List.forall_mem_append, ← hs, ← ih hrest, outlines?]
    cases s.outline? depth <;> cases outlines? depth rest <;> simp

/-- A tree has an outline if each of its payloads denotes something within limits. -/
theorem isSome_outline? (s : Sketch) (depth : Nat) :
    (s.outline? depth).isSome ↔ ∀ q ∈ s.payloads depth, (q.2.within? q.1).isSome := by
  induction s generalizing depth with
  | mk name children payload ih =>
    rw [payloads, List.forall_mem_append, ← isSome_outlines? ih, outline?]
    cases payload with
    | none => cases outlines? (depth - 2) children <;> simp
    | some p =>
      cases outlines? (depth - 2) children <;> cases hp : p.within? (depth - 1) <;> simp [hp]

/-- The trees of the outlines of children. -/
theorem nodes_of_outlines? {depth : Nat} {sketches : List Sketch} {outlines : List Outline}
    (ih : ∀ s ∈ sketches, ∀ {outline}, s.outline? depth = some outline → outline.node = s.node)
    (h : outlines? depth sketches = some outlines) : Outline.nodes outlines = nodes sketches := by
  induction sketches generalizing outlines with
  | nil =>
    obtain rfl := Option.some.inj h
    rfl
  | cons s rest ihs =>
    obtain ⟨hs, hrest⟩ := List.forall_mem_cons.1 ih
    obtain ⟨outline, houtline, h⟩ := Option.bind_eq_some_iff.1 h
    obtain ⟨others, hothers, h⟩ := Option.bind_eq_some_iff.1 h
    obtain rfl := Option.some.inj h
    rw [Outline.nodes, nodes, hs houtline, ihs hrest hothers]

/-- The tree of the outline of a sketch is that of the sketch. -/
theorem node_of_outline? {depth : Nat} {s : Sketch} {outline : Outline}
    (h : s.outline? depth = some outline) : outline.node = s.node := by
  induction s generalizing depth outline with
  | mk name children payload ih =>
    obtain ⟨outlines, houtlines, h⟩ := Option.bind_eq_some_iff.1 h
    obtain ⟨document?, hpayload, h⟩ := Option.bind_eq_some_iff.1 h
    obtain rfl := Option.some.inj h
    rw [Outline.node, node, nodes_of_outlines? (fun s hs => ih s hs) houtlines]
    cases payload with
    | none =>
      obtain rfl := Option.some.inj hpayload
      rfl
    | some p =>
      rw [Option.mapM_some] at hpayload
      obtain ⟨document, hdocument, rfl⟩ := Option.map_eq_some_iff.1 hpayload
      rw [Option.bind_some, Option.bind_some, Phrase.value?_of_within? hdocument, Option.bind_some]

/-! ## Addresses -/

/-- `nodes` per sketch. -/
theorem nodes_eq_map (sketches : List Sketch) : nodes sketches = sketches.map node := by
  induction sketches with
  | nil => rfl
  | cons sketch rest ih => rw [nodes, ih, List.map_cons]

/-- The sketch at an address, if there is one. -/
def at? : Sketch → List Nat → Option Sketch
  | sketch, [] => some sketch
  | sketch, i :: address => sketch.children[i]?.bind fun child => at? child address

/-- The tree of a sketch has the same addresses. -/
theorem at?_node (sketch : Sketch) (address : List Nat) :
    sketch.node.at? address = (sketch.at? address).map node := by
  induction address generalizing sketch with
  | nil => rfl
  | cons i rest ih =>
    obtain ⟨name, children, payload⟩ := sketch
    rw [node, Node.at?, at?, nodes_eq_map, List.getElem?_map]
    cases children[i]? with
    | none => rfl
    | some child => exact ih child

/-- The payloads of trees are those of each tree. -/
theorem mem_payloadsAll {depth : Nat} {q : Nat × Phrase} (sketches : List Sketch) :
    q ∈ payloadsAll depth sketches ↔ ∃ sketch ∈ sketches, q ∈ sketch.payloads depth := by
  induction sketches with
  | nil => simp [payloadsAll]
  | cons sketch rest ih => simp [payloadsAll, ih]

/-- The payload at an address is one of the payloads, with no more levels left than for the
tree. -/
theorem exists_mem_payloads {sketch : Sketch} {address : List Nat} {name : String}
    {children : List Sketch} {payload : Phrase}
    (h : sketch.at? address = some ⟨name, children, some payload⟩) (depth : Nat) :
    ∃ d ≤ depth, (d, payload) ∈ sketch.payloads depth := by
  induction address generalizing sketch depth with
  | nil =>
    obtain rfl := Option.some.inj h
    exact ⟨depth - 1, Nat.sub_le depth 1, by simp [payloads]⟩
  | cons i rest ih =>
    obtain ⟨child, hchild, h⟩ := Option.bind_eq_some_iff.1 h
    obtain ⟨d, hd, hmem⟩ := ih h (depth - 2)
    obtain ⟨own, siblings, written⟩ := sketch
    refine ⟨d, by omega, List.mem_append_right _ ?_⟩
    exact (mem_payloadsAll siblings).2 ⟨child, List.mem_of_getElem? hchild, hmem⟩

end Sketch

end EventLog
