import EventLog.Proofs.Json.Limits
import EventLog.Proofs.Store.Outline
import EventLog.Store.Snapshot

/-!
# The limits of reading snapshots

`within_of_readNode`: the outline of a node that was read with `depth` levels left is a document
within these limits, in whichever form the node was written. A node that is written as an array of
its fields nests as deep as one that is written as an object.
-/

namespace EventLog.Snapshot

open EventLog.Json (Reader bind_eq_ok lift_eq_ok)

/-! ## How a node can have been read -/

/-- Reads the children of a node with `depth` levels left inside of it. -/
def readChildren (fuel : Nat) : Nat → Reader Fault (List Outline)
  | 0 => readArray fuel none
  | depth + 1 => readArray fuel (some (readNode fuel depth))

theorem readNode_succ (fuel depth : Nat) :
    readNode fuel (depth + 1) = openNode fuel (some (depth, readChildren fuel depth)) := by
  cases depth <;> rfl

/-- A node takes a level, and is read from its fields, in order or by name. -/
theorem readNode_eq_ok {fuel depth : Nat} {cs : List Char} {outline : Outline} {rest : List Char}
    (h : readNode fuel depth cs = .ok (outline, rest)) :
    ∃ d, depth = d + 1 ∧ ∃ cs, readFields fuel d (readChildren fuel d) cs = .ok (outline, rest) ∨
      readMembers fuel d (readChildren fuel d) cs = .ok (outline, rest) := by
  cases depth with
  | zero =>
    unfold readNode openNode at h
    split at h
    · cases h
    · split at h <;> cases h
  | succ depth =>
    simp only [readNode_succ, openNode] at h
    split at h
    · cases h
    · next c cs _ =>
      split at h
      · split at h
        · exact ⟨depth, rfl, cs, .inl h⟩
        · exact ⟨depth, rfl, cs, .inr h⟩
      · cases h

/-! ## Limits -/

/-- What may stand below a node with `d` levels left inside of it: children take one level for their
array and are within the others. -/
def ChildrenWithin (d : Nat) (children : List Outline) : Prop :=
  ∀ child ∈ children, ∃ f, d = f + 1 ∧ child.toJson.Within f

/-- Children that were read are within limits if nodes are that were read with fewer levels left. -/
theorem childrenWithin_of_readChildren {fuel d : Nat}
    (ih : ∀ f < d, ∀ {cs outline rest}, readNode fuel f cs = .ok (outline, rest) →
      outline.toJson.Within f)
    {cs : List Char} {children : List Outline} {rest : List Char}
    (h : readChildren fuel d cs = .ok (children, rest)) : ChildrenWithin d children := by
  cases d with
  | zero =>
    simp only [readChildren, readArray] at h
    split at h
    · cases h
    · split at h <;> cases h
  | succ f =>
    simp only [readChildren, readArray] at h
    split at h
    · cases h
    · split at h
      · have hchild := Json.forall_of_elements (ih f (Nat.lt_succ_self f)) h
        exact fun child hc => ⟨f, rfl, hchild child hc⟩
      · cases h

/-- A payload that was read is within limits. -/
theorem within_of_readPayload {fuel d : Nat} {cs : List Char} {payload : Option Json}
    {rest : List Char} (h : readPayload fuel d cs = .ok (payload, rest)) :
    ∀ document ∈ payload, document.Within d := by
  obtain ⟨⟨document, _⟩, hdocument, h⟩ := bind_eq_ok.1 h
  cases h
  rintro _ ⟨⟩
  exact Json.within_of_readValue (lift_eq_ok.1 hdocument)

/-- An optional element was read, or there is none. -/
theorem readOptional_eq_ok {α : Type} {absent x : α} {element : Reader Fault α}
    {cs rest : List Char} (h : readOptional absent element cs = .ok (x, rest)) :
    x = absent ∨ ∃ cs, element cs = .ok (x, rest) := by
  obtain ⟨next, -, h⟩ := bind_eq_ok.1 h
  cases next with
  | none =>
    cases h
    exact .inl rfl
  | some cs => exact .inr ⟨cs, h⟩

section

variable {fuel d : Nat} {readChildren : Reader Fault (List Outline)}
  (hchildren : ∀ {cs children rest}, readChildren cs = .ok (children, rest) →
    ChildrenWithin d children)

include hchildren

/-- A node that was read as an array of its fields is within limits. -/
theorem within_of_readFields {cs : List Char} {outline : Outline} {rest : List Char}
    (h : readFields fuel d readChildren cs = .ok (outline, rest)) :
    outline.toJson.Within (d + 1) := by
  obtain ⟨next, -, h⟩ := bind_eq_ok.1 h
  cases next with
  | none => cases h
  | some cs =>
    obtain ⟨⟨name, _⟩, -, h⟩ := bind_eq_ok.1 h
    obtain ⟨⟨children, _⟩, hc, h⟩ := bind_eq_ok.1 h
    obtain ⟨⟨payload, _⟩, hp, h⟩ := bind_eq_ok.1 h
    obtain ⟨_, -, h⟩ := bind_eq_ok.1 h
    cases h
    refine Outline.within_toJson.2 ⟨d, rfl, ?_, ?_⟩
    · rcases readOptional_eq_ok hc with rfl | ⟨_, hc⟩
      · exact nofun
      · exact hchildren hc
    · rcases readOptional_eq_ok hp with rfl | ⟨_, hp⟩
      · exact nofun
      · exact within_of_readPayload hp

/-- What a draft of a node has of its children and its payload is within limits. -/
def Draft.Within (d : Nat) (draft : Draft) : Prop :=
  ChildrenWithin d (draft.children.getD []) ∧ ∀ document ∈ draft.payload, document.Within d

/-- Taking a member into a draft keeps it within limits. -/
theorem Draft.within_of_readMember {draft draft' : Draft} {key : String} {cs rest : List Char}
    (hd : draft.Within d) (h : readMember fuel d readChildren draft key cs = .ok (draft', rest)) :
    draft'.Within d := by
  obtain ⟨hc, hp⟩ := hd
  simp only [readMember] at h
  split at h
  · split at h
    · cases h
    · obtain ⟨_, -, h⟩ := bind_eq_ok.1 h
      obtain ⟨_, -, h⟩ := bind_eq_ok.1 h
      cases h
      exact ⟨hc, hp⟩
  split at h
  · split at h
    · cases h
    · obtain ⟨_, -, h⟩ := bind_eq_ok.1 h
      obtain ⟨⟨children, _⟩, hread, h⟩ := bind_eq_ok.1 h
      cases h
      exact ⟨hchildren hread, hp⟩
  split at h
  · split at h
    · cases h
    · obtain ⟨_, -, h⟩ := bind_eq_ok.1 h
      obtain ⟨⟨payload, _⟩, hread, h⟩ := bind_eq_ok.1 h
      cases h
      exact ⟨hc, within_of_readPayload hread⟩
  · obtain ⟨_, -, h⟩ := bind_eq_ok.1 h
    obtain ⟨_, -, h⟩ := bind_eq_ok.1 h
    cases h
    exact ⟨hc, hp⟩

/-- A node that was read as an object is within limits. -/
theorem within_of_readMembers {cs : List Char} {outline : Outline} {rest : List Char}
    (h : readMembers fuel d readChildren cs = .ok (outline, rest)) :
    outline.toJson.Within (d + 1) := by
  obtain ⟨⟨draft, _⟩, hdraft, h⟩ := bind_eq_ok.1 h
  obtain ⟨_, houtline, h⟩ := bind_eq_ok.1 h
  cases h
  have hempty : Draft.Within d ⟨none, none, none⟩ := ⟨nofun, nofun⟩
  obtain ⟨hc, hp⟩ := Json.invariant_of_members (p := Draft.Within d)
    (Draft.within_of_readMember hchildren) hempty hdraft
  unfold Draft.outline at houtline
  split at houtline
  · cases houtline
  · cases houtline
    exact Outline.within_toJson.2 ⟨d, rfl, hc, hp⟩

end

/-- The outline of a node that was read is within the limits of its reader. -/
theorem within_of_readNode {fuel depth : Nat} : ∀ {cs : List Char} {outline : Outline}
    {rest : List Char}, readNode fuel depth cs = .ok (outline, rest) →
      outline.toJson.Within depth := by
  induction depth using Nat.strongRecOn with
  | _ depth ih =>
    intro cs outline rest h
    obtain ⟨d, rfl, cs, h | h⟩ := readNode_eq_ok h
    · refine within_of_readFields (childrenWithin_of_readChildren fun f hf => ?_) h
      exact ih f (Nat.lt_succ_of_lt hf)
    · refine within_of_readMembers (childrenWithin_of_readChildren fun f hf => ?_) h
      exact ih f (Nat.lt_succ_of_lt hf)

/-- The outline of a text is within the limits of reading. -/
theorem within_of_outline {text : String} {root : Outline} (h : outline text = .ok root) :
    root.toJson.Within Json.maxDepth := by
  obtain ⟨⟨_, _⟩, hread, h⟩ := bind_eq_ok.1 h
  obtain ⟨_, -, h⟩ := bind_eq_ok.1 h
  cases h
  exact within_of_readNode hread

end EventLog.Snapshot
