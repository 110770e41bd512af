import EventLog.Proofs.Json.ReadBack
import EventLog.Proofs.Snapshot.Limits

/-!
# Snapshots read back

`outline_write`: an outline without floating-point numbers that nests at most 127 deep is read back
from its own document. A node is written with its name first, then its children and its payload
where there are any, so the three members are taken into the draft one after the other.
-/

namespace EventLog.Snapshot

open EventLog.Json (Reader Spacing Separated ReadsBack Takes skipSpace)

variable {spacing : Spacing} {level fuel d : Nat}

/-! ## Fields -/

/-- A string is read back behind the gap that follows a colon. -/
theorem readText_write (s : String) (rest : List Char) :
    readText (spacing.gap ++ (Json.write spacing level (.string s) ++ rest)) = .ok (s, rest) := by
  obtain ⟨cs, hcs, hread⟩ := Json.writeString_eq s rest
  have hs : skipSpace ('"' :: cs) = '"' :: cs := Json.skipSpace_cons (by decide) cs
  rw [readText, Json.skipSpace_gap, Json.write, hcs, hs]
  simp [step, Json.lift, hread, bind, Except.bind, pure, Except.pure, String.ofList_toList]

/-- An array of nodes is read back behind the gap that follows a colon. -/
theorem readArray_write {element : Reader Fault Outline} {outlines : List Outline}
    (hf : ∀ o ∈ outlines, o.toJson.FloatFree)
    (hread : ∀ o ∈ outlines, ReadsBack spacing (level + 1) element o.toJson o)
    (hl : outlines.length < fuel) (rest : List Char) :
    readArray fuel (some element) (spacing.gap ++
      (Json.write spacing level (.array (outlines.map Outline.toJson)) ++ rest)) =
        .ok (outlines, rest) := by
  obtain ⟨cs, hcs, hread⟩ := Json.elements_write Fault.document hf hread fuel hl rest
  have hs : skipSpace ('[' :: cs) = '[' :: cs := Json.skipSpace_cons (by decide) cs
  rw [hcs, readArray, Json.skipSpace_gap, hs]
  exact hread

/-- A payload is read back behind the gap that follows a colon. -/
theorem readPayload_write {document : Json} (hw : document.Within d) (hf : document.FloatFree)
    (hl : (Json.write spacing level document).length < fuel) {rest : List Char}
    (hr : Separated rest) :
    readPayload fuel d (spacing.gap ++ (Json.write spacing level document ++ rest)) =
      .ok (some document, rest) := by
  have hread := Json.readValue_write spacing hw hf hl hr
  rw [readPayload, Json.readValue_congr (Json.skipSpace_gap spacing _), hread]
  rfl

/-! ## Members -/

section

variable {readChildren : Reader Fault (List Outline)}

/-- The name is taken into a draft without one. -/
theorem readMember_name (name : String) {draft : Draft} (h : draft.name = none) (rest : List Char) :
    readMember fuel d readChildren draft "name"
        (spacing.colon ++ (Json.write spacing level (.string name) ++ rest)) =
      .ok (⟨some name, draft.children, draft.payload⟩, rest) := by
  have hkey : "name" = Field.name.key := rfl
  rw [readMember, if_pos hkey, h, Json.readColon_colon]
  simp [step, Json.lift, readText_write, bind, Except.bind, pure, Except.pure]

/-- Children are taken into a draft without any. -/
theorem readMember_children {children : List Outline} {draft : Draft} (h : draft.children = none)
    {cs rest : List Char} (hc : readChildren (spacing.gap ++ cs) = .ok (children, rest)) :
    readMember fuel d readChildren draft "children" (spacing.colon ++ cs) =
      .ok (⟨draft.name, some children, draft.payload⟩, rest) := by
  have hname : ¬ "children" = Field.name.key := by decide
  have hkey : "children" = Field.children.key := rfl
  rw [readMember, if_neg hname, if_pos hkey, h, Json.readColon_colon]
  simp [step, Json.lift, hc, bind, Except.bind, pure, Except.pure]

/-- A payload is taken into a draft without one. -/
theorem readMember_payload {document : Json} (hw : document.Within d) (hf : document.FloatFree)
    (hl : (Json.write spacing level document).length < fuel) {draft : Draft}
    (h : draft.payload = none) {rest : List Char} (hr : Separated rest) :
    readMember fuel d readChildren draft "payload"
        (spacing.colon ++ (Json.write spacing level document ++ rest)) =
      .ok (⟨draft.name, draft.children, some document⟩, rest) := by
  have hname : ¬ "payload" = Field.name.key := by decide
  have hchildren : ¬ "payload" = Field.children.key := by decide
  have hkey : "payload" = Field.payload.key := rfl
  rw [readMember, if_neg hname, if_neg hchildren, if_pos hkey, h, Json.readColon_colon]
  simp [step, Json.lift, readPayload_write hw hf hl hr, bind, Except.bind, pure, Except.pure]

end

/-! ## Nodes -/

/-- A node behind its opening brace is read from its members. -/
theorem readNode_object {draft : Draft} {outline : Outline} {cs rest : List Char}
    (h : Json.members .document (readMember fuel d (readChildren fuel d)) fuel true
      ⟨none, none, none⟩ cs = .ok (draft, rest)) (ho : draft.outline = .ok outline) :
    readNode fuel (d + 1) ('\x7b' :: cs) = .ok (outline, rest) := by
  have hs : skipSpace ('\x7b' :: cs) = '\x7b' :: cs := Json.skipSpace_cons (by decide) cs
  rw [readNode_succ, openNode, hs]
  simp [readMembers, h, ho, bind, Except.bind, pure, Except.pure]

/-- The members of a node are taken into the draft of its outline, if the children are read back. -/
theorem takes_members {name : String} {children : List Outline} {payload : Option Json}
    (hc : children ≠ [] → ∀ {rest : List Char}, readChildren fuel d (spacing.gap ++
      (Json.write spacing level (.array (children.map Outline.toJson)) ++ rest)) =
        .ok (children, rest))
    (hw : ∀ document ∈ payload, document.Within d) (hf : ∀ document ∈ payload, document.FloatFree)
    (hl : ∀ document ∈ payload, (Json.write spacing level document).length < fuel) :
    ∃ draft, Takes spacing level (readMember fuel d (readChildren fuel d)) ⟨none, none, none⟩
        (("name", .string name) :: (Node.childrenMember (Outline.toJsonAll children) ++
          Outline.payloadMember payload)) draft ∧
      draft.outline = .ok ⟨name, children, payload⟩ := by
  have hpayload (children? : Option (List Outline)) :
      Takes spacing level (readMember fuel d (readChildren fuel d)) ⟨some name, children?, none⟩
        (Outline.payloadMember payload) ⟨some name, children?, payload⟩ := by
    cases payload with
    | none => exact .nil _
    | some document =>
      exact .cons (readMember_payload (hw document rfl) (hf document rfl) (hl document rfl) rfl)
        (.nil _)
  rw [Outline.toJsonAll_eq_map]
  cases children with
  | nil => exact ⟨_, .cons (fun _ => readMember_name name rfl _) (hpayload none), rfl⟩
  | cons child children =>
    refine ⟨_, .cons (fun _ => readMember_name name rfl _)
      (.cons (fun _ => readMember_children rfl ?_) (hpayload (some (child :: children)))), rfl⟩
    exact hc (List.cons_ne_nil child children)

/-- An outline without floating-point numbers is read back from its own document. -/
theorem readNode_write {o : Outline} {depth : Nat} (hw : o.toJson.Within depth)
    (hf : o.toJson.FloatFree) (hl : (Json.write spacing level o.toJson).length < fuel) :
    ReadsBack spacing level (readNode fuel depth) o.toJson o := by
  induction o generalizing depth level with
  | mk name children payload ih =>
    intro rest _
    obtain ⟨d, rfl, hchildren, hpayload⟩ := Outline.within_toJson.1 hw
    obtain ⟨hfchildren, hfpayload⟩ := Outline.floatFree_toJson.1 hf
    rw [Outline.toJson] at hl
    obtain ⟨hlen, hmem⟩ := Json.length_write_object spacing level (("name", .string name) ::
      (Node.childrenMember (Outline.toJsonAll children) ++ Outline.payloadMember payload))
    obtain ⟨-, hlchildren, hlpayload⟩ := (Outline.mem_members (p := fun v =>
      (Json.write spacing (level + 1) v).length < fuel)).1 fun m hm => Nat.lt_trans (hmem m hm) hl
    have hreads : children ≠ [] → ∀ {rest : List Char}, readChildren fuel d (spacing.gap ++
        (Json.write spacing (level + 1) (.array (children.map Outline.toJson)) ++ rest)) =
          .ok (children, rest) := by
      intro hne rest
      obtain ⟨first, hfirst⟩ := List.exists_mem_of_ne_nil children hne
      obtain ⟨f, rfl, -⟩ := hchildren first hfirst
      obtain ⟨hmany, heach⟩ := Json.length_write_array spacing (level + 1)
        (children.map Outline.toJson)
      have hlarray := hlchildren hne
      rw [List.length_map] at hmany
      refine readArray_write hfchildren (fun child hc => ?_) (by omega) rest
      obtain ⟨g, hg, hwithin⟩ := hchildren child hc
      obtain rfl := Nat.add_right_cancel hg
      have hlchild := heach child.toJson (List.mem_map_of_mem hc)
      have hl : (Json.write spacing (level + 1 + 1) child.toJson).length < fuel := by omega
      exact fun {_} hr => ih child hc hwithin (hfchildren child hc) hl hr
    obtain ⟨draft, htakes, houtline⟩ := takes_members hreads hpayload hfpayload hlpayload
    have hmany := Nat.lt_trans hlen hl
    obtain ⟨cs, hcs, hread⟩ := Json.members_write Fault.document htakes fuel hmany rest
    rw [Outline.toJson, hcs]
    exact readNode_object hread houtline

/-- An outline without floating-point numbers that nests at most 127 deep is read back from its
document in either spacing. -/
theorem outline_write {o : Outline} (hw : o.toJson.Within Json.maxDepth)
    (hf : o.toJson.FloatFree) :
    outline (String.ofList (Json.write spacing 0 o.toJson)) = .ok o := by
  have h : readNode ((Json.write spacing 0 o.toJson).length + 1) Json.maxDepth
      (Json.write spacing 0 o.toJson ++ []) = .ok (o, []) :=
    readNode_write hw hf (Nat.lt_succ_self _) Separated.nil
  rw [List.append_nil] at h
  simp [outline, step, Json.lift, h, Json.readEnd, skipSpace, bind, Except.bind, pure, Except.pure]

/-- A tree without floating-point numbers that nests at most 127 deep is read back from what is
written for it, up to what reading its datasets from their documents makes of them. -/
theorem read_write {root : Node} (hw : root.toJson.Within Json.maxDepth)
    (hf : root.toJson.FloatFree) : read (write root) = .ok root.outline.node := by
  rw [← Node.toJson_outline] at hw hf
  rw [read, write, Json.indented, ← Node.toJson_outline, outline_write hw hf]
  rfl

end EventLog.Snapshot
