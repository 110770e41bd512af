import EventLog.Proofs.Json.PassedOver
import EventLog.Proofs.Snapshot.Rewrite
import EventLog.Proofs.Snapshot.Sketch

/-!
# Snapshots with any payloads

`loadStore_text`: of all documents in the grammar whose skeleton is well typed, those are loaded of
which every payload denotes something and nests within the levels that are left for it, and what is
loaded has the names and the children of the document. The skeleton of a document is its `Sketch`,
in which a payload still is the value that is written there. Members of a node may stand in any
order and among others that are passed over, so reading a node is reduced first to its three fields,
each by itself (`foldlM_takeField`). The induction is on the levels that are left.
-/

namespace EventLog

open EventLog.Json (Phrase Label Lexeme Blank Literal Reader Separated blanks skipSpace takeLabeled
  toOption_bind)

/-! ## Members into a draft -/

namespace Snapshot

open Json (Phrase)

section

variable {α : Type} (read : Phrase → Option α)

/-- What a member makes of a field, which may be given once. -/
def takeInto (key : String) (old : Option α) (name : String) (p : Phrase) : Option (Option α) :=
  if name = key then if old.isSome then none else (read p).map some else some old

/-- What the values of all members with the name of a field make of it. -/
def takeAll (old : Option α) (values : List Phrase) : Option (Option α) :=
  values.foldlM (fun old p => if old.isSome then none else (read p).map some) old

/-- The members with other names make no difference to a field. -/
theorem takeAll_valuesOf_cons {m : Label × Phrase} {text : List Char}
    (h : m.1.name.value? = some text) (key : String) (old : Option α)
    (ms : List (Label × Phrase)) :
    takeAll read old (Phrase.valuesOf key (m :: ms)) =
      (takeInto read key old (String.ofList text) m.2).bind fun old =>
        takeAll read old (Phrase.valuesOf key ms) := by
  by_cases hkey : String.ofList text = key
  · subst hkey
    have hvalues : Phrase.valuesOf (String.ofList text) (m :: ms) =
        m.2 :: Phrase.valuesOf (String.ofList text) ms := by
      simp [Phrase.valuesOf, h]
    rw [hvalues, takeAll, List.foldlM_cons, takeInto, if_pos rfl]
    rfl
  · have hne : ¬ text = key.toList := fun he => hkey (by rw [he, String.ofList_toList])
    have hvalues : Phrase.valuesOf key (m :: ms) = Phrase.valuesOf key ms := by
      simp [Phrase.valuesOf, h, hne]
    rw [hvalues, takeInto, if_neg hkey]
    rfl

/-- A field that is given at most once is read at most once. -/
theorem takeAll_of_atMostOne {values : List Phrase} {value : Option Phrase}
    (h : atMostOne? values = some value) : takeAll read none values = value.mapM read := by
  match values, h with
  | [], h =>
    obtain rfl := Option.some.inj h
    rfl
  | [p], h =>
    obtain rfl := Option.some.inj h
    cases hread : read p <;> simp [takeAll, hread]

end

/-- Takes a member of a node into a draft. -/
def takeField (depth : Nat) (children? : Phrase → Option (List Outline)) (draft : Draft)
    (name : String) (p : Phrase) : Option Draft := do
  return ⟨← takeInto Phrase.string? Field.name.key draft.name name p,
    ← takeInto children? Field.children.key draft.children name p,
    ← takeInto (Phrase.within? depth) Field.payload.key draft.payload name p⟩

/-- The three fields of a node do not depend on each other, nor on other members. -/
theorem foldlM_takeField {depth : Nat} {children? : Phrase → Option (List Outline)}
    {ms : List (Label × Phrase)} (hlabels : ∀ m ∈ ms, m.1.name.value?.isSome) (draft : Draft) :
    ms.foldlM (takeLabeled (takeField depth children?)) draft = do
      return ⟨← takeAll Phrase.string? draft.name (Phrase.valuesOf Field.name.key ms),
        ← takeAll children? draft.children (Phrase.valuesOf Field.children.key ms),
        ← takeAll (Phrase.within? depth) draft.payload (Phrase.valuesOf Field.payload.key ms)⟩ := by
  induction ms generalizing draft with
  | nil => rfl
  | cons m ms ih =>
    obtain ⟨hlabel, hlabels⟩ := List.forall_mem_cons.1 hlabels
    obtain ⟨text, htext⟩ := Option.isSome_iff_exists.1 hlabel
    simp only [List.foldlM_cons, takeLabeled, htext, Option.bind_some, takeField,
      takeAll_valuesOf_cons _ htext]
    cases takeInto Phrase.string? Field.name.key draft.name (String.ofList text) m.2 with
    | none => rfl
    | some name =>
      cases takeInto children? Field.children.key draft.children (String.ofList text) m.2 with
      | none => simp
      | some children =>
        cases takeInto (Phrase.within? depth) Field.payload.key draft.payload (String.ofList text)
          m.2 with
        | none => simp
        | some payload => exact ih hlabels ⟨name, children, payload⟩

/-- A string is read as the text that it stands for. -/
theorem readText_text {p : Phrase} {s : Literal} (hp : p.bare = .string s) (rest : List Char) :
    (readText (p.text ++ rest)).toOption = p.string?.map fun text => (text, rest) := by
  have hs : skipSpace (p.text ++ rest) = '"' :: (s.tail ++ rest) := by
    rw [Phrase.skipSpace_text, hp, Phrase.text, List.cons_append]
    exact Json.skipSpace_cons (by decide) _
  have hread := Json.readString_tail s rest
  rw [readText, Phrase.string?, hp]
  simp only [hs, if_true, step]
  rw [toOption_bind, Json.toOption_lift, hread]
  cases s.value? <;> rfl

/-- A payload is read as the value that it denotes, if it denotes one and nests within limits. -/
theorem readPayload_text {fuel depth : Nat} (p : Phrase) (hl : p.text.length < fuel)
    {rest : List Char} (hr : Separated rest) :
    (readPayload fuel depth (p.text ++ rest)).toOption =
      (p.within? depth).map fun payload => (some payload, rest) := by
  rw [readPayload, toOption_bind, step, Json.toOption_lift, Json.readValue_text p hl hr]
  cases p.within? depth <;> rfl

/-- A member of a node is taken into its draft, and other members are passed over. -/
theorem readMember_text {fuel depth : Nat} {readChildren : Reader Fault (List Outline)}
    {children? : Phrase → Option (List Outline)} {p : Phrase} (hl : p.text.length < fuel)
    {key : String} (hname : key = Field.name.key → ∃ s, p.bare = .string s)
    (hchildren : key = Field.children.key → ∀ {rest}, Separated rest →
      (readChildren (p.text ++ rest)).toOption =
        (children? p).map fun children => (children, rest))
    (draft : Draft) (colon : List Blank) {rest : List Char} (hr : Separated rest) :
    (readMember fuel depth readChildren draft key
      (blanks colon ++ ':' :: (p.text ++ rest))).toOption =
        (takeField depth children? draft key p).map fun draft => (draft, rest) := by
  have hcolon : step (Json.readColon (blanks colon ++ ':' :: (p.text ++ rest))) =
      .ok (p.text ++ rest) := by
    rw [Json.readColon_blanks]
    rfl
  obtain ⟨name, children, payload⟩ := draft
  rw [readMember, hcolon, takeField]
  by_cases hn : key = Field.name.key
  · obtain ⟨s, hs⟩ := hname hn
    subst hn
    cases name with
    | some name => simp [takeInto, Except.toOption]
    | none =>
      change (readText (p.text ++ rest) >>= _).toOption = _
      rw [toOption_bind, readText_text hs rest]
      simp only [takeInto, Field.key]
      cases p.string? <;> rfl
  by_cases hc : key = Field.children.key
  · subst hc
    cases children with
    | some children => simp [takeInto, hn, Except.toOption]
    | none =>
      change (readChildren (p.text ++ rest) >>= _).toOption = _
      rw [toOption_bind, hchildren rfl hr]
      simp only [takeInto, Field.key]
      cases children? p <;> rfl
  by_cases hp : key = Field.payload.key
  · subst hp
    cases payload with
    | some payload => simp [takeInto, hn, hc, Except.toOption]
    | none =>
      change (readPayload fuel depth (p.text ++ rest) >>= _).toOption = _
      rw [toOption_bind, readPayload_text p hl hr]
      simp only [takeInto, Field.key]
      cases p.within? depth <;> rfl
  · have hlevels := Nat.lt_of_le_of_lt p.levels_le_length hl
    have hskip := Json.skipValue_text p hl (Nat.le_of_lt hlevels) hr
    rw [if_neg hn, if_neg hc, if_neg hp, takeInto, takeInto, takeInto, if_neg hn, if_neg hc,
      if_neg hp]
    change (step (Json.skipValue fuel fuel (p.text ++ rest)) >>= _).toOption = _
    rw [hskip]
    rfl

/-! ## Nodes -/

/-- A node is read from behind the blanks in front of it. -/
theorem readNode_skipSpace (fuel depth : Nat) (cs : List Char) :
    readNode fuel depth (skipSpace cs) = readNode fuel depth cs := by
  have hopen (inside? : Option (Nat × Reader Fault (List Outline))) :
      openNode fuel inside? (skipSpace cs) = openNode fuel inside? cs := by
    have hidem : skipSpace (skipSpace cs) = skipSpace cs := List.dropWhile_idempotent _ cs
    rw [openNode, openNode, hidem]
  rcases depth with _ | _ | depth
  · exact hopen _
  · exact hopen _
  · exact hopen _

/-- The outlines of children are those of their sketches. -/
theorem mapM_outline? {depth : Nat} {items : List (List Blank × Phrase)} {sketches : List Sketch}
    (h : (items.map Prod.snd).mapM (Phrase.sketch? depth) = some sketches) :
    (∀ m ∈ items, (m.2.sketch? depth).isSome) ∧
      (items.mapM fun m => (m.2.sketch? depth).bind (Sketch.outline? depth)) =
        Sketch.outlines? depth sketches := by
  induction items generalizing sketches with
  | nil =>
    obtain rfl := Option.some.inj h
    exact ⟨nofun, rfl⟩
  | cons m items ih =>
    rw [List.map_cons, List.mapM_cons] at h
    obtain ⟨sketch, hsketch, h⟩ := Option.bind_eq_some_iff.1 h
    obtain ⟨rest, hrest, h⟩ := Option.bind_eq_some_iff.1 h
    obtain rfl := Option.some.inj h
    obtain ⟨hsome, heq⟩ := ih hrest
    refine ⟨List.forall_mem_cons.2 ⟨by rw [hsketch]; rfl, hsome⟩, ?_⟩
    rw [List.mapM_cons, heq, hsketch]
    rfl

/-- Nodes with `depth` levels left are read as the outlines of their sketches. -/
def ReadsNodes (fuel depth : Nat) : Prop :=
  ∀ {p : Phrase} {s : Sketch}, p.sketch? depth = some s → p.text.length < fuel →
    ∀ {rest : List Char}, Separated rest →
      (readNode fuel depth (p.text ++ rest)).toOption =
        (s.outline? depth).map fun outline => (outline, rest)

/-- Children are read if nodes are that have fewer levels left. -/
theorem readChildren_text {fuel depth : Nat} (ih : ∀ f < depth, ReadsNodes fuel f) {p : Phrase}
    {sketches : List Sketch} (h : p.sketchChildren? depth = some sketches)
    (hl : p.text.length < fuel) (rest : List Char) :
    (readChildren fuel depth (p.text ++ rest)).toOption =
      (Sketch.outlines? (depth - 1) sketches).map fun outlines => (outlines, rest) := by
  cases depth with
  | zero => cases h
  | succ f =>
    obtain ⟨phrases, hphrases, hsketches⟩ := Option.bind_eq_some_iff.1 h
    obtain ⟨front, items, hbare, rfl⟩ := Phrase.items?_eq_some hphrases
    obtain ⟨hlength, hmem⟩ := Phrase.length_text_array front items
    obtain ⟨hsome, houtlines⟩ := mapM_outline? hsketches
    have hl : (Phrase.array front items).text.length < fuel := by
      have := p.length_text_bare
      rw [hbare] at this
      omega
    have hitems : ∀ m ∈ items, ∀ {rest}, Separated rest →
        (readNode fuel f (m.2.text ++ rest)).toOption =
          ((m.2.sketch? f).bind (Sketch.outline? f)).map fun outline => (outline, rest) := by
      intro m hm rest hr
      obtain ⟨s, hs⟩ := Option.isSome_iff_exists.1 (hsome m hm)
      rw [hs]
      exact ih f (Nat.lt_succ_self f) hs (Nat.lt_trans (hmem m hm) hl) hr
    have hread := Json.elements_text Fault.document
      (fun p => (p.sketch? f).bind (Sketch.outline? f))
      (readNode_skipSpace fuel f) hitems (Nat.lt_trans hlength hl) true front rest
    have hs : skipSpace (p.text ++ rest) =
        '[' :: (blanks front ++ (Phrase.textItems true items ++ ']' :: rest)) := by
      rw [Phrase.skipSpace_text, hbare, Phrase.text, List.cons_append, List.append_assoc,
        List.append_assoc]
      exact Json.skipSpace_cons (by decide) _
    rw [readChildren, readArray, hs]
    exact hread.trans (congrArg _ houtlines)

/-- The members of a node are taken into the draft of its outline. -/
theorem readMembers_text {fuel depth : Nat} (ih : ∀ f < depth, ReadsNodes fuel f)
    {front : List Blank} {ms : List (Label × Phrase)} {s : Sketch}
    (h : Phrase.sketchMembers? (Phrase.sketchChildren? depth) ms = some s)
    (hl : (Phrase.object front ms).text.length < fuel) (rest : List Char) :
    (readMembers fuel depth (readChildren fuel depth)
      (blanks front ++ (Phrase.textMembers true ms ++ '\x7d' :: rest))).toOption =
        (s.outline? (depth + 1)).map fun outline => (outline, rest) := by
  obtain ⟨⟨p, hp, hname⟩, ⟨q?, hq, hchildren⟩, hpayload, hlabels⟩ :=
    Phrase.sketchMembers?_eq_some h
  obtain ⟨hlength, hmem⟩ := Phrase.length_text_object front ms
  -- what the reader makes of a member with the name of the children
  let children? (q : Phrase) : Option (List Outline) :=
    (q.sketchChildren? depth).bind (Sketch.outlines? (depth - 1))
  have hmembers : ∀ m ∈ ms, ∀ draft text {rest}, m.1.name.value? = some text → Separated rest →
      (readMember fuel depth (readChildren fuel depth) draft (String.ofList text)
        (blanks m.1.colon ++ ':' :: (m.2.text ++ rest))).toOption =
          (takeField depth children? draft (String.ofList text) m.2).map
            fun draft => (draft, rest) := by
    intro m hm draft text rest htext hr
    have hlm := Nat.lt_trans (hmem m hm) hl
    have hvalue : ∀ {key p?}, String.ofList text = key →
        atMostOne? (Phrase.valuesOf key ms) = some p? → p? = some m.2 := fun hkey hvalues =>
      Phrase.eq_of_mem_valuesOf hm (by rw [htext, ← hkey, String.toList_ofList]) hvalues
    refine readMember_text hlm (fun hkey => ?_) (fun hkey rest _ => ?_) draft m.1.colon hr
    · obtain rfl := Option.some.inj (hvalue hkey hp)
      exact Phrase.string?_eq_some hname
    · obtain rfl := hvalue hkey hq
      have hsketches : m.2.sketchChildren? depth = some s.children := hchildren
      rw [readChildren_text ih hsketches hlm rest]
      simp only [children?, hsketches, Option.bind_some]
  have hread := Json.members_text Fault.document hmembers (Nat.lt_trans hlength hl) true front
    ⟨none, none, none⟩ rest
  rw [readMembers, toOption_bind, hread, foldlM_takeField hlabels]
  simp only [Field.key, takeAll_of_atMostOne _ hp, takeAll_of_atMostOne _ hq,
    takeAll_of_atMostOne _ hpayload]
  obtain ⟨name, children, payload⟩ := s
  have hfirst : Option.mapM Phrase.string? (some p) = some (some name) := by
    rw [Option.mapM_some, hname]
    rfl
  have hlevels : depth + 1 - 2 = depth - 1 := by omega
  rw [hfirst, Sketch.outline?, hlevels, Nat.add_sub_cancel]
  cases q? with
  | none =>
    obtain rfl : [] = children := Option.some.inj hchildren
    cases payload.mapM (Phrase.within? depth) <;> rfl
  | some q =>
    have houtlines : Option.mapM children? (some q) =
        (Sketch.outlines? (depth - 1) children).map some := by
      have hsketches : q.sketchChildren? depth = some children := hchildren
      simp only [Option.mapM_some, children?, hsketches, Option.bind_some]
      rfl
    rw [houtlines]
    cases Sketch.outlines? (depth - 1) children with
    | none => rfl
    | some outlines => cases payload.mapM (Phrase.within? depth) <;> rfl

/-- Nodes are read as the outlines of their sketches. -/
theorem readNode_text (fuel depth : Nat) : ReadsNodes fuel depth := by
  induction depth using Nat.strongRecOn with
  | _ depth ih =>
    intro p s h hl rest _
    cases depth with
    | zero => cases h
    | succ depth =>
      rw [Phrase.sketch?_succ] at h
      obtain ⟨ms, hms, hs⟩ := Option.bind_eq_some_iff.1 h
      obtain ⟨front, hbare⟩ := Phrase.members?_eq_some hms
      have hl : (Phrase.object front ms).text.length < fuel := by
        have := p.length_text_bare
        rw [hbare] at this
        omega
      have hread := readMembers_text (fun f hf => ih f (Nat.lt_succ_of_lt hf)) hs hl rest
      have hopen : skipSpace (p.text ++ rest) =
          '\x7b' :: (blanks front ++ (Phrase.textMembers true ms ++ '\x7d' :: rest)) := by
        rw [Phrase.skipSpace_text, hbare, Phrase.text, List.cons_append, List.append_assoc,
          List.append_assoc]
        exact Json.skipSpace_cons (by decide) _
      rw [readNode_succ, openNode, hopen]
      exact hread

end Snapshot

/-! ## Documents -/

/-- The text of a document with blanks behind it. -/
def Json.Phrase.document (p : Phrase) (behind : List Blank) : String :=
  String.ofList (p.text ++ blanks behind)

/-- A document is read as the outline of its sketch. -/
theorem Snapshot.outline_text {p : Phrase} {s : Sketch} (h : p.sketch? Json.maxDepth = some s)
    (behind : List Blank) :
    (Snapshot.outline (p.document behind)).toOption = s.outline? Json.maxDepth := by
  have hread := readNode_text ((p.text ++ blanks behind).length + 1) Json.maxDepth h
    (by rw [List.length_append]; omega) (Separated.nil.blanks behind)
  have hend : skipSpace (blanks behind ++ []) = [] := Json.skipSpace_blanks behind []
  rw [List.append_nil] at hread hend
  rw [Snapshot.outline, Phrase.document, String.toList_ofList, toOption_bind, hread]
  cases s.outline? Json.maxDepth with
  | none => rfl
  | some outline =>
    rw [Option.map_some, Option.bind_some, toOption_bind, Json.readEnd, hend]
    rfl

/-- What is loaded of a document is the tree of its sketch, which then has an outline. -/
theorem outline?_of_loadStore {p : Phrase} {s : Sketch} (h : p.sketch? Json.maxDepth = some s)
    {behind : List Blank} {path : String} {root : Node}
    (hroot : loadStore path (.ok (p.document behind).toUTF8) = .ok root) :
    (s.outline? Json.maxDepth).isSome ∧ root = s.node := by
  have hread := Snapshot.outline_text h behind
  obtain ⟨text, source, htext, hsource, rfl⟩ := loadStore_eq_ok hroot
  rw [fileText_toUTF8] at htext
  obtain rfl := Except.ok.inj htext
  rw [hsource] at hread
  exact ⟨hread ▸ rfl, Sketch.node_of_outline? hread.symm⟩

/-- A document in the grammar with a well-typed skeleton that nests at most 127 levels is loaded
exactly if each payload nests no deeper than the levels that are left for it, and all numbers and
strings in it denote something. The tree has the names and the children of the document. -/
theorem loadStore_text {p : Phrase} {s : Sketch} (h : p.sketch? Json.maxDepth = some s)
    (behind : List Blank) (path : String) :
    ((∃ root, loadStore path (.ok (p.document behind).toUTF8) = .ok root) ↔
        ∀ q ∈ s.payloads Json.maxDepth, q.2.levels ≤ q.1 ∧ ∀ l ∈ q.2.lexemes, l.Denotes) ∧
      ∀ root, loadStore path (.ok (p.document behind).toUTF8) = .ok root → root = s.node := by
  have hread := Snapshot.outline_text h behind
  have hsome : (s.outline? Json.maxDepth).isSome ↔
      ∀ q ∈ s.payloads Json.maxDepth, q.2.levels ≤ q.1 ∧ ∀ l ∈ q.2.lexemes, l.Denotes :=
    (s.isSome_outline? Json.maxDepth).trans (forall₂_congr fun q _ => Phrase.isSome_within? q.1 q.2)
  rw [← hsome]
  refine ⟨⟨fun ⟨root, hroot⟩ => (outline?_of_loadStore h hroot).1, fun hs => ?_⟩,
    fun root hroot => (outline?_of_loadStore h hroot).2⟩
  obtain ⟨outline, houtline⟩ := Option.isSome_iff_exists.1 hs
  cases hsource : Snapshot.outline (p.document behind) with
  | error fault =>
    rw [hsource, houtline] at hread
    cases hread
  | ok source =>
    refine ⟨source.node, ?_⟩
    rw [loadStore, fileText_toUTF8]
    simp only [Snapshot.read, hsource, Except.map, Except.mapError]

/-- A member without blanks. -/
def Json.Label.ofText (name : String) : Label := ⟨[], .ofText name, [], []⟩

/-- A payload with rows of two kinds. -/
def Json.Phrase.samplePayload : Phrase :=
  .object [] [(.ofText "rows", .array [] [
    ([.space], .number ⟨false, .leading 0 [2], none, none⟩),
    ([], .object [] [(.ofText "b", .bool true), (.ofText "a", .null)])])]

/-- A document with a member that is passed over though it denotes nothing, with blanks and an
escape in the name of a member, and with a payload that is no dataset. -/
def Json.Phrase.sample : Phrase :=
  .object [.space] [
    (.ofText "comment", .array [] [
      ([.tab], .string [.unit ⟨⟨13, true⟩, ⟨8, false⟩, ⟨0, false⟩, ⟨0, false⟩⟩]),
      ([], .number ⟨true, .zero, none, some ⟨true, some .plus, ⟨9, [9, 9]⟩⟩⟩)]),
    (.ofText "children", .array [.lineFeed] [([], .object [] [
      (.ofText "payload", .string (.ofText "none")),
      (⟨[.space], [.unit ⟨⟨0, false⟩, ⟨0, false⟩, ⟨6, false⟩, ⟨14, true⟩⟩, .ofChar 'a', .ofChar 'm',
        .ofChar 'e'], [.space], [.carriageReturn]⟩, .spaced [.tab] (.string (.ofText "a/b")))])]),
    (.ofText "name", .string (.ofText "/")),
    (.ofText "payload", samplePayload)]

/-- Its sketch. -/
def Sketch.sample : Sketch :=
  ⟨"/", [⟨"a/b", [], some (.string (.ofText "none"))⟩], some .samplePayload⟩

/-- The document is loaded as the tree of its sketch. -/
theorem loadStore_text_sample :
    Phrase.sample.sketch? Json.maxDepth = some Sketch.sample ∧
      loadStore "store.json" (.ok (Phrase.sample.document [.lineFeed]).toUTF8) =
        .ok ⟨"/", [⟨"a/b", [], none⟩], some ⟨[.malformed (.integer 12),
          .compound [("a", .other .null), ("b", .other (.bool true))]]⟩⟩ := by
  have hsketch : Phrase.sample.sketch? Json.maxDepth = some Sketch.sample := by rfl
  have hpayloads : ∀ q ∈ Sketch.sample.payloads Json.maxDepth,
      q.2.levels ≤ q.1 ∧ ∀ l ∈ q.2.lexemes, l.Denotes := by
    have hboth : Sketch.sample.payloads Json.maxDepth =
        [(126, .samplePayload), (124, .string (.ofText "none"))] := by rfl
    rw [hboth, List.forall_mem_cons, List.forall_mem_singleton]
    have hstring (text : String) : Lexeme.Denotes (.string (.ofText text)) :=
      Option.isSome_iff_exists.2 ⟨text.toList, Literal.value?_ofText text⟩
    refine ⟨⟨by decide, ?_⟩, by decide, ?_⟩
    · show ∀ l ∈ [Lexeme.string (.ofText "rows"), .number ⟨false, .leading 0 [2], none, none⟩,
        .string (.ofText "b"), .string (.ofText "a")], l.Denotes
      simp only [List.forall_mem_cons]
      exact ⟨hstring "rows", Json.Number.isSome_value? (by decide), hstring "b", hstring "a",
        List.forall_mem_nil _⟩
    · show ∀ l ∈ [Lexeme.string (.ofText "none")], l.Denotes
      exact List.forall_mem_singleton.2 (hstring "none")
  obtain ⟨hload, hnode⟩ := loadStore_text hsketch [.lineFeed] "store.json"
  obtain ⟨root, hroot⟩ := hload.2 hpayloads
  refine ⟨hsketch, ?_⟩
  rw [hroot, hnode root hroot]
  cbv

/-- The document of a node with a payload. -/
def Json.Phrase.ofPayload (payload : Phrase) : Phrase :=
  .object [] [(.ofText "name", .string (.ofText "/")), (.ofText "payload", payload)]

/-- The number one, scaled by the power of ten with this exponent. -/
def Json.Number.ofExponent (digits : Digits) : Number :=
  ⟨false, .leading 0 [], none, some ⟨false, none, digits⟩⟩

/-- The first half of a pair alone. -/
def Json.Literal.half : Literal :=
  [.unit ⟨⟨13, false⟩, ⟨8, false⟩, ⟨0, false⟩, ⟨0, false⟩⟩]

/-- Arrays inside each other. -/
def Json.Phrase.nested : Nat → Phrase
  | 0 => .null
  | n + 1 => .array [] [([], nested n)]

theorem Json.Phrase.levels_nested (n : Nat) : (nested n).levels = n := by
  induction n with
  | zero => rfl
  | succ n ih => rw [nested, levels, levelsItems, levelsItems, Nat.max_zero, ih]

/-- The document of a node with a payload has a skeleton that is well typed. -/
theorem sketch?_ofPayload (payload : Phrase) :
    (Phrase.ofPayload payload).sketch? Json.maxDepth = some ⟨"/", [], some payload⟩ := by
  rfl

/-- Three documents whose payload alone keeps them from being loaded: a number out of range, half of
a pair of units, and arrays that nest 127 deep. -/
theorem loadStore_text_refused :
    (Phrase.ofPayload (.number (.ofExponent ⟨9, [9, 9]⟩))).document [] =
        "\x7b\"name\":\"/\",\"payload\":1e999\x7d" ∧
      (Phrase.ofPayload (.string .half)).document [] =
        "\x7b\"name\":\"/\",\"payload\":\"\\ud800\"\x7d" ∧
      ∀ payload ∈ [Phrase.number (.ofExponent ⟨9, [9, 9]⟩), .string .half, .nested 127],
        (Phrase.ofPayload payload).sketch? Json.maxDepth = some ⟨"/", [], some payload⟩ ∧
          ∀ path root, loadStore path (.ok ((Phrase.ofPayload payload).document []).toUTF8) ≠
            .ok root := by
  refine ⟨by decide, by decide, fun payload hpayload =>
    ⟨sketch?_ofPayload payload, fun path root hroot => ?_⟩⟩
  obtain ⟨hsome, -⟩ := outline?_of_loadStore (sketch?_ofPayload payload) hroot
  have hwithin : (payload.within? 126).isSome :=
    (Sketch.isSome_outline? _ _).1 hsome (126, payload) (by simp [Sketch.payloads, Json.maxDepth])
  simp only [List.mem_cons, List.not_mem_nil, or_false] at hpayload
  rcases hpayload with rfl | rfl | rfl
  · exact absurd hwithin (by decide)
  · exact absurd hwithin (by decide)
  · have hlevels := ((Phrase.isSome_within? 126 _).1 hwithin).1
    rw [Phrase.levels_nested] at hlevels
    omega

end EventLog
