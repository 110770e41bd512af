import Mathlib.Data.List.DropRight
import EventLog.Proofs.Json.PhraseLexemes
import EventLog.Proofs.Json.ReadBack

/-!
# Values of the grammar read

`readValue_text`: in front of a text that is separated from it, a phrase is read as what it denotes
if it nests within the levels that are left, and is refused otherwise. The two loops are stated for
any readers of elements and members (`elements_text`, `members_text`): an array is read if each
element is, and an object is what its members make of a state, one after the other. The induction is
on the phrase, for all numbers of levels.
-/

namespace EventLog.Json

open EventLog.Text

/-! ## How values begin and end -/

/-- A value begins with a lexeme of its own, not with the end of an array. -/
theorem opens_text (p : Phrase) (rest : List Char) :
    ∃ c cs, skipSpace (p.text ++ rest) = c :: cs ∧ c ≠ ']' := by
  have hopen : ∀ {c : Char} (cs : List Char), isSpace c = false → c ≠ ']' →
      ∃ d ds, skipSpace (c :: cs) = d :: ds ∧ d ≠ ']' := fun cs hspace hc =>
    ⟨_, cs, skipSpace_cons hspace cs, hc⟩
  induction p with
  | null => exact hopen _ (by decide) (by decide)
  | bool b => cases b <;> exact hopen _ (by decide) (by decide)
  | number n =>
    obtain ⟨negative, whole, fraction, exponent⟩ := n
    cases negative with
    | true => exact hopen _ (by decide) (by decide)
    | false =>
      obtain ⟨c, cs, hwhole, hc⟩ := whole.text_eq_cons
      rw [Phrase.text, Number.text, hwhole]
      exact hopen _ (isSpace_of_isDigit hc) (ne_of_isDigit hc (by decide))
  | string s => exact hopen _ (by decide) (by decide)
  | array front items => exact hopen _ (by decide) (by decide)
  | object front members => exact hopen _ (by decide) (by decide)
  | spaced front value ih =>
    rw [Phrase.text, List.append_assoc, skipSpace_blanks]
    exact ih

/-- What follows an item is a comma or the end of the array, behind blanks. -/
theorem separated_textItems (behind : List Blank) (items : List (List Blank × Phrase))
    (rest : List Char) :
    Separated (blanks behind ++ (Phrase.textItems false items ++ ']' :: rest)) := by
  refine .blanks behind ?_
  cases items with
  | nil => exact .cons (by decide) (by decide) (by decide) (by decide) rest
  | cons m items => exact .comma _

/-- What follows a member is a comma or the end of the object, behind blanks. -/
theorem separated_textMembers (behind : List Blank) (members : List (Label × Phrase))
    (rest : List Char) :
    Separated (blanks behind ++ (Phrase.textMembers false members ++ '\x7d' :: rest)) := by
  refine .blanks behind ?_
  cases members with
  | nil => exact .cons (by decide) (by decide) (by decide) (by decide) rest
  | cons m members => exact .comma _

/-! ## Elements and members -/

/-- Behind the opening bracket or a comma, the next element is the value that stands there. -/
theorem nextElement_text (first : Bool) (front : List Blank) (p : Phrase) (rest : List Char) :
    nextElement first (blanks front ++ ((if first then [] else [',']) ++ (p.text ++ rest))) =
      .ok (some (skipSpace (p.text ++ rest))) := by
  obtain ⟨c, cs, hopen, hc⟩ := opens_text p rest
  have hcomma (cs : List Char) : skipSpace (',' :: cs) = ',' :: cs := skipSpace_cons (by decide) cs
  rw [nextElement, skipSpace_blanks]
  cases first <;> simp [hcomma, hopen, hc]

/-- Behind the opening brace or a comma, the next member is the one whose name stands there. -/
theorem nextMember_text (first : Bool) (front inner : List Blank) (rest : List Char) :
    nextMember first (blanks front ++ ((if first then [] else [',']) ++
      (blanks inner ++ '"' :: rest))) = .ok (some rest) := by
  have hcomma (cs : List Char) : skipSpace (',' :: cs) = ',' :: cs := skipSpace_cons (by decide) cs
  have hquote (cs : List Char) : skipSpace ('"' :: cs) = '"' :: cs := skipSpace_cons (by decide) cs
  rw [nextMember, skipSpace_blanks]
  cases first <;> simp [hcomma, hquote]

/-- The colon behind a name is taken, behind the blanks in front of it. -/
theorem readColon_blanks (bs : List Blank) (rest : List Char) :
    readColon (blanks bs ++ ':' :: rest) = .ok rest := by
  have hs : skipSpace (':' :: rest) = ':' :: rest := skipSpace_cons (by decide) rest
  rw [readColon, skipSpace_blanks, hs]
  rfl

section

variable {ε α σ : Type} (raise : Fault → ε)

/-- The elements of an array are read if each of them is, by a reader that passes over blanks. -/
theorem elements_text {element : Reader ε α} (result : Phrase → Option α)
    (hspace : ∀ cs, element (skipSpace cs) = element cs) :
    ∀ {items : List (List Blank × Phrase)}, (∀ m ∈ items, ∀ {rest}, Separated rest →
      (element (m.2.text ++ rest)).toOption = (result m.2).map fun x => (x, rest)) →
    ∀ {loop : Nat}, items.length < loop → ∀ (first : Bool) (front : List Blank) (rest : List Char),
      (elements raise element loop first
        (blanks front ++ (Phrase.textItems first items ++ ']' :: rest))).toOption =
          (items.mapM fun m => result m.2).map fun xs => (xs, rest)
  | _, _, 0, hloop, _, _, _ => absurd hloop (Nat.not_lt_zero _)
  | [], _, loop + 1, _, first, front, rest => by
    have hend : skipSpace (']' :: rest) = ']' :: rest := skipSpace_cons (by decide) rest
    simp [elements, nextElement, endArray, Phrase.textItems, hend, lift, bind, Except.bind, pure,
      Except.pure, Except.toOption]
  | (behind, item) :: items, hread, loop + 1, hloop, first, front, rest => by
    obtain ⟨hitem, hitems⟩ := List.forall_mem_cons.1 hread
    have ih := elements_text result hspace hitems (Nat.lt_of_succ_lt_succ hloop) false behind rest
    rw [Phrase.textItems, List.append_assoc, List.append_assoc, List.append_assoc, elements,
      nextElement_text]
    change (element (skipSpace _) >>= _).toOption = _
    rw [hspace, toOption_bind, hitem (separated_textItems behind items rest), List.mapM_cons]
    cases result item with
    | none => rfl
    | some x =>
      simp only [Option.map_some, Option.bind_some, toOption_bind, ih]
      cases items.mapM fun m => result m.2 <;> rfl

/-- What a step that takes members by name and value makes of a member as it is written. -/
def takeLabeled (take : σ → String → Phrase → Option σ) (state : σ) (m : Label × Phrase) :
    Option σ :=
  m.1.name.value?.bind fun name => take state (String.ofList name) m.2

/-- The members of an object are taken one after the other. -/
theorem members_text {member : σ → String → Reader ε σ} {take : σ → String → Phrase → Option σ} :
    ∀ {ms : List (Label × Phrase)}, (∀ m ∈ ms, ∀ state name {rest},
      m.1.name.value? = some name → Separated rest →
        (member state (String.ofList name)
          (blanks m.1.colon ++ ':' :: (m.2.text ++ rest))).toOption =
            (take state (String.ofList name) m.2).map fun state => (state, rest)) →
    ∀ {loop : Nat}, ms.length < loop →
    ∀ (first : Bool) (front : List Blank) (state : σ) (rest : List Char),
      (members raise member loop first state
        (blanks front ++ (Phrase.textMembers first ms ++ '\x7d' :: rest))).toOption =
          (ms.foldlM (takeLabeled take) state).map fun state => (state, rest)
  | _, _, 0, hloop, _, _, _, _ => absurd hloop (Nat.not_lt_zero _)
  | [], _, loop + 1, _, first, front, state, rest => by
    have hend : skipSpace ('\x7d' :: rest) = '\x7d' :: rest := skipSpace_cons (by decide) rest
    simp [members, nextMember, endObject, Phrase.textMembers, hend, lift, bind, Except.bind, pure,
      Except.pure, Except.toOption]
  | (label, value) :: ms, hread, loop + 1, hloop, first, front, state, rest => by
    obtain ⟨hmember, hmembers⟩ := List.forall_mem_cons.1 hread
    have ih := members_text hmembers (Nat.lt_of_succ_lt_succ hloop) false label.behind
    simp only [Phrase.textMembers, List.append_assoc, List.cons_append, members, nextMember_text]
    change (lift raise (readString _) >>= _).toOption = _
    rw [toOption_bind, toOption_lift, readString_tail, List.foldlM_cons, takeLabeled]
    cases hname : label.name.value? with
    | none => rfl
    | some name =>
      have htake := hmember state name hname (separated_textMembers label.behind ms rest)
      simp only [Option.map_some, Option.bind_some, toOption_bind, htake]
      cases take state (String.ofList name) value with
      | none => rfl
      | some state' => exact ih state' rest

end

/-! ## Values -/

/-- What a value denotes, if it nests within limits. -/
def Phrase.within? (depth : Nat) (p : Phrase) : Option Json :=
  if p.levels ≤ depth then p.value? else none

/-- What a value denotes within limits is what it denotes. -/
theorem Phrase.value?_of_within? {depth : Nat} {p : Phrase} {document : Json}
    (h : p.within? depth = some document) : p.value? = some document := by
  rw [within?] at h
  split at h
  · exact h
  · cases h

/-- A value denotes something within limits exactly if it nests within them and all numbers and
strings in it denote something. -/
theorem Phrase.isSome_within? (depth : Nat) (p : Phrase) :
    (p.within? depth).isSome ↔ p.levels ≤ depth ∧ ∀ l ∈ p.lexemes, l.Denotes := by
  rw [within?, ← p.isSome_value?]
  split
  · next h => exact ⟨fun hv => ⟨h, hv⟩, And.right⟩
  · next h => exact iff_of_false nofun (fun hv => h hv.1)

/-- Items that nest within limits denote what each of them does. -/
theorem mapM_within? (depth : Nat) (items : List (List Blank × Phrase)) :
    (items.mapM fun m => m.2.within? depth) =
      if Phrase.levelsItems items ≤ depth then Phrase.valueItems? items else none := by
  induction items with
  | nil => rfl
  | cons m items ih =>
    rw [List.mapM_cons, ih, Phrase.within?, Phrase.levelsItems, Phrase.valueItems?]
    by_cases hm : m.2.levels ≤ depth
    · by_cases hitems : Phrase.levelsItems items ≤ depth
      · rw [if_pos hm, if_pos hitems, if_pos (Nat.max_le.2 ⟨hm, hitems⟩)]
      · rw [if_pos hm, if_neg hitems, if_neg (mt Nat.max_le.1 (mt And.right hitems))]
        cases m.2.value? <;> rfl
    · rw [if_neg hm, if_neg (mt Nat.max_le.1 (mt And.left hm))]
      rfl

/-- Takes a member to those that have been read, the last one first. -/
def takeValue (depth : Nat) (read : List (String × Json)) (name : String) (p : Phrase) :
    Option (List (String × Json)) :=
  (p.within? depth).map fun value => (name, value) :: read

/-- Taking members that nest within limits one after the other gives what they denote, the last one
first. -/
theorem foldlM_takeValue (depth : Nat) (ms : List (Label × Phrase)) (read : List (String × Json)) :
    ms.foldlM (takeLabeled (takeValue depth)) read =
      (if Phrase.levelsMembers ms ≤ depth then Phrase.valueMembers? ms else none).map
        fun members => members.reverse ++ read := by
  induction ms generalizing read with
  | nil => rfl
  | cons m ms ih =>
    rw [List.foldlM_cons, takeLabeled, Phrase.levelsMembers, Phrase.valueMembers?]
    cases hname : m.1.name.value? with
    | none => split <;> rfl
    | some name =>
      simp only [takeValue, Phrase.within?, Option.bind_some]
      by_cases hm : m.2.levels ≤ depth
      · rw [if_pos hm]
        cases hvalue : m.2.value? with
        | none => split <;> rfl
        | some value =>
          by_cases hms : Phrase.levelsMembers ms ≤ depth
          · rw [if_pos (Nat.max_le.2 ⟨hm, hms⟩)]
            refine (ih _).trans ?_
            rw [if_pos hms]
            cases Phrase.valueMembers? ms <;> simp
          · rw [if_neg (mt Nat.max_le.1 (mt And.right hms))]
            refine (ih _).trans ?_
            rw [if_neg hms]
            rfl
      · rw [if_neg hm, if_neg (mt Nat.max_le.1 (mt And.left hm))]
        rfl

/-- A value is read from behind the blanks in front of it. -/
theorem readValue_skipSpace (fuel depth : Nat) (cs : List Char) :
    readValue fuel depth (skipSpace cs) = readValue fuel depth cs :=
  readValue_congr (List.dropWhile_idempotent isSpace cs) fuel depth

/-- Behind a quote, a value is the string that ends at the next one. -/
theorem readValue_quote (fuel depth : Nat) (cs : List Char) :
    (readValue fuel depth ('"' :: cs)).toOption =
      (readString cs).toOption.map fun (text, rest) => (.string (String.ofList text), rest) := by
  have hs : skipSpace ('"' :: cs) = '"' :: cs := skipSpace_cons (by decide) cs
  rw [readValue.eq_def]
  simp only [hs]
  cases readString cs <;> rfl

/-- Behind a bracket, a value is the array of the elements there, if another level is left. -/
theorem readValue_bracket (fuel depth : Nat) (cs : List Char) :
    (readValue fuel (depth + 1) ('[' :: cs)).toOption =
      (elements id (readValue fuel depth) fuel true cs).toOption.map
        fun (items, rest) => (.array items, rest) := by
  have hs : skipSpace ('[' :: cs) = '[' :: cs := skipSpace_cons (by decide) cs
  rw [readValue.eq_def]
  simp only [hs]
  cases elements id (readValue fuel depth) fuel true cs <;> rfl

/-- Behind a brace, a value is the object of the members there, if another level is left. -/
theorem readValue_brace (fuel depth : Nat) (cs : List Char) :
    (readValue fuel (depth + 1) ('\x7b' :: cs)).toOption =
      (members id (takeMember (readValue fuel depth)) fuel true [] cs).toOption.map
        fun (read, rest) => (.object read.reverse, rest) := by
  have hs : skipSpace ('\x7b' :: cs) = '\x7b' :: cs := skipSpace_cons (by decide) cs
  rw [readValue.eq_def]
  simp only [hs]
  cases members id (takeMember (readValue fuel depth)) fuel true [] cs <;> rfl

/-- No array and no object is read where no level is left. -/
theorem readValue_zero {c : Char} (hc : c = '[' ∨ c = '\x7b') (fuel : Nat) (cs : List Char) :
    (readValue fuel 0 (c :: cs)).toOption = none := by
  have hs : skipSpace (c :: cs) = c :: cs :=
    skipSpace_cons (by rcases hc with rfl | rfl <;> decide) cs
  rw [readValue.eq_def]
  simp only [hs]
  rcases hc with rfl | rfl <;> rfl

/-- A value is read as what it denotes, if it denotes anything and nests within limits. -/
theorem readValue_text {fuel depth : Nat} (p : Phrase) (hl : p.text.length < fuel)
    {rest : List Char} (hr : Separated rest) :
    (readValue fuel depth (p.text ++ rest)).toOption =
      (p.within? depth).map fun v => (v, rest) := by
  induction p generalizing depth rest with
  | null =>
    have hs (cs : List Char) : skipSpace ('n' :: cs) = 'n' :: cs := skipSpace_cons (by decide) cs
    rw [readValue.eq_def, Phrase.text, List.cons_append]
    simp only [hs]
    rfl
  | bool b =>
    have htrue (cs : List Char) : skipSpace ('t' :: cs) = 't' :: cs := skipSpace_cons (by decide) cs
    have hfalse (cs : List Char) : skipSpace ('f' :: cs) = 'f' :: cs :=
      skipSpace_cons (by decide) cs
    rw [readValue.eq_def]
    cases b with
    | true =>
      rw [Phrase.text, List.cons_append]
      simp only [htrue]
      rfl
    | false =>
      rw [Phrase.text, List.cons_append]
      simp only [hfalse]
      rfl
  | number n =>
    have hwithin : (Phrase.number n).within? depth = n.value? := if_pos (Nat.zero_le depth)
    rw [hwithin, ← readNumber_text n hr, Phrase.text, Number.text, List.append_assoc,
      List.append_assoc]
    cases n.negative with
    | true =>
      have hs (cs : List Char) : skipSpace ('-' :: cs) = '-' :: cs := skipSpace_cons (by decide) cs
      rw [readValue.eq_def, if_pos rfl, List.singleton_append]
      simp only [hs]
      rfl
    | false =>
      obtain ⟨c, cs, hwhole, hc⟩ := n.whole.text_eq_cons
      rw [hwhole]
      exact congrArg Except.toOption (readValue_digit hc fuel depth _)
  | string s =>
    have hwithin : (Phrase.string s).within? depth =
        s.value?.map fun cs => .string (String.ofList cs) := if_pos (Nat.zero_le depth)
    rw [hwithin, Phrase.text, List.cons_append, readValue_quote, readString_tail, Option.map_map,
      Option.map_map]
    rfl
  | array front items ih =>
    obtain ⟨hlength, hmem⟩ := Phrase.length_text_array front items
    rw [Phrase.within?, Phrase.levels, Phrase.value?, Phrase.text, List.cons_append,
      List.append_assoc, List.append_assoc]
    cases depth with
    | zero =>
      rw [readValue_zero (.inl rfl), if_neg (Nat.not_succ_le_zero _)]
      rfl
    | succ depth =>
      have hitems : ∀ m ∈ items, ∀ {rest}, Separated rest →
          (readValue fuel depth (m.2.text ++ rest)).toOption =
            (m.2.within? depth).map fun v => (v, rest) :=
        fun m hm _ hr => ih m hm (Nat.lt_trans (hmem m hm) hl) hr
      have hread := elements_text id (Phrase.within? depth) (readValue_skipSpace fuel depth) hitems
        (Nat.lt_trans hlength hl) true front rest
      rw [readValue_bracket, List.singleton_append, hread, mapM_within?]
      simp only [Nat.add_le_add_iff_right]
      split
      · cases Phrase.valueItems? items <;> rfl
      · rfl
  | object front members ih =>
    obtain ⟨hlength, hmem⟩ := Phrase.length_text_object front members
    rw [Phrase.within?, Phrase.levels, Phrase.value?, Phrase.text, List.cons_append,
      List.append_assoc, List.append_assoc]
    cases depth with
    | zero =>
      rw [readValue_zero (.inr rfl), if_neg (Nat.not_succ_le_zero _)]
      rfl
    | succ depth =>
      have hmembers : ∀ m ∈ members, ∀ read name {rest}, m.1.name.value? = some name →
          Separated rest → (takeMember (readValue fuel depth) read (String.ofList name)
            (blanks m.1.colon ++ ':' :: (m.2.text ++ rest))).toOption =
              (takeValue depth read (String.ofList name) m.2).map fun read => (read, rest) := by
        intro m hm read name rest _ hr
        rw [takeMember, readColon_blanks]
        change (readValue fuel depth (m.2.text ++ rest) >>= _).toOption = _
        rw [toOption_bind, ih m hm (Nat.lt_trans (hmem m hm) hl) hr, takeValue]
        cases m.2.within? depth <;> rfl
      have hread := members_text id hmembers (Nat.lt_trans hlength hl) true front [] rest
      rw [readValue_brace, List.singleton_append, hread, foldlM_takeValue]
      simp only [Nat.add_le_add_iff_right]
      split
      · cases Phrase.valueMembers? members <;> simp
      · rfl
  | spaced front value ih =>
    rw [Phrase.text, List.length_append] at hl
    rw [Phrase.text, List.append_assoc, readValue_congr (skipSpace_blanks front _)]
    exact ih (by omega) hr

end EventLog.Json
