import EventLog.Json.Skip
import EventLog.Proofs.Json.Phrases

/-!
# Values of the grammar passed over

`skipValue_text`: every phrase is passed over, whether it denotes anything or not. Its numbers may
be out of range, its strings may hold halves of pairs, and it may nest as deep as it is long.
-/

namespace EventLog.Json

open EventLog.Text

/-! ## Lexemes -/

/-- A string is passed over, whatever it stands for. -/
theorem skipString_tail (s : Literal) (rest : List Char) :
    skipString (s.tail ++ rest) = .ok rest := by
  induction s with
  | nil =>
    rw [Literal.tail_nil_append, skipString.eq_def]
    simp
  | cons part s ih =>
    rw [Literal.tail_cons_append, skipString.eq_def]
    cases part with
    | plain c hquote hslash hcontrol =>
      simp [Part.text, hquote, hslash, Nat.not_lt.2 hcontrol, ih]
    | escaped e =>
      have hletter : e.letter ≠ 'u' := by cases e <;> decide
      simp [Part.text, hletter, escaped?_letter, ih]
    | unit u => simp [Part.text, hexUnit?_number, ih]

/-! ## Items and members -/

/-- The items of an array are passed over if each of them is. -/
theorem skipElements_text {skip : List Char → Except Fault (List Char)}
    (hspace : ∀ cs, skip (skipSpace cs) = skip cs) :
    ∀ {items : List (List Blank × Phrase)}, (∀ m ∈ items, ∀ {rest}, Separated rest →
      skip (m.2.text ++ rest) = .ok rest) →
    ∀ {loop : Nat}, items.length < loop → ∀ (first : Bool) (front : List Blank) (rest : List Char),
      skipElements skip loop first
        (blanks front ++ (Phrase.textItems first items ++ ']' :: rest)) = .ok rest
  | _, _, 0, hloop, _, _, _ => absurd hloop (Nat.not_lt_zero _)
  | [], _, loop + 1, _, first, front, rest => by
    have hend : skipSpace (']' :: rest) = ']' :: rest := skipSpace_cons (by decide) rest
    simp [skipElements, Phrase.textItems, hend]
  | (behind, item) :: items, hskip, loop + 1, hloop, first, front, rest => by
    obtain ⟨hitem, hitems⟩ := List.forall_mem_cons.1 hskip
    have ih := skipElements_text hspace hitems (Nat.lt_of_succ_lt_succ hloop) false behind rest
    have hitem := hitem (separated_textItems behind items rest)
    rw [Phrase.textItems, List.append_assoc, List.append_assoc, List.append_assoc, skipElements,
      skipSpace_blanks]
    cases first with
    | true =>
      obtain ⟨c, cs, hopen, hc⟩ := opens_text item (blanks behind ++
        (Phrase.textItems false items ++ ']' :: rest))
      rw [← hspace, hopen] at hitem
      rw [if_pos rfl, List.nil_append, hopen]
      simp only [hc, hitem, if_false, if_true]
      exact ih
    | false =>
      rw [if_neg Bool.false_ne_true, List.singleton_append, skipSpace_cons (by decide)]
      change (skip _ >>= _) = _
      rw [hitem]
      exact ih

/-- The members of an object are passed over if the value of each of them is. -/
theorem skipMembers_text {skip : List Char → Except Fault (List Char)} :
    ∀ {ms : List (Label × Phrase)}, (∀ m ∈ ms, ∀ {rest}, Separated rest →
      skip (m.2.text ++ rest) = .ok rest) →
    ∀ {loop : Nat}, ms.length < loop → ∀ (first : Bool) (front : List Blank) (rest : List Char),
      skipMembers skip loop first
        (blanks front ++ (Phrase.textMembers first ms ++ '\x7d' :: rest)) = .ok rest
  | _, _, 0, hloop, _, _, _ => absurd hloop (Nat.not_lt_zero _)
  | [], _, loop + 1, _, first, front, rest => by
    have hend : skipSpace ('\x7d' :: rest) = '\x7d' :: rest := skipSpace_cons (by decide) rest
    simp [skipMembers, Phrase.textMembers, hend]
  | (label, value) :: ms, hskip, loop + 1, hloop, first, front, rest => by
    obtain ⟨hvalue, hvalues⟩ := List.forall_mem_cons.1 hskip
    have ih := skipMembers_text hvalues (Nat.lt_of_succ_lt_succ hloop) false label.behind rest
    have hvalue := hvalue (separated_textMembers label.behind ms rest)
    have hquote (cs : List Char) : skipSpace ('"' :: cs) = '"' :: cs :=
      skipSpace_cons (by decide) cs
    have hmember : ∀ bs, skipMember skip (blanks bs ++ '"' :: (label.name.tail ++
        (blanks label.colon ++ ':' :: (value.text ++ (blanks label.behind ++
          (Phrase.textMembers false ms ++ '\x7d' :: rest)))))) =
        .ok (blanks label.behind ++ (Phrase.textMembers false ms ++ '\x7d' :: rest)) := by
      intro bs
      rw [skipMember, skipSpace_blanks, hquote]
      simp only [if_true, skipString_tail, readColon_blanks, bind, Except.bind, hvalue]
    simp only [Phrase.textMembers, List.append_assoc, List.cons_append, skipMembers,
      skipSpace_blanks]
    cases first with
    | true =>
      rw [if_pos rfl, List.nil_append, skipSpace_blanks, hquote]
      change (skipMember skip _ >>= _) = _
      have hfirst := hmember []
      rw [blanks, List.map_nil, List.nil_append] at hfirst
      rw [hfirst]
      exact ih
    | false =>
      rw [if_neg Bool.false_ne_true, List.singleton_append, skipSpace_cons (by decide)]
      change (skipMember skip _ >>= _) = _
      rw [hmember label.front]
      exact ih

/-! ## Values -/

/-- A value that is not wanted is passed over from behind the blanks in front of it. -/
theorem skipValue_congr {cs cs' : List Char} (h : skipSpace cs = skipSpace cs') (fuel depth : Nat) :
    skipValue fuel depth cs = skipValue fuel depth cs' := by
  rw [skipValue.eq_def, skipValue.eq_def]
  simp only [h]

/-- A value that begins with a digit is a number. -/
theorem skipValue_digit {c : Char} (hc : isDigit c = true) (fuel depth : Nat) (rest : List Char) :
    skipValue fuel depth (c :: rest) =
      (readNumeral .invalidNumber false (c :: rest)).map Prod.snd := by
  have hs : skipSpace (c :: rest) = c :: rest := skipSpace_cons (isSpace_of_isDigit hc) rest
  have hnull : c ≠ 'n' := ne_of_isDigit hc (by decide)
  have htrue : c ≠ 't' := ne_of_isDigit hc (by decide)
  have hfalse : c ≠ 'f' := ne_of_isDigit hc (by decide)
  have hminus : c ≠ '-' := ne_of_isDigit hc (by decide)
  rw [skipValue.eq_def]
  simp [hs, hc, hnull, htrue, hfalse, hminus]

/-- Every value is passed over, whatever it denotes, if there are as many levels as it nests. -/
theorem skipValue_text {fuel depth : Nat} (p : Phrase) (hl : p.text.length < fuel)
    (hd : p.levels ≤ depth) {rest : List Char} (hr : Separated rest) :
    skipValue fuel depth (p.text ++ rest) = .ok rest := by
  have hspace (depth : Nat) (cs : List Char) :
      skipValue fuel depth (skipSpace cs) = skipValue fuel depth cs :=
    skipValue_congr (List.dropWhile_idempotent isSpace cs) fuel depth
  induction p generalizing depth rest with
  | null =>
    have hs (cs : List Char) : skipSpace ('n' :: cs) = 'n' :: cs := skipSpace_cons (by decide) cs
    rw [skipValue.eq_def, Phrase.text, List.cons_append]
    simp only [hs]
    rfl
  | bool b =>
    have htrue (cs : List Char) : skipSpace ('t' :: cs) = 't' :: cs := skipSpace_cons (by decide) cs
    have hfalse (cs : List Char) : skipSpace ('f' :: cs) = 'f' :: cs :=
      skipSpace_cons (by decide) cs
    rw [skipValue.eq_def]
    cases b with
    | true =>
      rw [Phrase.text, List.cons_append]
      simp only [htrue]
      rfl
    | false =>
      rw [Phrase.text, List.cons_append]
      simp only [hfalse]
      rfl
  | number n =>
    have hread := readNumeral_text .invalidNumber n hr
    rw [Phrase.text, Number.text, List.append_assoc, List.append_assoc]
    cases hnegative : n.negative with
    | true =>
      have hs (cs : List Char) : skipSpace ('-' :: cs) = '-' :: cs := skipSpace_cons (by decide) cs
      rw [hnegative] at hread
      rw [skipValue.eq_def, if_pos rfl, List.singleton_append]
      simp only [hs, hread]
      rfl
    | false =>
      obtain ⟨c, cs, hwhole, hc⟩ := n.whole.text_eq_cons
      rw [hnegative, hwhole] at hread
      rw [hwhole]
      exact (skipValue_digit hc fuel depth _).trans (congrArg (Except.map Prod.snd) hread)
  | string s =>
    have hs (cs : List Char) : skipSpace ('"' :: cs) = '"' :: cs := skipSpace_cons (by decide) cs
    rw [skipValue.eq_def, Phrase.text, List.cons_append]
    simp only [hs]
    exact skipString_tail s rest
  | array front items ih =>
    obtain ⟨hlength, hmem⟩ := Phrase.length_text_array front items
    rw [Phrase.levels] at hd
    obtain ⟨depth, rfl⟩ : ∃ d, depth = d + 1 := ⟨depth - 1, by omega⟩
    have hitems : ∀ m ∈ items, ∀ {rest}, Separated rest →
        skipValue fuel depth (m.2.text ++ rest) = .ok rest := fun m hm _ hr =>
      ih m hm (Nat.lt_trans (hmem m hm) hl)
        ((Phrase.levelsItems_le_iff items).1 (Nat.le_of_succ_le_succ hd) m hm) hr
    have hs (cs : List Char) : skipSpace ('[' :: cs) = '[' :: cs := skipSpace_cons (by decide) cs
    rw [skipValue.eq_def, Phrase.text, List.cons_append, List.append_assoc, List.append_assoc]
    simp only [hs]
    exact skipElements_text (hspace depth) hitems (Nat.lt_trans hlength hl) true front rest
  | object front members ih =>
    obtain ⟨hlength, hmem⟩ := Phrase.length_text_object front members
    rw [Phrase.levels] at hd
    obtain ⟨depth, rfl⟩ : ∃ d, depth = d + 1 := ⟨depth - 1, by omega⟩
    have hvalues : ∀ m ∈ members, ∀ {rest}, Separated rest →
        skipValue fuel depth (m.2.text ++ rest) = .ok rest := fun m hm _ hr =>
      ih m hm (Nat.lt_trans (hmem m hm) hl)
        ((Phrase.levelsMembers_le_iff members).1 (Nat.le_of_succ_le_succ hd) m hm) hr
    have hs (cs : List Char) : skipSpace ('\x7b' :: cs) = '\x7b' :: cs :=
      skipSpace_cons (by decide) cs
    rw [skipValue.eq_def, Phrase.text, List.cons_append, List.append_assoc, List.append_assoc]
    simp only [hs]
    exact skipMembers_text hvalues (Nat.lt_trans hlength hl) true front rest
  | spaced front value ih =>
    rw [Phrase.text, List.length_append] at hl
    rw [Phrase.text, List.append_assoc, skipValue_congr (skipSpace_blanks front _)]
    exact ih (by omega) hd hr

end EventLog.Json
