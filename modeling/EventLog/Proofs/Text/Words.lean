import EventLog.Text.Blank
import EventLog.Text.Lines

/-!
# Texts cut at characters

The pieces of a text and the words of a line are what a cut at line feeds and a cut at blanks leave
(`pieces_eq_splitOn`, `words_eq_splitOnP`): pieces may be empty, words not. A cut can be made part
by part, which gives the words of a text from those on both sides of a blank (`words_append_blank`).
-/

namespace EventLog.Text

/-! ## Pieces -/

/-- The pieces are what stands between the line feeds. -/
theorem pieces_eq_splitOn (cs : List Char) : pieces cs = cs.splitOn '\n' := by
  induction cs with
  | nil => rfl
  | cons c rest ih =>
    obtain ⟨piece, others, hpieces⟩ := List.exists_cons_of_ne_nil (pieces_ne_nil rest)
    rw [List.splitOn_cons_eq_if_modifyHead, ← ih, pieces, hpieces]
    simp

/-- No piece has a line feed. -/
theorem lineFeed_not_mem_of_mem_splitOn {cs piece : List Char} (h : piece ∈ cs.splitOn '\n') :
    '\n' ∉ piece := by
  rw [← pieces_eq_splitOn] at h
  induction cs generalizing piece with
  | nil =>
    rw [List.mem_singleton.1 h]
    exact List.not_mem_nil
  | cons c rest ih =>
    obtain ⟨first, others, hpieces⟩ := List.exists_cons_of_ne_nil (pieces_ne_nil rest)
    rw [hpieces] at ih
    rw [pieces, hpieces] at h
    split at h
    · rcases List.mem_cons.1 h with rfl | h
      · exact List.not_mem_nil
      · exact ih h
    · next hc =>
      rcases List.mem_cons.1 h with rfl | h
      · exact List.not_mem_cons_of_ne_of_not_mem (Ne.symm hc) (ih List.mem_cons_self)
      · exact ih (List.mem_cons_of_mem first h)

/-! ## Words -/

/-- The words of a text are its first one, unless it is empty, and those behind it. -/
theorem words_eq_consWord (cs : List Char) :
    words cs = consWord (splitWord cs).1 (splitWord cs).2 :=
  rfl

theorem consWord_of_ne_nil {word : List Char} (h : word ≠ []) (others : List (List Char)) :
    consWord word others = word :: others :=
  if_neg (mt List.isEmpty_iff.1 h)

/-- Words are put in front like any piece, unless they are empty. -/
theorem consWord_filter (word : List Char) (tail : List (List Char)) :
    consWord word (tail.filter (· ≠ [])) = (word :: tail).filter (· ≠ []) := by
  rw [List.filter_cons, consWord]
  cases word <;> simp

/-- A cut at blanks gives the first word, perhaps an empty one, and the words behind it with empty
ones between them. -/
theorem splitOnP_isBlank (cs : List Char) :
    ∃ tail, cs.splitOnP isBlank = (splitWord cs).1 :: tail ∧
      tail.filter (· ≠ []) = (splitWord cs).2 := by
  induction cs with
  | nil => exact ⟨[], rfl, rfl⟩
  | cons c cs ih =>
    obtain ⟨tail, hsplit, htail⟩ := ih
    rw [List.splitOnP_cons_eq_if_modifyHead, hsplit]
    by_cases hblank : isBlank c = true
    · refine ⟨(splitWord cs).1 :: tail, ?_, ?_⟩
      · rw [if_pos hblank, splitWord_cons_blank hblank]
      · rw [splitWord_cons_blank hblank, ← consWord_filter, htail]
        rfl
    · have hsolid : isBlank c = false := Bool.eq_false_iff.2 hblank
      refine ⟨tail, ?_, ?_⟩
      · rw [if_neg hblank, splitWord_cons_of_not_blank hsolid, List.modifyHead_cons]
      · rw [splitWord_cons_of_not_blank hsolid, htail]

/-- The words are what stands between the blanks, where anything does. -/
theorem words_eq_splitOnP (cs : List Char) :
    words cs = (cs.splitOnP isBlank).filter (· ≠ []) := by
  obtain ⟨tail, hsplit, htail⟩ := splitOnP_isBlank cs
  rw [hsplit, ← consWord_filter, htail]
  rfl

/-- The words on both sides of a blank are independent. -/
theorem words_append_blank {c : Char} (hblank : isBlank c = true) (front rest : List Char) :
    words (front ++ c :: rest) = words front ++ words rest := by
  simp only [words_eq_splitOnP, List.splitOnP_append_cons front rest hblank, List.filter_append]

/-- Blanks in front of a text add no word. -/
theorem words_blanks_append {gap : List Char} (hgap : ∀ c ∈ gap, isBlank c = true)
    (rest : List Char) : words (gap ++ rest) = words rest := by
  induction gap with
  | nil => rfl
  | cons c gap ih =>
    rw [List.cons_append, words_cons_blank (hgap c List.mem_cons_self),
      ih fun d hd => hgap d (List.mem_cons_of_mem c hd)]

/-- Blanks alone have no word. -/
theorem words_blanks {gap : List Char} (hgap : ∀ c ∈ gap, isBlank c = true) : words gap = [] := by
  rw [← List.append_nil gap, words_blanks_append hgap]
  rfl

/-- Blanks behind a text add no word. -/
theorem words_append_blanks {gap : List Char} (hgap : ∀ c ∈ gap, isBlank c = true)
    (front : List Char) : words (front ++ gap) = words front := by
  cases gap with
  | nil => rw [List.append_nil]
  | cons c gap =>
    obtain ⟨hc, hgap⟩ := List.forall_mem_cons.1 hgap
    rw [words_append_blank hc, words_blanks hgap, List.append_nil]

/-- Characters none of which is blank are one word. -/
theorem words_solid {word : List Char} (hne : word ≠ []) (hsolid : ∀ c ∈ word, isBlank c = false) :
    words word = [word] := by
  rw [words_eq_splitOnP, List.splitOnP_eq_singleton hsolid]
  simp [hne]

/-- A word in front of a gap is the first one. -/
theorem words_solid_append {word gap : List Char} (hne : word ≠ [])
    (hsolid : ∀ c ∈ word, isBlank c = false) (hgap : ∀ c ∈ gap, isBlank c = true)
    (hgap_ne : gap ≠ []) (rest : List Char) : words (word ++ gap ++ rest) = word :: words rest := by
  obtain ⟨c, gap, rfl⟩ := List.exists_cons_of_ne_nil hgap_ne
  rw [List.append_assoc, List.cons_append, words_append_blank (hgap c List.mem_cons_self),
    words_solid hne hsolid, words_blanks_append fun d hd => hgap d (List.mem_cons_of_mem c hd)]
  rfl

/-- A text has no words exactly if it has blanks only. -/
theorem words_eq_nil {cs : List Char} : words cs = [] ↔ ∀ c ∈ cs, isBlank c = true := by
  refine ⟨fun h => ?_, words_blanks⟩
  induction cs with
  | nil => exact nofun
  | cons c cs ih =>
    by_cases hblank : isBlank c = true
    · rw [words_cons_blank hblank] at h
      exact List.forall_mem_cons.2 ⟨hblank, ih h⟩
    · rw [words, splitWord_cons_of_not_blank (Bool.eq_false_iff.2 hblank)] at h
      cases h

/-- The carriage return of a line ending belongs to no word. -/
theorem words_dropReturn (line : List Char) : words (dropReturn line) = words line := by
  rw [dropReturn]
  split
  · next hlast =>
    obtain ⟨front, rfl⟩ := List.getLast?_eq_some_iff.1 hlast
    have hreturn : isBlank '\r' = true := by decide
    rw [List.dropLast_concat, words_append_blank hreturn]
    exact (List.append_nil _).symm
  · rfl

end EventLog.Text
