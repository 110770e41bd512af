/-!
# Lines

A text is a sequence of pieces between line feeds, and those on both sides of a line feed are
independent (`pieces_append_lineFeed`). `lines` are the pieces with the empty last one dropped and
with the carriage return of a `CRLF` ending removed; `unlines` writes each line with a line feed
behind it.
-/

namespace EventLog.Text

/-- The pieces of a text between line feeds; there is always at least one. -/
def pieces : List Char → List (List Char)
  | [] => [[]]
  | c :: rest =>
    if c = '\n' then [] :: pieces rest
    else match pieces rest with
      | [] => [[c]]
      | piece :: others => (c :: piece) :: others

/-- Removes one carriage return at the end. -/
def dropReturn (line : List Char) : List Char :=
  if line.getLast? = some '\r' then line.dropLast else line

/-- The lines among the pieces: each piece but the last was ended by a line feed and loses the
carriage return before it; what follows the last line feed is a line only if it holds anything. -/
def linesOfPieces : List (List Char) → List (List Char)
  | [] => []
  | [last] => if last.isEmpty then [] else [last]
  | piece :: others => dropReturn piece :: linesOfPieces others

/-- The lines of a text. -/
def lines (cs : List Char) : List (List Char) :=
  linesOfPieces (pieces cs)

/-- Each line with a line feed behind it. -/
def unlines (ls : List String) : String :=
  String.join (ls.map (· ++ "\n"))

theorem unlines_cons (line : String) (ls : List String) :
    unlines (line :: ls) = line ++ "\n" ++ unlines ls := by
  rw [unlines, List.map_cons, String.join_cons]
  rfl

theorem pieces_ne_nil : ∀ cs : List Char, pieces cs ≠ []
  | [] => by simp [pieces]
  | c :: rest => by
    by_cases h : c = '\n'
    · simp [pieces, h]
    · simp only [pieces, h, if_false]
      split <;> simp

/-- The pieces on both sides of a line feed are independent. -/
theorem pieces_append_lineFeed (front rest : List Char) :
    pieces (front ++ '\n' :: rest) = pieces front ++ pieces rest := by
  induction front with
  | nil => simp [pieces]
  | cons c front ih =>
    rw [List.cons_append, pieces, pieces]
    split
    · rw [ih, List.cons_append]
    · obtain ⟨piece, others, hpieces⟩ := List.exists_cons_of_ne_nil (pieces_ne_nil front)
      rw [ih, hpieces, List.cons_append, List.cons_append]

/-- Text without a line feed is one piece. -/
theorem pieces_of_not_mem {line : List Char} (h : '\n' ∉ line) : pieces line = [line] := by
  induction line with
  | nil => simp [pieces]
  | cons c line ih =>
    have hc : c ≠ '\n' := fun he => h (by simp [he])
    have hl : '\n' ∉ line := fun hm => h (by simp [hm])
    simp [pieces, hc, ih hl]

end EventLog.Text
