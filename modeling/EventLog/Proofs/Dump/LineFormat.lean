import Mathlib.Data.List.Forall2
import EventLog.Dump
import EventLog.Proofs.Text.Numerals
import EventLog.Proofs.Text.Words

/-!
# The line format of dumps

A dump is read line by line, where a line is a piece between line feeds. `read_lines` says what
comes of it: the entries of all lines that hold anything, if each of them begins with a numeral, and
otherwise a fault that names the first one that does not. The reader passes over the empty piece
behind the last line feed and over the carriage returns of line endings, which makes no difference
to columns or to the numbers of lines (`readLines_linesOfPieces`), so both halves are inductions on
the pieces.
-/

namespace EventLog.Dump

open EventLog.Text

/-! ## Lines -/

/-- The columns of a line: what stands between the blanks, where anything does. -/
def columns (line : List Char) : List (List Char) :=
  (line.splitOnP isBlank).filter (· ≠ [])

/-- A line that holds anything but blanks. -/
def IsFilled (line : List Char) : Prop :=
  ∃ c ∈ line, isBlank c = false

instance : DecidablePred IsFilled :=
  fun line => inferInstanceAs (Decidable (∃ c ∈ line, isBlank c = false))

/-- A line of an entry: its first column is a numeral of the timestamp, the others are fields. -/
def IsLineOf (line : List Char) (entry : Entry) : Prop :=
  ∃ first others, columns line = first :: others ∧ IsNumeral first entry.timestamp ∧
    entry.fields = others.map String.ofList

theorem words_eq_columns (line : List Char) : words line = columns line :=
  words_eq_splitOnP line

/-- A line has columns exactly if it is filled. -/
theorem columns_ne_nil {line : List Char} : columns line ≠ [] ↔ IsFilled line := by
  simp [← words_eq_columns, words_eq_nil, IsFilled]

/-- Endings of lines and the end of the text make no difference. -/
theorem readLines_linesOfPieces (number : Nat) (ls : List (List Char)) :
    readLines number (linesOfPieces ls) = readLines number ls := by
  induction ls generalizing number with
  | nil => rfl
  | cons line rest ih =>
    cases rest with
    | nil => cases line <;> rfl
    | cons next rest =>
      rw [linesOfPieces, readLines, readLines, words_dropReturn, ih]
      exact nofun

theorem read_eq_readLines (text : String) :
    read text = readLines 1 (text.toList.splitOn '\n') := by
  rw [read, lines, readLines_linesOfPieces, pieces_eq_splitOn]

/-! ## Reading line by line -/

/-- A line without columns is passed over. -/
theorem readLines_cons_blank {line : List Char} (h : ¬ IsFilled line) (number : Nat)
    (rest : List (List Char)) :
    readLines number (line :: rest) = readLines (number + 1) rest := by
  have hcolumns : words line = [] := by
    rw [words_eq_columns]
    exact Classical.not_not.1 (mt columns_ne_nil.1 h)
  rw [readLines, hcolumns]

/-- A line of an entry is read as the entry. -/
theorem readLines_cons_line {line : List Char} {entry : Entry} (h : IsLineOf line entry)
    (number : Nat) (rest : List (List Char)) :
    readLines number (line :: rest) = (readLines (number + 1) rest).map (entry :: ·) := by
  obtain ⟨first, others, hcolumns, hnumeral, hfields⟩ := h
  obtain ⟨timestamp, fields⟩ := entry
  subst hfields
  simp only [readLines, words_eq_columns, hcolumns, readUnsigned_eq_ok.2 hnumeral]

/-- A line whose first column is no numeral ends the reading. -/
theorem readLines_cons_fault {line first : List Char} {others : List (List Char)}
    {cause : NumeralFault} (hcolumns : columns line = first :: others)
    (hcause : readUnsigned first = .error cause) (number : Nat) (rest : List (List Char)) :
    readLines number (line :: rest) = .error ⟨number, String.ofList first, cause⟩ := by
  simp only [readLines, words_eq_columns, hcolumns, hcause]

/-- A line is blank, it is one of an entry, or its first column is no numeral. -/
theorem line_cases (line : List Char) :
    ¬ IsFilled line ∨ (∃ entry, IsLineOf line entry) ∨
      ∃ first others cause, columns line = first :: others ∧
        readUnsigned first = .error cause := by
  cases hcolumns : columns line with
  | nil => exact .inl fun h => columns_ne_nil.2 h hcolumns
  | cons first others =>
    cases hread : readUnsigned first with
    | error cause => exact .inr (.inr ⟨first, others, cause, rfl, hread⟩)
    | ok timestamp =>
      exact .inr (.inl ⟨⟨timestamp, others.map String.ofList⟩, first, others, hcolumns,
        readUnsigned_eq_ok.1 hread, rfl⟩)

/-- A line of an entry is filled. -/
theorem IsLineOf.isFilled {line : List Char} {entry : Entry} (h : IsLineOf line entry) :
    IsFilled line := by
  obtain ⟨first, others, hcolumns, -, -⟩ := h
  exact columns_ne_nil.1 (hcolumns ▸ List.cons_ne_nil first others)

/-- A line is of one entry. -/
theorem IsLineOf.unique {line : List Char} {entry entry' : Entry} (h : IsLineOf line entry)
    (h' : IsLineOf line entry') : entry = entry' := by
  have hread := readLines_cons_line h 1 []
  rw [readLines_cons_line h' 1 []] at hread
  cases hread
  rfl

/-! ## Reading all lines -/

/-- The entries are those of the filled lines, in order. -/
theorem readLines_eq_ok {number : Nat} {ls : List (List Char)} {entries : List Entry} :
    readLines number ls = .ok entries ↔
      List.Forall₂ IsLineOf (ls.filter IsFilled) entries := by
  induction ls generalizing number entries with
  | nil =>
    rw [readLines, List.filter_nil, List.forall₂_nil_left_iff, Except.ok.injEq, eq_comm]
  | cons line rest ih =>
    rcases line_cases line with hblank | ⟨entry, hentry⟩ | ⟨first, others, cause, hcolumns, hcause⟩
    · rw [readLines_cons_blank hblank, List.filter_cons_of_neg (by simpa using hblank), ih]
    · rw [readLines_cons_line hentry,
        List.filter_cons_of_pos (by simpa using hentry.isFilled), List.forall₂_cons_left_iff]
      constructor
      · intro h
        cases hrest : readLines (number + 1) rest with
        | error fault =>
          rw [hrest] at h
          cases h
        | ok later =>
          rw [hrest] at h
          cases h
          exact ⟨entry, later, hentry, ih.1 hrest, rfl⟩
      · rintro ⟨entry', later, hentry', hlater, rfl⟩
        rw [ih.2 hlater, hentry.unique hentry']
        rfl
    · have hfilled : IsFilled line := columns_ne_nil.1 (hcolumns ▸ List.cons_ne_nil first others)
      rw [readLines_cons_fault hcolumns hcause, List.filter_cons_of_pos (by simpa using hfilled),
        List.forall₂_cons_left_iff]
      refine iff_of_false nofun ?_
      rintro ⟨entry, -, ⟨first', others', hcolumns', hnumeral, -⟩, -⟩
      cases hcolumns.symm.trans hcolumns'
      cases hcause.symm.trans (readUnsigned_eq_ok.2 hnumeral)

/-- A line that does not end the reading: it is blank or one of an entry. -/
def IsReadable (line : List Char) : Prop :=
  IsFilled line → ∃ entry, IsLineOf line entry

/-- A fault behind readable lines is the fault of all of them. -/
theorem readLines_append_of_error {number : Nat} {before rest : List (List Char)} {fault : Fault}
    (hbefore : ∀ line ∈ before, IsReadable line)
    (h : readLines (number + before.length) rest = .error fault) :
    readLines number (before ++ rest) = .error fault := by
  induction before generalizing number with
  | nil => exact h
  | cons line before ih =>
    obtain ⟨hline, hbefore⟩ := List.forall_mem_cons.1 hbefore
    have hrest : readLines (number + 1) (before ++ rest) = .error fault :=
      ih hbefore (by rwa [Nat.add_assoc, Nat.add_comm 1])
    rw [List.cons_append]
    by_cases hfilled : IsFilled line
    · obtain ⟨entry, hentry⟩ := hline hfilled
      rw [readLines_cons_line hentry, hrest]
      rfl
    · rw [readLines_cons_blank hfilled, hrest]

/-- Lines are read up to the first that is not readable. -/
theorem exists_of_readLines_eq_error {number : Nat} {ls : List (List Char)} {fault : Fault}
    (h : readLines number ls = .error fault) :
    ∃ before line behind first others, ls = before ++ line :: behind ∧
      (∀ line ∈ before, IsReadable line) ∧ columns line = first :: others ∧
        readUnsigned first = .error fault.cause ∧ fault.line = number + before.length ∧
          fault.column = String.ofList first := by
  induction ls generalizing number with
  | nil => cases h
  | cons line rest ih =>
    -- a fault of the lines behind a readable one
    have hlater (hline : IsReadable line) (h : readLines (number + 1) rest = .error fault) :
        ∃ before bad behind first others, line :: rest = before ++ bad :: behind ∧
          (∀ line ∈ before, IsReadable line) ∧ columns bad = first :: others ∧
            readUnsigned first = .error fault.cause ∧ fault.line = number + before.length ∧
              fault.column = String.ofList first := by
      obtain ⟨before, bad, behind, first, others, rfl, hbefore, hcolumns, hcause, hnumber, hfirst⟩
        := ih h
      refine ⟨line :: before, bad, behind, first, others, rfl,
        List.forall_mem_cons.2 ⟨hline, hbefore⟩, hcolumns, hcause, ?_, hfirst⟩
      rw [hnumber, List.length_cons]
      omega
    rcases line_cases line with hblank | ⟨entry, hentry⟩ | ⟨first, others, cause, hcolumns, hcause⟩
    · rw [readLines_cons_blank hblank] at h
      exact hlater (fun hfilled => absurd hfilled hblank) h
    · rw [readLines_cons_line hentry] at h
      cases hrest : readLines (number + 1) rest with
      | ok entries =>
        rw [hrest] at h
        cases h
      | error later =>
        rw [hrest] at h
        cases h
        exact hlater (fun _ => ⟨entry, hentry⟩) hrest
    · rw [readLines_cons_fault hcolumns hcause] at h
      cases h
      exact ⟨[], line, rest, first, others, rfl, nofun, hcolumns, hcause, rfl, rfl⟩

/-- Lines have entries exactly if each of them has one. -/
theorem exists_entries_iff {ls : List (List Char)} :
    (∃ entries, List.Forall₂ IsLineOf ls entries) ↔ ∀ line ∈ ls, ∃ entry, IsLineOf line entry := by
  induction ls with
  | nil => exact iff_of_true ⟨[], .nil⟩ nofun
  | cons line rest ih =>
    rw [List.forall_mem_cons, ← ih]
    constructor
    · rintro ⟨_, _ | ⟨hentry, hrest⟩⟩
      exact ⟨⟨_, hentry⟩, ⟨_, hrest⟩⟩
    · rintro ⟨⟨entry, hentry⟩, entries, hrest⟩
      exact ⟨entry :: entries, .cons hentry hrest⟩

/-- A word is refused exactly if it is no numeral. -/
theorem exists_error_iff {first : List Char} :
    (∃ cause, readUnsigned first = .error cause) ↔ ¬ ∃ n, IsNumeral first n := by
  simp only [← readUnsigned_eq_ok]
  cases readUnsigned first <;> simp

/-- The lines of a text are what stands between its line feeds. A text is read if every line with
anything but blanks in it has a numeral as its first column, and then there is one entry for each of
these lines, with the value of the numeral and the columns behind it as they are. Otherwise the
fault names the first line that has another first column, counted from one with all lines before it,
and that column, whatever stands behind the line. -/
theorem read_lines (text : String) :
    ((∃ entries, read text = .ok entries) ↔
        ∀ line ∈ text.toList.splitOn '\n', (∃ c ∈ line, isBlank c = false) →
          ∃ first others n, columns line = first :: others ∧ IsNumeral first n) ∧
      (∀ entries, read text = .ok entries ↔
        List.Forall₂ IsLineOf ((text.toList.splitOn '\n').filter IsFilled) entries) ∧
      ∀ fault, read text = .error fault ↔
        ∃ before line behind first others, text.toList.splitOn '\n' = before ++ line :: behind ∧
          (∀ line ∈ before, IsReadable line) ∧ columns line = first :: others ∧
            (¬ ∃ n, IsNumeral first n) ∧ readUnsigned first = .error fault.cause ∧
              fault.line = before.length + 1 ∧ fault.column = String.ofList first := by
  rw [read_eq_readLines]
  generalize text.toList.splitOn '\n' = ls
  refine ⟨?_, fun entries => readLines_eq_ok, fun fault => ⟨fun h => ?_, ?_⟩⟩
  · simp only [readLines_eq_ok, exists_entries_iff, List.mem_filter, decide_eq_true_eq, and_imp]
    refine forall₃_congr fun line _ _ => ⟨?_, ?_⟩
    · rintro ⟨entry, first, others, hcolumns, hnumeral, -⟩
      exact ⟨first, others, entry.timestamp, hcolumns, hnumeral⟩
    · rintro ⟨first, others, n, hcolumns, hnumeral⟩
      exact ⟨⟨n, others.map String.ofList⟩, first, others, hcolumns, hnumeral, rfl⟩
  · obtain ⟨before, line, behind, first, others, hls, hbefore, hcolumns, hcause, hnumber, hfirst⟩ :=
      exists_of_readLines_eq_error h
    exact ⟨before, line, behind, first, others, hls, hbefore, hcolumns,
      exists_error_iff.1 ⟨_, hcause⟩, hcause, hnumber.trans (Nat.add_comm _ _), hfirst⟩
  · rintro ⟨before, line, behind, first, others, rfl, hbefore, hcolumns, -, hcause, hnumber, hfirst⟩
    refine readLines_append_of_error hbefore ?_
    obtain ⟨number, column, cause⟩ := fault
    obtain rfl : number = before.length + 1 := hnumber
    obtain rfl : column = String.ofList first := hfirst
    rw [readLines_cons_fault hcolumns hcause, Nat.add_comm]

example : read "1\r\n\n+18446744073709551616 x\nbad" =
    .error ⟨3, "+18446744073709551616", .tooLarge⟩ := by decide

end EventLog.Dump
