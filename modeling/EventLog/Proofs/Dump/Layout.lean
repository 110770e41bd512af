import EventLog.Command.Plan
import EventLog.Proofs.Dump.LineFormat
import EventLog.Proofs.Files.Places
import EventLog.Proofs.Snapshot.Rewrite
import EventLog.Proofs.Warp.Exact

/-!
# Layouts of dumps

A sheet is a dump as it can be laid out: with any blanks around its columns, zeros and plus signs in
front of its numerals, blank lines, and either kind of line ending. `read_sheets` says that exactly
the sheets are read, as the entries on them, and that reports depend on nothing but the timestamps.
A sheet is read by induction on its lines (`readLines_sheet`). The other way round, the blanks and
words of a line that is read are put together from its end (`exists_fields`), and its first column
is a numeral in one of the ways to write one.
-/

namespace EventLog.Dump

open EventLog.Text

/-! ## Lines -/

/-- Blanks within a line. -/
structure Gap where
  chars : List Char
  blank : ∀ c ∈ chars, isBlank c = true
  oneLine : '\n' ∉ chars

namespace Gap

/-- No blanks. -/
def none : Gap :=
  ⟨[], nofun, nofun⟩

/-- A blank in front of a gap. -/
def cons {c : Char} (hblank : isBlank c = true) (hc : c ≠ '\n') (gap : Gap) : Gap where
  chars := c :: gap.chars
  blank := List.forall_mem_cons.2 ⟨hblank, gap.blank⟩
  oneLine := List.not_mem_cons_of_ne_of_not_mem hc.symm gap.oneLine

end Gap

/-- A word: it is not empty, and it has no blanks. -/
structure IsWord (word : List Char) : Prop where
  nonempty : word ≠ []
  solid : ∀ c ∈ word, isBlank c = false

/-- A word stands in one line. -/
theorem IsWord.oneLine {word : List Char} (h : IsWord word) : '\n' ∉ word := fun hmem =>
  absurd (h.solid '\n' hmem) (by decide)

/-- A numeral is a word. -/
theorem isWord_numeral (plus : Bool) (zeros : Nat) (n : UInt64) :
    IsWord (numeral plus zeros n) := by
  obtain ⟨digits, hcs, hne, hdigits, -⟩ := isNumeral_iff.2 ⟨plus, zeros, rfl⟩
  have hsolid : ∀ c ∈ digits, isBlank c = false := fun c hc => isBlank_of_isDigit (hdigits c hc)
  rcases hcs with hcs | hcs
  · rw [hcs]
    exact ⟨hne, hsolid⟩
  · rw [hcs]
    exact ⟨nofun, List.forall_mem_cons.2 ⟨rfl, hsolid⟩⟩

/-- A field and the blanks in front of it. -/
structure SpacedField where
  gap : Gap
  gap_ne : gap.chars ≠ []
  field : String
  isWord : IsWord field.toList

/-- A field as it is written. -/
def SpacedField.chars (spaced : SpacedField) : List Char :=
  spaced.gap.chars ++ spaced.field.toList

/-- A line of an entry: where it is indented, how its timestamp is written, what is between its
columns, and what is behind them. -/
structure EntryLine where
  indent : Gap
  plus : Bool
  zeros : Nat
  timestamp : UInt64
  fields : List SpacedField
  trailing : Gap

namespace EntryLine

/-- The line as it is written. -/
def chars (line : EntryLine) : List Char :=
  line.indent.chars ++ (numeral line.plus line.zeros line.timestamp ++
    (line.fields.flatMap SpacedField.chars ++ line.trailing.chars))

/-- The entry that stands on the line. -/
def entry (line : EntryLine) : Entry :=
  ⟨line.timestamp, line.fields.map SpacedField.field⟩

end EntryLine

/-- Spaced fields behind a word are the words behind it. -/
theorem words_append_fields {word gap : List Char} (hword : IsWord word)
    (fields : List SpacedField) (hgap : ∀ c ∈ gap, isBlank c = true) :
    words (word ++ (fields.flatMap SpacedField.chars ++ gap)) =
      word :: fields.map (·.field.toList) := by
  induction fields generalizing word with
  | nil => exact (words_append_blanks hgap word).trans (words_solid hword.nonempty hword.solid)
  | cons spaced fields ih =>
    have hassoc : word ++ ((spaced :: fields).flatMap SpacedField.chars ++ gap) =
        word ++ spaced.gap.chars ++
          (spaced.field.toList ++ (fields.flatMap SpacedField.chars ++ gap)) := by
      simp only [List.flatMap_cons, SpacedField.chars, List.append_assoc]
    rw [hassoc, words_solid_append hword.nonempty hword.solid spaced.gap.blank spaced.gap_ne,
      ih spaced.isWord, List.map_cons]

/-- The columns of the line of an entry are its numeral and its fields. -/
theorem EntryLine.columns_chars (line : EntryLine) :
    columns line.chars =
      numeral line.plus line.zeros line.timestamp :: line.fields.map (·.field.toList) := by
  rw [← words_eq_columns, chars, words_blanks_append line.indent.blank,
    words_append_fields (isWord_numeral ..) line.fields line.trailing.blank]

theorem EntryLine.isLineOf (line : EntryLine) : IsLineOf line.chars line.entry := by
  refine ⟨_, _, line.columns_chars, isNumeral_iff.2 ⟨_, _, rfl⟩, ?_⟩
  simp [entry]

/-- The line of an entry is one line. -/
theorem EntryLine.oneLine (line : EntryLine) : '\n' ∉ line.chars := by
  have hfields : '\n' ∉ line.fields.flatMap SpacedField.chars := fun h => by
    obtain ⟨spaced, -, hspaced⟩ := List.mem_flatMap.1 h
    exact (List.mem_append.1 hspaced).elim spaced.gap.oneLine spaced.isWord.oneLine
  simp only [chars, List.mem_append, not_or]
  exact ⟨line.indent.oneLine, (isWord_numeral ..).oneLine, hfields, line.trailing.oneLine⟩

/-! ## Sheets -/

/-- A line of a dump: blanks only, or an entry. -/
inductive SheetLine where
  | blank (gap : Gap)
  | entry (line : EntryLine)

namespace SheetLine

/-- The line as it is written. -/
def chars : SheetLine → List Char
  | .blank gap => gap.chars
  | .entry line => line.chars

/-- The entry that stands on the line, if there is one. -/
def entry? : SheetLine → Option Entry
  | .blank _ => none
  | .entry line => some line.entry

theorem oneLine (line : SheetLine) : '\n' ∉ line.chars := by
  cases line with
  | blank gap => exact gap.oneLine
  | entry line => exact line.oneLine

end SheetLine

/-- How a line ends. -/
inductive LineEnd where
  | lineFeed
  | returnLineFeed

/-- What stands in front of the line feed. -/
def LineEnd.returns : LineEnd → List Char
  | .lineFeed => []
  | .returnLineFeed => ['\r']

/-- A dump as it can be laid out: lines with their ends, and a last one that is not ended. -/
inductive Sheet where
  | last (line : SheetLine)
  | ended (line : SheetLine) (ending : LineEnd) (rest : Sheet)

namespace Sheet

/-- What is written on a sheet. -/
def chars : Sheet → List Char
  | .last line => line.chars
  | .ended line ending rest => line.chars ++ ending.returns ++ '\n' :: rest.chars

/-- The text of a sheet. -/
def text (sheet : Sheet) : String :=
  String.ofList sheet.chars

/-- The entries on a sheet, in order. -/
def entries : Sheet → List Entry
  | .last line => line.entry?.toList
  | .ended line _ rest => line.entry?.toList ++ rest.entries

end Sheet

/-! ## Sheets are read -/

/-- A line is read as its entry, if it has one, whatever blanks it is ended with. -/
theorem readLines_cons_sheetLine (line : SheetLine) {returns : List Char}
    (hreturns : ∀ c ∈ returns, isBlank c = true) (number : Nat) (rest : List (List Char)) :
    readLines number ((line.chars ++ returns) :: rest) =
      (readLines (number + 1) rest).map (line.entry?.toList ++ ·) := by
  cases line with
  | blank gap =>
    have hblank : ¬ IsFilled (gap.chars ++ returns) := by
      rintro ⟨c, hc, hsolid⟩
      have hc : isBlank c = true := List.forall_mem_append.2 ⟨gap.blank, hreturns⟩ c hc
      rw [hc] at hsolid
      cases hsolid
    rw [SheetLine.chars, readLines_cons_blank hblank]
    cases readLines (number + 1) rest <;> rfl
  | entry line =>
    have hline : IsLineOf (line.chars ++ returns) line.entry := by
      obtain ⟨first, others, hcolumns, hentry⟩ := line.isLineOf
      refine ⟨first, others, ?_, hentry⟩
      rw [← hcolumns, ← words_eq_columns, ← words_eq_columns, words_append_blanks hreturns]
    exact readLines_cons_line hline number rest

theorem LineEnd.blank_returns (ending : LineEnd) : ∀ c ∈ ending.returns, isBlank c = true := by
  intro c hc
  cases ending with
  | lineFeed => cases hc
  | returnLineFeed =>
    rw [List.mem_singleton.1 hc]
    rfl

theorem LineEnd.oneLine_returns (ending : LineEnd) : '\n' ∉ ending.returns := by
  cases ending <;> decide

/-- The lines of a sheet are read as its entries. -/
theorem readLines_sheet (sheet : Sheet) (number : Nat) :
    readLines number (sheet.chars.splitOn '\n') = .ok sheet.entries := by
  induction sheet generalizing number with
  | last line =>
    have hnone : ∀ c ∈ ([] : List Char), isBlank c = true := nofun
    have hread := readLines_cons_sheetLine line hnone number []
    rw [Sheet.chars, List.splitOn_eq_singleton line.oneLine, ← List.append_nil line.chars, hread]
    simp [readLines, Except.map, Sheet.entries]
  | ended line ending rest ih =>
    have hline : '\n' ∉ line.chars ++ ending.returns :=
      List.not_mem_append line.oneLine ending.oneLine_returns
    rw [Sheet.chars, List.splitOn_append_cons_self_of_not_mem hline,
      readLines_cons_sheetLine line ending.blank_returns, ih]
    rfl

/-! ## Whatever is read is a sheet -/

/-- A text is its first word, spaced fields with the words behind it, and a gap. -/
theorem exists_fields {cs : List Char} (hcs : '\n' ∉ cs) :
    ∃ (fields : List SpacedField) (trailing : Gap),
      cs = (splitWord cs).1 ++ (fields.flatMap SpacedField.chars ++ trailing.chars) ∧
        (splitWord cs).2 = fields.map (·.field.toList) := by
  induction cs with
  | nil => exact ⟨[], .none, rfl, rfl⟩
  | cons c cs ih =>
    have hc : c ≠ '\n' := fun h => hcs (h ▸ List.mem_cons_self)
    obtain ⟨fields, trailing, hchars, hwords⟩ := ih (List.not_mem_of_not_mem_cons hcs)
    by_cases hblank : isBlank c = true
    · rw [splitWord_cons_blank hblank, words_eq_consWord]
      by_cases hnil : (splitWord cs).1 = []
      · -- the blank belongs to the gap that the rest begins with
        rw [hnil] at hchars ⊢
        cases fields with
        | nil => exact ⟨[], trailing.cons hblank hc, congrArg (c :: ·) hchars, hwords⟩
        | cons spaced fields =>
          exact ⟨{ spaced with gap := spaced.gap.cons hblank hc, gap_ne := nofun } :: fields,
            trailing, congrArg (c :: ·) hchars, hwords⟩
      · -- the blank stands alone in front of a word
        have hword : IsWord (String.ofList (splitWord cs).1).toList := by
          rw [String.toList_ofList]
          exact ⟨hnil, (words_not_blank cs).1⟩
        refine ⟨⟨Gap.none.cons hblank hc, nofun, _, hword⟩ :: fields, trailing, ?_, ?_⟩
        · rw [List.flatMap_cons, SpacedField.chars, String.toList_ofList, List.append_assoc,
            List.append_assoc, ← hchars]
          rfl
        · rw [consWord_of_ne_nil hnil, hwords, List.map_cons, String.toList_ofList]
    · rw [splitWord_cons_of_not_blank (Bool.eq_false_iff.2 hblank)]
      exact ⟨fields, trailing, congrArg (c :: ·) hchars, hwords⟩

/-- Every line of an entry is laid out in some way. -/
theorem exists_entryLine {line : List Char} {entry : Entry} (hline : '\n' ∉ line)
    (h : IsLineOf line entry) : ∃ written : EntryLine, written.chars = line := by
  obtain ⟨first, others, hcolumns, hnumeral, -⟩ := h
  obtain ⟨plus, zeros, rfl⟩ := isNumeral_iff.1 hnumeral
  obtain ⟨fields, trailing, hchars, hwords⟩ := exists_fields hline
  rw [← words_eq_columns, words_eq_consWord] at hcolumns
  by_cases hnil : (splitWord line).1 = []
  · rw [hnil] at hchars hcolumns
    rw [hwords] at hcolumns
    obtain ⟨spaced, rest, rfl, hfirst, -⟩ := List.map_eq_cons_iff.1 hcolumns
    refine ⟨⟨spaced.gap, plus, zeros, entry.timestamp, rest, trailing⟩, ?_⟩
    rw [hchars, EntryLine.chars, List.flatMap_cons, SpacedField.chars, hfirst]
    simp only [List.append_assoc, List.nil_append]
  · rw [consWord_of_ne_nil hnil] at hcolumns
    rw [(List.cons.inj hcolumns).1] at hchars
    exact ⟨⟨.none, plus, zeros, entry.timestamp, fields, trailing⟩, hchars.symm⟩

/-- Every line that does not end the reading is laid out in some way. -/
theorem exists_sheetLine {line : List Char} (hline : '\n' ∉ line) (h : IsReadable line) :
    ∃ written : SheetLine, written.chars = line := by
  by_cases hfilled : IsFilled line
  · obtain ⟨entry, hentry⟩ := h hfilled
    obtain ⟨written, hwritten⟩ := exists_entryLine hline hentry
    exact ⟨.entry written, hwritten⟩
  · have hblank : ∀ c ∈ line, isBlank c = true := by simpa [IsFilled] using hfilled
    exact ⟨.blank ⟨line, hblank, hline⟩, rfl⟩

/-- Lines that do not end the reading make up a sheet. -/
theorem exists_sheet {ls : List (List Char)} (hne : ls ≠ [])
    (h : ∀ line ∈ ls, '\n' ∉ line ∧ IsReadable line) :
    ∃ sheet : Sheet, sheet.chars = ['\n'].intercalate ls := by
  induction ls with
  | nil => exact absurd rfl hne
  | cons line rest ih =>
    obtain ⟨⟨hline, hread⟩, hrest⟩ := List.forall_mem_cons.1 h
    obtain ⟨written, hwritten⟩ := exists_sheetLine hline hread
    cases rest with
    | nil => exact ⟨.last written, by rw [Sheet.chars, hwritten, List.intercalate_singleton]⟩
    | cons next rest =>
      obtain ⟨sheet, hsheet⟩ := ih nofun hrest
      refine ⟨.ended written .lineFeed sheet, ?_⟩
      rw [Sheet.chars, hwritten, hsheet, List.intercalate_cons_cons, LineEnd.returns]
      simp

/-- Exactly the sheets are read, as the entries on them. -/
theorem read_eq_ok {text : String} {entries : List Entry} :
    read text = .ok entries ↔ ∃ sheet : Sheet, sheet.text = text ∧ sheet.entries = entries := by
  have hsheet (sheet : Sheet) : read sheet.text = .ok sheet.entries := by
    rw [read_eq_readLines, Sheet.text, String.toList_ofList, readLines_sheet]
  constructor
  · intro h
    have hlines : ∀ line ∈ text.toList.splitOn '\n', IsReadable line := fun line hline hfilled =>
      exists_entries_iff.1 ⟨entries, readLines_eq_ok.1 (read_eq_readLines text ▸ h)⟩ line
        (List.mem_filter.2 ⟨hline, decide_eq_true hfilled⟩)
    obtain ⟨sheet, hchars⟩ := exists_sheet (List.splitOn_ne_nil '\n' text.toList)
      fun line hline => ⟨lineFeed_not_mem_of_mem_splitOn hline, hlines line hline⟩
    rw [List.intercalate_splitOn] at hchars
    have htext : sheet.text = text := by rw [Sheet.text, hchars, String.ofList_toList]
    have hread := hsheet sheet
    rw [htext, h] at hread
    cases hread
    exact ⟨sheet, htext, rfl⟩
  · rintro ⟨sheet, rfl, rfl⟩
    exact hsheet sheet

/-! ## What can stand on a sheet -/

/-- Words can be spaced. -/
theorem exists_spaced {fields : List String} (h : ∀ field ∈ fields, IsWord field.toList) :
    ∃ spaced : List SpacedField, spaced.map SpacedField.field = fields := by
  induction fields with
  | nil => exact ⟨[], rfl⟩
  | cons field fields ih =>
    obtain ⟨hfield, hfields⟩ := List.forall_mem_cons.1 h
    obtain ⟨spaced, rfl⟩ := ih hfields
    exact ⟨⟨Gap.none.cons (c := ' ') rfl (by decide), nofun, field, hfield⟩ :: spaced, rfl⟩

/-- Exactly the entries whose fields are words stand on sheets. -/
theorem exists_sheet_iff {entries : List Entry} :
    (∃ sheet : Sheet, sheet.entries = entries) ↔
      ∀ entry ∈ entries, ∀ field ∈ entry.fields, IsWord field.toList := by
  constructor
  · rintro ⟨sheet, rfl⟩
    have hline (line : SheetLine) : ∀ entry ∈ line.entry?.toList, ∀ field ∈ entry.fields,
        IsWord field.toList := by
      intro entry hentry field hfield
      cases line with
      | blank gap => cases hentry
      | entry line =>
        obtain rfl := List.mem_singleton.1 hentry
        obtain ⟨spaced, -, rfl⟩ := List.mem_map.1 hfield
        exact spaced.isWord
    induction sheet with
    | last line => exact hline line
    | ended line ending rest ih => exact List.forall_mem_append.2 ⟨hline line, ih⟩
  · intro h
    induction entries with
    | nil => exact ⟨.last (.blank .none), rfl⟩
    | cons entry entries ih =>
      obtain ⟨hentry, hentries⟩ := List.forall_mem_cons.1 h
      obtain ⟨rest, rfl⟩ := ih hentries
      obtain ⟨timestamp, fields⟩ := entry
      obtain ⟨spaced, rfl⟩ := exists_spaced hentry
      exact ⟨.ended (.entry ⟨.none, false, 0, timestamp, spaced, .none⟩) .lineFeed rest, rfl⟩

/-! ## Reports on sheets -/

/-- A line whose first column is a numeral of the timestamp. -/
def IsTimedAt (line : List Char) (timestamp : UInt64) : Prop :=
  ∃ first others, columns line = first :: others ∧ IsNumeral first timestamp

/-- An anomaly is about the line with its index, counted from zero: its timestamp stands there, and
the previous one on the line before. -/
structure IsAbout (a : Anomaly) (ls : List (List Char)) : Prop where
  index_pos : 1 ≤ a.index
  previous : ∃ line, ls[a.index - 1]? = some line ∧ IsTimedAt line a.previous
  current : ∃ line, ls[a.index]? = some line ∧ IsTimedAt line a.current

/-- The timestamp of an entry stands on the line of the entry. -/
theorem exists_line_of_timestamp {ls : List (List Char)} {entries : List Entry}
    (h : List.Forall₂ IsLineOf ls entries) {i : Nat} {timestamp : UInt64}
    (hi : (timestamps entries)[i]? = some timestamp) :
    ∃ line, ls[i]? = some line ∧ IsTimedAt line timestamp := by
  induction h generalizing i with
  | nil => cases hi
  | @cons line entry ls entries hline _ ih =>
    cases i with
    | zero =>
      cases hi
      obtain ⟨first, others, hcolumns, hnumeral, -⟩ := hline
      exact ⟨line, rfl, first, others, hcolumns, hnumeral⟩
    | succ i => exact ih hi

/-- The anomalies of a dump are about its filled lines. -/
theorem isAbout_of_mem_detect {text : String} {entries : List Entry}
    (h : read text = .ok entries) {settings : WarpSettings} {a : Anomaly}
    (ha : a ∈ detect settings (timestamps entries)) :
    IsAbout a ((text.toList.splitOn '\n').filter IsFilled) := by
  rw [read_eq_readLines, readLines_eq_ok] at h
  obtain ⟨hdescribes, -⟩ := mem_detect.1 ha
  exact ⟨hdescribes.index_pos, exists_line_of_timestamp h hdescribes.previous,
    exists_line_of_timestamp h hdescribes.current⟩

/-- A dump that is read is reported on. -/
theorem run_timewarp {arguments : TimewarpArguments} {files : Files} {text : String}
    {entries : List Entry} (hfile : files.read arguments.dump = .ok text.toUTF8)
    (hread : read text = .ok entries) (settings : Settings) :
    (Plan.timewarp arguments settings).run files =
      some (.after ("Parsing simple dump in " ++ arguments.dump ++ "\n")
        (.after (Plan.reportText arguments.format (scan settings.warp (timestamps entries)))
          ⟨0, [], "", files⟩)) := by
  have hload : loadDump arguments.dump (files.read arguments.dump) = .ok entries := by
    rw [hfile, loadDump, fileText_toUTF8]
    exact congrArg (Except.mapError Failure.dumpParse) hread
  rw [Plan.timewarp, Plan.run, Plan.run, hload]
  rfl

/-- Entries can be laid out on a sheet if their fields are words, and exactly the sheets are read,
as the entries on them. So neither the layout nor the fields make a difference to the report: two
sheets with the same timestamps have the same one, and what the command prints is given by the
timestamps. An anomaly is about the filled line with its index. -/
theorem read_sheets :
    (∀ entries, (∃ sheet : Sheet, sheet.entries = entries) ↔
        ∀ entry ∈ entries, ∀ field ∈ entry.fields, IsWord field.toList) ∧
      (∀ text entries, read text = .ok entries ↔
        ∃ sheet : Sheet, sheet.text = text ∧ sheet.entries = entries) ∧
      (∀ sheet other : Sheet, timestamps sheet.entries = timestamps other.entries →
        ∀ settings, (read sheet.text).map (fun entries => scan settings (timestamps entries)) =
          (read other.text).map fun entries => scan settings (timestamps entries)) ∧
      (∀ (sheet : Sheet) (arguments : TimewarpArguments) (settings : Settings) (files : Files),
        files.read arguments.dump = .ok sheet.text.toUTF8 →
          (Plan.timewarp arguments settings).run files =
            some (.after ("Parsing simple dump in " ++ arguments.dump ++ "\n")
              (.after (Plan.reportText arguments.format
                (scan settings.warp (timestamps sheet.entries))) ⟨0, [], "", files⟩))) ∧
      ∀ (sheet : Sheet) (settings : WarpSettings),
        ∀ a ∈ (scan settings (timestamps sheet.entries)).anomalies,
          IsAbout a ((sheet.text.toList.splitOn '\n').filter IsFilled) := by
  have hread (sheet : Sheet) : read sheet.text = .ok sheet.entries :=
    read_eq_ok.2 ⟨sheet, rfl, rfl⟩
  refine ⟨fun entries => exists_sheet_iff, fun text entries => read_eq_ok, ?_, ?_, ?_⟩
  · intro sheet other htimestamps settings
    rw [hread sheet, hread other, Except.map, Except.map, htimestamps]
  · exact fun sheet arguments settings files hfile => run_timewarp hfile (hread sheet) settings
  · exact fun sheet settings a ha => isAbout_of_mem_detect (hread sheet) ha

/-- A sheet with blank lines, wide gaps, zeros and a field. -/
def Sheet.spread : Sheet :=
  .ended (.blank ⟨['\t'], List.forall_mem_singleton.2 rfl, by decide⟩) .returnLineFeed <|
  .ended (.entry ⟨⟨['\u3000'], List.forall_mem_singleton.2 rfl, by decide⟩, true, 2, 7,
    [⟨⟨['\t'], List.forall_mem_singleton.2 rfl, by decide⟩, nofun, "a", nofun,
      List.forall_mem_singleton.2 rfl⟩], .none⟩) .returnLineFeed <|
  .ended (.entry ⟨.none, false, 0, 9, [], .none⟩) .lineFeed <|
  .ended (.blank .none) .lineFeed <|
  .last (.entry ⟨.none, false, 1, 1000, [], .none⟩)

/-- A sheet with the same timestamps, and nothing else. -/
def Sheet.bare : Sheet :=
  .ended (.entry ⟨.none, false, 0, 7, [], .none⟩) .lineFeed <|
  .ended (.entry ⟨.none, false, 0, 9, [], .none⟩) .lineFeed <|
  .last (.entry ⟨.none, false, 0, 1000, [], .none⟩)

/-- A directory with the first of these sheets. -/
def spreadFiles : Files :=
  ⟨["tmp"], [(["tmp", "dump.txt"], Sheet.spread.text.toUTF8)]⟩

/-- Both sheets have one report, which the command prints, and its anomaly is about the third filled
line. -/
theorem read_sheets_spread :
    Sheet.spread.text = "\t\r\n\u3000+007\ta\r\n9\n\n01000" ∧ Sheet.bare.text = "7\n9\n1000" ∧
      (read Sheet.spread.text).map (fun entries => scan .default (timestamps entries)) =
        (read Sheet.bare.text).map (fun entries => scan .default (timestamps entries)) ∧
      (Plan.timewarp ⟨"dump.txt", none, none, .text⟩ .default).run spreadFiles =
        some (.after "Parsing simple dump in dump.txt\n"
          (.after ("Checking 3 parsed entries for time warps\n" ++
              "time warp of 991 (1000 vs 9) for entry 2\n" ++
              "Found 1 time jumps much bigger than 2\n") ⟨0, [], "", spreadFiles⟩)) ∧
      IsAbout ⟨2, 9, 1000, 991, 2⟩
        ((Sheet.spread.text.toList.splitOn '\n').filter IsFilled) := by
  have hfile : spreadFiles.read "dump.txt" = .ok Sheet.spread.text.toUTF8 :=
    Files.read_eq_ok.2 ⟨["tmp", "dump.txt"], rfl, by decide,
      by simp [Files.content?, spreadFiles]⟩
  obtain ⟨-, -, hreport, hrun, habout⟩ := read_sheets
  have htext : Plan.reportText .text (scan .default (timestamps Sheet.spread.entries)) =
      "Checking 3 parsed entries for time warps\n" ++
        "time warp of 991 (1000 vs 9) for entry 2\n" ++
        "Found 1 time jumps much bigger than 2\n" := by decide
  refine ⟨rfl, rfl, hreport .spread .bare rfl .default, ?_,
    habout .spread .default _ (by decide)⟩
  rw [← htext]
  exact hrun .spread ⟨"dump.txt", none, none, .text⟩ .default spreadFiles hfile

end EventLog.Dump
