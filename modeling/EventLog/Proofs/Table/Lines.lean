import Mathlib
import EventLog.Proofs.Record.Fields
import EventLog.Proofs.Text.Lines
import EventLog.Proofs.Walk.Exact
import EventLog.Store.Snapshot

/-!
# One line for each record

The text of a table has a line feed behind every line, and nothing in a line is escaped.
`fileLines_iff`: the lines of the text are those of the table, one for each record, exactly if no
line feed comes into a line from the store. It can come with a serial, with a global time and with
the text samples of a waveform; all other columns are made of digits, signs, points and spaces. The
split of the text is settled for any lines first (`pieces_unlines`), so that what is left is to find
the characters of a line.
-/

namespace EventLog

open EventLog.Text

/-! ## Texts that stay in one line -/

/-- Texts with spaces between them stay in one line exactly if each of them does. -/
theorem oneLine_intercalate {texts : List String} :
    OneLine (" ".intercalate texts) ↔ ∀ text ∈ texts, OneLine text := by
  induction texts with
  | nil => exact iff_of_true (by decide) nofun
  | cons text rest ih =>
    cases rest with
    | nil => rw [String.intercalate_singleton, List.forall_mem_singleton]
    | cons next rest =>
      have hspace : OneLine " " := by decide
      rw [String.intercalate_cons_cons, oneLine_append, oneLine_append, ih, and_iff_left hspace,
        List.forall_mem_cons (l := next :: rest)]

/-- Aligning a text puts spaces alone in front of it. -/
theorem oneLine_alignRight {width : Nat} {text : String} :
    OneLine (alignRight width text) ↔ OneLine text := by
  rw [OneLine, toList_alignRight, List.mem_append, not_or]
  refine and_iff_right fun h => ?_
  exact absurd (List.eq_of_mem_replicate h) (by decide)

/-- Laying out digits adds zeros and a point. -/
theorem lineFeed_not_mem_layOut {form : Binary64.Form} {digits : List Char} {k : Int}
    (h : '\n' ∉ digits) : '\n' ∉ form.layOut digits k := by
  have htake : '\n' ∉ digits.take (k.toNat + 1) := fun hn => h (List.mem_of_mem_take hn)
  have hdrop : '\n' ∉ digits.drop (k.toNat + 1) := fun hn => h (List.mem_of_mem_drop hn)
  have hpoint : '\n' ∉ if form.pointZero then ['.', '0'] else [] := by
    cases form.pointZero <;> decide
  unfold Binary64.Form.layOut
  split
  · simp [h]
  · dsimp only
    split
    · simp only [List.mem_append, h, hpoint, or_false, false_or, List.mem_replicate]
      exact fun hzero => absurd hzero.2 (by decide)
    · simp [htake, hdrop]

/-- A number in a table stays in one line. -/
theorem oneLine_plain (x : Binary64) : OneLine x.plain := by
  have hsign : '\n' ∉ if x.negative then ['-'] else [] := by
    cases x.negative <;> decide
  have hfinite : '\n' ∉ Binary64.Form.plain.finite x := by
    rw [Binary64.Form.finite]
    split
    · exact fun h => (List.mem_append.1 h).elim hsign (by decide)
    · have hdigits := lineFeed_not_mem_toDigits (x.shortest Binary64.Form.plain.tie).digits
      exact fun h => (List.mem_append.1 h).elim hsign (lineFeed_not_mem_layOut hdigits)
  rw [Binary64.plain]
  split
  · decide
  · split
    · rwa [OneLine, String.toList_ofList]
    · split <;> decide

/-! ## Lines of records -/

/-- The text that a cell is. -/
def Cell.text? : Cell → Option String
  | .text value => some value
  | _ => none

/-- A scalar stays in one line exactly if it is no text that does not. -/
theorem oneLine_display {cell : Cell} (h : cell.isScalar = true) :
    OneLine cell.display ↔ ∀ text, cell.text? = some text → OneLine text := by
  cases cell with
  | integer n => exact iff_of_true (oneLine_integer n.toInt) nofun
  | unsigned n => exact iff_of_true (oneLine_natural n.toNat) nofun
  | float x => exact iff_of_true (oneLine_plain x) nofun
  | text value => simp [Cell.display, Cell.text?]
  | sequence items => cases h
  | other document => cases h

theorem oneLine_column (width : Nat) (n : UInt64) : OneLine (column width n) :=
  oneLine_append.2 ⟨by decide, oneLine_alignRight.2 (oneLine_natural n.toNat)⟩

/-- The fields of a record stay in one line exactly if its text samples do. -/
theorem oneLine_columns {record : Record} (h : ∀ cell ∈ record.samples, cell.isScalar = true) :
    OneLine record.columns ↔
      ∀ cell ∈ record.samples, ∀ text, cell.text? = some text → OneLine text := by
  cases record with
  | list e =>
    refine iff_of_true ?_ nofun
    simp only [Record.columns, oneLine_append, oneLine_column, and_self]
  | waveform w =>
    have hspace : OneLine " " := by decide
    have hsamples : OneLine (displayAll w.samples) ↔ ∀ cell ∈ w.samples, OneLine cell.display := by
      rw [displayAll, oneLine_intercalate, List.forall_mem_map]
    simp only [Record.columns, oneLine_append, oneLine_column, hspace, true_and, hsamples]
    exact forall₂_congr fun cell hcell => oneLine_display (h cell hcell)

/-- The samples of a record in the store are scalars. -/
theorem isScalar_of_classify {name : String} {payload : Option Dataset} {record : Record}
    (h : classify name payload = some record) : ∀ cell ∈ record.samples, cell.isScalar = true := by
  obtain ⟨-, dataset, -, -, hsamples⟩ := classify_eq_some.1 h
  cases record with
  | list e => exact nofun
  | waveform w =>
    obtain ⟨cell, -, hcell⟩ := Option.bind_eq_some_iff.1 (hsamples rfl)
    exact (Cell.samples?_eq_some.1 hcell).2

/-- What comes from the store into the line of a record as it is stays in one line: the serial, the
global time if it is wanted, and text samples. -/
structure Record.OneLineData (globalTime : Bool) (context : Context) (record : Record) : Prop where
  serial : ∀ serial, context.serial = some serial → OneLine serial
  globalTime : globalTime = true → ∀ time, context.globalTime = some time → OneLine time
  samples : ∀ cell ∈ record.samples, ∀ text, cell.text? = some text → OneLine text

/-- The columns of a context stay in one line exactly if the identifiers in it do. -/
theorem oneLine_leadingColumns {globalTime : Bool} {context : Context} :
    OneLine (leadingColumns globalTime context) ↔
      (∀ serial, context.serial = some serial → OneLine serial) ∧
        (globalTime = true → ∀ time, context.globalTime = some time → OneLine time) := by
  obtain ⟨serial?, time?⟩ := context
  have hserial : OneLine (alignRight fieldWidth (serial?.getD "-")) ↔
      ∀ serial, serial? = some serial → OneLine serial := by
    rw [oneLine_alignRight]
    cases serial? with
    | none => exact iff_of_true (by decide) nofun
    | some serial => simp
  have hspace : OneLine " " := by decide
  cases time? with
  | none => simp [leadingColumns, hserial]
  | some time =>
    cases globalTime with
    | false => simp [leadingColumns, hserial]
    | true =>
      have htime : OneLine (alignRight timeWidth time) ↔ OneLine time := oneLine_alignRight
      simp only [leadingColumns, if_true, oneLine_append, htime, hspace, and_true, hserial]
      simp [and_comm]

/-- A line stays in one line exactly if what comes into it from the store does. -/
theorem oneLine_render {globalTime : Bool} {context : Context} {record : Record}
    (h : ∀ cell ∈ record.samples, cell.isScalar = true) :
    OneLine (record.render globalTime context).text ↔ record.OneLineData globalTime context := by
  rw [Record.render, oneLine_append, oneLine_leadingColumns, oneLine_columns h]
  exact ⟨fun ⟨⟨hserial, htime⟩, hsamples⟩ => ⟨hserial, htime, hsamples⟩,
    fun ⟨hserial, htime, hsamples⟩ => ⟨⟨hserial, htime⟩, hsamples⟩⟩

/-! ## Tables -/

/-- The records below the root of a tree. -/
def Node.records (root : Node) : List Record :=
  root.descendants.filterMap fun d => classify d.node.name d.node.payload

/-- A table has one line for each record. -/
theorem length_exportLines (settings : TableSettings) (root : Node) :
    (exportLines settings root).length = root.records.length := by
  have hlines : ((walk settings.includeGlobalTime root).filterMap
      (·.line? settings.includeGlobalTime)).length = root.records.length := by
    rw [walk_eq_map, List.filterMap_map, Node.records, List.length_filterMap_eq_countP,
      List.length_filterMap_eq_countP]
    exact List.countP_congr fun d _ => by
      rw [Function.comp_apply, Visit.line?, Option.isSome_map]
      rfl
  rw [exportLines]
  split
  · rw [sortLines, List.length_mergeSort, hlines]
  · exact hlines

/-- The lines of a table are those of the visits of records. -/
theorem mem_exportLines {settings : TableSettings} {root : Node} {line : Line} :
    line ∈ exportLines settings root ↔
      ∃ visit ∈ walk settings.includeGlobalTime root, ∃ record, visit.record = some record ∧
        record.render settings.includeGlobalTime visit.context = line := by
  have hlines : line ∈ exportLines settings root ↔ line ∈ (walk settings.includeGlobalTime
      root).filterMap (·.line? settings.includeGlobalTime) := by
    rw [exportLines]
    split
    · exact List.mem_mergeSort
    · rfl
  simp only [hlines, List.mem_filterMap, Visit.line?, Option.map_eq_some_iff]

/-- The visit of a record says what its node is. -/
theorem classify_of_mem_walk {globalTime : Bool} {root : Node} {visit : Visit}
    (h : visit ∈ walk globalTime root) :
    visit.record = classify visit.node.name visit.node.payload := by
  rw [walk_eq_map] at h
  obtain ⟨d, -, rfl⟩ := List.mem_map.1 h
  rfl

/-- The lines of the text of a table are those of the table, in order and one for each record below
the root, exactly if all that comes from the store into the line of a record stays in one line. -/
theorem fileLines_iff (settings : TableSettings) (root : Node) :
    pieces (tableText (exportLines settings root)).toList =
        ((exportLines settings root).map fun line => line.text.toList) ++ [[]] ∧
      (pieces (tableText (exportLines settings root)).toList).length =
        root.records.length + 1 ↔
    ∀ visit ∈ walk settings.includeGlobalTime root, ∀ record, visit.record = some record →
      record.OneLineData settings.includeGlobalTime visit.context := by
  have hlines : (∀ text ∈ (exportLines settings root).map Line.text, OneLine text) ↔
      ∀ visit ∈ walk settings.includeGlobalTime root, ∀ record, visit.record = some record →
        record.OneLineData settings.includeGlobalTime visit.context := by
    simp only [List.forall_mem_map, mem_exportLines, forall_exists_index, and_imp]
    constructor
    · intro h visit hvisit record hrecord
      have hscalar := isScalar_of_classify (classify_of_mem_walk hvisit ▸ hrecord)
      exact (oneLine_render hscalar).1 (h _ visit hvisit record hrecord rfl)
    · rintro h _ visit hvisit record hrecord rfl
      have hscalar := isScalar_of_classify (classify_of_mem_walk hvisit ▸ hrecord)
      exact (oneLine_render hscalar).2 (h visit hvisit record hrecord)
  have htexts : (exportLines settings root).map (fun line => line.text.toList) =
      ((exportLines settings root).map Line.text).map String.toList := by
    rw [List.map_map]
    rfl
  rw [← hlines, ← flatMap_pieces_eq_map, tableText, pieces_unlines, htexts,
    List.append_cancel_right_eq]
  refine and_iff_left_of_imp fun h => ?_
  rw [h, List.length_append, List.length_map, List.length_map, length_exportLines]
  rfl

/-- The text of a snapshot of a record whose serial has a line feed in it. -/
def Snapshot.textBrokenSerial : String :=
  "\x7b\"name\":\"/\",\"children\":[\x7b\"name\":\"dig_1\\n2\",\"children\":[\x7b\"name\":\"list-0\"," ++
    "\"payload\":\x7b\"rows\":[\x7b\"channel\":1,\"localTime\":2,\"adcValue\":3,\"extendTime\":4\x7d]\x7d\x7d]\x7d]\x7d"

/-- One record is written to two lines. -/
theorem fileLines_broken :
    ∃ root, Snapshot.read Snapshot.textBrokenSerial = .ok root ∧ root.records.length = 1 ∧
      (exportLines .default root).map Line.text =
        ["     1\n2        1                2        3        4"] ∧
      (pieces (tableText (exportLines .default root)).toList).map String.ofList =
        ["     1", "2        1                2        3        4", ""] ∧
      pieces (tableText (exportLines .default root)).toList ≠
        ((exportLines .default root).map fun line => line.text.toList) ++ [[]] := by
  refine ⟨⟨"/", [⟨"dig_1\n2", [⟨"list-0", [], some ⟨[.compound [("adcValue", .integer 3),
    ("channel", .integer 1), ("extendTime", .integer 4), ("localTime", .integer 2)]]⟩⟩],
      none⟩], none⟩, by cbv, by decide, by decide, by decide, by decide⟩

end EventLog
