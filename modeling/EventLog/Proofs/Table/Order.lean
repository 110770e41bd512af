import EventLog.Proofs.Table.Listing
import EventLog.Proofs.Text.Alignment
import EventLog.Proofs.Text.SortedBy

/-!
# Sorted tables are in numeric order

The lines of a table are sorted by their texts. `textOrder_numeric` says that this is the order of
the numbers in them, as long as these fit in their columns: columns of one width are compared one
after the other (`compare_columns`, by induction on the columns), and each as its number. Lines of
both kinds of records begin with the same columns, so they are compared by these, and lines of list
elements have no others but two more of the same kind.
-/

namespace EventLog

open EventLog.Text

/-! ## Columns of numbers -/

/-- A number in a column of a width. -/
structure NumberColumn where
  width : Nat
  number : Nat

/-- The number has no more digits than the column is wide. -/
def NumberColumn.Fits (column : NumberColumn) : Prop :=
  column.number < 10 ^ column.width

/-- A column as it is written, behind a space. -/
def NumberColumn.chars (column : NumberColumn) : List Char :=
  ' ' :: (alignRight column.width (toString column.number)).toList

/-- A numeral in a column is the number in it. -/
theorem chars_of_isDecimal {width : Nat} {text : String} (h : IsDecimal width text) :
    NumberColumn.chars ⟨width, numberOf text⟩ = ' ' :: (alignRight width text).toList := by
  rw [NumberColumn.chars, ← h.eq_toString]

/-- Columns of the same widths are compared as the numbers in them, and what is behind them decides
only if these are the same. -/
theorem compare_columns {cs ds : List NumberColumn}
    (hwidths : cs.map NumberColumn.width = ds.map NumberColumn.width)
    (hcs : ∀ column ∈ cs, column.Fits) (hds : ∀ column ∈ ds, column.Fits)
    (rest rest' : List Char) :
    compare (cs.flatMap NumberColumn.chars ++ rest) (ds.flatMap NumberColumn.chars ++ rest') =
      (compare (cs.map NumberColumn.number) (ds.map NumberColumn.number)).then
        (compare rest rest') := by
  induction cs generalizing ds with
  | nil =>
    obtain rfl := List.map_eq_nil_iff.1 hwidths.symm
    rfl
  | cons c cs ih =>
    obtain ⟨⟨_, n⟩, ds, rfl, rfl, hrest⟩ := List.map_eq_cons_iff.1 hwidths.symm
    obtain ⟨hc, hcs⟩ := List.forall_mem_cons.1 hcs
    obtain ⟨hd, hds⟩ := List.forall_mem_cons.1 hds
    have hlength : c.chars.length = (NumberColumn.chars ⟨c.width, n⟩).length :=
      congrArg (· + 1) (length_aligned hc hd)
    have hfirst : compare c.chars (NumberColumn.chars ⟨c.width, n⟩) = compare c.number n := by
      rw [NumberColumn.chars, NumberColumn.chars, List.compare_cons_cons, compare_aligned hc hd]
      rfl
    rw [List.flatMap_cons, List.flatMap_cons, List.append_assoc, List.append_assoc,
      compare_append hlength, hfirst, ih hrest.symm hcs hds, List.map_cons, List.map_cons,
      List.compare_cons_cons, Ordering.then_assoc]

/-! ## Columns of contexts -/

namespace Context

/-- The global time in front of a line with the context, if there is one. -/
def printedTime? (globalTime : Bool) (context : Context) : Option String :=
  if globalTime then context.globalTime else none

/-- The leading columns are the serial or a dash, behind the global time if that is printed. -/
theorem leadingColumns_eq (globalTime : Bool) (context : Context) :
    leadingColumns globalTime context =
      (context.printedTime? globalTime).elim (alignRight fieldWidth (context.serial.getD "-"))
        fun time => alignRight timeWidth time ++ " " ++
          alignRight fieldWidth (context.serial.getD "-") := by
  rw [leadingColumns, printedTime?]
  cases context.globalTime <;> cases globalTime <;> rfl

/-- A context whose columns are numerals that fit in them. -/
structure FitsColumns (globalTime : Bool) (context : Context) : Prop where
  time : ∀ text, context.printedTime? globalTime = some text → IsDecimal timeWidth text
  serial : ∃ text, context.serial = some text ∧ IsDecimal fieldWidth text

/-- The columns of a context: the global time, if it is printed, and the serial. -/
def columns (globalTime : Bool) (context : Context) : List NumberColumn :=
  (context.printedTime? globalTime).toList.map (fun text => ⟨timeWidth, numberOf text⟩) ++
    context.serial.toList.map fun text => ⟨fieldWidth, numberOf text⟩

/-- The numbers in the columns of a context. -/
def key (globalTime : Bool) (context : Context) : List Nat :=
  (context.printedTime? globalTime).toList.map numberOf ++ context.serial.toList.map numberOf

variable {globalTime : Bool} {context : Context}

theorem map_number_columns :
    (context.columns globalTime).map NumberColumn.number = context.key globalTime := by
  simp only [columns, key, List.map_append, List.map_map]
  rfl

theorem FitsColumns.fits (h : context.FitsColumns globalTime) :
    ∀ column ∈ context.columns globalTime, column.Fits := by
  obtain ⟨serial, hserial, hdecimal⟩ := h.serial
  refine List.forall_mem_append.2 ⟨fun column hcolumn => ?_, fun column hcolumn => ?_⟩
  · obtain ⟨text, htext, rfl⟩ := List.mem_map.1 hcolumn
    exact (h.time text (Option.mem_toList.1 htext)).numberOf_lt
  · rw [hserial] at hcolumn
    rw [List.mem_singleton.1 hcolumn]
    exact hdecimal.numberOf_lt

/-- The leading columns are those of the context. -/
theorem FitsColumns.toList_leadingColumns (h : context.FitsColumns globalTime) :
    ' ' :: (leadingColumns globalTime context).toList =
      (context.columns globalTime).flatMap NumberColumn.chars := by
  obtain ⟨serial, hserial, hdecimal⟩ := h.serial
  have hcolumn := chars_of_isDecimal hdecimal
  rw [leadingColumns_eq, columns, hserial, Option.getD_some]
  cases htime : context.printedTime? globalTime with
  | none => exact hcolumn.symm.trans (List.append_nil _).symm
  | some time =>
    have htimeColumn := chars_of_isDecimal (h.time time htime)
    change _ = NumberColumn.chars ⟨timeWidth, numberOf time⟩ ++
      (NumberColumn.chars ⟨fieldWidth, numberOf serial⟩ ++ [])
    rw [htimeColumn, hcolumn, List.append_nil, Option.elim_some, String.toList_append,
      String.toList_append, List.append_assoc]
    rfl

/-- Contexts that both have a printed time, or both none, have columns of the same widths. -/
theorem FitsColumns.map_width {other : Context} (h : context.FitsColumns globalTime)
    (hother : other.FitsColumns globalTime)
    (htime : (context.printedTime? globalTime).isSome = (other.printedTime? globalTime).isSome) :
    (context.columns globalTime).map NumberColumn.width =
      (other.columns globalTime).map NumberColumn.width := by
  obtain ⟨serial, hserial, -⟩ := h.serial
  obtain ⟨serial', hserial', -⟩ := hother.serial
  rw [columns, columns, hserial, hserial']
  cases hmine : context.printedTime? globalTime with
  | none =>
    rw [hmine] at htime
    have htheirs := Option.isNone_iff_eq_none.1 (Option.isSome_eq_false_iff.1 htime.symm)
    rw [htheirs]
    rfl
  | some time =>
    rw [hmine] at htime
    obtain ⟨time', htheirs⟩ := Option.isSome_iff_exists.1 htime.symm
    rw [htheirs]
    rfl

end Context

/-! ## Columns of records -/

namespace Record

def channel : Record → UInt64
  | .list e => e.channel
  | .waveform w => w.channel

def localTime : Record → UInt64
  | .list e => e.localTime
  | .waveform w => w.localTime

def adcValue? : Record → Option UInt64
  | .list e => some e.adcValue
  | .waveform _ => none

def extendTime : Record → UInt64
  | .list e => e.extendTime
  | .waveform w => w.extendTime

/-- A record whose counters fit in their columns. -/
structure FitsColumns (record : Record) : Prop where
  channel : record.channel.toNat < 10 ^ fieldWidth
  localTime : record.localTime.toNat < 10 ^ timeWidth
  adcValue : ∀ n, record.adcValue? = some n → n.toNat < 10 ^ fieldWidth
  extendTime : record.extendTime.toNat < 10 ^ fieldWidth

/-- The columns that records of both kinds begin with. -/
def firstColumns (record : Record) : List NumberColumn :=
  [⟨fieldWidth, record.channel.toNat⟩, ⟨timeWidth, record.localTime.toNat⟩]

end Record

/-- The columns behind them in the line of a list element. -/
def ListElement.lastColumns (e : ListElement) : List NumberColumn :=
  [⟨fieldWidth, e.adcValue.toNat⟩, ⟨fieldWidth, e.extendTime.toNat⟩]

/-- A counter in a column is the number in it. -/
theorem toList_column (width : Nat) (n : UInt64) :
    (column width n).toList = NumberColumn.chars ⟨width, n.toNat⟩ := by
  rw [column, String.toList_append]
  rfl

namespace Record

/-- What stands behind the first columns of a record. -/
def rest : Record → List Char
  | .list e => e.lastColumns.flatMap NumberColumn.chars
  | .waveform w => (column fieldWidth w.extendTime ++ " " ++ displayAll w.samples).toList

/-- Records of both kinds have the channel and the local time in their first columns. -/
theorem toList_columns (record : Record) :
    record.columns.toList = record.firstColumns.flatMap NumberColumn.chars ++ record.rest := by
  cases record with
  | list e =>
    simp only [columns, String.toList_append, toList_column, firstColumns, channel, localTime, rest,
      ListElement.lastColumns, List.flatMap_cons, List.flatMap_nil, List.append_assoc,
      List.append_nil]
  | waveform w =>
    simp only [columns, String.toList_append, toList_column, firstColumns, channel, localTime, rest,
      List.flatMap_cons, List.flatMap_nil, List.append_assoc, List.append_nil]

theorem FitsColumns.fits {record : Record} (h : record.FitsColumns) :
    ∀ column ∈ record.firstColumns, column.Fits :=
  List.forall_mem_cons.2 ⟨h.channel, List.forall_mem_singleton.2 h.localTime⟩

end Record

theorem fits_lastColumns {e : ListElement} (h : (Record.list e).FitsColumns) :
    ∀ column ∈ e.lastColumns, column.Fits :=
  List.forall_mem_cons.2 ⟨h.adcValue e.adcValue rfl, List.forall_mem_singleton.2 h.extendTime⟩

/-! ## Lines -/

namespace PlacedRecord

/-- The line of a record. -/
def line (globalTime : Bool) (r : PlacedRecord) : Line :=
  r.record.render globalTime r.context

/-- The numbers that lines of records begin with: the global time, if it is printed, the serial, the
channel and the local time. -/
def key (globalTime : Bool) (r : PlacedRecord) : List Nat :=
  r.context.key globalTime ++ [r.record.channel.toNat, r.record.localTime.toNat]

/-- The numbers in the line of a list element: those, the value and the extended time. -/
def listKey (globalTime : Bool) (r : PlacedRecord) (e : ListElement) : List Nat :=
  r.key globalTime ++ [e.adcValue.toNat, e.extendTime.toNat]

/-- Two records with numbers in all columns, and with printed global times both or neither. -/
structure Comparable (globalTime : Bool) (r r' : PlacedRecord) : Prop where
  context : r.context.FitsColumns globalTime
  context' : r'.context.FitsColumns globalTime
  record : r.record.FitsColumns
  record' : r'.record.FitsColumns
  time : (r.context.printedTime? globalTime).isSome = (r'.context.printedTime? globalTime).isSome

variable {globalTime : Bool} {r r' : PlacedRecord}

/-- The columns that lines of records begin with. -/
def columns (globalTime : Bool) (r : PlacedRecord) : List NumberColumn :=
  r.context.columns globalTime ++ r.record.firstColumns

theorem map_number_columns : (r.columns globalTime).map NumberColumn.number = r.key globalTime := by
  rw [columns, List.map_append, Context.map_number_columns]
  rfl

/-- A line begins with its columns. -/
theorem toList_line (h : r.context.FitsColumns globalTime) :
    ' ' :: (r.line globalTime).text.toList =
      (r.columns globalTime).flatMap NumberColumn.chars ++ r.record.rest := by
  rw [line, Record.render, String.toList_append, ← List.cons_append, h.toList_leadingColumns,
    Record.toList_columns, columns, List.flatMap_append, List.append_assoc]

/-- Comparable records have columns of the same widths. -/
theorem Comparable.map_width (h : Comparable globalTime r r') :
    (r.columns globalTime).map NumberColumn.width =
      (r'.columns globalTime).map NumberColumn.width := by
  rw [columns, columns, List.map_append, List.map_append, h.context.map_width h.context' h.time]
  rfl

/-- Comparable records have keys of the same length. -/
theorem Comparable.length_key (h : Comparable globalTime r r') :
    (r.key globalTime).length = (r'.key globalTime).length := by
  have hlength := congrArg List.length h.map_width
  rw [← map_number_columns, ← map_number_columns]
  simpa only [List.length_map] using hlength

/-- Lines are compared by their numbers, and by what stands behind them only if these are the
same. -/
theorem compare_text (h : Comparable globalTime r r') :
    compare (r.line globalTime).text (r'.line globalTime).text =
      (compare (r.key globalTime) (r'.key globalTime)).then
        (compare r.record.rest r'.record.rest) := by
  have hspace : compare (r.line globalTime).text.toList (r'.line globalTime).text.toList =
      compare (' ' :: (r.line globalTime).text.toList)
        (' ' :: (r'.line globalTime).text.toList) := by
    rw [List.compare_cons_cons]
    rfl
  rw [compare_eq_toList, hspace, toList_line h.context, toList_line h.context',
    compare_columns h.map_width (List.forall_mem_append.2 ⟨h.context.fits, h.record.fits⟩)
      (List.forall_mem_append.2 ⟨h.context'.fits, h.record'.fits⟩), map_number_columns,
    map_number_columns]

/-- Lines of list elements are compared by all their numbers. -/
theorem compare_text_list {e e' : ListElement} (h : Comparable globalTime r r')
    (hr : r.record = .list e) (hr' : r'.record = .list e') :
    compare (r.line globalTime).text (r'.line globalTime).text =
      compare (r.listKey globalTime e) (r'.listKey globalTime e') := by
  have hrest : compare r.record.rest r'.record.rest =
      compare [e.adcValue.toNat, e.extendTime.toNat] [e'.adcValue.toNat, e'.extendTime.toNat] := by
    have hwidths : e.lastColumns.map NumberColumn.width =
        e'.lastColumns.map NumberColumn.width := rfl
    have hcolumns := compare_columns hwidths (fits_lastColumns (hr ▸ h.record))
      (fits_lastColumns (hr' ▸ h.record')) [] []
    rw [List.append_nil, List.append_nil, List.compare_nil_nil, Ordering.then_eq] at hcolumns
    rw [hr, hr', Record.rest, Record.rest, hcolumns]
    rfl
  rw [compare_text h, hrest, listKey, listKey, compare_append h.length_key]

/-- Lines with different numbers in front are compared by these. -/
theorem compare_text_of_key_ne (h : Comparable globalTime r r')
    (hne : r.key globalTime ≠ r'.key globalTime) :
    compare (r.line globalTime).text (r'.line globalTime).text =
      compare (r.key globalTime) (r'.key globalTime) := by
  have hdecided : compare (r.key globalTime) (r'.key globalTime) ≠ .eq :=
    mt Std.LawfulEqOrd.eq_of_compare hne
  rw [compare_text h]
  cases hkey : compare (r.key globalTime) (r'.key globalTime) with
  | eq => exact absurd hkey hdecided
  | lt => rfl
  | gt => rfl

/-- Lines in the order of their texts are in the order of their numbers. -/
theorem isLE_compare_key (h : Comparable globalTime r r')
    (hle : (compare (r.line globalTime).text (r'.line globalTime).text).isLE) :
    (compare (r.key globalTime) (r'.key globalTime)).isLE := by
  rw [compare_text h] at hle
  exact Ordering.isLE_left_of_isLE_then hle

end PlacedRecord

/-! ## Sorted tables -/

/-- A sorted table has the lines of all records, in the order of their texts. -/
theorem exists_sorted (globalTime : Bool) (root : Node) :
    ∃ sorted : List PlacedRecord, sorted.Perm (root.placedRecords globalTime) ∧
      exportLines ⟨globalTime, true⟩ root = sorted.map (PlacedRecord.line globalTime) ∧
      sorted.Pairwise fun r r' =>
        (compare (r.line globalTime).text (r'.line globalTime).text).isLE := by
  let text (r : PlacedRecord) : String := (r.line globalTime).text
  refine ⟨(root.placedRecords globalTime).mergeSort fun r r' => text r ≤ text r',
    List.mergeSort_perm _ _, ?_, ?_⟩
  · have hlines : exportLines ⟨globalTime, false⟩ root =
        (root.placedRecords globalTime).map (PlacedRecord.line globalTime) :=
      exportLines_eq_map globalTime root
    change sortLines (exportLines ⟨globalTime, false⟩ root) = _
    rw [hlines, sortLines]
    exact (List.map_mergeSort (f := PlacedRecord.line globalTime) fun _ _ _ _ => rfl).symm
  · exact (pairwise_mergeSort_le text _).imp le_iff_isLE_compare.1

/-- Lines with numbers in all columns are compared as the numbers, whatever their numbers of digits:
lines of list elements as all six, and any lines that differ in the global time, the serial, the
channel or the local time as these. So a sorted table of such lines is in this order. The global
time counts only if it is printed, in both lines. -/
theorem textOrder_numeric (globalTime : Bool) :
    (∀ r r' : PlacedRecord, r.Comparable globalTime r' →
        (∀ e e', r.record = .list e → r'.record = .list e' →
          compare (r.line globalTime).text (r'.line globalTime).text =
            compare (r.listKey globalTime e) (r'.listKey globalTime e')) ∧
        (r.key globalTime ≠ r'.key globalTime →
          compare (r.line globalTime).text (r'.line globalTime).text =
            compare (r.key globalTime) (r'.key globalTime))) ∧
      ∀ root : Node, (∀ r ∈ root.placedRecords globalTime, ∀ r' ∈ root.placedRecords globalTime,
          r.Comparable globalTime r') →
        ∃ sorted : List PlacedRecord, sorted.Perm (root.placedRecords globalTime) ∧
          exportLines ⟨globalTime, true⟩ root = sorted.map (PlacedRecord.line globalTime) ∧
          sorted.Pairwise fun r r' =>
            (compare (r.key globalTime) (r'.key globalTime)).isLE ∧
              ∀ e e', r.record = .list e → r'.record = .list e' →
                (compare (r.listKey globalTime e) (r'.listKey globalTime e')).isLE := by
  refine ⟨fun r r' h => ⟨fun e e' => PlacedRecord.compare_text_list h,
    PlacedRecord.compare_text_of_key_ne h⟩, fun root hroot => ?_⟩
  obtain ⟨sorted, hperm, hlines, hsorted⟩ := exists_sorted globalTime root
  refine ⟨sorted, hperm, hlines, hsorted.imp_of_mem fun {r r'} hr hr' hle => ?_⟩
  have h := hroot r (hperm.mem_iff.1 hr) r' (hperm.mem_iff.1 hr')
  refine ⟨PlacedRecord.isLE_compare_key h hle, fun e e' he he' => ?_⟩
  rwa [← PlacedRecord.compare_text_list h he he']

/-- A list element of device ten at the time 1000. -/
def PlacedRecord.ofTen : PlacedRecord :=
  ⟨"/dig_10/1000/list-0", ⟨some "10", some "1000"⟩, .list ⟨2, 20, 3, 4⟩⟩

/-- A list element of device nine at the time 999. -/
def PlacedRecord.ofNine : PlacedRecord :=
  ⟨"/dig_9/999/list-0", ⟨some "9", some "999"⟩, .list ⟨10, 20, 3, 4⟩⟩

/-- A tree with these two records. -/
def Node.tenAndNine : Node :=
  ⟨"/", [
    ⟨"dig_10", [⟨"1000", [
      ⟨"list-0", [], some ⟨[.flat [.integer 2, .integer 20, .integer 3, .integer 4], .flat []]⟩⟩],
      none⟩], none⟩,
    ⟨"dig_9", [⟨"999", [
      ⟨"list-0", [], some ⟨[.flat [.integer 10, .integer 20, .integer 3, .integer 4], .flat []]⟩⟩],
      none⟩], none⟩], none⟩

/-- The device with the smaller number comes first in a sorted table, though it has fewer digits. -/
theorem textOrder_numeric_tenAndNine :
    (∀ r ∈ Node.tenAndNine.placedRecords true, ∀ r' ∈ Node.tenAndNine.placedRecords true,
        r.Comparable true r') ∧
      compare (PlacedRecord.ofNine.line true).text (PlacedRecord.ofTen.line true).text = .lt ∧
      ∃ sorted : List PlacedRecord, sorted.Perm (Node.tenAndNine.placedRecords true) ∧
        exportLines ⟨true, true⟩ Node.tenAndNine = sorted.map (PlacedRecord.line true) ∧
        sorted.Pairwise fun r r' => (compare (r.key true) (r'.key true)).isLE := by
  have hplaced : Node.tenAndNine.placedRecords true = [.ofTen, .ofNine] := rfl
  have hcomparable : ∀ r ∈ Node.tenAndNine.placedRecords true,
      ∀ r' ∈ Node.tenAndNine.placedRecords true, r.Comparable true r' := by
    have hcontexts : ∀ r ∈ Node.tenAndNine.placedRecords true, r.context.FitsColumns true ∧
        (r.context.printedTime? true).isSome = true := by
      rw [hplaced, List.forall_mem_cons, List.forall_mem_singleton]
      refine ⟨⟨⟨?_, "10", rfl, by decide, List.all_eq_true.1 rfl, by decide, by decide⟩, rfl⟩,
        ⟨?_, "9", rfl, by decide, List.all_eq_true.1 rfl, by decide, by decide⟩, rfl⟩
      all_goals
        rintro _ ⟨⟩
        exact ⟨by decide, List.all_eq_true.1 rfl, by decide, by decide⟩
    have hrecords : ∀ r ∈ Node.tenAndNine.placedRecords true, r.record.FitsColumns := by
      rw [hplaced, List.forall_mem_cons, List.forall_mem_singleton]
      refine ⟨⟨by decide, by decide, ?_, by decide⟩, by decide, by decide, ?_, by decide⟩
      all_goals
        rintro _ ⟨⟩
        decide
    exact fun r hr r' hr' => ⟨(hcontexts r hr).1, (hcontexts r' hr').1, hrecords r hr,
      hrecords r' hr', (hcontexts r hr).2.trans (hcontexts r' hr').2.symm⟩
  obtain ⟨hlines, hsorted⟩ := textOrder_numeric true
  obtain ⟨sorted, hperm, hexport, hpairwise⟩ := hsorted Node.tenAndNine hcomparable
  refine ⟨hcomparable, ?_, sorted, hperm, hexport, hpairwise.imp And.left⟩
  have h : PlacedRecord.ofNine.Comparable true PlacedRecord.ofTen :=
    hcomparable _ (by simp [hplaced]) _ (by simp [hplaced])
  rw [(hlines _ _ h).2 (by decide)]
  decide

end EventLog
