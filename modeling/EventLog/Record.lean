import EventLog.Store.Row

/-!
# Records

A node is a record by its name alone: list elements and waveform elements have a prefix each. What a
record holds is taken from the first row of its dataset. `classify` gives the record, or nothing for
containers and for data that does not fit; numbers are taken exactly or not at all.
-/

namespace EventLog

/-- The kind of record that a name announces. -/
inductive RecordKind where
  | list
  | waveform
  deriving DecidableEq, Repr

/-- What the names of records of a kind begin with. -/
def RecordKind.namePrefix : RecordKind → String
  | .list => "list-"
  | .waveform => "waveform-"

/-- Whether a name announces a record of a kind. -/
def RecordKind.announcedBy (kind : RecordKind) (name : String) : Bool :=
  kind.namePrefix.toList.isPrefixOf name.toList

/-- The kind of record that a name announces; names of containers announce none. -/
def RecordKind.ofName? (name : String) : Option RecordKind :=
  if RecordKind.list.announcedBy name then some .list
  else if RecordKind.waveform.announcedBy name then some .waveform
  else none

/-- How the fields of a list element are found in the first row: by name or by position. -/
inductive RecordLayout where
  | compound
  | flat
  deriving DecidableEq, Repr

/-- The layout of a dataset: one row is a compound, more rows are flat, no row has no layout. -/
def RecordLayout.of? (dataset : Dataset) : Option RecordLayout :=
  match dataset.rows with
  | [] => none
  | [_] => some .compound
  | _ => some .flat

/-- A list element. -/
structure ListElement where
  channel : UInt64
  localTime : UInt64
  adcValue : UInt64
  extendTime : UInt64
  deriving DecidableEq, Repr

/-- A waveform element, with its samples as they are stored. -/
structure WaveformElement where
  channel : UInt64
  localTime : UInt64
  extendTime : UInt64
  samples : List Cell

/-- A record of either kind. -/
inductive Record where
  | list (element : ListElement)
  | waveform (element : WaveformElement)

/-- The counter that a cell holds: a natural number below `2 ^ 64`, in whichever numeric form. -/
def Cell.counter? : Cell → Option UInt64
  | .integer n => if 0 ≤ n.toInt then some (UInt64.ofNat n.toInt.toNat) else none
  | .unsigned n => some n
  | .float x => do
    let n ← x.natural?
    if n < UInt64.size then some (UInt64.ofNat n) else none
  | _ => none

/-- The names of the four fields of a list element, with their positions in flat rows. -/
def ListElement.fieldNames : List String := ["channel", "localTime", "adcValue", "extendTime"]

/-- The names of the four fields of a waveform element. -/
def WaveformElement.fieldNames : List String := ["channel", "localTime", "extendTime", "waveform"]

/-- The counter of a field of a list element. -/
def Row.listField? (row : Row) (layout : RecordLayout) (name : String) (index : Nat) :
    Option UInt64 := do
  let cell ← match layout with
    | .compound => row.field? name
    | .flat => row.position? index
  cell.counter?

/-- The list element in a row. -/
def Row.listElement? (row : Row) (layout : RecordLayout) : Option ListElement := do
  return {
    channel := ← row.listField? layout "channel" 0
    localTime := ← row.listField? layout "localTime" 1
    adcValue := ← row.listField? layout "adcValue" 2
    extendTime := ← row.listField? layout "extendTime" 3 }

/-- The samples in a row: a sequence of scalars. -/
def Row.samples? (row : Row) : Option (List Cell) := do
  let items ← (← row.field? "waveform").items?
  if items.all Cell.isScalar then some items else none

/-- The waveform element in a row, whose fields are always found by name. -/
def Row.waveformElement? (row : Row) : Option WaveformElement := do
  return {
    samples := ← row.samples?
    channel := ← (← row.field? "channel").counter?
    localTime := ← (← row.field? "localTime").counter?
    extendTime := ← (← row.field? "extendTime").counter? }

/-- The record that a node with a name and a payload is, if it is one. -/
def classify (name : String) (payload : Option Dataset) : Option Record := do
  let kind ← RecordKind.ofName? name
  let dataset ← payload
  let layout ← RecordLayout.of? dataset
  let row ← dataset.rows.head?
  match kind with
  | .list => return .list (← row.listElement? layout)
  | .waveform => return .waveform (← row.waveformElement?)

end EventLog
