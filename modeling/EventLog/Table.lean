import EventLog.Text.Column
import EventLog.Text.Lines
import EventLog.Walk

/-!
# Text tables

Every record becomes a line of right-aligned columns: the global time if it is wanted and known, the
serial or a dash, and then the fields of the record. The lines may be sorted by their text. Columns
are padded with spaces, so that sorted text is in numeric order as long as all values fit.
-/

namespace EventLog

open EventLog.Text

/-- What a table shows. -/
structure TableSettings where
  includeGlobalTime : Bool
  sortOutput : Bool
  deriving DecidableEq, Repr

/-- Without other settings, no global time and the order of the walk. -/
def TableSettings.default : TableSettings := ⟨false, false⟩

/-- A line of a table, with the context of its record. -/
structure Line where
  text : String
  serial : Option String
  globalTime : Option String
  deriving DecidableEq, Repr

/-- The width of columns with a time, and of all others. -/
def timeWidth : Nat := 16

/-- The width of columns other than times. -/
def fieldWidth : Nat := 8

/-- A counter in a column of a width, behind a space. -/
def column (width : Nat) (n : UInt64) : String :=
  " " ++ alignRight width (toString n.toNat)

/-- The columns of the context: the global time if it is wanted and known, and the serial. -/
def leadingColumns (globalTime : Bool) (context : Context) : String :=
  let serial := alignRight fieldWidth (context.serial.getD "-")
  match context.globalTime with
  | some time => if globalTime then alignRight timeWidth time ++ " " ++ serial else serial
  | none => serial

/-- The columns of a record. -/
def Record.columns : Record → String
  | .list e =>
    column fieldWidth e.channel ++ column timeWidth e.localTime ++ column fieldWidth e.adcValue ++
      column fieldWidth e.extendTime
  | .waveform w =>
    column fieldWidth w.channel ++ column timeWidth w.localTime ++ column fieldWidth w.extendTime ++
      " " ++ displayAll w.samples

/-- The line of a record. -/
def Record.render (record : Record) (globalTime : Bool) (context : Context) : Line where
  text := leadingColumns globalTime context ++ record.columns
  serial := context.serial
  globalTime := context.globalTime

/-- Lines in the order of their texts; lines with equal texts keep their order. -/
def sortLines (ls : List Line) : List Line :=
  ls.mergeSort fun a b => a.text ≤ b.text

/-- The line of a visit of a record. -/
def Visit.line? (globalTime : Bool) (visit : Visit) : Option Line :=
  visit.record.map fun record => record.render globalTime visit.context

/-- The lines of all records of a tree. -/
def exportLines (settings : TableSettings) (root : Node) : List Line :=
  let ls := (walk settings.includeGlobalTime root).filterMap (·.line? settings.includeGlobalTime)
  if settings.sortOutput then sortLines ls else ls

/-- The text of a table: every line with a line feed behind it. -/
def tableText (ls : List Line) : String :=
  unlines (ls.map Line.text)

end EventLog
