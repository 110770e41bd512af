import EventLog.Walk

/-!
# Listings

The verbose form of the records of a tree: for each a header with its path, and one indented line
for every field.
-/

namespace EventLog

/-- An indented line with the name of a field and its value. -/
def fieldLine (name value : String) : String :=
  "    " ++ name ++ " " ++ value

/-- A counter as text. -/
def counterText (n : UInt64) : String :=
  toString n.toNat

/-- The five lines of a record at a path. -/
def Record.describe (path : String) : Record → List String
  | .list e =>
    ("List Element: " ++ path) ::
      List.zipWith fieldLine ListElement.fieldNames
        [counterText e.channel, counterText e.localTime, counterText e.adcValue,
          counterText e.extendTime]
  | .waveform w =>
    ("Waveform Element: " ++ path) ::
      List.zipWith fieldLine WaveformElement.fieldNames
        [counterText w.channel, counterText w.localTime, counterText w.extendTime,
          displayAll w.samples]

/-- The lines of a visit: those of its record, if there is one. -/
def Visit.lines (visit : Visit) : List String :=
  match visit.record with
  | none => []
  | some record => record.describe visit.path

/-- The lines of all records of a tree, in the order of the walk. -/
def listing (root : Node) : List String :=
  (walk false root).flatMap Visit.lines

end EventLog
