import EventLog.Text.Blank
import EventLog.Text.Lines
import EventLog.Text.Numeral

/-!
# Event dumps

A dump has one event a line: a timestamp, and further columns that nobody looks into. Blank lines
are passed over, but they count. The first line whose first column is no timestamp ends the reading.
-/

namespace EventLog

open EventLog.Text

/-- An event: its timestamp and the columns behind it. -/
structure Entry where
  timestamp : UInt64
  fields : List String
  deriving DecidableEq, Repr

namespace Dump

/-- A first column that is no timestamp, on a line counted from one. -/
structure Fault where
  line : Nat
  column : String
  cause : NumeralFault
  deriving DecidableEq, Repr

/-- The entries of lines, of which the first has the given number. -/
def readLines : Nat → List (List Char) → Except Fault (List Entry)
  | _, [] => .ok []
  | number, line :: rest =>
    match words line with
    | [] => readLines (number + 1) rest
    | first :: others =>
      match readUnsigned first with
      | .error cause => .error ⟨number, String.ofList first, cause⟩
      | .ok timestamp =>
        (readLines (number + 1) rest).map (⟨timestamp, others.map String.ofList⟩ :: ·)

/-- The entries of a dump, in order. -/
def read (text : String) : Except Fault (List Entry) :=
  readLines 1 (lines text.toList)

/-- The timestamps of entries, in order. -/
def timestamps (entries : List Entry) : List UInt64 :=
  entries.map Entry.timestamp

end Dump

end EventLog
