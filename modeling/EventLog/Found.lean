import EventLog.Binary64.Basic
import EventLog.Json.Basic
import EventLog.Text.Quoted

/-!
# What was found instead

The description of a value that stands where another kind of value was expected, for messages.
-/

namespace EventLog

/-- A value by its kind, with its content where a message shows it. -/
inductive Found where
  | null
  | bool (value : Bool)
  | integer (value : Int)
  | float (value : Binary64)
  | string (value : String)
  | sequence
  | map
  deriving DecidableEq, Repr

namespace Found

/-- The kind of a document value. -/
def ofJson : Json → Found
  | .null => .null
  | .bool b => .bool b
  | .integer n => .integer n
  | .float x => .float x
  | .string s => .string s
  | .array _ => .sequence
  | .object _ => .map

/-- The words for what was found. How floating-point numbers are written is a parameter. -/
def describe (writeFloat : Binary64 → String) : Found → String
  | .null => "null"
  | .bool b => "boolean `" ++ toString b ++ "`"
  | .integer n => "integer `" ++ toString n ++ "`"
  | .float x => "floating point `" ++ writeFloat x ++ "`"
  | .string s => "string " ++ Text.quoted s
  | .sequence => "sequence"
  | .map => "map"

end Found

end EventLog
