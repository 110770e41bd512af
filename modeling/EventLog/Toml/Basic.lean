import EventLog.Found

/-!
# Values of settings documents

A value of a TOML document. Tables keep their entries in the order in which they were defined, and a
date or time is kept as such without its digits, since no setting is one.
-/

namespace EventLog

/-- A value of a settings document. -/
inductive Toml where
  | string (value : String)
  | integer (value : Int)
  | float (value : Binary64)
  | boolean (value : Bool)
  | moment
  | array (items : List Toml)
  | table (entries : List (String × Toml))
  deriving Inhabited

/-- The kind of a value. A date or time counts as a map, for it has parts with names. -/
def Found.ofToml : Toml → Found
  | .string s => .string s
  | .integer n => .integer n
  | .float x => .float x
  | .boolean b => .bool b
  | .moment => .map
  | .array _ => .sequence
  | .table _ => .map

end EventLog
