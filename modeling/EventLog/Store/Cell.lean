import EventLog.Json.Printer
import EventLog.Json.Reader

/-!
# Cells

A cell is the smallest piece of stored data. Every document value is a cell: numbers, strings and
arrays have a form of their own, and anything else is kept as a document. Which form a document
value takes depends on its kind alone.
-/

namespace EventLog

/-- A scalar, a sequence of cells, or any other document value. -/
inductive Cell where
  | integer (value : Int64)
  | unsigned (value : UInt64)
  | float (value : Binary64)
  | text (value : String)
  | sequence (items : List Cell)
  | other (document : Json)
  deriving Inhabited

namespace Cell

/-- Numbers and text. -/
def isScalar : Cell → Bool
  | .integer _ | .unsigned _ | .float _ | .text _ => true
  | .sequence _ | .other _ => false

/-- The items of a sequence. -/
def items? : Cell → Option (List Cell)
  | .sequence items => some items
  | _ => none

mutual

/-- The cell of a document value. An integer is signed if it fits a signed word. Objects inside are
kept without the order of their members. -/
def ofJson : Json → Cell
  | .integer n =>
    if n ≤ Int64.maxValue.toInt then .integer (Int64.ofInt n) else .unsigned (UInt64.ofNat n.toNat)
  | .float x => .float x
  | .string s => .text s
  | .array items => .sequence (ofItems items)
  | .null => .other .null
  | .bool b => .other (.bool b)
  | .object members => .other (Json.object members).sorted

/-- The cells of document values. -/
def ofItems : List Json → List Cell
  | [] => []
  | item :: rest => ofJson item :: ofItems rest

end

/-- Reads a whole text as a cell. -/
def read (text : String) : Except Json.Fault Cell :=
  (Json.read text).map ofJson

mutual

/-- The document value of a cell. -/
def toJson : Cell → Json
  | .integer n => .integer n.toInt
  | .unsigned n => .integer n.toNat
  | .float x => .float x
  | .text s => .string s
  | .sequence items => .array (toItems items)
  | .other document => document

/-- The document values of cells. -/
def toItems : List Cell → List Json
  | [] => []
  | item :: rest => toJson item :: toItems rest

end

mutual

/-- A cell as text in a table: numbers in decimal, text as it is, the items of a sequence with one
space between them, and other documents compactly. -/
def display : Cell → String
  | .integer n => toString n.toInt
  | .unsigned n => toString n.toNat
  | .float x => x.plain
  | .text s => s
  | .sequence [] => ""
  | .sequence (item :: rest) => display item ++ displayRest rest
  | .other document => document.compact

/-- The items behind the first one, each behind a space. -/
def displayRest : List Cell → String
  | [] => ""
  | item :: rest => " " ++ display item ++ displayRest rest

end

mutual

/-- Equality of cells of the same form, with floating-point numbers compared as numbers. -/
def equals : Cell → Cell → Bool
  | .integer a, .integer b => a == b
  | .unsigned a, .unsigned b => a == b
  | .float a, .float b => a.equals b
  | .text a, .text b => a == b
  | .sequence a, .sequence b => equalsItems a b
  | .other a, .other b => a.equals b
  | _, _ => false

/-- Equality of items, one by one. -/
def equalsItems : List Cell → List Cell → Bool
  | [], [] => true
  | a :: as, b :: bs => equals a b && equalsItems as bs
  | _, _ => false

end

end Cell

/-- Cells as text with one space between them. -/
def displayAll (cells : List Cell) : String :=
  " ".intercalate (cells.map Cell.display)

end EventLog
