import EventLog.Store.Cell

/-!
# Rows and datasets

A row is a compound of named cells, a flat array of cells, or any other document value. A dataset is
a list of rows. A named cell can be looked up by its bare name or by the name with the suffix that
writers append, and every row but a malformed one can be read by position.
-/

namespace EventLog

/-- A dataset row. Members keep the order and the repetitions they were stored with. -/
inductive Row where
  | compound (members : List (String × Cell))
  | flat (cells : List Cell)
  | malformed (document : Json)
  deriving Inhabited

namespace Row

/-- What writers append to the names of members. -/
def memberSuffix : String := "_name"

/-- The first member with a name, or else with the name and the writers' suffix. -/
def field? (name : String) : Row → Option Cell
  | .compound members => (members.lookup name).or (members.lookup (name ++ memberSuffix))
  | _ => none

/-- The cell at a position, in stored order. -/
def position? (index : Nat) : Row → Option Cell
  | .compound members => (members[index]?).map Prod.snd
  | .flat cells => cells[index]?
  | .malformed _ => none

/-- The row of a document value, by its kind. -/
def ofJson : Json → Row
  | .object members => .compound (members.map fun (name, value) => (name, Cell.ofJson value))
  | .array items => .flat (items.map Cell.ofJson)
  | document => .malformed document

/-- Reads a whole text as a row. -/
def read (text : String) : Except Json.Fault Row :=
  (Json.read text).map ofJson

/-- The document value of a row. -/
def toJson : Row → Json
  | .compound members => .object (members.map fun (name, cell) => (name, cell.toJson))
  | .flat cells => .array (cells.map Cell.toJson)
  | .malformed document => document

/-- Equality of rows of the same form. -/
def equals : Row → Row → Bool
  | .compound a, .compound b =>
    a.map Prod.fst == b.map Prod.fst && Cell.equalsItems (a.map Prod.snd) (b.map Prod.snd)
  | .flat a, .flat b => Cell.equalsItems a b
  | .malformed a, .malformed b => a.equals b
  | _, _ => false

end Row

/-- The payload of a node. -/
structure Dataset where
  rows : List Row
  deriving Inhabited

namespace Dataset

/-- The number of rows, and for flat data the length of the first one. -/
def shape (d : Dataset) : List Nat :=
  match d.rows with
  | .flat cells :: _ => [d.rows.length, cells.length]
  | _ => [d.rows.length]

/-- The dataset that a payload document holds: an object with an array of rows, which may be left
out, or an array of at most that array of rows. Every other document holds none. -/
def ofPayload? : Json → Option Dataset
  | .object members =>
    match members.lookup "rows" with
    | none => some ⟨[]⟩
    | some (.array rows) => some ⟨rows.map Row.ofJson⟩
    | some _ => none
  | .array [] => some ⟨[]⟩
  | .array [.array rows] => some ⟨rows.map Row.ofJson⟩
  | _ => none

/-- The document of a dataset. -/
def toJson (d : Dataset) : Json :=
  .object [("rows", .array (d.rows.map Row.toJson))]

/-- Equality of datasets, row by row. -/
def equals (a b : Dataset) : Bool :=
  a.rows.length == b.rows.length && (a.rows.zip b.rows).all fun (x, y) => x.equals y

end Dataset

end EventLog
