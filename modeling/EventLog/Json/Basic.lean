import EventLog.Binary64.Basic

/-!
# Document values

A document value as it is read from a JSON text: integers that fit a 64-bit word are kept apart from
floating-point numbers, and the members of an object keep their order and their repetitions.
`Json.sorted` is the order-free reading of the same document: members by name, where the last of
equal names counts.
-/

namespace EventLog

/-- A document value. -/
inductive Json where
  | null
  | bool (value : Bool)
  | integer (value : Int)
  | float (value : Binary64)
  | string (value : String)
  | array (items : List Json)
  | object (members : List (String × Json))
  deriving Inhabited

namespace Json

/-- Puts a member into a list sorted by name. A member of that name already there was read later
and stays. -/
def insertMember (name : String) (value : Json) : List (String × Json) → List (String × Json)
  | [] => [(name, value)]
  | (other, old) :: rest =>
    if name < other then (name, value) :: (other, old) :: rest
    else if name = other then (other, old) :: rest
    else (other, old) :: insertMember name value rest

mutual

/-- The document with the members of all its objects sorted by name, the last of equal names
alone. -/
def sorted : Json → Json
  | .array items => .array (sortedItems items)
  | .object members => .object (sortedMembers members)
  | value => value

/-- The items, each sorted. -/
def sortedItems : List Json → List Json
  | [] => []
  | item :: rest => sorted item :: sortedItems rest

/-- The members, each sorted, in the order of their names. -/
def sortedMembers : List (String × Json) → List (String × Json)
  | [] => []
  | (name, value) :: rest => insertMember name (sorted value) (sortedMembers rest)

end

mutual

/-- Equality of documents, with floating-point numbers compared as numbers. -/
def equals : Json → Json → Bool
  | .null, .null => true
  | .bool a, .bool b => a == b
  | .integer a, .integer b => a == b
  | .float a, .float b => a.equals b
  | .string a, .string b => a == b
  | .array a, .array b => equalsItems a b
  | .object a, .object b => equalsMembers a b
  | _, _ => false

/-- Equality of items, one by one. -/
def equalsItems : List Json → List Json → Bool
  | [], [] => true
  | a :: as, b :: bs => equals a b && equalsItems as bs
  | _, _ => false

/-- Equality of members, one by one and in order. -/
def equalsMembers : List (String × Json) → List (String × Json) → Bool
  | [], [] => true
  | (m, a) :: as, (n, b) :: bs => m == n && equals a b && equalsMembers as bs
  | _, _ => false

end

/-- The value of the first member with a name, of an object. -/
def member? (name : String) : Json → Option Json
  | .object members => members.lookup name
  | _ => none

end Json

end EventLog
