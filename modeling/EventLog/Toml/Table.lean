import EventLog.Toml.Basic

/-!
# Tables under construction

A document defines its tables in pieces: by headers, by dotted keys, and by mentioning them on the
way to others. `Definition` keeps for each table in which of these ways it came about, because that
decides what may still be added to it: a header defines a table once, dotted keys add only to tables
that dotted keys made, and a table that was only mentioned may still get a header.
-/

namespace EventLog.Toml

/-- How a table came about. -/
inductive Origin where
  | header
  | mentioned
  | dotted
  deriving DecidableEq, Repr

/-- What a key is defined as so far: a value, a table, or an array of tables with headers. -/
inductive Definition where
  | value (value : Toml)
  | table (origin : Origin) (entries : List (String × Definition))
  | tables (elements : List (List (String × Definition)))
  deriving Inhabited

/-- The entries of a table under construction, in the order of their definition. -/
abbrev Entries := List (String × Definition)

/-- The entries with another definition for a key. -/
def replace (key : String) (definition : Definition) (entries : Entries) : Entries :=
  entries.map fun (name, old) => if name = key then (name, definition) else (name, old)

/-- The entries without a key. -/
def remove (key : String) (entries : Entries) : Entries :=
  entries.filter fun (name, _) => name ≠ key

/-- Changes the table at a path. Tables that are missing on the way are made, the last element of an
array of tables stands for it, and dotted keys stay out of tables with headers. -/
def modifyAt (dotted : Bool) (change : Origin → Entries → Option Entries) :
    List String → Origin → Entries → Option Entries
  | [], origin, entries => change origin entries
  | key :: path, _, entries =>
    match entries.lookup key with
    | none => do
      let origin := if dotted then Origin.dotted else Origin.mentioned
      return entries ++ [(key, .table origin (← modifyAt dotted change path origin []))]
    | some (.value _) => none
    | some (.tables elements) => do
      let last ← modifyAt dotted change path .header (← elements.getLast?)
      return replace key (.tables (elements.dropLast ++ [last])) entries
    | some (.table origin inner) =>
      if dotted && origin = .header then none
      else do
        return replace key (.table origin (← modifyAt dotted change path origin inner)) entries

/-- A key with its value, behind a path of further keys. -/
structure Assignment where
  path : List String
  key : String
  value : Toml

/-- Defines a key. A key is defined once, and a path leads only to a table made by dotted keys. -/
def assign (entries : Entries) (a : Assignment) : Option Entries :=
  modifyAt true (fun origin inner =>
    if (origin == .dotted) == a.path.isEmpty then none
    else if (inner.lookup a.key).isSome then none
    else some (inner ++ [(a.key, .value a.value)])) a.path .header entries

/-- Defines keys one after the other. -/
def assignAll (entries : Entries) (assignments : List Assignment) : Option Entries :=
  assignments.foldlM assign entries

/-- A header with the keys that are defined below it. -/
structure Section where
  repeats : Bool
  path : List String
  key : String
  assignments : List Assignment

/-- Defines the table of a header, or one more element of its array of tables. -/
def define (root : Entries) (s : Section) : Option Entries :=
  modifyAt false (fun _ parent =>
    match s.repeats, parent.lookup s.key with
    | true, none => do
      return parent ++ [(s.key, .tables [← assignAll [] s.assignments])]
    | true, some (.tables elements) => do
      return replace s.key (.tables (elements ++ [← assignAll [] s.assignments])) parent
    | false, none => do
      return parent ++ [(s.key, .table .header (← assignAll [] s.assignments))]
    | false, some (.table .mentioned entries) => do
      return remove s.key parent ++ [(s.key, .table .header (← assignAll entries s.assignments))]
    | _, _ => none) s.path .header root

mutual

/-- The value that a definition stands for. -/
def Definition.toToml : Definition → Toml
  | .value v => v
  | .table _ entries => .table (entriesToToml entries)
  | .tables elements => .array (elementsToToml elements)

/-- The entries of a finished table. -/
def entriesToToml : List (String × Definition) → List (String × Toml)
  | [] => []
  | (key, definition) :: rest => (key, definition.toToml) :: entriesToToml rest

/-- The tables of a finished array of tables. -/
def elementsToToml : List (List (String × Definition)) → List Toml
  | [] => []
  | entries :: rest => .table (entriesToToml entries) :: elementsToToml rest

end

end EventLog.Toml
