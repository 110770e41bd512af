import EventLog.Toml.Lexeme
import EventLog.Toml.Table

/-!
# Reading settings documents

`Toml.read` reads a whole text as one table: first its lines, then the tables that they define.
Loops take fuel, for which the length of the text is enough.
-/

namespace EventLog.Toml

/-- Reads the items of an array behind its opening bracket or behind a comma. Lines may end and
comments may stand anywhere between items, and the last one may have a comma behind it. -/
def readItems (item : Reader Toml) : Nat → Reader (List Toml)
  | 0, _ => none
  | fuel + 1, cs =>
    match skipLines cs.length cs with
    | ']' :: rest => some ([], rest)
    | cs => do
      let (value, cs) ← item cs
      match skipLines cs.length cs with
      | ']' :: rest => return ([value], rest)
      | ',' :: rest => do
        let (values, rest) ← readItems item fuel rest
        return (value :: values, rest)
      | _ => none

/-- Reads a key with its value. -/
def readAssignment (value : Reader Toml) : Reader Assignment := fun cs => do
  let ((path, key), cs) ← readPath cs
  match cs with
  | '=' :: rest => do
    let (v, rest) ← value (skipSpace rest)
    return (⟨path, key, v⟩, rest)
  | _ => none

/-- Reads the keys and values of an inline table behind its opening brace or behind a comma. -/
def readAssignments (value : Reader Toml) : Nat → Reader (List Assignment)
  | 0, _ => none
  | fuel + 1, cs => do
    let (a, cs) ← readAssignment value cs
    match skipSpace cs with
    | '\x7d' :: rest => return ([a], rest)
    | ',' :: rest => do
      let (others, rest) ← readAssignments value fuel rest
      return (a :: others, rest)
    | _ => none

/-- Reads an inline table behind its opening brace. -/
def readInline (value : Reader Toml) (fuel : Nat) : Reader Toml := fun cs =>
  match skipSpace cs with
  | '\x7d' :: rest => some (.table [], rest)
  | cs => do
    let (assignments, cs) ← readAssignments value fuel cs
    return (.table (entriesToToml (← assignAll [] assignments)), cs)

/-- Takes the given characters. -/
def readExactly : List Char → List Char → Option (List Char)
  | [], cs => some cs
  | _ :: _, [] => none
  | e :: expected, c :: cs => if c = e then readExactly expected cs else none

/-- Reads a value, inside of which at most `depth` arrays and inline tables may be open at once. -/
def readValue (fuel : Nat) : Nat → Reader Toml
  | _, [] => none
  | depth, c :: rest =>
    if c = '"' || c = '\'' then
      (readString c rest).map fun (cs, rest) => (.string (String.ofList cs), rest)
    else if c = '[' then
      match depth with
      | 0 => none
      | depth + 1 => do
        let (items, rest) ← readItems (readValue fuel depth) fuel rest
        return (.array items, rest)
    else if c = '\x7b' then
      match depth with
      | 0 => none
      | depth + 1 => readInline (readValue fuel depth) fuel rest
    else if c = 't' then do
      return (.boolean true, ← readExactly ['r', 'u', 'e'] rest)
    else if c = 'f' then do
      return (.boolean false, ← readExactly ['a', 'l', 's', 'e'] rest)
    else readNumber (c :: rest)

/-- A line that is not blank: a header or a key with its value. -/
inductive Statement where
  | header (repeats : Bool) (path : List String) (key : String)
  | assignment (assignment : Assignment)

/-- Reads a header behind its first bracket, up to the end of its line. -/
def readHeader : Reader Statement
  | '[' :: rest => do
    let ((path, key), cs) ← readPath rest
    let cs ← endLine (← readExactly [']', ']'] cs)
    return (.header true path key, cs)
  | rest => do
    let ((path, key), cs) ← readPath rest
    let cs ← endLine (← readExactly [']'] cs)
    return (.header false path key, cs)

/-- Reads the lines of a document. -/
def readStatements (size : Nat) : Nat → List Char → Option (List Statement)
  | 0, _ => none
  | fuel + 1, cs =>
    match skipSpace cs with
    | [] => some []
    | '#' :: rest => do readStatements size fuel (← endLine ('#' :: rest))
    | '[' :: rest => do
      let (statement, cs) ← readHeader rest
      return statement :: (← readStatements size fuel cs)
    | c :: rest =>
      match readNewline? (c :: rest) with
      | some rest => readStatements size fuel rest
      | none => do
        let (a, cs) ← readAssignment (readValue size maxDepth) (c :: rest)
        return .assignment a :: (← readStatements size fuel (← endLine cs))

/-- The keys in front of the first header, and the headers with the keys behind each. -/
def sections : List Statement → List Assignment × List Section
  | [] => ([], [])
  | .assignment a :: rest =>
    let (assignments, others) := sections rest
    (a :: assignments, others)
  | .header repeats path key :: rest =>
    let (assignments, others) := sections rest
    ([], ⟨repeats, path, key, assignments⟩ :: others)

/-- The text without a byte order mark in front. -/
def dropMark : List Char → List Char
  | c :: rest => if c.toNat = 0xFEFF then rest else c :: rest
  | [] => []

/-- Reads a whole text as the entries of one table. -/
def read (text : String) : Option (List (String × Toml)) := do
  let cs := dropMark text.toList
  let (assignments, headed) := sections (← readStatements (cs.length + 1) (cs.length + 1) cs)
  let root ← assignAll [] assignments
  return entriesToToml (← headed.foldlM define root)

end EventLog.Toml
