import EventLog.Found
import EventLog.Json.Skip
import EventLog.Store.Outline

/-!
# Snapshots

A snapshot is the document of a tree. Reading it is strict about the skeleton of nodes, names and
children, and lenient about payloads: `Snapshot.outline` reads a payload as whatever document value
stands there, and `Snapshot.read` then drops it if that holds no dataset. Nodes are objects, or
arrays of their fields in order. Faults are met in reading order, whether they are faults of the
document or of its meaning.
-/

namespace EventLog.Snapshot

open EventLog.Json (Reader skipSpace)

/-- A field of a node. -/
inductive Field where
  | name
  | children
  | payload
  deriving DecidableEq, Repr

/-- The name of a field in a document. -/
def Field.key : Field → String
  | .name => "name"
  | .children => "children"
  | .payload => "payload"

/-- What is expected at a place of the skeleton. -/
inductive Expected where
  | text
  | sequence
  | node
  deriving DecidableEq, Repr

/-- The words for what is expected. -/
def Expected.describe : Expected → String
  | .text => "a string"
  | .sequence => "a sequence"
  | .node => "struct Node"

/-- Why a text is no snapshot. -/
inductive Fault where
  | document (fault : Json.Fault)
  | mismatch (found : Found) (expected : Expected)
  | repeated (field : Field)
  | unnamed
  | empty
  deriving DecidableEq, Repr

/-- The wording of a fault. -/
def Fault.message : Fault → String
  | .document fault => fault.message
  | .mismatch found expected =>
    "invalid type: " ++ found.describe (fun x => String.ofList (Json.writeFloat x)) ++
      ", expected " ++ expected.describe
  | .repeated field => "duplicate field `" ++ field.key ++ "`"
  | .unnamed => "missing field `name`"
  | .empty => "invalid length 0, expected struct Node with 3 elements"

/-- A step of reading the document among those of reading the snapshot. -/
def step {α : Type} (result : Except Json.Fault α) : Except Fault α :=
  Json.lift .document result

/-- The fault of another value than expected. Scalars are read first, and can be faulty
themselves. -/
def mismatch (expected : Expected) (cs : List Char) : Fault :=
  match cs.head? with
  | some '[' => .mismatch .sequence expected
  | some '\x7b' => .mismatch .map expected
  | _ =>
    match Json.readValue 0 0 cs with
    | .ok (value, _) => .mismatch (Found.ofJson value) expected
    | .error fault => .document fault

/-- Reads a string. -/
def readText : Reader Fault String := fun cs =>
  match skipSpace cs with
  | [] => .error (.document .eofInValue)
  | c :: rest =>
    if c = '"' then do
      let (text, rest) ← step (Json.readString rest)
      return (String.ofList text, rest)
    else .error (mismatch .text (c :: rest))

/-- Reads an array, of which every element is read by the reader, if it may still be opened. -/
def readArray {α : Type} (fuel : Nat) (element? : Option (Reader Fault α)) :
    Reader Fault (List α) := fun cs =>
  match skipSpace cs with
  | [] => .error (.document .eofInValue)
  | c :: rest =>
    if c = '[' then
      match element? with
      | none => .error (.document .tooDeep)
      | some element => Json.elements .document element fuel true rest
    else .error (mismatch .sequence (c :: rest))

/-- Reads a payload: whatever document value stands there. -/
def readPayload (fuel depth : Nat) : Reader Fault (Option Json) := fun cs => do
  let (document, cs) ← step (Json.readValue fuel depth cs)
  return (some document, cs)

/-- The fields of a node that have been read so far. -/
structure Draft where
  name : Option String
  children : Option (List Outline)
  payload : Option Json

/-- The outline of a draft: what is missing is empty, but a name has to be there. -/
def Draft.outline (draft : Draft) : Except Fault Outline :=
  match draft.name with
  | none => .error .unnamed
  | some name => .ok ⟨name, draft.children.getD [], draft.payload⟩

/-- Reads the member of a node with a key into a draft. A field may be given once, and what is no
field is passed over. -/
def readMember (fuel depth : Nat) (readChildren : Reader Fault (List Outline)) (draft : Draft)
    (key : String) : Reader Fault Draft := fun cs => do
  if key = Field.name.key then
    if draft.name.isSome then .error (.repeated .name)
    else
      let (name, cs) ← readText (← step (Json.readColon cs))
      return (⟨some name, draft.children, draft.payload⟩, cs)
  else if key = Field.children.key then
    if draft.children.isSome then .error (.repeated .children)
    else
      let (children, cs) ← readChildren (← step (Json.readColon cs))
      return (⟨draft.name, some children, draft.payload⟩, cs)
  else if key = Field.payload.key then
    if draft.payload.isSome then .error (.repeated .payload)
    else
      let (payload, cs) ← readPayload fuel depth (← step (Json.readColon cs))
      return (⟨draft.name, draft.children, payload⟩, cs)
  else
    return (draft, ← step (Json.skipValue fuel fuel (← step (Json.readColon cs))))

/-- Reads an optional element of an array of fields. -/
def readOptional {α : Type} (absent : α) (element : Reader Fault α) : Reader Fault α := fun cs => do
  match ← step (Json.nextElement false cs) with
  | none => return (absent, cs)
  | some cs => element cs

/-- Reads a node as an array of its fields behind the opening bracket. -/
def readFields (fuel depth : Nat) (readChildren : Reader Fault (List Outline)) :
    Reader Fault Outline := fun cs => do
  match ← step (Json.nextElement true cs) with
  | none => .error .empty
  | some cs =>
    let (name, cs) ← readText cs
    let (children, cs) ← readOptional [] readChildren cs
    let (payload, cs) ← readOptional none (readPayload fuel depth) cs
    return (⟨name, children, payload⟩, ← step (Json.endArray cs))

/-- Reads a node as an object behind the opening brace. -/
def readMembers (fuel depth : Nat) (readChildren : Reader Fault (List Outline)) :
    Reader Fault Outline := fun cs => do
  let (draft, cs) ← Json.members .document (readMember fuel depth readChildren) fuel true
    ⟨none, none, none⟩ cs
  return (← draft.outline, cs)

/-- Reads a node in either form, if it may still be opened: with the levels left inside of it, and
the reader of its children there. -/
def openNode (fuel : Nat) (inside? : Option (Nat × Reader Fault (List Outline))) :
    Reader Fault Outline := fun cs =>
  match skipSpace cs with
  | [] => .error (.document .eofInValue)
  | c :: rest =>
    if c = '[' || c = '\x7b' then
      match inside? with
      | none => .error (.document .tooDeep)
      | some (depth, readChildren) =>
        if c = '[' then readFields fuel depth readChildren rest
        else readMembers fuel depth readChildren rest
    else .error (mismatch .node (c :: rest))

/-- Reads a node, inside of which at most `depth` arrays and objects may be open at once. The node
itself takes a level, and the array of its children takes another. -/
def readNode (fuel : Nat) : Nat → Reader Fault Outline
  | 0 => openNode fuel none
  | 1 => openNode fuel (some (0, readArray fuel none))
  | depth + 2 => openNode fuel (some (depth + 1, readArray fuel (some (readNode fuel depth))))

/-- Reads a whole text as an outline. -/
def outline (text : String) : Except Fault Outline := do
  let cs := text.toList
  let (root, rest) ← readNode (cs.length + 1) Json.maxDepth cs
  step (Json.readEnd rest)
  return root

/-- Reads a whole text as a tree. -/
def read (text : String) : Except Fault Node :=
  (outline text).map Outline.node

/-- The text of a tree. -/
def write (root : Node) : String := root.toJson.indented

end EventLog.Snapshot
