import EventLog.Json.Lexeme

/-!
# Reading documents

`Json.read` reads a whole text as one document value. Arrays and objects may be nested 127 deep.
The steps between elements and between members are shared by all readers of documents: they ask
whether there is another one (`nextElement`, `nextMember`) and take the closing bracket
(`endArray`, `endObject`). Loops take fuel, for which the length of the text is enough, since every
step takes at least one character.
-/

namespace EventLog.Json

/-- Behind the opening bracket or behind an element: whether another element follows, and where it
begins. Nothing is taken if the array ends. -/
def nextElement (first : Bool) (cs : List Char) : Except Fault (Option (List Char)) :=
  match skipSpace cs with
  | [] => .error .eofInArray
  | c :: rest =>
    if c = ']' then .ok none
    else if first then .ok (some (c :: rest))
    else if c = ',' then
      match skipSpace rest with
      | [] => .error .eofInValue
      | d :: rest => if d = ']' then .error .trailingComma else .ok (some (d :: rest))
    else .error .expectedCommaOrBracket

/-- Takes the closing bracket of an array of which no further element is wanted. -/
def endArray (cs : List Char) : Except Fault (List Char) :=
  match skipSpace cs with
  | [] => .error .eofInArray
  | c :: rest =>
    if c = ']' then .ok rest
    else if c = ',' && (skipSpace rest).head? = some ']' then .error .trailingComma
    else .error .trailingCharacters

/-- Behind the opening brace or behind a member: whether another member follows, and what is behind
the opening quote of its name. Nothing is taken if the object ends. -/
def nextMember (first : Bool) (cs : List Char) : Except Fault (Option (List Char)) :=
  match skipSpace cs with
  | [] => .error .eofInObject
  | c :: rest =>
    if c = '\x7d' then .ok none
    else if first then
      if c = '"' then .ok (some rest) else .error .keyNotString
    else if c = ',' then
      match skipSpace rest with
      | [] => .error .eofInValue
      | d :: rest =>
        if d = '"' then .ok (some rest)
        else if d = '\x7d' then .error .trailingComma
        else .error .keyNotString
    else .error .expectedCommaOrBrace

/-- Takes the closing brace of an object. -/
def endObject (cs : List Char) : Except Fault (List Char) :=
  match skipSpace cs with
  | [] => .error .eofInObject
  | c :: rest =>
    if c = '\x7d' then .ok rest
    else if c = ',' then .error .trailingComma
    else .error .trailingCharacters

/-- Takes the colon between a name and its value. -/
def readColon (cs : List Char) : Except Fault (List Char) :=
  match skipSpace cs with
  | [] => .error .eofInObject
  | c :: rest => if c = ':' then .ok rest else .error .expectedColon

section

variable {ε : Type} (raise : Fault → ε)

/-- A result of a reader of lexemes among results with more kinds of faults. -/
def lift {α : Type} : Except Fault α → Except ε α
  | .ok a => .ok a
  | .error fault => .error (raise fault)

/-- Reads the elements of an array behind its opening bracket or behind an element, and the closing
bracket. -/
def elements {α : Type} (element : Reader ε α) : Nat → Bool → Reader ε (List α)
  | 0, _, _ => .error (raise .eofInArray)
  | fuel + 1, first, cs => do
    match ← lift raise (nextElement first cs) with
    | none => return ([], ← lift raise (endArray cs))
    | some cs =>
      let (x, cs) ← element cs
      let (xs, cs) ← elements element fuel false cs
      return (x :: xs, cs)

/-- Reads the members of an object behind its opening brace or behind a member, and the closing
brace. Each member is read from behind its name, and taken into a state. -/
def members {σ : Type} (member : σ → String → Reader ε σ) : Nat → Bool → σ → Reader ε σ
  | 0, _, _, _ => .error (raise .eofInObject)
  | fuel + 1, first, state, cs => do
    match ← lift raise (nextMember first cs) with
    | none => return (state, ← lift raise (endObject cs))
    | some cs =>
      let (name, cs) ← lift raise (readString cs)
      let (state, cs) ← member state (String.ofList name) cs
      members member fuel false state cs

end

/-- How many arrays and objects may be open at once. -/
def maxDepth : Nat := 127

/-- Takes a member of an object, from behind its name, to those that have been read, the last one
first. -/
def takeMember (readValue : Reader Fault Json) (read : List (String × Json)) (name : String) :
    Reader Fault (List (String × Json)) := fun cs => do
  let (value, cs) ← readValue (← readColon cs)
  return ((name, value) :: read, cs)

/-- Reads a value, inside of which at most `depth` arrays and objects may be open at once. -/
def readValue (fuel : Nat) : Nat → Reader Fault Json
  | depth, cs =>
    match skipSpace cs with
    | [] => .error .eofInValue
    | c :: rest =>
      if c = 'n' then return (.null, ← readLetters ['u', 'l', 'l'] rest)
      else if c = 't' then return (.bool true, ← readLetters ['r', 'u', 'e'] rest)
      else if c = 'f' then return (.bool false, ← readLetters ['a', 'l', 's', 'e'] rest)
      else if c = '-' then readNumber true rest
      else if EventLog.Text.isDigit c then readNumber false (c :: rest)
      else if c = '"' then do
        let (text, rest) ← readString rest
        return (.string (String.ofList text), rest)
      else if c = '[' then
        match depth with
        | 0 => .error .tooDeep
        | depth + 1 => do
          let (items, rest) ← elements id (readValue fuel depth) fuel true rest
          return (.array items, rest)
      else if c = '\x7b' then
        match depth with
        | 0 => .error .tooDeep
        | depth + 1 => do
          let (read, rest) ← members id (takeMember (readValue fuel depth)) fuel true [] rest
          return (.object read.reverse, rest)
      else .error .expectedValue

/-- The end of a text: only blanks may follow the document. -/
def readEnd (cs : List Char) : Except Fault Unit :=
  if (skipSpace cs).isEmpty then .ok () else .error .trailingCharacters

/-- Reads a whole text as one document value. -/
def read (text : String) : Except Fault Json := do
  let cs := text.toList
  let (value, rest) ← readValue (cs.length + 1) maxDepth cs
  readEnd rest
  return value

end EventLog.Json
