import EventLog.Binary64.Written
import EventLog.Json.Basic
import EventLog.Text.Numeral

/-!
# Writing documents

A document value is written in one of two spacings: compact, without any blank, or indented by two
spaces a level with one element or member a line. Strings escape quotes, backslashes and controls,
nothing else; what is no finite number is written as `null`.
-/

namespace EventLog.Json

open EventLog.Text

/-- How much room there is between lexemes. -/
inductive Spacing where
  | compact
  | indented
  deriving DecidableEq, Repr

/-- What stands in front of an element on a level. -/
def Spacing.lineBreak : Spacing → Nat → List Char
  | .compact, _ => []
  | .indented, level => '\n' :: List.replicate (2 * level) ' '

/-- What stands between a name and its value. -/
def Spacing.colon : Spacing → List Char
  | .compact => [':']
  | .indented => [':', ' ']

/-- A character inside a string. -/
def writeChar (c : Char) : List Char :=
  if c = '"' then ['\\', '"']
  else if c = '\\' then ['\\', '\\']
  else if c = '\n' then ['\\', 'n']
  else if c = '\r' then ['\\', 'r']
  else if c = '\t' then ['\\', 't']
  else if c = '\x08' then ['\\', 'b']
  else if c = '\x0c' then ['\\', 'f']
  else if c.toNat < 0x20 then '\\' :: 'u' :: (hexadecimalPadded 4 c.toNat).toList
  else [c]

/-- A string between quotes. -/
def writeString (s : String) : List Char :=
  '"' :: (s.toList.flatMap writeChar ++ ['"'])

/-- An integer in decimal digits. -/
def writeInteger (n : Int) : List Char :=
  (if n < 0 then ['-'] else []) ++ Nat.toDigits 10 n.natAbs

/-- A floating-point number. -/
def writeFloat (x : Binary64) : List Char :=
  if x.isFinite then Binary64.Form.document.finite x else ['n', 'u', 'l', 'l']

mutual

/-- A value on a level. -/
def write (spacing : Spacing) (level : Nat) : Json → List Char
  | .null => ['n', 'u', 'l', 'l']
  | .bool true => ['t', 'r', 'u', 'e']
  | .bool false => ['f', 'a', 'l', 's', 'e']
  | .integer n => writeInteger n
  | .float x => writeFloat x
  | .string s => writeString s
  | .array [] => ['[', ']']
  | .array (item :: rest) =>
    '[' :: spacing.lineBreak (level + 1) ++ write spacing (level + 1) item ++
      writeItems spacing (level + 1) rest ++ spacing.lineBreak level ++ [']']
  | .object [] => ['\x7b', '\x7d']
  | .object ((name, value) :: rest) =>
    '\x7b' :: spacing.lineBreak (level + 1) ++ writeString name ++ spacing.colon ++
      write spacing (level + 1) value ++ writeMembers spacing (level + 1) rest ++
      spacing.lineBreak level ++ ['\x7d']

/-- The items behind the first one. -/
def writeItems (spacing : Spacing) (level : Nat) : List Json → List Char
  | [] => []
  | item :: rest =>
    ',' :: spacing.lineBreak level ++ write spacing level item ++ writeItems spacing level rest

/-- The members behind the first one. -/
def writeMembers (spacing : Spacing) (level : Nat) : List (String × Json) → List Char
  | [] => []
  | (name, value) :: rest =>
    ',' :: spacing.lineBreak level ++ writeString name ++ spacing.colon ++
      write spacing level value ++ writeMembers spacing level rest

end

/-- A document without blanks. -/
def compact (v : Json) : String := String.ofList (write .compact 0 v)

/-- A document with one element or member a line. -/
def indented (v : Json) : String := String.ofList (write .indented 0 v)

end EventLog.Json
