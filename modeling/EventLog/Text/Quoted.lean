import EventLog.Text.Blank
import EventLog.Text.GraphemeBase
import EventLog.Text.Numeral

/-!
# Quoted text

How a text is shown inside a message: between double quotes, with a backslash before quotes and
backslashes, short names for the usual controls, and the code point in braces for every character
that would not be seen as itself.
-/

namespace EventLog.Text

/-- The fillers of Hangul: letters that take the place of a missing one and leave no ink. -/
def isFiller (c : Char) : Bool :=
  c == '\u115F' || c == '\u1160' || c == '\u3164' || c == '\uFFA0'

/-- The halfwidth voiced sound marks. They extend the character before them, but have a cell of
their own. -/
def isSoundMark (c : Char) : Bool :=
  c == '\uFF9E' || c == '\uFF9F'

/-- Characters shown as themselves: the space, and those that stand on their own and leave ink. -/
def isShown (c : Char) : Bool :=
  c == ' ' || isSoundMark c || (isGraphemeBase c && !isBlank c && !isFiller c)

/-- One character inside quotes. -/
def quotedChar (c : Char) : String :=
  if c = '"' then "\\\""
  else if c = '\\' then "\\\\"
  else if c = '\n' then "\\n"
  else if c = '\r' then "\\r"
  else if c = '\t' then "\\t"
  else if c = '\x00' then "\\0"
  else if isShown c then c.toString
  else "\\u\x7b" ++ hexadecimal c.toNat ++ "\x7d"

/-- A text between double quotes. -/
def quoted (text : String) : String :=
  "\"" ++ String.join (text.toList.map quotedChar) ++ "\""

end EventLog.Text
