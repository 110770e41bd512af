import EventLog.Json.Reader

/-!
# Passing over values

`skipValue` takes a value whose content is not wanted. It checks less than reading does: numbers and
escapes are checked for their shape only, so that any numeral and any surrogate passes, and nesting
is not limited. Its faults after a comma differ, because it looks for the next element or name at
once.
-/

namespace EventLog.Json

open EventLog.Text

/-- Passes over a string behind its opening quote, up to and including the closing one. -/
def skipString : List Char → Except Fault (List Char)
  | [] => .error .eofInString
  | c :: rest =>
    if c = '"' then .ok rest
    else if c = '\\' then
      match rest with
      | [] => .error .eofInString
      | e :: rest =>
        if e = 'u' then
          match rest with
          | h₁ :: h₂ :: h₃ :: h₄ :: rest =>
            if (hexUnit? h₁ h₂ h₃ h₄).isSome then skipString rest else .error .invalidEscape
          | short => .error (shortEscape short)
        else if (escaped? e).isSome then skipString rest
        else .error .invalidEscape
    else if c.toNat < 0x20 then .error .controlCharacter
    else skipString rest

/-- Passes over the elements of an array behind its opening bracket or behind an element, and over
the closing bracket. -/
def skipElements (skip : List Char → Except Fault (List Char)) :
    Nat → Bool → List Char → Except Fault (List Char)
  | 0, _, _ => .error .eofInArray
  | fuel + 1, first, cs =>
    match skipSpace cs with
    | [] => .error .eofInArray
    | c :: rest =>
      if c = ']' then .ok rest
      else if first then do skipElements skip fuel false (← skip (c :: rest))
      else if c = ',' then do skipElements skip fuel false (← skip rest)
      else .error .expectedCommaOrBracket

/-- Passes over a member: its name, the colon and its value. -/
def skipMember (skip : List Char → Except Fault (List Char)) (cs : List Char) :
    Except Fault (List Char) :=
  match skipSpace cs with
  | [] => .error .eofInObject
  | c :: rest =>
    if c = '"' then do skip (← readColon (← skipString rest)) else .error .keyNotString

/-- Passes over the members of an object behind its opening brace or behind a member, and over the
closing brace. -/
def skipMembers (skip : List Char → Except Fault (List Char)) :
    Nat → Bool → List Char → Except Fault (List Char)
  | 0, _, _ => .error .eofInObject
  | fuel + 1, first, cs =>
    match skipSpace cs with
    | [] => .error .eofInObject
    | c :: rest =>
      if c = '\x7d' then .ok rest
      else if first then do skipMembers skip fuel false (← skipMember skip (c :: rest))
      else if c = ',' then do skipMembers skip fuel false (← skipMember skip rest)
      else .error .expectedCommaOrBrace

/-- Passes over a value. Nesting is bounded by the second number, for which the length of the text
is enough. -/
def skipValue (fuel : Nat) : Nat → List Char → Except Fault (List Char)
  | depth, cs =>
    match skipSpace cs with
    | [] => .error .eofInValue
    | c :: rest =>
      if c = 'n' then readLetters ['u', 'l', 'l'] rest
      else if c = 't' then readLetters ['r', 'u', 'e'] rest
      else if c = 'f' then readLetters ['a', 'l', 's', 'e'] rest
      else if c = '-' then (readNumeral .invalidNumber true rest).map Prod.snd
      else if isDigit c then (readNumeral .invalidNumber false (c :: rest)).map Prod.snd
      else if c = '"' then skipString rest
      else if c = '[' then
        match depth with
        | 0 => .error .tooDeep
        | depth + 1 => skipElements (skipValue fuel depth) fuel true rest
      else if c = '\x7b' then
        match depth with
        | 0 => .error .tooDeep
        | depth + 1 => skipMembers (skipValue fuel depth) fuel true rest
      else .error .expectedValue

end EventLog.Json
