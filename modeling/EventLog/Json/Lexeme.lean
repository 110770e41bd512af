import EventLog.Binary64.Nearest
import EventLog.Json.Basic
import EventLog.Json.Fault
import EventLog.Text.Numeral

/-!
# Lexemes of documents

Blanks, the words `null`, `true` and `false`, strings and numerals. Every reader takes the
characters that remain and returns those behind the lexeme.
-/

namespace EventLog.Json

open EventLog.Text

/-- A reader takes what it reads from the front of the remaining characters. -/
abbrev Reader (ε α : Type) := List Char → Except ε (α × List Char)

/-- The four characters that may stand between lexemes. -/
def isSpace (c : Char) : Bool :=
  c == ' ' || c == '\n' || c == '\t' || c == '\r'

/-- The characters behind the blanks in front. -/
def skipSpace (cs : List Char) : List Char :=
  cs.dropWhile isSpace

/-- Reads the given characters of a word. -/
def readLetters : List Char → List Char → Except Fault (List Char)
  | [], cs => .ok cs
  | _ :: _, [] => .error .eofInValue
  | e :: expected, c :: cs => if c = e then readLetters expected cs else .error .expectedWord

/-! ## Strings -/

/-- The character that a one-letter escape stands for. -/
def escaped? : Char → Option Char
  | '"' => some '"'
  | '\\' => some '\\'
  | '/' => some '/'
  | 'b' => some '\x08'
  | 'f' => some '\x0c'
  | 'n' => some '\n'
  | 'r' => some '\r'
  | 't' => some '\t'
  | _ => none

/-- The unit that four hexadecimal digits stand for. -/
def hexUnit? (a b c d : Char) : Option Nat := do
  return (((← hexDigit? a) * 16 + (← hexDigit? b)) * 16 + (← hexDigit? c)) * 16 + (← hexDigit? d)

/-- The fault of an escape before fewer than four characters: the text ends in it if fewer than
four bytes are left. -/
def shortEscape (cs : List Char) : Fault :=
  if (String.ofList cs).utf8ByteSize < 4 then .eofInString else .invalidEscape

/-- Whether a unit is the first half of a pair. -/
def isLeading (n : Nat) : Bool := 0xD800 ≤ n && n ≤ 0xDBFF

/-- Whether a unit is the second half of a pair. -/
def isTrailing (n : Nat) : Bool := 0xDC00 ≤ n && n ≤ 0xDFFF

/-- The character that a pair of units stands for. -/
def pairedChar (lead trail : Nat) : Char :=
  Char.ofNat (0x10000 + (lead - 0xD800) * 0x400 + (trail - 0xDC00))

/-- A result with a character in front of its text. -/
def prepend (c : Char) : Except Fault (List Char × List Char) → Except Fault (List Char × List Char)
  | .ok (text, rest) => .ok (c :: text, rest)
  | .error fault => .error fault

/-- Reads a string behind its opening quote, up to and including the closing one. -/
def readString : List Char → Except Fault (List Char × List Char)
  | [] => .error .eofInString
  | c :: rest =>
    if c = '"' then .ok ([], rest)
    else if c = '\\' then
      match rest with
      | [] => .error .eofInString
      | e :: rest =>
        if e = 'u' then
          match rest with
          | h₁ :: h₂ :: h₃ :: h₄ :: rest =>
            match hexUnit? h₁ h₂ h₃ h₄ with
            | none => .error .invalidEscape
            | some lead =>
              if isTrailing lead then .error .loneSurrogate
              else if isLeading lead then
                match rest with
                | [] => .error .eofInString
                | b :: rest =>
                  if b = '\\' then
                    match rest with
                    | [] => .error .eofInString
                    | u :: rest =>
                      if u = 'u' then
                        match rest with
                        | h₁ :: h₂ :: h₃ :: h₄ :: rest =>
                          match hexUnit? h₁ h₂ h₃ h₄ with
                          | none => .error .invalidEscape
                          | some trail =>
                            if isTrailing trail then
                              prepend (pairedChar lead trail) (readString rest)
                            else .error .loneSurrogate
                        | short => .error (shortEscape short)
                      else .error .unpairedEscape
                  else .error .unpairedEscape
              else prepend (Char.ofNat lead) (readString rest)
          | short => .error (shortEscape short)
        else
          match escaped? e with
          | some d => prepend d (readString rest)
          | none => .error .invalidEscape
    else if c.toNat < 0x20 then .error .controlCharacter
    else prepend c (readString rest)

/-! ## Numerals -/

/-- A numeral as written: the digits before and behind the point, and the exponent. Without a point
there is no fraction, and behind a point there is at least one digit. -/
structure Numeral where
  negative : Bool
  whole : List Char
  fraction : List Char
  exponent : Option Int
  deriving DecidableEq, Repr

/-- The fault of digits that are missing, where the text may end there. -/
def missingDigits (atEnd : Fault) (rest : List Char) : Fault :=
  if rest.isEmpty then atEnd else .invalidNumber

/-- Reads the exponent of a numeral, if there is one. -/
def readExponent (atEnd : Fault) (n : Numeral) : Reader Fault Numeral
  | c :: rest =>
    if c = 'e' || c = 'E' then
      let (minus, rest) : Bool × List Char := match rest with
        | '+' :: rest => (false, rest)
        | '-' :: rest => (true, rest)
        | rest => (false, rest)
      let digits := rest.takeWhile isDigit
      let rest := rest.dropWhile isDigit
      if digits.isEmpty then .error (missingDigits atEnd rest)
      else
        let size : Int := digitsValue 0 digits
        .ok (⟨n.negative, n.whole, n.fraction, some (if minus then -size else size)⟩, rest)
    else .ok (n, c :: rest)
  | [] => .ok (n, [])

/-- Reads the fraction of a numeral, if there is one, and its exponent. -/
def readFraction (atEnd : Fault) (n : Numeral) : Reader Fault Numeral
  | '.' :: rest =>
    let digits := rest.takeWhile isDigit
    let rest := rest.dropWhile isDigit
    if digits.isEmpty then .error (missingDigits atEnd rest)
    else readExponent atEnd ⟨n.negative, n.whole, digits, none⟩ rest
  | cs => readExponent atEnd n cs

/-- Reads a numeral behind its sign. A leading zero stands alone before the point. The fault for a
text that ends too early is a parameter. -/
def readNumeral (atEnd : Fault) (negative : Bool) : Reader Fault Numeral
  | [] => .error atEnd
  | c :: rest =>
    if c = '0' then
      if (rest.takeWhile isDigit).isEmpty then readFraction atEnd ⟨negative, ['0'], [], none⟩ rest
      else .error .invalidNumber
    else if isDigit c then
      readFraction atEnd ⟨negative, c :: rest.takeWhile isDigit, [], none⟩ (rest.dropWhile isDigit)
    else .error .invalidNumber

/-! ## The number that a numeral denotes -/

/-- Appends digits to a number as long as the result fits a 64-bit word, and counts the digits that
are left. -/
def appendDigits (n : Nat) : List Char → Nat × Nat
  | [] => (n, 0)
  | c :: rest =>
    let m := n * 10 + (c.toNat - 48)
    if m < UInt64.size then appendDigits m rest else (n, rest.length + 1)

/-- A number scaled down by powers of ten that one division cannot cover, which takes it to zero
after at most two of them. -/
def scaleDown : Nat → Binary64 → Int → Binary64
  | 0, _, _ => Binary64.ofNat 0
  | steps + 1, x, e =>
    if -308 ≤ e then x.quotient (Binary64.ofNat (Nat.pow 10 (-e).toNat))
    else scaleDown steps (x.quotient (Binary64.ofNat (Nat.pow 10 308))) (e + 308)

/-- The number `n · 10 ^ e`, rounded once for `n`, once for the power and once for the result. -/
def scaled? (n : Nat) (e : Int) : Option Binary64 :=
  let x := Binary64.ofNat n
  if n = 0 then some x
  else if e < 0 then some (scaleDown 3 x e)
  else if 308 < e then none
  else
    let y := x.product (Binary64.ofNat (Nat.pow 10 e.toNat))
    if y.isFinite then some y else none

/-- A floating-point number with a sign. -/
def signed (negative : Bool) (x : Binary64) : Json :=
  .float (Binary64.ofMagnitude negative x.magnitude)

/-- The document value of a numeral: an integer if it is written as one and fits a signed or an
unsigned word of 64 bits, and otherwise a floating-point number. Of the digits those count that fit
64 bits; further ones before the point only move it. Minus zero is a floating-point number. -/
def Numeral.value (n : Numeral) : Except Fault Json :=
  let (whole, surplus) := appendDigits 0 n.whole
  let (digits, ignored) := appendDigits whole n.fraction
  let e : Int := surplus - (n.fraction.length - ignored : Nat) + n.exponent.getD 0
  if n.fraction.isEmpty && n.exponent.isNone && surplus = 0 then
    if !n.negative then .ok (.integer digits)
    else if digits = 0 || Nat.pow 2 63 < digits then .ok (signed true (Binary64.ofNat digits))
    else .ok (.integer (-digits))
  else match scaled? digits e with
    | some x => .ok (signed n.negative x)
    | none => .error .numberOutOfRange

/-- Reads a number behind its sign. -/
def readNumber (negative : Bool) : Reader Fault Json := fun cs => do
  let (n, rest) ← readNumeral .eofInValue negative cs
  return (← n.value, rest)

end EventLog.Json
