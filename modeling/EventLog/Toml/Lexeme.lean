import EventLog.Binary64.Nearest
import EventLog.Text.Numeral
import EventLog.Toml.Basic

/-!
# Lexemes of settings documents

Blanks, comments, strings, numbers, dates and times, and keys. A document is either well formed or
not, so that readers return nothing for what does not fit.
-/

namespace EventLog.Toml

open EventLog.Text

/-- A reader takes what it reads from the front of the remaining characters. -/
abbrev Reader (α : Type) := List Char → Option (α × List Char)

/-! ## Blanks, comments and line ends -/

/-- Spaces and tabs. -/
def isSpace (c : Char) : Bool := c == ' ' || c == '\t'

/-- The characters behind the spaces and tabs in front. -/
def skipSpace (cs : List Char) : List Char := cs.dropWhile isSpace

/-- Characters that may stand in comments and strings: tabs, and all but the controls. -/
def isPlain (c : Char) : Bool :=
  c == '\t' || (0x20 ≤ c.toNat && c.toNat ≠ 0x7F)

/-- Takes a line feed, with or without a carriage return. -/
def readNewline? : List Char → Option (List Char)
  | '\n' :: rest => some rest
  | '\r' :: '\n' :: rest => some rest
  | _ => none

/-- The characters behind the spaces, tabs and line ends in front. -/
def skipBlanks : List Char → List Char
  | '\r' :: '\n' :: rest => skipBlanks rest
  | c :: rest => if isSpace c || c == '\n' then skipBlanks rest else c :: rest
  | [] => []

/-- The characters behind a comment, if there is one in front. -/
def skipComment : List Char → List Char
  | '#' :: rest => rest.dropWhile isPlain
  | cs => cs

/-- Takes the rest of a line: blanks, a comment, and the line end or the end of the text. -/
def endLine (cs : List Char) : Option (List Char) :=
  match skipComment (skipSpace cs) with
  | [] => some []
  | rest => readNewline? rest

/-- The characters behind blanks, comments and line ends. -/
def skipLines : Nat → List Char → List Char
  | 0, cs => cs
  | fuel + 1, cs =>
    let rest := skipComment (skipSpace cs)
    match readNewline? rest with
    | some rest => skipLines fuel rest
    | none => rest

/-! ## Strings -/

/-- The character of a number, if there is one. -/
def scalar? (n : Nat) : Option Char :=
  if n < 0xD800 || (0xDFFF < n && n < 0x110000) then some (Char.ofNat n) else none

/-- The number of hexadecimal digits. -/
def hexValue? (digits : List Char) : Option Nat :=
  digits.foldlM (fun n c => (hexDigit? c).map (n * 16 + ·)) 0

/-- The character that a one-letter escape stands for. -/
def escaped? : Char → Option Char
  | 'b' => some '\x08'
  | 't' => some '\t'
  | 'n' => some '\n'
  | 'f' => some '\x0c'
  | 'r' => some '\r'
  | '"' => some '"'
  | '\\' => some '\\'
  | _ => none

/-- Reads an escape behind its backslash. -/
def readEscape : Reader Char
  | [] => none
  | e :: rest =>
    let size := if e = 'u' then 4 else if e = 'U' then 8 else 0
    if size = 0 then (escaped? e).map fun c => (c, rest)
    else if rest.length < size then none
    else do
      let c ← scalar? (← hexValue? (rest.take size))
      return (c, rest.drop size)

/-- Reads a string on one line behind its opening quote. Only between double quotes does a backslash
begin an escape. -/
def readLine (quote : Char) : Nat → Reader (List Char)
  | 0, _ => none
  | _ + 1, [] => none
  | fuel + 1, c :: rest =>
    if c = quote then some ([], rest)
    else if c = '\\' && quote = '"' then do
      let (c, rest) ← readEscape rest
      let (cs, rest) ← readLine quote fuel rest
      return (c :: cs, rest)
    else if isPlain c then do
      let (cs, rest) ← readLine quote fuel rest
      return (c :: cs, rest)
    else none

/-- The closing quotes of a string on several lines, behind the first three: up to two quotes more
belong to the string. -/
def closing (quote : Char) (cs : List Char) : List Char × List Char :=
  let extra := (cs.take 2).takeWhile (· == quote)
  (extra, cs.drop extra.length)

/-- Reads a string on several lines behind its opening quotes and the line end after them. A
backslash at the end of a line takes all blanks and line ends that follow. -/
def readLines (quote : Char) : Nat → Reader (List Char)
  | 0, _ => none
  | _ + 1, [] => none
  | fuel + 1, c :: rest =>
    if c = quote && rest.take 2 = [quote, quote] then some (closing quote (rest.drop 2))
    else if c = '\\' && quote = '"' then
      match readNewline? (skipSpace rest) with
      | some behind => readLines quote fuel (skipBlanks behind)
      | none => do
        let (c, rest) ← readEscape rest
        let (cs, rest) ← readLines quote fuel rest
        return (c :: cs, rest)
    else
      match readNewline? (c :: rest) with
      | some behind => do
        let (cs, rest) ← readLines quote fuel behind
        return ('\n' :: cs, rest)
      | none =>
        if isPlain c then do
          let (cs, rest) ← readLines quote fuel rest
          return (c :: cs, rest)
        else none

/-- Reads a string of any of the four kinds, behind the first quote. -/
def readString (quote : Char) (cs : List Char) : Option (List Char × List Char) :=
  let fuel := cs.length + 1
  if cs.take 2 = [quote, quote] then
    let body := cs.drop 2
    readLines quote fuel ((readNewline? body).getD body)
  else readLine quote fuel cs

/-! ## Numbers -/

/-- Takes the digits of a number behind the first one; underscores stand between digits only. -/
def readMoreDigits (isDigit : Char → Bool) : List Char → Option (List Char × List Char)
  | [] => some ([], [])
  | c :: rest =>
    if isDigit c then do
      let (digits, rest) ← readMoreDigits isDigit rest
      return (c :: digits, rest)
    else if c = '_' then
      if (rest.head?.map isDigit).getD false then readMoreDigits isDigit rest else none
    else some ([], c :: rest)

/-- Takes digits with underscores between them, at least one digit. -/
def readDigits (isDigit : Char → Bool) : List Char → Option (List Char × List Char)
  | [] => none
  | c :: rest => if isDigit c then readMoreDigits isDigit (c :: rest) else none

/-- Takes a sign, and says whether it is a minus. -/
def readSign : List Char → Bool × List Char
  | '-' :: rest => (true, rest)
  | '+' :: rest => (false, rest)
  | cs => (false, cs)

/-- Takes the digits of a whole number; a zero in front stands alone. -/
def readWhole : List Char → Option (List Char × List Char)
  | '0' :: rest => some (['0'], rest)
  | cs => readDigits isDigit cs

/-- The exponent of a number, if there is one in front. -/
def readExponent? : List Char → Option (Int × List Char)
  | c :: rest =>
    if c = 'e' || c = 'E' then do
      let (minus, rest) := readSign rest
      let (digits, rest) ← readDigits isDigit rest
      let size : Int := digitsValue 0 digits
      return (if minus then -size else size, rest)
    else none
  | [] => none

/-- Reads a floating-point number: a whole number with a fraction, an exponent, or both. One that
overflows upwards is refused. -/
def readDecimal? (cs : List Char) : Option (Toml × List Char) := do
  let (negative, cs) := readSign cs
  let (whole, cs) ← readWhole cs
  let finish (fraction : List Char) (e : Int) (cs : List Char) : Option (Toml × List Char) :=
    let x := Binary64.ofDecimal negative (digitsValue 0 (whole ++ fraction)) (e - fraction.length)
    if x.isFinite || negative then some (.float x, cs) else none
  match cs with
  | '.' :: rest => do
    let (fraction, rest) ← readDigits isDigit rest
    match readExponent? rest with
    | some (e, rest) => finish fraction e rest
    | none => finish fraction 0 rest
  | _ => do
    let (e, rest) ← readExponent? cs
    finish [] e rest

/-- Reads the names of what is no finite number. -/
def readSpecial? (cs : List Char) : Option (Toml × List Char) :=
  let (negative, cs) := readSign cs
  let infinite := Binary64.infiniteMagnitude
  match cs with
  | 'i' :: 'n' :: 'f' :: rest => some (.float (Binary64.ofMagnitude negative infinite), rest)
  | 'n' :: 'a' :: 'n' :: rest =>
    some (.float (Binary64.ofMagnitude negative (infinite + Nat.pow 2 51)), rest)
  | _ => none

/-- The digits of a base, with the letter that announces it. -/
def base? : Char → Option (Nat × (Char → Bool))
  | 'x' => some (16, fun c => (hexDigit? c).isSome)
  | 'o' => some (8, fun c => '0' ≤ c && c ≤ '7')
  | 'b' => some (2, fun c => c == '0' || c == '1')
  | _ => none

/-- Integers are those of signed 64-bit words. -/
def integer? (n : Int) : Option Toml :=
  if Int64.minValue.toInt ≤ n && n ≤ Int64.maxValue.toInt then some (.integer n) else none

/-- Reads an integer in decimal, or behind a zero and a letter in another base. -/
def readInteger? (cs : List Char) : Option (Toml × List Char) :=
  let decimal := do
    let (negative, cs) := readSign cs
    let (digits, cs) ← readWhole cs
    let size : Int := digitsValue 0 digits
    return (← integer? (if negative then -size else size), cs)
  match cs with
  | '0' :: letter :: rest =>
    match base? letter with
    | some (base, isDigit) => do
      let (digits, rest) ← readDigits isDigit rest
      let n := digits.foldl (fun n c => n * base + (hexDigit? c).getD 0) 0
      return (← integer? n, rest)
    | none => decimal
  | _ => decimal

/-! ## Dates and times -/

/-- Reads a number of exactly so many digits, within bounds. -/
def readFixed (size low high : Nat) : Reader Nat := fun cs =>
  let digits := cs.take size
  let n := digitsValue 0 digits
  if digits.length = size && digits.all isDigit && low ≤ n && n ≤ high then some (n, cs.drop size)
  else none

/-- Takes one given character. -/
def readChar? (c : Char) : List Char → Option (List Char)
  | d :: rest => if d = c then some rest else none
  | [] => none

/-- The number of days of a month. -/
def monthLength (year month : Nat) : Nat :=
  if month = 2 then
    if year % 4 = 0 && (year % 100 ≠ 0 || year % 400 = 0) then 29 else 28
  else if month = 4 || month = 6 || month = 9 || month = 11 then 30
  else 31

/-- Takes a date. -/
def readDate? (cs : List Char) : Option (List Char) := do
  let (year, cs) ← readFixed 4 0 9999 cs
  let (month, cs) ← readFixed 2 1 12 (← readChar? '-' cs)
  let (_, cs) ← readFixed 2 1 (monthLength year month) (← readChar? '-' cs)
  return cs

/-- Takes a time, of which the second may be a leap second and may have a fraction. -/
def readTime? (cs : List Char) : Option (List Char) := do
  let (_, cs) ← readFixed 2 0 23 cs
  let (_, cs) ← readFixed 2 0 59 (← readChar? ':' cs)
  let (_, cs) ← readFixed 2 0 60 (← readChar? ':' cs)
  match cs with
  | '.' :: rest =>
    if (rest.takeWhile isDigit).isEmpty then none else some (rest.dropWhile isDigit)
  | _ => some cs

/-- Takes an offset from universal time, if there is one. -/
def skipOffset (cs : List Char) : List Char :=
  match cs with
  | c :: rest =>
    if c = 'Z' || c = 'z' then rest
    else if c = '+' || c = '-' then
      let offset := do
        let (_, cs) ← readFixed 2 0 23 rest
        let (_, cs) ← readFixed 2 0 59 (← readChar? ':' cs)
        return cs
      offset.getD cs
    else cs
  | [] => []

/-- Reads a date, a time, or a date with a time and perhaps an offset behind it. -/
def readMoment? (cs : List Char) : Option (Toml × List Char) :=
  match readDate? cs with
  | some rest =>
    let behind := match rest with
      | c :: more => if c = 'T' || c = 't' || c = ' ' then (readTime? more).map skipOffset else none
      | [] => none
    some (.moment, behind.getD rest)
  | none => (readTime? cs).map fun rest => (.moment, rest)

/-- Reads a date, a time or a number. -/
def readNumber (cs : List Char) : Option (Toml × List Char) :=
  (readMoment? cs).or ((readSpecial? cs).or ((readDecimal? cs).or (readInteger? cs)))

/-! ## Keys -/

/-- Characters of keys without quotes. -/
def isBare (c : Char) : Bool :=
  isDigit c || ('a' ≤ c && c ≤ 'z') || ('A' ≤ c && c ≤ 'Z') || c == '_' || c == '-'

/-- Reads one part of a key: between quotes on one line, or bare. -/
def readPart : Reader String
  | [] => none
  | c :: rest =>
    if c = '"' || c = '\'' then
      (readLine c (rest.length + 1) rest).map fun (cs, rest) => (String.ofList cs, rest)
    else
      let part := (c :: rest).takeWhile isBare
      if part.isEmpty then none else some (String.ofList part, (c :: rest).dropWhile isBare)

/-- Reads a key: parts with dots between them and blanks around them. -/
def readKey : Nat → Reader (List String)
  | 0, _ => none
  | fuel + 1, cs => do
    let (part, cs) ← readPart (skipSpace cs)
    match skipSpace cs with
    | '.' :: rest => do
      let (parts, rest) ← readKey fuel rest
      return (part :: parts, rest)
    | cs => return ([part], cs)

/-- How many parts a key may have, and how deep values may be nested. -/
def maxDepth : Nat := 79

/-- Reads a key as the path to its table and its last part. -/
def readPath (cs : List Char) : Option ((List String × String) × List Char) := do
  let (parts, cs) ← readKey (cs.length + 1) cs
  let key ← parts.getLast?
  if parts.length ≤ maxDepth then return ((parts.dropLast, key), cs) else none

end EventLog.Toml
