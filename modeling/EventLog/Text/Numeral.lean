/-!
# Decimal numerals of unsigned words

`readUnsigned` accepts exactly the numerals of 64-bit unsigned words: an optional plus sign and at
least one ASCII digit. Its fault is the first one met from left to right, where a character that is
no digit counts before the overflow that the same position would cause.
-/

namespace EventLog.Text

/-- Why a text is no numeral of a 64-bit unsigned word. -/
inductive NumeralFault where
  | empty
  | invalidDigit
  | tooLarge
  deriving DecidableEq, Repr

/-- The wording of a numeral fault. -/
def NumeralFault.message : NumeralFault → String
  | .empty => "cannot parse integer from empty string"
  | .invalidDigit => "invalid digit found in string"
  | .tooLarge => "number too large to fit in target type"

/-- The ASCII decimal digits. -/
def isDigit (c : Char) : Bool :=
  '0' ≤ c && c ≤ '9'

/-- The value of an ASCII decimal digit. -/
def digit? (c : Char) : Option Nat :=
  if isDigit c then some (c.toNat - 48) else none

/-- The value of an ASCII hexadecimal digit of either case. -/
def hexDigit? (c : Char) : Option Nat :=
  if isDigit c then some (c.toNat - 48)
  else if 'a' ≤ c && c ≤ 'f' then some (c.toNat - 87)
  else if 'A' ≤ c && c ≤ 'F' then some (c.toNat - 55)
  else none

/-- Reads digits behind the value `acc` of those before them. -/
def readDigits (acc : Nat) : List Char → Except NumeralFault Nat
  | [] => .ok acc
  | c :: rest =>
    match digit? c with
    | none => .error .invalidDigit
    | some d =>
      if acc * 10 + d < UInt64.size then readDigits (acc * 10 + d) rest else .error .tooLarge

/-- The value of a numeral of a 64-bit unsigned word. -/
def readUnsigned : List Char → Except NumeralFault UInt64
  | [] => .error .empty
  | ['+'] => .error .invalidDigit
  | '+' :: rest => (readDigits 0 rest).map UInt64.ofNat
  | cs => (readDigits 0 cs).map UInt64.ofNat

/-- The value of a run of digits in base ten, continuing `acc`. -/
def digitsValue (acc : Nat) (cs : List Char) : Nat :=
  cs.foldl (fun n c => n * 10 + (c.toNat - 48)) acc

/-- The hexadecimal digits of a number in lower case, without leading zeros. -/
def hexadecimal (n : Nat) : String :=
  String.ofList (Nat.toDigits 16 n)

/-- The lower-case hexadecimal digits of a number, filled up with zeros to a width. -/
def hexadecimalPadded (width n : Nat) : String :=
  let digits := Nat.toDigits 16 n
  String.ofList (List.replicate (width - digits.length) '0' ++ digits)

end EventLog.Text
