import EventLog.Binary64.Shortest

/-!
# Written forms of floating-point numbers

The digits of a finite number are always the shortest that read back; a `Form` says how they are
laid out. `Form.document` is the one of JSON documents and `Form.plain` the one of text tables.
-/

namespace EventLog.Binary64

/-- A layout of decimal digits. A number whose leading digit stands for `10 ^ k` is written
positionally if `lowest ≤ k ≤ highest` for the bounds that are given, and otherwise with an
exponent; a whole number ends in `.0` if `pointZero`. -/
structure Form where
  tie : Tie
  lowest : Option Int
  highest : Option Int
  pointZero : Bool

/-- In documents, positional from `0.00001` up to `10 ^ 16`, always with a fraction. -/
def Form.document : Form := ⟨.toEven, some (-5), some 15, true⟩

/-- In tables, always positional, and whole numbers without a fraction. -/
def Form.plain : Form := ⟨.up, none, none, false⟩

/-- Whether the form writes a number with leading digit at `10 ^ k` positionally. -/
def Form.positional (f : Form) (k : Int) : Bool :=
  f.lowest.all (· ≤ k) && f.highest.all (k ≤ ·)

/-- Digits whose first stands for `10 ^ k`, laid out positionally. -/
def Form.layOut (f : Form) (digits : List Char) (k : Int) : List Char :=
  if k < 0 then
    '0' :: '.' :: (List.replicate (-k - 1).toNat '0' ++ digits)
  else
    let whole := k.toNat + 1
    if digits.length ≤ whole then
      digits ++ List.replicate (whole - digits.length) '0' ++ (if f.pointZero then ['.', '0'] else [])
    else digits.take whole ++ '.' :: digits.drop whole

/-- Digits whose first stands for `10 ^ k`, with one digit before the point and an exponent with
its sign. -/
def scientific (digits : List Char) (k : Int) : List Char :=
  let fraction := digits.drop 1
  digits.take 1 ++ (if fraction.isEmpty then [] else '.' :: fraction) ++
    'e' :: (if k < 0 then '-' else '+') :: Nat.toDigits 10 k.natAbs

/-- A finite number in a form. -/
def Form.finite (f : Form) (x : Binary64) : List Char :=
  let sign := if x.negative then ['-'] else []
  if x.significand = 0 then sign ++ '0' :: (if f.pointZero then ['.', '0'] else [])
  else
    let d := x.shortest f.tie
    let digits := Nat.toDigits 10 d.digits
    let k := d.exponent + (digits.length - 1 : Nat)
    sign ++ if f.positional k then f.layOut digits k else scientific digits k

/-- A number as plain text, where infinities and the lack of a number have names. -/
def plain (x : Binary64) : String :=
  if x.isNaN then "NaN"
  else if x.isFinite then String.ofList (Form.plain.finite x)
  else if x.negative then "-inf"
  else "inf"

/-- A number as plain text that shows it to be no integer: a finite one always has a point. -/
def pointed (x : Binary64) : String :=
  if x.isFinite then String.ofList (Form.finite ⟨.up, none, none, true⟩ x) else x.plain

end EventLog.Binary64
