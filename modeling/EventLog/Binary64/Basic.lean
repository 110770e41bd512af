/-!
# Binary floating-point numbers of 64 bits

A number is its 64 bits: a sign, eleven bits of exponent and 52 of fraction. A finite one denotes
the sign times `significand · 2 ^ exponent`, and everything in this library that depends on a
floating-point value is computed from these two exact integers.
-/

namespace EventLog

/-- A floating-point number, given by its 64 bits. -/
structure Binary64 where
  bits : UInt64
  deriving DecidableEq, Inhabited, Repr

namespace Binary64

/-- Whether the sign bit is set. -/
def negative (x : Binary64) : Bool :=
  Nat.pow 2 63 ≤ x.bits.toNat

/-- The bits other than the sign, as a number; they grow with the magnitude. -/
def magnitude (x : Binary64) : Nat :=
  x.bits.toNat % Nat.pow 2 63

/-- The magnitude of infinity; those above it are no numbers. -/
def infiniteMagnitude : Nat :=
  0x7FF * Nat.pow 2 52

/-- Whether the bits stand for no number at all. -/
def isNaN (x : Binary64) : Bool :=
  infiniteMagnitude < x.magnitude

/-- Whether the bits stand for a real number. -/
def isFinite (x : Binary64) : Bool :=
  x.magnitude < infiniteMagnitude

/-- The exponent bits. -/
def exponentField (x : Binary64) : Nat :=
  x.magnitude / Nat.pow 2 52

/-- The whole number that is scaled by a power of two: the fraction bits, with the bit that is left
out of the stored form in front of them unless the exponent bits are zero. -/
def significand (x : Binary64) : Nat :=
  if x.exponentField = 0 then x.magnitude else Nat.pow 2 52 + x.magnitude % Nat.pow 2 52

/-- The power of two that scales the significand. -/
def exponent (x : Binary64) : Int :=
  (max x.exponentField 1 : Nat) - 1075

/-- The number with a sign and a magnitude. -/
def ofMagnitude (negative : Bool) (magnitude : Nat) : Binary64 :=
  ⟨UInt64.ofNat (magnitude + if negative then Nat.pow 2 63 else 0)⟩

/-- The natural number that a finite number equals, if it equals one. Both zeros equal zero. -/
def natural? (x : Binary64) : Option Nat :=
  if !x.isFinite || (x.negative && x.significand ≠ 0) then none
  else if 0 ≤ x.exponent then some (x.significand * Nat.pow 2 x.exponent.toNat)
  else
    let unit := Nat.pow 2 (-x.exponent).toNat
    if x.significand % unit = 0 then some (x.significand / unit) else none

/-- Equality of the numbers denoted: the two zeros are equal, and what is no number equals
nothing. -/
def equals (x y : Binary64) : Bool :=
  !x.isNaN && !y.isNaN && (x.bits == y.bits || (x.magnitude == 0 && y.magnitude == 0))

end Binary64

end EventLog
