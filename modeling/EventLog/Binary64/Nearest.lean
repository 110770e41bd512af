import EventLog.Binary64.Basic

/-!
# The nearest floating-point number

`nearestMagnitude num den` is the magnitude of the floating-point number nearest to the fraction
`num / den`, where a tie goes to the even significand and what is too large becomes infinite. All
arithmetic on floating-point numbers here is exact arithmetic followed by this rounding.
-/

namespace EventLog.Binary64

/-- A quotient rounded to the nearest whole number, a half to the even one. -/
def roundHalfEven (num den : Nat) : Nat :=
  let below := num / den
  let rest := 2 * (num % den)
  if rest < den then below
  else if den < rest then below + 1
  else below + below % 2

/-- The fraction `n · 2 ^ e` as numerator and denominator. -/
def dyadic (n : Nat) (e : Int) : Nat × Nat :=
  (n * Nat.pow 2 e.toNat, Nat.pow 2 (-e).toNat)

/-- The largest `e` with `2 ^ e ≤ num / den`, for a positive fraction. -/
def floorLog2 (num den : Nat) : Int :=
  let e : Int := (num.log2 : Int) - den.log2
  if den * Nat.pow 2 e.toNat ≤ num * Nat.pow 2 (-e).toNat then e else e - 1

/-- The magnitude of the floating-point number nearest to `num / den`. The unit is the power of two
that leaves 53 bits, or the smallest one there is; the significand then also carries correctly into
the exponent bits when it is rounded up to a power of two. -/
def nearestMagnitude (num den : Nat) : Nat :=
  if num = 0 then 0
  else
    let e := max (floorLog2 num den - 52) (-1074)
    let significand := roundHalfEven (num * Nat.pow 2 (-e).toNat) (den * Nat.pow 2 e.toNat)
    min ((e + 1074).toNat * Nat.pow 2 52 + significand) infiniteMagnitude

/-- The nearest number to a natural number. -/
def ofNat (n : Nat) : Binary64 :=
  ofMagnitude false (nearestMagnitude n 1)

/-- The product of two finite numbers that are not negative. -/
def product (x y : Binary64) : Binary64 :=
  let (num, den) := dyadic (x.significand * y.significand) (x.exponent + y.exponent)
  ofMagnitude false (nearestMagnitude num den)

/-- The quotient of two finite numbers that are not negative, for a divisor other than zero. -/
def quotient (x y : Binary64) : Binary64 :=
  let (num, den) := dyadic x.significand (x.exponent - y.exponent)
  ofMagnitude false (nearestMagnitude num (den * y.significand))

/-- The number nearest to `digits · 10 ^ e`, with a sign. Below `10 ^ (-350)` it is zero and above
`10 ^ 400` it is infinite whatever the digits are, so that no larger power has to be formed. -/
def ofDecimal (negative : Bool) (digits : Nat) (e : Int) : Binary64 :=
  ofMagnitude negative <|
    if digits = 0 || e + (digits.log2 / 3 + 1 : Nat) < -350 then 0
    else if 400 < e then infiniteMagnitude
    else nearestMagnitude (digits * Nat.pow 10 e.toNat) (Nat.pow 10 (-e).toNat)

end EventLog.Binary64
