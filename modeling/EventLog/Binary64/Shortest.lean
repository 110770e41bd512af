import EventLog.Binary64.Nearest

/-!
# The shortest decimal that reads back

Every finite number owns the interval of reals that round to it. `shortest` is the decimal with the
fewest digits in that interval, and among those of equal length the one nearest to the number. On
each decimal grid it is enough to try the two neighbours of the number: if any point of the grid
lies in the interval, one of them does.
-/

namespace EventLog.Binary64

/-- A decimal `digits · 10 ^ exponent`. -/
structure Decimal where
  digits : Nat
  exponent : Int
  deriving DecidableEq, Repr

/-- Where a number goes that lies exactly between two decimals of the same length. -/
inductive Tie where
  | toEven
  | up
  deriving DecidableEq, Repr

/-- A number with its interval, in quarters of its unit: `low`, `value` and `high` are multiples of
`2 ^ exponent`, and the ends belong to the interval if `closed`. -/
structure Interval where
  low : Nat
  value : Nat
  high : Nat
  exponent : Int
  closed : Bool
  deriving DecidableEq, Repr

/-- The reals that round to a finite number other than zero. Below a power of two the numbers lie
twice as dense. -/
def interval (x : Binary64) : Interval where
  low := 4 * x.significand - if x.significand = Nat.pow 2 52 && 1 < x.exponentField then 1 else 2
  value := 4 * x.significand
  high := 4 * x.significand + 2
  exponent := x.exponent - 2
  closed := x.significand % 2 = 0

/-- The largest `p` with `10 ^ p ≤ n · 2 ^ e`, for a positive `n`: the estimate by the logarithm of
two is at most one off. -/
def floorLog10 (n : Nat) (e : Int) : Int :=
  let guess := Int.fdiv (((n.log2 : Int) + e) * 30103) 100000
  let reaches (p : Int) : Bool :=
    Nat.pow 10 p.toNat * Nat.pow 2 (-e).toNat ≤ n * Nat.pow 2 e.toNat * Nat.pow 10 (-p).toNat
  if reaches (guess + 1) then guess + 1
  else if reaches guess then guess
  else guess - 1

/-- The neighbour of the number on the grid of multiples of `10 ^ p` that lies in the interval, the
nearer one if both do. -/
def Interval.onGrid (i : Interval) (tie : Tie) (p : Int) : Option Decimal :=
  let unit := Nat.pow 10 p.toNat * Nat.pow 2 (-i.exponent).toNat
  let scaled (n : Nat) : Nat := n * (Nat.pow 2 i.exponent.toNat * Nat.pow 10 (-p).toNat)
  let below := scaled i.value / unit
  let lowest := scaled i.low
  let highest := scaled i.high
  let belowFits := lowest < below * unit || (i.closed && lowest = below * unit)
  let aboveFits := (below + 1) * unit < highest || (i.closed && (below + 1) * unit = highest)
  let rest := 2 * (scaled i.value % unit)
  if belowFits && aboveFits then
    if rest < unit then some ⟨below, p⟩
    else if unit < rest then some ⟨below + 1, p⟩
    else match tie with
      | .toEven => some ⟨below + below % 2, p⟩
      | .up => some ⟨below + 1, p⟩
  else if belowFits then some ⟨below, p⟩
  else if aboveFits then some ⟨below + 1, p⟩
  else none

/-- Moves zeros at the end of the digits into the exponent, at most `fuel` of them. -/
def Decimal.trim : Nat → Decimal → Decimal
  | 0, d => d
  | fuel + 1, d =>
    if d.digits % 10 = 0 && d.digits ≠ 0 then trim fuel ⟨d.digits / 10, d.exponent + 1⟩ else d

/-- The shortest decimal in the interval of a finite number other than zero; 17 digits always
suffice. -/
def shortest (tie : Tie) (x : Binary64) : Decimal :=
  let i := x.interval
  let top := floorLog10 i.value i.exponent
  let found := (List.range 17).findSome? fun (n : Nat) => i.onGrid tie (top - n)
  (found.getD ⟨0, 0⟩).trim 18

end EventLog.Binary64
