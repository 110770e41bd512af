/-!
# Time warps

A series of timestamps is expected to grow by the step of its first interval. An entry warps if its
own interval deviates from that step by more than the tolerance, unless its timestamp is not larger
than the step, as after the overflow of a counter. Differences are exact integers.
-/

namespace EventLog

/-- What counts as a warp, and how much of a series is checked. -/
structure WarpSettings where
  tolerance : UInt64
  scanLimit : Option UInt64
  deriving DecidableEq, Repr

/-- Without other settings, deviations up to ten are on schedule, and everything is checked. -/
def WarpSettings.default : WarpSettings := ⟨10, none⟩

/-- An entry that warps, by its index in the series. -/
structure Anomaly where
  index : Nat
  previous : UInt64
  current : UInt64
  observed : Int
  expected : Int
  deriving DecidableEq, Repr

/-- The exact difference between two timestamps. -/
def delta (previous current : UInt64) : Int :=
  (current.toNat : Int) - previous.toNat

/-- Whether a timestamp behind another one warps against an expected step. -/
def warps (tolerance : UInt64) (expected : Int) (previous current : UInt64) : Bool :=
  tolerance.toNat < (delta previous current - expected).natAbs && expected < current.toNat

/-- The part of a series that is checked. -/
def WarpSettings.checked (settings : WarpSettings) (series : List UInt64) : List UInt64 :=
  match settings.scanLimit with
  | none => series
  | some limit => series.take limit.toNat

/-- The step of the first interval. -/
def expectedStep? : List UInt64 → Option Int
  | first :: second :: _ => some (delta first second)
  | _ => none

/-- The anomalies among timestamps that follow another one, of which the first has the index. -/
def anomaliesFrom (tolerance : UInt64) (expected : Int) :
    Nat → UInt64 → List UInt64 → List Anomaly
  | _, _, [] => []
  | index, previous, current :: rest =>
    let later := anomaliesFrom tolerance expected (index + 1) current rest
    if warps tolerance expected previous current then
      ⟨index, previous, current, delta previous current, expected⟩ :: later
    else later

/-- The anomalies of a series, in order. -/
def detect (settings : WarpSettings) (series : List UInt64) : List Anomaly :=
  match settings.checked series with
  | first :: second :: rest =>
    anomaliesFrom settings.tolerance (delta first second) 1 first (second :: rest)
  | _ => []

/-- The outcome of a scan: how many entries there were and were checked, the step that was expected
if two entries were checked, and the anomalies. -/
structure WarpReport where
  parsed : Nat
  checked : Nat
  expected : Option Int
  tolerance : UInt64
  anomalies : List Anomaly
  deriving DecidableEq, Repr

/-- Scans a series. -/
def scan (settings : WarpSettings) (series : List UInt64) : WarpReport where
  parsed := series.length
  checked := (settings.checked series).length
  expected := expectedStep? (settings.checked series)
  tolerance := settings.tolerance
  anomalies := detect settings series

end EventLog
