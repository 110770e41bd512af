import EventLog.Proofs.Json.Limits
import EventLog.Proofs.Json.ReadBack

/-!
# Integers of any size

`Json.read` takes an integer beyond a 64-bit word for a floating-point number. `Json.readExact`
differs from it in the numbers alone: it takes the digits of an integer for that integer, however
many they are. So a document without floating-point numbers is read back from its text whatever
integers are in it (`readExact_write`).
-/

namespace EventLog.Json

open EventLog.Text

/-- The document value of a numeral that is exact if the numeral is written as an integer. -/
def Numeral.exactValue (n : Numeral) : Except Fault Json :=
  if n.fraction.isEmpty && n.exponent.isNone then
    let size : Int := digitsValue 0 n.whole
    .ok (.integer (if n.negative then -size else size))
  else n.value

/-- Reads a number behind its sign, an integer of any size as that integer. -/
def readExactNumber (negative : Bool) : Reader Fault Json := fun cs => do
  let (n, rest) ← readNumeral .eofInValue negative cs
  return (← n.exactValue, rest)

/-- Reads a whole text as one document value, in which integers may have any size. -/
def readExact (text : String) : Except Fault Json := do
  let cs := text.toList
  let (value, rest) ← readValueWith readExactNumber (cs.length + 1) maxDepth cs
  readEnd rest
  return value

/-! ## Integers read back -/

/-- Every integer is taken. -/
theorem readsInteger_readExactNumber (n : Int) : ReadsInteger readExactNumber n := by
  intro rest hr
  rw [readExactNumber, readNumeral_toDigits _ _ n.natAbs hr]
  simp only [bind, Except.bind, Numeral.exactValue, digitsValue_toDigits, decide_eq_true_eq]
  have habs : (if n < 0 then -(n.natAbs : Int) else n.natAbs) = n := by
    split <;> omega
  rw [habs]
  rfl

/-- A document without floating-point numbers that nests at most 127 deep is read back from its text
in either spacing, whatever integers are in it. -/
theorem readExact_write (spacing : Spacing) {v : Json} (hd : v.depth ≤ maxDepth)
    (hf : v.FloatFree) : readExact (String.ofList (write spacing 0 v)) = .ok v := by
  have h : readValueWith readExactNumber ((write spacing 0 v).length + 1) maxDepth
      (write spacing 0 v ++ []) = .ok (v, []) :=
    readValueWith_write spacing hd hf (fun n _ => readsInteger_readExactNumber n)
      (Nat.lt_succ_self _) Separated.nil
  rw [List.append_nil] at h
  simp [readExact, h, readEnd, skipSpace, bind, Except.bind, pure, Except.pure]

end EventLog.Json
