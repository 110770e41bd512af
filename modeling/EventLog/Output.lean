import EventLog.Failure

/-!
# Outputs

An output takes bytes that it is offered, some of them at a time, until it fails. To write a text is
to offer what is left of it until nothing is left; what was taken before a fault has been written
all the same.
-/

namespace EventLog

/-- The bytes of a text. -/
def bytesOf (text : String) : List UInt8 :=
  text.toUTF8.data.toList

theorem bytesOf_append (a b : String) : bytesOf (a ++ b) = bytesOf a ++ bytesOf b := by
  simp [bytesOf, String.toByteArray_append]

/-- An output by its states: how many of the bytes that it is offered it takes, from the front, and
what becomes of a flush. -/
structure Output (σ : Type) where
  offer : σ → List UInt8 → Except FileFault (Nat × σ)
  flush : σ → Except FileFault σ

/-- What came of writing: the bytes that were taken, and the state of the output behind them or the
fault that ended it. -/
structure Written (σ : Type) where
  taken : List UInt8
  state : Except FileFault σ

variable {σ : Type}

namespace Written

/-- With bytes that were taken earlier in front. -/
def after (earlier : List UInt8) (written : Written σ) : Written σ :=
  { written with taken := earlier ++ written.taken }

/-- Goes on where nothing has failed. -/
def andThen (written : Written σ) (next : σ → Written σ) : Written σ :=
  match written.state with
  | .error _ => written
  | .ok s => (next s).after written.taken

end Written

namespace Output

/-- Writes bytes: what was not taken is offered again. An output that takes none of them has
failed. -/
def write (out : Output σ) (s : σ) : List UInt8 → Written σ
  | [] => ⟨[], .ok s⟩
  | b :: rest =>
    match out.offer s (b :: rest) with
    | .error fault => ⟨[], .error fault⟩
    | .ok (0, _) => ⟨[], .error .nothingTaken⟩
    | .ok (n + 1, s) => (out.write s (rest.drop n)).after (b :: rest.take n)
termination_by bytes => bytes.length
decreasing_by
  rw [List.length_drop, List.length_cons]
  omega

/-- Writes texts one after the other, up to the first that fails. -/
def writeAll (out : Output σ) (s : σ) : List String → Written σ
  | [] => ⟨[], .ok s⟩
  | text :: rest => (out.write s (bytesOf text)).andThen fun s => out.writeAll s rest

/-- An output with room for so many bytes, or for any number of them. It takes all that it is
offered and has room for. -/
def ofRoom : Output (Option Nat) where
  offer
    | none, bytes => .ok (bytes.length, none)
    | some 0, _ => .error .full
    | some (room + 1), bytes =>
      .ok (min bytes.length (room + 1), some (room + 1 - bytes.length))
  flush := .ok

end Output

end EventLog
