import EventLog.Listing
import EventLog.Output
import EventLog.Text.Lines

/-!
# Monitoring a store

The monitor opens the store again and again and writes a block for each refresh. Only the first open
may fail the run; when a later one fails, the tree of the last good open is shown again. A run ends
when the wanted number of refreshes has been shown, or when the output takes no more. It advances by
turns: one refresh is written, and unless it was the last the store is opened for the next one.
-/

namespace EventLog

/-- How often the store is looked at, and how many refreshes are wanted. -/
structure MonitorSettings where
  intervalSeconds : UInt64
  iterations : Option UInt64
  deriving DecidableEq, Repr

/-- Without other settings, every two seconds and without an end. -/
def MonitorSettings.default : MonitorSettings := ⟨2, none⟩

namespace Monitor

/-! ## Refreshes -/

/-- The first line of a block. -/
def heading : String := "Display contents\n"

/-- What is shown for a refresh. -/
def block (root : Node) : String :=
  heading ++ Text.unlines (listing root) ++ "\n"

/-- The texts that are written for a refresh: lines and their ends are written apart. -/
def blockTexts (root : Node) : List String :=
  heading :: (listing root).flatMap (fun line => [line, "\n"]) ++ ["\n"]

/-- Whether no further refresh is wanted behind those that have been shown. -/
def enough (limit : Option Nat) (shown : Nat) : Bool :=
  limit.any (· ≤ shown)

/-- The tree for the next refresh: the one that was opened, or else the one shown last. -/
def refreshed (shown : Node) : Except Failure Node → Node
  | .ok root => root
  | .error _ => shown

/-- The failure of an output. -/
def outputFailure (fault : FileFault) : Failure :=
  .outputWrite "<stdout>" fault

variable {σ : Type}

/-- Writes a refresh, and leaves none of it behind. -/
def display (out : Output σ) (s : σ) (root : Node) : Written σ :=
  (out.writeAll s (blockTexts root)).andThen fun s => ⟨[], out.flush s⟩

/-! ## Turns -/

/-- Where a run stands before a refresh: the tree to be shown, the number of refreshes shown before,
how often the store was opened, what was written, and the state of the output. -/
structure State (σ : Type) where
  root : Node
  shown : Nat
  opens : Nat
  written : List UInt8
  output : σ

/-- The outcome of a run: the number of refreshes shown or the failure that ended it, how often the
store was opened, and the bytes that were written. -/
structure Run where
  result : Except Failure Nat
  opens : Nat
  output : List UInt8

/-- A run is under way, or it has ended. -/
inductive Progress (σ : Type) where
  | running (state : State σ)
  | ended (run : Run)

/-- The run, if it has ended. -/
def Progress.run? : Progress σ → Option Run
  | .running _ => none
  | .ended run => some run

/-- The first open. -/
def begin (source : Nat → Except Failure Node) (output : σ) : Progress σ :=
  match source 0 with
  | .error failure => .ended ⟨.error failure, 1, []⟩
  | .ok root => .running ⟨root, 0, 1, [], output⟩

/-- One turn: shows the tree, and unless that was enough opens the store again. -/
def turn (source : Nat → Except Failure Node) (limit : Option Nat) (out : Output σ)
    (s : State σ) : Progress σ :=
  match (display out s.output s.root).after s.written with
  | ⟨written, .error fault⟩ => .ended ⟨.error (outputFailure fault), s.opens, written⟩
  | ⟨written, .ok output⟩ =>
    if enough limit (s.shown + 1) then .ended ⟨.ok (s.shown + 1), s.opens, written⟩
    else .running ⟨refreshed s.root (source s.opens), s.shown + 1, s.opens + 1, written, output⟩

/-- So many turns, or fewer if the run ends. -/
def advance (source : Nat → Except Failure Node) (limit : Option Nat) (out : Output σ) :
    Nat → Progress σ → Progress σ
  | 0, progress => progress
  | _ + 1, .ended run => .ended run
  | turns + 1, .running s => advance source limit out turns (turn source limit out s)

/-- How many turns a run can take: as many as refreshes are wanted but at least one, or one for
every byte of room and one more, since no block is empty. Without either bound a run does not
end. -/
def maxTurns (limit room : Option Nat) : Option Nat :=
  match limit, room with
  | some n, _ => some (max 1 n)
  | none, some size => some (size + 1)
  | none, none => none

/-- The run on a store whose `k`-th open has the result `source k`, into an output with so much
room. It is undefined if it does not end. -/
def run (source : Nat → Except Failure Node) (limit room : Option Nat) : Option Run :=
  (advance source limit .ofRoom ((maxTurns limit room).getD 0) (begin source room)).run?

end Monitor

end EventLog
