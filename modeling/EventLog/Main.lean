import EventLog.Command.Plan

/-!
# The program

Carries out the plan of a command line on real files. This is the only module that acts: it reads,
writes, prints and waits, and everything else is decided by the plan.
-/

namespace EventLog

/-- The number of a system error, which some calls report with its sign turned. -/
def systemCode (code : UInt32) : Nat :=
  min code.toNat (UInt32.size - code.toNat)

/-- The fault behind an error of the file system. -/
def faultOf (error : IO.Error) : FileFault :=
  match error with
  | .noFileOrDirectory .. => .notFound
  | .inappropriateType _ code _ => if systemCode code = 21 then .isDirectory else .notDirectory
  | .invalidArgument _ code details =>
    if systemCode code = 36 then .nameTooLong else .other details
  | .permissionDenied _ code _ =>
    if systemCode code = 13 then .other "Permission denied (os error 13)"
    else .other "Operation not permitted (os error 1)"
  | .resourceExhausted _ code details =>
    if systemCode code = 28 then .other "No space left on device (os error 28)" else .other details
  | other => .other other.toString

/-- The content of a file. -/
def readContent (path : String) : IO (Except FileFault ByteArray) := do
  try
    return .ok (← IO.FS.readBinFile path)
  catch error =>
    return .error (faultOf error)

/-- Writes a file as a whole, and returns the fault if there is one. -/
def writeContent (path content : String) : IO (Option FileFault) := do
  try
    IO.FS.writeFile path content
    return none
  catch error =>
    return some (faultOf error)

/-- Prints text and leaves none of it behind. -/
def printNow (text : String) : IO Unit := do
  let out ← IO.getStdout
  out.putStr text
  out.flush

/-- Shows a tree and goes on with the next one, until enough have been shown. -/
partial def watch (path : String) (settings : MonitorSettings) (shown : Nat) (root : Node) :
    IO Unit := do
  printNow (Monitor.block root)
  unless Monitor.enough (settings.iterations.map UInt64.toNat) (shown + 1) do
    IO.sleep (UInt32.ofNat (min (settings.intervalSeconds.toNat * 1000) (UInt32.size - 1)))
    let next := loadStore path (← readContent path)
    watch path settings (shown + 1) (Monitor.refreshed root next)

/-- Carries out a plan. -/
def Plan.perform : Plan → IO UInt32
  | .exit code complaint => do
    (← IO.getStderr).putStr complaint
    return UInt32.ofNat code
  | .print text next => do
    printNow text
    next.perform
  | .read path next => do (next (← readContent path)).perform
  | .write path content next => do (next (← writeContent path content)).perform
  | .monitor path settings => do
    match loadStore path (← readContent path) with
    | .ok root =>
      try
        watch path settings 0 root
        return 0
      catch error =>
        (← IO.getStderr).putStr (Plan.complaint (.outputWrite "<stdout>" (faultOf error)))
        return 1
    | .error failure =>
      (← IO.getStderr).putStr (Plan.complaint failure)
      return 1

end EventLog

/-- Carries out the command line. -/
def main (words : List String) : IO UInt32 :=
  (EventLog.Plan.ofWords words).perform
