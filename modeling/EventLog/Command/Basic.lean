import EventLog.Settings

/-!
# Commands

The three commands with their arguments. Arguments override settings: `Command.apply` changes a
setting only where an argument gives it, and only in the section of the command.
-/

namespace EventLog

/-- How a warp report is written. -/
inductive ReportFormat where
  | text
  | json
  deriving DecidableEq, Repr

/-- The arguments of the command that checks a dump for time warps. -/
structure TimewarpArguments where
  dump : String
  tolerance : Option UInt64
  limit : Option UInt64
  format : ReportFormat
  deriving DecidableEq, Repr

/-- The arguments of the command that writes the table of a store. -/
structure DumpArguments where
  input : String
  output : String
  globalTime : Option Bool
  sort : Option Bool
  deriving DecidableEq, Repr

/-- The arguments of the command that monitors a store. -/
structure MonitorArguments where
  input : String
  interval : Option UInt64
  iterations : Option UInt64
  deriving DecidableEq, Repr

/-- A command with its arguments. -/
inductive Command where
  | timewarp (arguments : TimewarpArguments)
  | dump (arguments : DumpArguments)
  | monitor (arguments : MonitorArguments)
  deriving DecidableEq, Repr

/-- A command with what holds for all of them. -/
structure Invocation where
  config : Option String
  debug : Bool
  command : Command
  deriving DecidableEq, Repr

/-- Settings with the arguments of a warp check. -/
def TimewarpArguments.apply (arguments : TimewarpArguments) (settings : Settings) : Settings :=
  { settings with warp := {
      tolerance := arguments.tolerance.getD settings.warp.tolerance
      scanLimit := arguments.limit.or settings.warp.scanLimit } }

/-- Settings with the arguments of a table. -/
def DumpArguments.apply (arguments : DumpArguments) (settings : Settings) : Settings :=
  { settings with table := {
      includeGlobalTime := arguments.globalTime.getD settings.table.includeGlobalTime
      sortOutput := arguments.sort.getD settings.table.sortOutput } }

/-- Settings with the arguments of the monitor. -/
def MonitorArguments.apply (arguments : MonitorArguments) (settings : Settings) : Settings :=
  { settings with monitor := {
      intervalSeconds := arguments.interval.getD settings.monitor.intervalSeconds
      iterations := arguments.iterations.or settings.monitor.iterations } }

/-- Settings with the arguments of a command. -/
def Command.apply : Command → Settings → Settings
  | .timewarp arguments => arguments.apply
  | .dump arguments => arguments.apply
  | .monitor arguments => arguments.apply

/-- The truth value of an argument: true if it begins like yes, like true, or with a one. -/
def readFlag (text : String) : Bool :=
  match text.toList with
  | c :: _ => c = 'y' || c = 'Y' || c = '1' || c = 't' || c = 'T'
  | [] => false

end EventLog
