import EventLog.Command.Help
import EventLog.Files
import EventLog.Loading
import EventLog.Warp.Report

/-!
# Carrying out commands

A command line is turned into a plan: what is printed, which files are read and written, and how it
goes on from what they hold. `Plan.run` carries a plan out on files given as a value, and the
program carries out the same plan on real ones. The order of the steps is part of the plan: the
settings come first, and no file is created before everything has been read.
-/

namespace EventLog

/-- What is to be done. -/
inductive Plan where
  | exit (code : Nat) (complaint : String)
  | print (text : String) (next : Plan)
  | read (path : String) (next : Except FileFault ByteArray → Plan)
  | write (path : String) (content : String) (next : Option FileFault → Plan)
  | monitor (path : String) (settings : MonitorSettings)

namespace Plan

/-- What is said about a failure: its message, and the cause behind it. -/
def complaint (failure : Failure) : String :=
  "Error: " ++ failure.message ++ "\n" ++
    match failure.cause? with
    | some cause => "\nCaused by:\n    " ++ cause ++ "\n"
    | none => ""

/-- Ends with a failure. -/
def fail (failure : Failure) : Plan :=
  .exit 1 (complaint failure)

/-- Goes on with a result, or ends with the failure. -/
def attempt {α : Type} (result : Except Failure α) (next : α → Plan) : Plan :=
  match result with
  | .ok a => next a
  | .error failure => fail failure

/-- The report on the series of a dump, in the format that is wanted. -/
def reportText (format : ReportFormat) (report : WarpReport) : String :=
  match format with
  | .text => report.text
  | .json => report.json ++ "\n"

/-- Checks a dump for time warps. -/
def timewarp (arguments : TimewarpArguments) (settings : Settings) : Plan :=
  .print ("Parsing simple dump in " ++ arguments.dump ++ "\n") <|
    .read arguments.dump fun content =>
      attempt (loadDump arguments.dump content) fun entries =>
        .print (reportText arguments.format (scan settings.warp (Dump.timestamps entries))) <|
          .exit 0 ""

/-- Writes the table of a store. -/
def dump (arguments : DumpArguments) (settings : Settings) : Plan :=
  .read arguments.input fun content =>
    attempt (loadStore arguments.input content) fun root =>
      .print ("Dumping contents as simple text columns in " ++ arguments.output ++ "\n") <|
        .write arguments.output (tableText (exportLines settings.table root)) fun
          | some fault => fail (.outputWrite arguments.output fault)
          | none => .print ("Dumped contents to " ++ arguments.output ++ "\n") <| .exit 0 ""

/-- Carries out a command under settings that its arguments already belong to. -/
def ofCommand (command : Command) (settings : Settings) : Plan :=
  match command with
  | .timewarp arguments => timewarp arguments settings
  | .dump arguments => dump arguments settings
  | .monitor arguments => .monitor arguments.input settings.monitor

/-- Loads the settings, if a file is given, and carries out the command. -/
def ofInvocation (invocation : Invocation) : Plan :=
  let command := invocation.command
  match invocation.config with
  | none => ofCommand command (command.apply .default)
  | some path => .read path fun content =>
    attempt (loadSettings path content) fun settings => ofCommand command (command.apply settings)

/-- The plan of a command line. Help and the version are printed, and other faults complained of. -/
def ofWords (words : List String) : Plan :=
  match Invocation.read words with
  | .ok invocation => ofInvocation invocation
  | .error fault =>
    match fault with
    | .help _ | .version => .print fault.message (.exit 0 "")
    | _ => .exit 2 fault.message

/-- What a plan has led to: the exit code, what was printed, what was complained of, and the
files. -/
structure Outcome where
  code : Nat
  printed : List UInt8
  complaint : String
  files : Files

/-- The outcome with earlier output in front. -/
def Outcome.after (text : String) (outcome : Outcome) : Outcome :=
  { outcome with printed := bytesOf text ++ outcome.printed }

/-- Carries out a plan on files that nobody else changes. A monitor that never stops has no
outcome. -/
def run (files : Files) : Plan → Option Outcome
  | .exit code complaint => some ⟨code, [], complaint, files⟩
  | .print text next => (next.run files).map (Outcome.after text)
  | .read path next => (next (files.read path)).run files
  | .write path content next =>
    match files.write path content.toUTF8 with
    | .ok files => (next none).run files
    | .error fault => (next (some fault)).run files
  | .monitor path settings => do
    let run ← Monitor.run (fun _ => loadStore path (files.read path))
      (settings.iterations.map UInt64.toNat) none
    match run.result with
    | .ok _ => return ⟨0, run.output, "", files⟩
    | .error failure => return ⟨1, run.output, Plan.complaint failure, files⟩

end Plan

/-- Carries out a command line on files. -/
def runCommand (words : List String) (files : Files) : Option Plan.Outcome :=
  (Plan.ofWords words).run files

end EventLog
