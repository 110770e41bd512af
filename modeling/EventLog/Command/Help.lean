import EventLog.Command.Arguments

/-!
# Help texts

What the program says about itself and its commands, and the words for faulty command lines.
-/

namespace EventLog

/-- The name and version of the program. -/
def versionText : String := "daqinspect 0.1.0\n"

/-- The explanation of the whole program. -/
def programHelp : List String := [
  "Inspect DAQ event logs: time-warp checks and hierarchical dumps",
  "",
  "Usage: daqinspect [OPTIONS] <COMMAND>",
  "",
  "Commands:",
  "  timewarp  Check a simple event dump for unexpected jumps in time stamps",
  "  dump      Dump a hierarchical store as simple text columns",
  "  monitor   Periodically display all elements of a hierarchical store",
  "  help      Print this message or the help of the given subcommand(s)",
  "",
  "Options:",
  "      --config <FILE>  Read default settings from a TOML file",
  "      --debug          Enable debug logging to stderr",
  "  -h, --help           Print help",
  "  -V, --version        Print version"]

/-- The explanation of the check for time warps. -/
def timewarpHelp : List String := [
  "Check a simple event dump for unexpected jumps in time stamps",
  "",
  "Usage: daqinspect timewarp [OPTIONS] <DUMP_PATH>",
  "",
  "Arguments:",
  "  <DUMP_PATH>  Path of the simple dump to check",
  "",
  "Options:",
  "      --config <FILE>      Read default settings from a TOML file",
  "  -t, --tolerance <TICKS>  Allowed deviation from the expected time step (default: 10)",
  "      --debug              Enable debug logging to stderr",
  "  -n, --limit <N>          Only check the first N entries",
  "      --format <FORMAT>    Report format [default: text] [possible values: text, json]",
  "  -h, --help               Print help"]

/-- The explanation of tables. -/
def dumpHelp : List String := [
  "Dump a hierarchical store as simple text columns",
  "",
  "Usage: daqinspect dump [OPTIONS] [INPUT] [OUTPUT] [GLOBAL_TIME] [SORT]",
  "",
  "Arguments:",
  "  [INPUT]        JSON store snapshot to read [default: out.json]",
  "  [OUTPUT]       Text table to write [default: out.txt]",
  "  [GLOBAL_TIME]  Prepend global time column (y/yes/1/true)",
  "  [SORT]         Sort lines by their rendered text (y/yes/1/true)",
  "",
  "Options:",
  "      --config <FILE>  Read default settings from a TOML file",
  "      --debug          Enable debug logging to stderr",
  "  -h, --help           Print help"]

/-- The explanation of the monitor. -/
def monitorHelp : List String := [
  "Periodically display all elements of a hierarchical store",
  "",
  "Usage: daqinspect monitor [OPTIONS] [INPUT]",
  "",
  "Arguments:",
  "  [INPUT]  JSON store snapshot to watch [default: out.json]",
  "",
  "Options:",
  "      --config <FILE>    Read default settings from a TOML file",
  "  -i, --interval <SECS>  Seconds between refreshes (default: 2)",
  "      --debug            Enable debug logging to stderr",
  "      --iterations <N>   Stop after N refreshes",
  "  -h, --help             Print help"]

/-- The explanation of explanations. -/
def helpHelp : List String := [
  "Print this message or the help of the given subcommand(s)",
  "",
  "Usage: daqinspect help [COMMAND]...",
  "",
  "Arguments:",
  "  [COMMAND]...  Print help for the subcommand(s)"]

/-- The explanation of the program or of a command. -/
def helpText (topic : Option CommandName) : String :=
  Text.unlines <| match topic with
    | none => programHelp
    | some .timewarp => timewarpHelp
    | some .dump => dumpHelp
    | some .monitor => monitorHelp
    | some .help => helpHelp

/-- The words for a faulty command line. -/
def CommandFault.message : CommandFault → String
  | .help topic => helpText topic
  | .version => versionText
  | .nothingGiven => helpText none
  | .missingCommand => "error: a command has to be given\n"
  | .unknownCommand => "error: there is no such command\n"
  | .unknownArgument => "error: there is no such argument\n"
  | .missingArgument => "error: a required argument is missing\n"
  | .invalidValue => "error: an argument has no valid value\n"
  | .malformedValue => "error: the value of an argument is no number\n"
  | .repeatedArgument => "error: an argument is given more than once\n"
  | .unwantedValue => "error: an argument takes no value\n"

end EventLog
