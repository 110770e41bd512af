import EventLog.Command.Basic

/-!
# Reading command lines

A command line is read word by word on a level: first that of the whole program, where a word may be
the name of a command, and then that of the command. A level has options with and without values and
positional arguments. A value that is attached to its option is checked at once; one that is a word
of its own is checked when the next argument begins, and not at all if an unknown one comes first.
-/

namespace EventLog

/-- Everything that a command line can give. -/
inductive Argument where
  | config
  | debug
  | help
  | version
  | dump
  | tolerance
  | limit
  | format
  | input
  | output
  | globalTime
  | sort
  | interval
  | iterations
  deriving DecidableEq, Repr

/-- What the value of an argument has to be. -/
inductive ValueKind where
  | absent
  | path
  | word
  | format
  | flag
  deriving DecidableEq, Repr

/-- The kind of value that an argument has. -/
def Argument.kind : Argument → ValueKind
  | .debug | .help | .version => .absent
  | .config | .dump | .input | .output => .path
  | .tolerance | .limit | .interval | .iterations => .word
  | .format => .format
  | .globalTime | .sort => .flag

/-- The names of commands, with the one that explains them. -/
inductive CommandName where
  | timewarp
  | dump
  | monitor
  | help
  deriving DecidableEq, Repr

/-- The command with a name. -/
def CommandName.ofString? : String → Option CommandName
  | "timewarp" => some .timewarp
  | "dump" => some .dump
  | "monitor" => some .monitor
  | "help" => some .help
  | _ => none

/-- Why a command line is not carried out: it asks for help or for the version, or it is faulty. -/
inductive CommandFault where
  | help (of : Option CommandName)
  | version
  | nothingGiven
  | missingCommand
  | unknownCommand
  | unknownArgument
  | missingArgument
  | invalidValue
  | malformedValue
  | repeatedArgument
  | unwantedValue
  deriving DecidableEq, Repr

/-- The formats of reports by their names. -/
def readFormat? : String → Option ReportFormat
  | "text" => some .text
  | "json" => some .json
  | _ => none

/-- The number that a word is, if it is one. -/
def readNumber? (text : String) : Option UInt64 :=
  (Text.readUnsigned text.toList).toOption

/-- The fault of a value, if it has one: paths are not empty, numbers are unsigned words, and
formats have names. -/
def ValueKind.fault? (kind : ValueKind) (text : String) : Option CommandFault :=
  match kind with
  | .path => if text = "" then some .invalidValue else none
  | .word => if (readNumber? text).isNone then some .malformedValue else none
  | .format => if (readFormat? text).isNone then some .invalidValue else none
  | .flag | .absent => none

/-- What may be given on a level. -/
structure Level where
  name : Option CommandName
  long : List (String × Argument)
  short : List (Char × Argument)
  positional : List Argument
  required : List Argument

/-- The options of every level. -/
def commonOptions : List (String × Argument) :=
  [("config", .config), ("debug", .debug), ("help", .help)]

/-- The level of the whole program. -/
def Level.program : Level where
  name := none
  long := commonOptions ++ [("version", .version)]
  short := [('h', .help), ('V', .version)]
  positional := []
  required := []

/-- The level of a command. -/
def Level.ofCommand : CommandName → Level
  | .timewarp => {
      name := some .timewarp
      long := commonOptions ++ [("tolerance", .tolerance), ("limit", .limit), ("format", .format)]
      short := [('h', .help), ('t', .tolerance), ('n', .limit)]
      positional := [.dump]
      required := [.dump] }
  | .dump => {
      name := some .dump
      long := commonOptions
      short := [('h', .help)]
      positional := [.input, .output, .globalTime, .sort]
      required := [] }
  | .monitor => {
      name := some .monitor
      long := commonOptions ++ [("interval", .interval), ("iterations", .iterations)]
      short := [('h', .help), ('i', .interval)]
      positional := [.input]
      required := [] }
  | .help => { Level.program with name := some .help }

/-- Arguments with their values, in the order in which they were accepted. -/
abbrev Given := List (Argument × String)

/-- What has been read on a level: the accepted arguments, one that waits to be checked or for its
value, the positional arguments still to come, and whether options are over. -/
structure Progress where
  given : Given
  pending : Option (Argument × Option String)
  positional : List Argument
  trailing : Bool

/-- Accepts an argument with a value, if it has not been given and the value has no fault. -/
def Progress.accept (p : Progress) (argument : Argument) (value : String) :
    Except CommandFault Progress :=
  if (p.given.lookup argument).isSome then .error .repeatedArgument
  else match argument.kind.fault? value with
    | some fault => .error fault
    | none => .ok { p with given := p.given ++ [(argument, value)] }

/-- Checks the argument that waits. One that still waits for its value has none. -/
def Progress.settle (p : Progress) : Except CommandFault Progress :=
  match p.pending with
  | none => .ok p
  | some (_, none) => .error .invalidValue
  | some (argument, some value) => { p with pending := none }.accept argument value

/-- Whether the next word is the value of an option. -/
def Progress.awaits (p : Progress) : Bool :=
  match p.pending with
  | some (_, none) => true
  | _ => false

/-- Takes an option without a value. -/
def Progress.takeSwitch (p : Progress) (level : Level) (argument : Argument) :
    Except CommandFault Progress := do
  let p ← p.settle
  match argument with
  | .help => .error (.help level.name)
  | .version => .error .version
  | _ => p.accept argument ""

/-- Takes an option with the value attached to it, or to be found in the next word. -/
def Progress.takeOption (p : Progress) (argument : Argument) (attached : Option String) :
    Except CommandFault Progress := do
  let p ← p.settle
  match attached with
  | some value => p.accept argument value
  | none => return { p with pending := some (argument, none) }

/-- Takes a word behind two dashes: the name of an option, and behind an equals sign its value. -/
def Progress.takeLong (p : Progress) (level : Level) (word : List Char) :
    Except CommandFault Progress :=
  let name := word.takeWhile (· ≠ '=')
  let attached := match word.dropWhile (· ≠ '=') with
    | [] => none
    | _ :: value => some (String.ofList value)
  match level.long.lookup (String.ofList name) with
  | none => .error .unknownArgument
  | some argument =>
    if argument.kind = .absent then
      if attached.isSome then .error .unwantedValue else p.takeSwitch level argument
    else p.takeOption argument attached

/-- Takes the letters behind one dash: options without values, and last perhaps one with a value,
which is the rest of the word, with or without an equals sign in front. -/
def Progress.takeShort (level : Level) : List Char → Progress → Except CommandFault Progress
  | [], p => .ok p
  | c :: rest, p =>
    match level.short.lookup c with
    | none => .error .unknownArgument
    | some argument =>
      if argument.kind = .absent then do takeShort level rest (← p.takeSwitch level argument)
      else match rest with
        | [] => p.takeOption argument none
        | '=' :: value => p.takeOption argument (some (String.ofList value))
        | value => p.takeOption argument (some (String.ofList value))

/-- Takes the next positional argument. Where there is none, the word is taken for the name of a
command on the level of the program, unless it stands behind the end of options and is one. -/
def Progress.takePositional (p : Progress) (level : Level) (word : String) :
    Except CommandFault Progress :=
  match p.positional with
  | argument :: rest => do
    let p ← p.settle
    return { p with pending := some (argument, some word), positional := rest }
  | [] =>
    if level.name.isSome || (p.trailing && (CommandName.ofString? word).isSome) then
      .error .unknownArgument
    else .error .unknownCommand

/-- Takes a word that is not the name of a command. -/
def Progress.take (p : Progress) (level : Level) (word : String) : Except CommandFault Progress :=
  if p.trailing then p.takePositional level word
  else match word.toList with
    | ['-', '-'] => .ok { p with trailing := true }
    | '-' :: '-' :: rest => p.takeLong level rest
    | '-' :: c :: rest => takeShort level (c :: rest) p
    | _ =>
      match p.pending with
      | some (argument, none) => .ok { p with pending := some (argument, some word) }
      | _ => p.takePositional level word

/-- A level before its first word. -/
def Level.start (level : Level) : Progress :=
  ⟨[], none, level.positional, false⟩

/-- Reads words up to the first that is the name of a command, where commands have names, and
returns that with the words behind it. -/
def Level.readWords (level : Level) :
    Progress → List String → Except CommandFault (Progress × Option (CommandName × List String))
  | p, [] => .ok (p, none)
  | p, word :: rest =>
    match (if level.name.isNone && !p.trailing && !p.awaits then CommandName.ofString? word else none) with
    | some name => .ok (p, some (name, rest))
    | none => do level.readWords (← p.take level word) rest

/-- The fault of asking for help with the given words: help itself, for the program or for one
command. -/
def helpFault : List String → CommandFault
  | [] => .help none
  | [word] =>
    match CommandName.ofString? word with
    | some name => .help (some name)
    | none => .unknownCommand
  | _ => .unknownCommand

/-- The command with the arguments given on its level. -/
def commandOf (name : CommandName) (given : Given) : Command :=
  let value? (argument : Argument) : Option String := given.lookup argument
  let number? (argument : Argument) : Option UInt64 := (value? argument).bind readNumber?
  let input := (value? .input).getD "out.json"
  match name with
  | .timewarp => .timewarp {
      dump := (value? .dump).getD ""
      tolerance := number? .tolerance
      limit := number? .limit
      format := ((value? .format).bind readFormat?).getD .text }
  | .dump => .dump {
      input := input
      output := (value? .output).getD "out.txt"
      globalTime := (value? .globalTime).map readFlag
      sort := (value? .sort).map readFlag }
  | .monitor | .help => .monitor {
      input := input
      interval := number? .interval
      iterations := number? .iterations }

/-- Reads the words behind the name of a command. -/
def readCommand (name : CommandName) (words : List String) : Except CommandFault Given := do
  let level := Level.ofCommand name
  let (p, _) ← level.readWords level.start words
  let p ← p.settle
  if level.required.all fun argument => (p.given.lookup argument).isSome then return p.given
  else .error .missingArgument

/-- Reads a command line without the name of the program. What holds for all commands may be given
on both levels, and then counts as given last. -/
def Invocation.read (words : List String) : Except CommandFault Invocation := do
  let (p, command) ← Level.program.readWords Level.program.start words
  match command with
  | none =>
    let p ← p.settle
    .error (if p.given.isEmpty then .nothingGiven else .missingCommand)
  | some (.help, rest) => .error (helpFault rest)
  | some (name, rest) =>
    let inner ← readCommand name rest
    let outer := (← p.settle).given
    return {
      config := (inner.lookup .config).or (outer.lookup .config)
      debug := (inner.lookup .debug).isSome || (outer.lookup .debug).isSome
      command := commandOf name inner }

end EventLog
