import EventLog.Dump
import EventLog.Store.Snapshot

/-!
# Failures

What ends an inspection: a file that cannot be read or written, or content that does not fit. A
failure is a cause with the place where it arose, and the wording is derived from it. Problems with
a single node of the store never become failures.
-/

namespace EventLog

/-- Why a file cannot be read or written. -/
inductive FileFault where
  | notFound
  | isDirectory
  | notDirectory
  | nameTooLong
  | nulByte
  | notText
  | full
  | nothingTaken
  | other (text : String)
  deriving DecidableEq, Repr

/-- The wording of a file fault. -/
def FileFault.message : FileFault → String
  | .notFound => "No such file or directory (os error 2)"
  | .isDirectory => "Is a directory (os error 21)"
  | .notDirectory => "Not a directory (os error 20)"
  | .nameTooLong => "File name too long (os error 36)"
  | .nulByte => "file name contained an unexpected NUL byte"
  | .notText => "stream did not contain valid UTF-8"
  | .full => "disk full"
  | .nothingTaken => "failed to write whole buffer"
  | .other text => text

/-- Why the settings file is refused. -/
inductive SettingsFault where
  | malformed
  | unknownSection (name : String)
  | mismatch (found : Found) (expected : String)
  | outOfRange (value : Int) (expected : String)
  deriving DecidableEq, Repr

/-- The wording of a settings fault. -/
def SettingsFault.message : SettingsFault → String
  | .malformed => "malformed document"
  | .unknownSection name =>
    "unknown field `" ++ name ++ "`, expected one of `warp`, `export`, `monitor`"
  | .mismatch found expected =>
    "invalid type: " ++ found.describe Binary64.pointed ++ ", expected " ++ expected
  | .outOfRange value expected =>
    "invalid value: integer `" ++ toString value ++ "`, expected " ++ expected

/-- Why a store cannot be opened. -/
inductive StoreFault where
  | file (fault : FileFault)
  | snapshot (fault : Snapshot.Fault)
  deriving DecidableEq, Repr

/-- The wording of a store fault. -/
def StoreFault.message : StoreFault → String
  | .file fault => fault.message
  | .snapshot fault => fault.message

/-- Why the settings cannot be loaded. -/
inductive ConfigFault where
  | file (fault : FileFault)
  | content (fault : SettingsFault)
  deriving DecidableEq, Repr

/-- The wording of a fault of the settings file. A fault of its content begins with the kind of
document that it is. -/
def ConfigFault.message : ConfigFault → String
  | .file fault => fault.message
  | .content fault => "TOML parse error: " ++ fault.message

/-- A failure of an inspection. -/
inductive Failure where
  | dumpOpen (path : String) (fault : FileFault)
  | dumpParse (fault : Dump.Fault)
  | storeOpen (path : String) (fault : StoreFault)
  | outputWrite (path : String) (fault : FileFault)
  | config (path : String) (fault : ConfigFault)
  deriving DecidableEq, Repr

namespace Failure

/-- The wording of a failure. -/
def message : Failure → String
  | .dumpOpen path fault => "failed to open dump " ++ path ++ ": " ++ fault.message
  | .dumpParse fault =>
    "malformed timestamp " ++ Text.quoted fault.column ++ " on line " ++ toString fault.line ++
      ": " ++ fault.cause.message
  | .storeOpen path fault => "failed to read store snapshot " ++ path ++ ": " ++ fault.message
  | .outputWrite path fault => "failed to dump to " ++ path ++ ": " ++ fault.message
  | .config path fault => "invalid config " ++ path ++ ": " ++ fault.message

/-- The wording of the cause that a failure stands on, where it is reported by itself. -/
def cause? : Failure → Option String
  | .dumpOpen _ fault => some fault.message
  | .dumpParse fault => some fault.cause.message
  | .storeOpen _ _ => none
  | .outputWrite _ fault => some fault.message
  | .config _ _ => none

end Failure

end EventLog
