import EventLog.Failure
import EventLog.Settings

/-!
# Loading files

What is made of the content of a file, or of the fault of reading it: the entries of a dump, the
tree of a snapshot, the settings. Every file is text in UTF-8.
-/

namespace EventLog

/-- The text of a file. -/
def fileText (content : Except FileFault ByteArray) : Except FileFault String := do
  match String.fromUTF8? (← content) with
  | some text => return text
  | none => .error .notText

/-- The entries of the dump in a file. -/
def loadDump (path : String) (content : Except FileFault ByteArray) : Except Failure (List Entry) :=
  match fileText content with
  | .error fault => .error (.dumpOpen path fault)
  | .ok text => (Dump.read text).mapError .dumpParse

/-- The tree of the snapshot in a file. -/
def loadStore (path : String) (content : Except FileFault ByteArray) : Except Failure Node :=
  match fileText content with
  | .error fault => .error (.storeOpen path (.file fault))
  | .ok text => (Snapshot.read text).mapError fun fault => .storeOpen path (.snapshot fault)

/-- The settings in a file. -/
def loadSettings (path : String) (content : Except FileFault ByteArray) : Except Failure Settings :=
  match fileText content with
  | .error fault => .error (.config path (.file fault))
  | .ok text => (Settings.read text).mapError fun fault => .config path (.content fault)

end EventLog
