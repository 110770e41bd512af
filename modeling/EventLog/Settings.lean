import EventLog.Failure
import EventLog.Monitor
import EventLog.Table
import EventLog.Toml.Reader
import EventLog.Warp

/-!
# Settings

All settings of the inspections, in three sections. `Settings.read` takes them from a settings
document: what the document does not give keeps its default, unknown keys in sections are passed
over, and unknown sections are refused. The first fault in the order of the document counts.
-/

namespace EventLog

/-- All settings. -/
structure Settings where
  warp : WarpSettings
  table : TableSettings
  monitor : MonitorSettings
  deriving DecidableEq, Repr

namespace Settings

/-- What holds without a settings document. -/
def default : Settings := ⟨.default, .default, .default⟩

/-- Takes a value into what has been read so far. -/
abbrev Setter (σ : Type) := σ → Toml → Except SettingsFault σ

/-- An unsigned word. What a document may hold is smaller, and never negative. -/
def readWord (expected : String) : Toml → Except SettingsFault UInt64
  | .integer n => if n < 0 then .error (.outOfRange n expected) else .ok (UInt64.ofNat n.toNat)
  | value => .error (.mismatch (Found.ofToml value) expected)

/-- A switch. -/
def readSwitch : Toml → Except SettingsFault Bool
  | .boolean b => .ok b
  | value => .error (.mismatch (Found.ofToml value) "a boolean")

/-- Reads a section: a table of its keys, an array of their values in order, or a date, which is
taken for a table without any of the keys. -/
def readSection {σ : Type} (expected : String) (fields : List (String × Setter σ)) (defaults : σ) :
    Toml → Except SettingsFault σ
  | .table entries => entries.foldlM (fun section' (key, value) =>
      match fields.lookup key with
      | some set => set section' value
      | none => .ok section') defaults
  | .array items =>
    (fields.zip items).foldlM (fun section' ((_, set), value) => set section' value) defaults
  | .moment => .ok defaults
  | value => .error (.mismatch (Found.ofToml value) expected)

/-- The keys of the section on warps. -/
def warpFields : List (String × Setter WarpSettings) := [
  ("tolerance", fun s v => do return { s with tolerance := ← readWord "u64" v }),
  ("scan_limit", fun s v => do return { s with scanLimit := some (← readWord "usize" v) })]

/-- The keys of the section on tables. -/
def tableFields : List (String × Setter TableSettings) := [
  ("include_global_time", fun s v => do return { s with includeGlobalTime := ← readSwitch v }),
  ("sort_output", fun s v => do return { s with sortOutput := ← readSwitch v })]

/-- The keys of the section on the monitor. -/
def monitorFields : List (String × Setter MonitorSettings) := [
  ("interval_secs", fun s v => do return { s with intervalSeconds := ← readWord "u64" v }),
  ("iterations", fun s v => do return { s with iterations := some (← readWord "u64" v) })]

/-- The sections. -/
def sections : List (String × Setter Settings) := [
  ("warp", fun s v => do
    return { s with warp := ← readSection "struct WarpConfig" warpFields .default v }),
  ("export", fun s v => do
    return { s with table := ← readSection "struct ExportConfig" tableFields .default v }),
  ("monitor", fun s v => do
    return { s with monitor := ← readSection "struct MonitorConfig" monitorFields .default v })]

/-- The settings in the entries of a document. -/
def ofEntries (entries : List (String × Toml)) : Except SettingsFault Settings :=
  entries.foldlM (fun settings (name, value) =>
    match sections.lookup name with
    | some set => set settings value
    | none => .error (.unknownSection name)) default

/-- The settings in a text. -/
def read (text : String) : Except SettingsFault Settings :=
  match Toml.read text with
  | some entries => ofEntries entries
  | none => .error .malformed

end Settings

end EventLog
