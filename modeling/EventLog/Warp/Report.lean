import EventLog.Json.Printer
import EventLog.Text.Lines
import EventLog.Warp

/-!
# Warp reports as text and as documents

The text of a report has a header that counts the entries, one line for every anomaly, and a
summary. Its document has all fields of the report in their order.
-/

namespace EventLog

/-- The line of an anomaly. -/
def Anomaly.line (a : Anomaly) : String :=
  "time warp of " ++ toString a.observed ++ " (" ++ toString a.current.toNat ++ " vs " ++
    toString a.previous.toNat ++ ") for entry " ++ toString a.index

namespace WarpReport

/-- The first line: how many entries were checked, and of how many if not all were. -/
def header (report : WarpReport) : String :=
  if report.checked < report.parsed then
    "Checking " ++ toString report.checked ++ " of " ++ toString report.parsed ++
      " parsed entries for time warps"
  else "Checking " ++ toString report.parsed ++ " parsed entries for time warps"

/-- The last line: how many anomalies there are, if there was a step to compare with. -/
def summary (report : WarpReport) : String :=
  match report.expected with
  | some expected =>
    "Found " ++ toString report.anomalies.length ++ " time jumps much bigger than " ++
      toString expected
  | none => "Found 0 time jumps (need at least 2 entries)"

/-- The report as text. -/
def text (report : WarpReport) : String :=
  Text.unlines (report.header :: (report.anomalies.map Anomaly.line ++ [report.summary]))

end WarpReport

/-- The document of an anomaly. -/
def Anomaly.toJson (a : Anomaly) : Json :=
  .object [
    ("index", .integer a.index),
    ("previous", .integer a.previous.toNat),
    ("current", .integer a.current.toNat),
    ("observed_delta", .integer a.observed),
    ("expected_delta", .integer a.expected)]

/-- The document of a report. -/
def WarpReport.toJson (report : WarpReport) : Json :=
  .object [
    ("entries_parsed", .integer report.parsed),
    ("entries_checked", .integer report.checked),
    ("expected_delta", match report.expected with
      | some expected => .integer expected
      | none => .null),
    ("tolerance", .integer report.tolerance.toNat),
    ("anomalies", .array (report.anomalies.map Anomaly.toJson))]

/-- The report as an indented document. -/
def WarpReport.json (report : WarpReport) : String :=
  report.toJson.indented

end EventLog
