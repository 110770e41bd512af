import EventLog.Proofs.Json.ExactIntegers
import EventLog.Warp.Report

/-!
# What the document of a report tells

`json_scan`: the document of a report tells all of it. Its fields are found by their names
(`WarpReport.ofJson?`), and its text gives the document back to a reader that takes integers of any
size (`readExact_json`). A reader of words does not do here, since the difference of two timestamps
may lie below every signed word.
-/

namespace EventLog

/-! ## Fields -/

namespace Json

/-- The integer that a document is. -/
def integer? : Json → Option Int
  | .integer n => some n
  | _ => none

/-- The natural number that a document is. -/
def natural? (document : Json) : Option Nat := do
  let n ← document.integer?
  if n < 0 then none else some n.toNat

/-- The unsigned word that a document is. -/
def word? (document : Json) : Option UInt64 := do
  let n ← document.natural?
  if n < UInt64.size then some (UInt64.ofNat n) else none

/-- The integer that a document is, if it is not null. -/
def integerOrNull? : Json → Option (Option Int)
  | .null => some none
  | document => document.integer?.map some

/-- The items of a document that is an array. -/
def items? : Json → Option (List Json)
  | .array items => some items
  | _ => none

@[simp] theorem integer?_integer (n : Int) : (Json.integer n).integer? = some n := rfl

@[simp] theorem natural?_integer (n : Nat) : (Json.integer n).natural? = some n := by
  simp [natural?, Int.not_lt.2 (Int.natCast_nonneg n)]

@[simp] theorem word?_integer (n : UInt64) : (Json.integer n.toNat).word? = some n := by
  simp [word?, UInt64.toNat_lt_size]

@[simp] theorem items?_array (items : List Json) : (Json.array items).items? = some items := rfl

end Json

/-- The anomaly that a document describes. -/
def Anomaly.ofJson? (document : Json) : Option Anomaly := do
  let index ← (← document.member? "index").natural?
  let previous ← (← document.member? "previous").word?
  let current ← (← document.member? "current").word?
  let observed ← (← document.member? "observed_delta").integer?
  let expected ← (← document.member? "expected_delta").integer?
  return ⟨index, previous, current, observed, expected⟩

/-- The report that a document describes. -/
def WarpReport.ofJson? (document : Json) : Option WarpReport := do
  let parsed ← (← document.member? "entries_parsed").natural?
  let checked ← (← document.member? "entries_checked").natural?
  let expected ← (← document.member? "expected_delta").integerOrNull?
  let tolerance ← (← document.member? "tolerance").word?
  let anomalies ← (← (← document.member? "anomalies").items?).mapM Anomaly.ofJson?
  return ⟨parsed, checked, expected, tolerance, anomalies⟩

/-- The document of an anomaly describes it. -/
@[simp] theorem Anomaly.ofJson?_toJson (a : Anomaly) : Anomaly.ofJson? a.toJson = some a := by
  simp [Anomaly.ofJson?, Anomaly.toJson, Json.member?, List.lookup_cons]

/-- The documents of anomalies describe them. -/
theorem Anomaly.mapM_ofJson?_toJson (as : List Anomaly) :
    (as.map Anomaly.toJson).mapM Anomaly.ofJson? = some as := by
  have hcomp : Anomaly.ofJson? ∘ Anomaly.toJson = pure := funext Anomaly.ofJson?_toJson
  rw [List.mapM_map, hcomp, List.mapM_pure, List.map_id']
  rfl

/-- The document of a report describes it. -/
theorem WarpReport.ofJson?_toJson (report : WarpReport) :
    WarpReport.ofJson? report.toJson = some report := by
  obtain ⟨parsed, checked, expected, tolerance, anomalies⟩ := report
  have hanomalies := Anomaly.mapM_ofJson?_toJson anomalies
  cases expected <;>
    simp [ofJson?, toJson, Json.member?, List.lookup_cons, Json.integerOrNull?, hanomalies]

/-! ## Texts -/

theorem Anomaly.depth_toJson (a : Anomaly) : a.toJson.depth = 1 := by
  simp [Anomaly.toJson, Json.depth, Json.depthMembers]

theorem Anomaly.floatFree_toJson (a : Anomaly) : a.toJson.FloatFree := by
  simp [Anomaly.toJson]

namespace WarpReport

/-- Three levels are nested in the document of a report: the report, the array of its anomalies and
each of these. -/
theorem depth_toJson (report : WarpReport) : report.toJson.depth ≤ 3 := by
  have hanomalies : Json.depthItems (report.anomalies.map Anomaly.toJson) ≤ 1 := by
    rw [Json.depthItems_le_iff, List.forall_mem_map]
    exact fun a _ => (Anomaly.depth_toJson a).le
  have hdepth : report.toJson.depth =
      Json.depthItems (report.anomalies.map Anomaly.toJson) + 2 := by
    cases hexpected : report.expected <;>
      simp [toJson, hexpected, Json.depth, Json.depthMembers]
  omega

/-- All numbers in the document of a report are integers. -/
theorem floatFree_toJson (report : WarpReport) : report.toJson.FloatFree := by
  cases hexpected : report.expected <;>
    simp [toJson, hexpected, Anomaly.floatFree_toJson]

/-- The text of a report is read as its document. -/
theorem readExact_json (report : WarpReport) : Json.readExact report.json = .ok report.toJson :=
  Json.readExact_write .indented (report.depth_toJson.trans (by decide)) report.floatFree_toJson

/-- Reports are told apart by their texts. -/
theorem json_inj {r s : WarpReport} : r.json = s.json ↔ r = s := by
  constructor
  · intro h
    have hdocument : r.toJson = s.toJson := by
      have hread := r.readExact_json
      rw [h, s.readExact_json] at hread
      exact (Except.ok.inj hread).symm
    have hreport := ofJson?_toJson r
    rw [hdocument, ofJson?_toJson s] at hreport
    exact (Option.some.inj hreport).symm
  · rintro rfl
    rfl

end WarpReport

/-- The report of a scan as a document tells all of it: its text is read, with integers of any size,
as a document that describes the report, and reports with the same text are the same. -/
theorem json_scan (settings settings' : WarpSettings) (series series' : List UInt64) :
    (∃ document, Json.readExact (scan settings series).json = .ok document ∧
      WarpReport.ofJson? document = some (scan settings series)) ∧
    ((scan settings series).json = (scan settings' series').json ↔
      scan settings series = scan settings' series') := by
  constructor
  · exact ⟨_, WarpReport.readExact_json _, WarpReport.ofJson?_toJson _⟩
  · exact WarpReport.json_inj

end EventLog
