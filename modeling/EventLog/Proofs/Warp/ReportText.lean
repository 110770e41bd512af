import EventLog.Proofs.Text.Lines
import EventLog.Proofs.Text.Words
import EventLog.Proofs.Warp.Exact
import EventLog.Warp.Report

/-!
# What the text of a report tells

`text_scan`: the text of a report tells all of it but the tolerance, and the number in its last line
is that of the lines for anomalies. No line has a line feed in it, so the text gives back its lines
(`unlines_inj`), and each line is told apart from others of its kind by the numbers in it, since
every number ends where the words go on (`header_inj`, `line_inj`, `expected_eq_of_summary`). What a
line leaves out is known from the scan: no more entries are checked than there are, and all
anomalies are compared with the step in the last line, without which there are none.
-/

namespace EventLog

open EventLog.Text

/-! ## Lines -/

/-- The line of an anomaly has all of it but the step that it was compared with. -/
theorem Anomaly.line_inj {a b : Anomaly} :
    a.line = b.line ↔ a.observed = b.observed ∧ a.current = b.current ∧ a.previous = b.previous ∧
      a.index = b.index := by
  have hopen (rest : String) : EndsNumber (" (" ++ rest) := .append (by decide) (by decide) rest
  have hversus (rest : String) : EndsNumber (" vs " ++ rest) := .append (by decide) (by decide) rest
  have hclose (rest : String) : EndsNumber (") for entry " ++ rest) :=
    .append (by decide) (by decide) rest
  unfold Anomaly.line
  simp only [String.append_assoc, String.append_right_inj]
  rw [integer_append_inj (hopen _) (hopen _), String.append_right_inj,
    natural_append_inj (hversus _) (hversus _), String.append_right_inj,
    natural_append_inj (hclose _) (hclose _), String.append_right_inj, natural_inj,
    UInt64.toNat_inj, UInt64.toNat_inj]

namespace WarpReport

variable {r s : WarpReport}

/-- What follows the number of checked entries in the first line. -/
def headerTail (checked parsed : Nat) : String :=
  if checked < parsed then " of " ++ (toString parsed ++ " parsed entries for time warps")
  else " parsed entries for time warps"

/-- The first line has the number of checked entries in front, also if all of them were. -/
theorem header_eq (h : r.checked ≤ r.parsed) :
    r.header = "Checking " ++ (toString r.checked ++ headerTail r.checked r.parsed) := by
  unfold header headerTail
  split
  · simp only [String.append_assoc]
  · next hall =>
    rw [Nat.le_antisymm h (Nat.not_lt.1 hall), String.append_assoc]

theorem endsNumber_headerTail (checked parsed : Nat) : EndsNumber (headerTail checked parsed) := by
  unfold headerTail
  split
  · exact .append (by decide) (by decide) _
  · decide

/-- Behind the number of checked entries, the first line tells that of all entries. -/
theorem headerTail_inj {checked m n : Nat} (hm : checked ≤ m) (hn : checked ≤ n) :
    headerTail checked m = headerTail checked n ↔ m = n := by
  have hparsed : EndsNumber " parsed entries for time warps" := by decide
  have hne (rest : String) : " of " ++ rest ≠ " parsed entries for time warps" := by
    intro h
    have hchars := congrArg String.toList h
    simp at hchars
  refine ⟨fun h => ?_, fun h => by rw [h]⟩
  unfold headerTail at h
  split at h
  · split at h
    · rw [String.append_right_inj, natural_append_inj hparsed hparsed] at h
      exact h.1
    · exact absurd h (hne _)
  · split at h
    · exact absurd h.symm (hne _)
    · omega

/-- The first line has the number of entries, and of those that were checked. -/
theorem header_inj (hr : r.checked ≤ r.parsed) (hs : s.checked ≤ s.parsed) :
    r.header = s.header ↔ r.parsed = s.parsed ∧ r.checked = s.checked := by
  rw [header_eq hr, header_eq hs, String.append_right_inj,
    natural_append_inj (endsNumber_headerTail _ _) (endsNumber_headerTail _ _), and_comm]
  refine and_congr_left fun hchecked => ?_
  rw [← hchecked] at hs ⊢
  exact headerTail_inj hr hs

/-- What follows the number of anomalies in the last line. -/
def summaryTail : Option Int → String
  | some step => " time jumps much bigger than " ++ toString step
  | none => " time jumps (need at least 2 entries)"

/-- The last line has the number of anomalies in front, also if there is no step and so none of
them. -/
theorem summary_eq (h : r.expected = none → r.anomalies = []) :
    r.summary = "Found " ++ (toString r.anomalies.length ++ summaryTail r.expected) := by
  unfold summary summaryTail
  cases hexpected : r.expected with
  | none =>
    rw [h hexpected]
    decide
  | some step => simp only [String.append_assoc]

theorem endsNumber_summaryTail : ∀ expected : Option Int, EndsNumber (summaryTail expected)
  | some _ => .append (by decide) (by decide) _
  | none => by decide

/-- Behind the number of anomalies, the last line tells the step, if there is one. -/
theorem summaryTail_inj {a b : Option Int} : summaryTail a = summaryTail b ↔ a = b := by
  have hne (rest : String) :
      " time jumps much bigger than " ++ rest ≠ " time jumps (need at least 2 entries)" := by
    intro h
    have hchars := congrArg String.toList h
    simp at hchars
  refine ⟨fun h => ?_, fun h => by rw [h]⟩
  cases a with
  | none =>
    cases b with
    | none => rfl
    | some step => exact absurd h.symm (hne _)
  | some step =>
    cases b with
    | none => exact absurd h (hne _)
    | some step' =>
      unfold summaryTail at h
      rw [String.append_right_inj, integer_inj] at h
      rw [h]

/-- The last line has the step, if there is one. -/
theorem expected_eq_of_summary (hr : r.expected = none → r.anomalies = [])
    (hs : s.expected = none → s.anomalies = []) (h : r.summary = s.summary) :
    r.expected = s.expected := by
  rw [summary_eq hr, summary_eq hs, String.append_right_inj,
    natural_append_inj (endsNumber_summaryTail _) (endsNumber_summaryTail _)] at h
  exact summaryTail_inj.1 h.2

end WarpReport

/-! ## The text -/

theorem Anomaly.oneLine_line (a : Anomaly) : OneLine a.line := by
  unfold Anomaly.line
  simp only [oneLine_append, oneLine_natural, oneLine_integer, and_true]
  decide

namespace WarpReport

variable {r s : WarpReport}

theorem oneLine_header (r : WarpReport) : OneLine r.header := by
  unfold header
  split
  · simp only [oneLine_append, oneLine_natural, and_true]
    decide
  · simp only [oneLine_append, oneLine_natural, and_true]
    decide

theorem oneLine_summary (r : WarpReport) : OneLine r.summary := by
  unfold summary
  split
  · simp only [oneLine_append, oneLine_natural, oneLine_integer, and_true]
    decide
  · decide

/-- No line of a report has a line feed in it. -/
theorem oneLine_of_mem (r : WarpReport) :
    ∀ l ∈ r.header :: (r.anomalies.map Anomaly.line ++ [r.summary]), OneLine l := by
  simp only [List.forall_mem_cons, List.forall_mem_append, List.forall_mem_map, oneLine_header,
    oneLine_summary, Anomaly.oneLine_line, implies_true, List.not_mem_nil, false_implies, and_self]

/-- Reports have the same text if they have the same lines. -/
theorem text_inj : r.text = s.text ↔ r.header = s.header ∧
    r.anomalies.map Anomaly.line = s.anomalies.map Anomaly.line ∧ r.summary = s.summary := by
  unfold text
  rw [unlines_inj r.oneLine_of_mem s.oneLine_of_mem, List.cons.injEq, List.append_singleton_inj]

end WarpReport

/-- Anomalies that were compared with the same step are told apart by their lines. -/
theorem anomalies_eq_of_lines {step : Option Int} {as bs : List Anomaly}
    (has : ∀ a ∈ as, step = some a.expected) (hbs : ∀ b ∈ bs, step = some b.expected)
    (h : as.map Anomaly.line = bs.map Anomaly.line) : as = bs := by
  induction as generalizing bs with
  | nil => exact (List.map_eq_nil_iff.1 h.symm).symm
  | cons a as ih =>
    cases bs with
    | nil => cases h
    | cons b bs =>
      obtain ⟨ha, has⟩ := List.forall_mem_cons.1 has
      obtain ⟨hb, hbs⟩ := List.forall_mem_cons.1 hbs
      rw [List.map_cons, List.map_cons, List.cons.injEq, Anomaly.line_inj] at h
      obtain ⟨⟨hobserved, hcurrent, hprevious, hindex⟩, h⟩ := h
      have hexpected : a.expected = b.expected := Option.some.inj (ha.symm.trans hb)
      have hab : a = b := by
        rw [Anomaly.mk.injEq]
        exact ⟨hindex, hprevious, hcurrent, hobserved, hexpected⟩
      rw [hab, ih has hbs h]

/-! ## What is announced -/

/-- Whether a line is about an anomaly. -/
def isWarpLine (line : List Char) : Bool := "time warp of".toList.isPrefixOf line

/-- The lines of a text that are about an anomaly. -/
def warpLines (text : String) : List (List Char) := (pieces text.toList).filter isWarpLine

theorem Anomaly.isWarpLine_line (a : Anomaly) : isWarpLine a.line.toList = true := by
  unfold Anomaly.line
  rw [isWarpLine, List.isPrefixOf_iff_prefix]
  simp

theorem isWarpLine_header (r : WarpReport) : isWarpLine r.header.toList = false := by
  rw [isWarpLine, Bool.eq_false_iff, Ne, List.isPrefixOf_iff_prefix]
  unfold WarpReport.header
  rintro ⟨rest, h⟩
  split at h <;> simp at h

theorem isWarpLine_summary (r : WarpReport) : isWarpLine r.summary.toList = false := by
  rw [isWarpLine, Bool.eq_false_iff, Ne, List.isPrefixOf_iff_prefix]
  unfold WarpReport.summary
  rintro ⟨rest, h⟩
  split at h <;> simp at h

/-- The lines of a report that are about an anomaly are those of its anomalies. -/
theorem warpLines_text (r : WarpReport) :
    warpLines r.text = (r.anomalies.map Anomaly.line).map String.toList := by
  have hempty : isWarpLine [] = false := by decide
  unfold warpLines WarpReport.text
  rw [pieces_unlines_of_oneLine r.oneLine_of_mem]
  simp [hempty, isWarpLine_header, isWarpLine_summary, Anomaly.isWarpLine_line]

/-- The second word of an announcement is its number. -/
theorem words_announcement (n : Nat) (rest : String) :
    (words ("Found " ++ (toString n ++ (" " ++ rest))).toList)[1]? = some (toString n).toList := by
  have hdigits : ∀ c ∈ Nat.toDigits 10 n, isBlank c = false := fun c hc =>
    isBlank_of_isDigit (isDigit_eq c ▸ isDigit_of_mem_toDigits hc)
  have hspace : ∀ c ∈ [' '], isBlank c = true := List.forall_mem_singleton.2 (by decide)
  have hfound : ∀ c ∈ "Found".toList, isBlank c = false := by
    simp only [String.reduceToList, List.forall_mem_cons, List.not_mem_nil, false_implies,
      implies_true, and_true]
    decide
  have hchars : ("Found " ++ (toString n ++ (" " ++ rest))).toList =
      "Found".toList ++ [' '] ++ (Nat.toDigits 10 n ++ [' '] ++ rest.toList) := by simp
  rw [hchars, words_solid_append (by decide) hfound hspace (by decide),
    words_solid_append Nat.toDigits_ne_nil hdigits hspace (by decide)]
  simp

/-- The second word of the last line of a report is the number of its anomalies, which is none
without a step. -/
theorem words_summary {r : WarpReport} (h : r.expected = none → r.anomalies = []) :
    (words r.summary.toList)[1]? = some (toString r.anomalies.length).toList := by
  rw [WarpReport.summary_eq h]
  cases r.expected with
  | none => exact words_announcement _ "time jumps (need at least 2 entries)"
  | some step => exact words_announcement _ ("time jumps much bigger than " ++ toString step)

/-! ## Reports of scans -/

section
variable {settings settings' : WarpSettings} {series series' : List UInt64}

/-- Without two checked entries there are no anomalies. -/
theorem anomalies_eq_nil_of_checked (h : (scan settings series).checked < 2) :
    (scan settings series).anomalies = [] := by
  refine anomalies_eq_nil_of_expected (Option.eq_none_iff_forall_ne_some.2 fun step hstep => ?_)
  have htwo := (expectedStep?_checked.1 hstep).1
  rw [← length_checked] at htwo
  exact absurd h (Nat.not_lt.2 htwo)

/-- No more entries are checked than there are. -/
theorem checked_le_parsed (settings : WarpSettings) (series : List UInt64) :
    (scan settings series).checked ≤ (scan settings series).parsed := by
  rw [scan, length_checked]
  exact checkedLength_le settings series.length

/-- Two scans have reports with the same text exactly if their reports agree on everything but the
tolerance. -/
theorem text_eq_iff : (scan settings series).text = (scan settings' series').text ↔
    (scan settings series).parsed = (scan settings' series').parsed ∧
      (scan settings series).checked = (scan settings' series').checked ∧
      (scan settings series).expected = (scan settings' series').expected ∧
      (scan settings series).anomalies = (scan settings' series').anomalies := by
  constructor
  · intro h
    obtain ⟨hheader, hlines, hsummary⟩ := WarpReport.text_inj.1 h
    obtain ⟨hparsed, hchecked⟩ := (WarpReport.header_inj (checked_le_parsed settings series)
      (checked_le_parsed settings' series')).1 hheader
    have hexpected := WarpReport.expected_eq_of_summary anomalies_eq_nil_of_expected
      anomalies_eq_nil_of_expected hsummary
    refine ⟨hparsed, hchecked, hexpected, ?_⟩
    exact anomalies_eq_of_lines (fun a ha => expected_of_mem_scan ha)
      (fun b hb => hexpected.trans (expected_of_mem_scan hb)) hlines
  · rintro ⟨hparsed, hchecked, hexpected, hanomalies⟩
    rw [WarpReport.text_inj, WarpReport.header, WarpReport.header, WarpReport.summary,
      WarpReport.summary, hparsed, hchecked, hexpected, hanomalies]
    exact ⟨rfl, rfl, rfl⟩

end

/-- Two scans have reports with the same text exactly if their reports agree on everything but the
tolerance. In the last line of a report, the second word is the number of the lines in it that are
about an anomaly, of which there are none if fewer than two entries were checked. -/
theorem text_scan (settings settings' : WarpSettings) (series series' : List UInt64) :
    ((scan settings series).text = (scan settings' series').text ↔
        (scan settings series).parsed = (scan settings' series').parsed ∧
          (scan settings series).checked = (scan settings' series').checked ∧
          (scan settings series).expected = (scan settings' series').expected ∧
          (scan settings series).anomalies = (scan settings' series').anomalies) ∧
      ∃ front last, pieces (scan settings series).text.toList = front ++ [last, []] ∧
        (words last)[1]? =
          some (toString (warpLines (scan settings series).text).length).toList ∧
        ((scan settings series).checked < 2 → warpLines (scan settings series).text = []) := by
  refine ⟨text_eq_iff, ?_⟩
  rw [warpLines_text, List.length_map, List.length_map]
  refine ⟨(scan settings series).header.toList ::
    ((scan settings series).anomalies.map Anomaly.line).map String.toList, _, ?_,
    words_summary anomalies_eq_nil_of_expected, fun hfew => ?_⟩
  · unfold WarpReport.text
    rw [pieces_unlines_of_oneLine (scan settings series).oneLine_of_mem]
    simp
  · rw [anomalies_eq_nil_of_checked hfew]
    rfl

/-- A series with a jump has the same text under two tolerances. With a single entry there are no
lines about anomalies. -/
theorem text_scan_tolerances :
    (scan ⟨10, none⟩ [0, 10, 20, 1000, 1010]).text =
        "Checking 5 parsed entries for time warps\ntime warp of 980 (1000 vs 20) for entry 3\n" ++
          "Found 1 time jumps much bigger than 10\n" ∧
      (scan ⟨10, none⟩ [0, 10, 20, 1000, 1010]).text =
        (scan ⟨50, none⟩ [0, 10, 20, 1000, 1010]).text ∧
      scan ⟨10, none⟩ [0, 10, 20, 1000, 1010] ≠ scan ⟨50, none⟩ [0, 10, 20, 1000, 1010] ∧
      (scan .default [42]).checked < 2 ∧ warpLines (scan .default [42]).text = [] := by
  have hsame := (text_scan ⟨10, none⟩ ⟨50, none⟩ [0, 10, 20, 1000, 1010]
    [0, 10, 20, 1000, 1010]).1.2 (by decide)
  obtain ⟨-, -, -, -, hnone⟩ := (text_scan .default .default [42] []).2
  exact ⟨by decide, hsame, by decide, by decide, hnone (by decide)⟩

end EventLog
