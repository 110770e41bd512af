import EventLog.Proofs.Dump.Layout
import EventLog.Proofs.Table.Order

/-!
# Lines read back as words

A number that is wider than its column makes the line longer, so a field cannot be found by its
place. It can be found by counting words: every column stands behind a space, and padding adds
spaces alone. `words_render`: the words of a line are the texts in its columns, in order, as long as
what comes from the store is a word each time. That is shown column by column behind any front
(`words_append_column`), so the numbers of a list element can be read back behind every context.
-/

namespace EventLog

open EventLog.Text
open EventLog.Dump (IsWord isWord_numeral)

/-! ## Columns behind a front -/

/-- A space divides the words of a text. -/
theorem words_append_space (front text : String) :
    words (front ++ " " ++ text).toList = words front.toList ++ words text.toList := by
  have hspace : isBlank ' ' = true := by decide
  have htext : (front ++ " " ++ text).toList = front.toList ++ ' ' :: text.toList := by
    simp
  rw [htext, words_append_blank hspace]

/-- Padding adds no word. -/
theorem words_alignRight (width : Nat) (text : String) :
    words (alignRight width text).toList = words text.toList := by
  rw [toList_alignRight]
  refine words_blanks_append ?_ text.toList
  intro c hc
  rw [List.eq_of_mem_replicate hc]
  decide

/-- The decimal digits of a counter are a word. -/
theorem words_counter (n : UInt64) :
    words (toString n.toNat).toList = [(toString n.toNat).toList] := by
  have hdigits : (toString n.toNat).toList = numeral false 0 n := Nat.toList_repr
  have hword := isWord_numeral false 0 n
  rw [hdigits]
  exact words_solid hword.nonempty hword.solid

/-- A counter in a column is one word more, however wide it is. -/
theorem words_append_column (front : String) (width : Nat) (n : UInt64) :
    words (front ++ column width n).toList = words front.toList ++ [(toString n.toNat).toList] := by
  rw [column, ← String.append_assoc, words_append_space, words_alignRight, words_counter]

/-- Words with spaces between them are read back as they are. -/
theorem words_intercalate {texts : List String} (h : ∀ text ∈ texts, IsWord text.toList) :
    words (" ".intercalate texts).toList = texts.map String.toList := by
  induction texts with
  | nil => rfl
  | cons text rest ih =>
    obtain ⟨hword, hrest⟩ := List.forall_mem_cons.1 h
    have htext : words text.toList = [text.toList] := words_solid hword.nonempty hword.solid
    cases rest with
    | nil => rw [String.intercalate_singleton, htext, List.map_singleton]
    | cons next rest =>
      rw [String.intercalate_cons_cons, words_append_space, htext, ih hrest]
      rfl

/-! ## Records behind a front -/

/-- The texts in the columns of a list element. -/
def ListElement.columnTexts (e : ListElement) : List String :=
  [toString e.channel.toNat, toString e.localTime.toNat, toString e.adcValue.toNat,
    toString e.extendTime.toNat]

/-- The texts in the columns of a waveform element. -/
def WaveformElement.columnTexts (w : WaveformElement) : List String :=
  [toString w.channel.toNat, toString w.localTime.toNat, toString w.extendTime.toNat] ++
    w.samples.map Cell.display

/-- The columns of a list element are four words more. -/
theorem words_append_listColumns (front : String) (e : ListElement) :
    words (front ++ (Record.list e).columns).toList =
      words front.toList ++ e.columnTexts.map String.toList := by
  rw [Record.columns, ← String.append_assoc, ← String.append_assoc, ← String.append_assoc,
    words_append_column, words_append_column, words_append_column, words_append_column]
  simp only [ListElement.columnTexts, List.append_assoc]
  rfl

/-- The columns of a waveform element are three words more and one for each sample, if the samples
are words. -/
theorem words_append_waveformColumns (front : String) {w : WaveformElement}
    (h : ∀ cell ∈ w.samples, IsWord cell.display.toList) :
    words (front ++ (Record.waveform w).columns).toList =
      words front.toList ++ w.columnTexts.map String.toList := by
  have hsamples : words (displayAll w.samples).toList =
      (w.samples.map Cell.display).map String.toList :=
    words_intercalate (List.forall_mem_map.2 h)
  rw [Record.columns, ← String.append_assoc, ← String.append_assoc, ← String.append_assoc,
    ← String.append_assoc, words_append_space, hsamples, words_append_column, words_append_column,
    words_append_column, WaveformElement.columnTexts, List.map_append]
  simp only [List.append_assoc]
  rfl

/-- The texts in the columns of a list element are those of its numbers. -/
theorem ListElement.columnTexts_inj {e e' : ListElement} :
    e.columnTexts = e'.columnTexts ↔ e = e' := by
  constructor
  · intro h
    simp only [columnTexts, List.cons.injEq, natural_inj, UInt64.toNat_inj, and_true] at h
    obtain ⟨hchannel, hlocal, hadc, hextend⟩ := h
    cases e
    cases e'
    simp_all
  · rintro rfl
    rfl

/-! ## Lines -/

namespace Context

/-- A context of which everything that is printed is a word. -/
structure HasWords (globalTime : Bool) (context : Context) : Prop where
  time : ∀ text, context.printedTime? globalTime = some text → IsWord text.toList
  serial : ∀ text, context.serial = some text → IsWord text.toList

/-- The texts in the columns of a context: the global time, if it is printed, and the serial or a
dash. -/
def columnTexts (globalTime : Bool) (context : Context) : List String :=
  (context.printedTime? globalTime).toList ++ [context.serial.getD "-"]

/-- The leading columns are read back as the texts in them. -/
theorem HasWords.words_leadingColumns {globalTime : Bool} {context : Context}
    (h : context.HasWords globalTime) :
    words (leadingColumns globalTime context).toList =
      (context.columnTexts globalTime).map String.toList := by
  have hserial : words (context.serial.getD "-").toList = [(context.serial.getD "-").toList] := by
    cases hserial : context.serial with
    | none => decide
    | some serial =>
      have hword := h.serial serial hserial
      exact words_solid hword.nonempty hword.solid
  rw [leadingColumns_eq, columnTexts]
  cases htime : context.printedTime? globalTime with
  | none => exact (words_alignRight ..).trans hserial
  | some time =>
    have hword := h.time time htime
    rw [Option.elim_some, words_append_space, words_alignRight, words_alignRight, hserial,
      words_solid hword.nonempty hword.solid]
    rfl

end Context

/-- If the serial and the printed global time are words where there are any, the words of a line are
the global time, if it is printed, the serial or a dash, and the decimal digits of the numbers of
the record. The line of a waveform element has the samples behind them, if these are displayed as
words. In every context, list elements with the same text are the same. -/
theorem words_render (globalTime : Bool) (context : Context) :
    (context.HasWords globalTime →
      (∀ e, words ((Record.list e).render globalTime context).text.toList =
        (context.columnTexts globalTime ++ e.columnTexts).map String.toList) ∧
      ∀ w : WaveformElement, (∀ cell ∈ w.samples, IsWord cell.display.toList) →
        words ((Record.waveform w).render globalTime context).text.toList =
          (context.columnTexts globalTime ++ w.columnTexts).map String.toList) ∧
      ∀ e e', ((Record.list e).render globalTime context).text =
        ((Record.list e').render globalTime context).text ↔ e = e' := by
  refine ⟨?_, ?_⟩
  · intro h
    refine ⟨?_, ?_⟩
    · intro e
      rw [Record.render, words_append_listColumns, h.words_leadingColumns, List.map_append]
    · intro w hw
      rw [Record.render, words_append_waveformColumns _ hw, h.words_leadingColumns,
        List.map_append]
  · intro e e'
    constructor
    · intro htext
      have hwords := congrArg (fun text => words text.toList) htext
      simp only [Record.render, words_append_listColumns, List.append_cancel_left_eq] at hwords
      exact ListElement.columnTexts_inj.1
        (List.map_injective_iff.2 (fun _ _ hchars => String.toList_inj.1 hchars) hwords)
    · rintro rfl
      rfl

/-- A list element with a channel that is wider than its column. -/
def ListElement.wide : ListElement :=
  ⟨18446744073709551615, 100, 20, 3⟩

/-- A waveform element with a number and a text as samples. -/
def WaveformElement.ofTwo : WaveformElement :=
  ⟨7, 10000000000000000000, 4, [.integer (-1), .text "peak"]⟩

/-- The numbers that are wider than their columns are read back as well, and the samples one by
one. -/
theorem words_render_wide :
    Context.HasWords true ⟨some "42", some "1234"⟩ ∧
      (∀ cell ∈ WaveformElement.ofTwo.samples, IsWord cell.display.toList) ∧
      words ((Record.list .wide).render true ⟨some "42", some "1234"⟩).text.toList =
        ["1234", "42", "18446744073709551615", "100", "20", "3"].map String.toList ∧
      words ((Record.waveform .ofTwo).render true ⟨some "42", some "1234"⟩).text.toList =
        ["1234", "42", "7", "10000000000000000000", "4", "-1", "peak"].map String.toList := by
  have hcontext : Context.HasWords true ⟨some "42", some "1234"⟩ := by
    constructor
    · rintro _ ⟨⟩
      exact ⟨by decide, by simp [isBlank]⟩
    · rintro _ ⟨⟩
      exact ⟨by decide, by simp [isBlank]⟩
  have hsamples : ∀ cell ∈ WaveformElement.ofTwo.samples, IsWord cell.display.toList := by
    refine List.forall_mem_cons.2 ⟨?_, List.forall_mem_singleton.2 ?_⟩
    · show IsWord "-1".toList
      exact ⟨by decide, by simp [isBlank]⟩
    · show IsWord "peak".toList
      exact ⟨by decide, by simp [isBlank]⟩
  obtain ⟨hlist, hwaveform⟩ := (words_render true ⟨some "42", some "1234"⟩).1 hcontext
  exact ⟨hcontext, hsamples, hlist .wide, hwaveform .ofTwo hsamples⟩

end EventLog
