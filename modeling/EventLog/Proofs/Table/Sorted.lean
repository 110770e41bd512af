import EventLog.Proofs.Text.ByteOrder
import EventLog.Proofs.Text.SortedBy
import EventLog.Table

/-!
# Sorting keeps lines of equal text in order

Lines are compared by their texts alone, and lines with the same text can still differ in the serial
and in the global time. So the order of the texts does not settle in which order sorted lines stand;
it does so together with the lines of each text, taken in order (`eq_of_inTextOrder`). Sorting
leaves these as they are (`linesWithText_sortLines`), whatever the lines are. `exportLines_sorted`
says this of tables: the sorted one is the only list with the lines of the unsorted one that is in
order and keeps lines of equal text as the walk has them.
-/

namespace EventLog

open EventLog.Text

/-! ## Lines in order -/

/-- Lines in the order of the bytes of their texts. -/
def InTextOrder (ls : List Line) : Prop :=
  ls.Pairwise fun a b => bytesOf a.text ≤ bytesOf b.text

/-- The lines of a text, in order. -/
def linesWithText (text : String) (ls : List Line) : List Line :=
  ls.filter (·.text = text)

/-- A list has the lines of another one, in the order of their texts, and those of equal text in the
order that they have there. -/
structure IsStableSort (ls sorted : List Line) : Prop where
  perm : sorted.Perm ls
  ordered : InTextOrder sorted
  stable : ∀ text, linesWithText text sorted = linesWithText text ls

/-- The order of bytes is the order of texts. -/
theorem inTextOrder_iff {ls : List Line} :
    InTextOrder ls ↔ ls.Pairwise fun a b => a.text ≤ b.text := by
  simp only [InTextOrder, bytesOf_le_bytesOf]

theorem mem_linesWithText {text : String} {ls : List Line} {line : Line} :
    line ∈ linesWithText text ls ↔ line ∈ ls ∧ line.text = text := by
  rw [linesWithText, List.mem_filter, decide_eq_true_iff]

/-- Lines that are in order do not come before the first of them. -/
theorem InTextOrder.head_le {first line : Line} {ls : List Line} (h : InTextOrder (first :: ls))
    (hline : line ∈ first :: ls) : first.text ≤ line.text := by
  rcases List.mem_cons.1 hline with rfl | hline
  · exact String.le_refl _
  · exact (List.pairwise_cons.1 (inTextOrder_iff.1 h)).1 line hline

/-- Lists in order with the same lines of each text are the same. -/
theorem eq_of_inTextOrder {ls ls' : List Line} (h : InTextOrder ls) (h' : InTextOrder ls')
    (hlines : ∀ text, linesWithText text ls = linesWithText text ls') : ls = ls' := by
  have hmem {ls ls' : List Line}
      (hlines : ∀ text, linesWithText text ls = linesWithText text ls') {line : Line}
      (hline : line ∈ ls) : line ∈ ls' := by
    have hkept := mem_linesWithText.2 ⟨hline, rfl⟩
    rw [hlines] at hkept
    exact (mem_linesWithText.1 hkept).1
  induction ls generalizing ls' with
  | nil =>
    cases ls' with
    | nil => rfl
    | cons first' rest' => exact nomatch hmem (fun text => (hlines text).symm) List.mem_cons_self
  | cons first rest ih =>
    cases ls' with
    | nil => exact nomatch hmem hlines List.mem_cons_self
    | cons first' rest' =>
      have htext : first.text = first'.text :=
        String.le_antisymm
          (h.head_le (hmem (fun text => (hlines text).symm) List.mem_cons_self))
          (h'.head_le (hmem hlines List.mem_cons_self))
      -- Both are the first line of the same text.
      have hfirst : first = first' := by
        have hheads := congrArg List.head? (hlines first.text)
        simpa [linesWithText, htext] using hheads
      subst hfirst
      have hrest (text : String) : linesWithText text rest = linesWithText text rest' := by
        have hboth := hlines text
        rw [linesWithText, linesWithText, List.filter_cons, List.filter_cons] at hboth
        split at hboth
        · exact (List.cons.inj hboth).2
        · exact hboth
      rw [ih (List.pairwise_cons.1 h).2 (List.pairwise_cons.1 h').2 hrest]

/-! ## Sorting -/

/-- Sorted lines are in order. -/
theorem inTextOrder_sortLines (ls : List Line) : InTextOrder (sortLines ls) := by
  rw [inTextOrder_iff]
  exact pairwise_mergeSort_le Line.text ls

/-- Sorting keeps the lines of each text, in order. -/
theorem linesWithText_sortLines (text : String) (ls : List Line) :
    linesWithText text (sortLines ls) = linesWithText text ls :=
  filter_mergeSort_le Line.text text ls

/-- Lines in order are sorted already. -/
theorem sortLines_of_inTextOrder {ls : List Line} (h : InTextOrder ls) : sortLines ls = ls :=
  List.mergeSort_of_pairwise ((inTextOrder_iff.1 h).imp decide_eq_true)

/-- Sorting is stable. -/
theorem isStableSort_sortLines (ls : List Line) : IsStableSort ls (sortLines ls) where
  perm := List.mergeSort_perm ls _
  ordered := inTextOrder_sortLines ls
  stable := fun text => linesWithText_sortLines text ls

/-- There is no other way to sort lines so that lines of equal text keep their order. -/
theorem IsStableSort.eq_sortLines {ls sorted : List Line} (h : IsStableSort ls sorted) :
    sorted = sortLines ls :=
  eq_of_inTextOrder h.ordered (inTextOrder_sortLines ls) fun text =>
    (h.stable text).trans (linesWithText_sortLines text ls).symm

/-- A sorted table has the lines of the unsorted one, in the order of the bytes of their texts, and
lines of equal text as the walk has them. It is the only list of this kind. Sorting does not change
lines that are in order, so it never changes lines that it has sorted. -/
theorem exportLines_sorted (globalTime : Bool) (root : Node) :
    (∀ ls, IsStableSort (exportLines ⟨globalTime, false⟩ root) ls ↔
        ls = exportLines ⟨globalTime, true⟩ root) ∧
      (∀ ls, InTextOrder ls → sortLines ls = ls) ∧
      ∀ ls, sortLines (sortLines ls) = sortLines ls := by
  refine ⟨?_, ?_, ?_⟩
  · intro ls
    constructor
    · intro h
      exact h.eq_sortLines
    · rintro rfl
      exact isStableSort_sortLines (exportLines ⟨globalTime, false⟩ root)
  · intro ls h
    exact sortLines_of_inTextOrder h
  · intro ls
    exact sortLines_of_inTextOrder (inTextOrder_sortLines ls)

/-- Two lines with the same text and different serials. -/
def Line.ofSerials : List Line :=
  [⟨"       -        2", some "-", none⟩, ⟨"       -        2", none, none⟩]

/-- They stay in either order. -/
theorem exportLines_sorted_ofSerials :
    InTextOrder Line.ofSerials ∧ sortLines Line.ofSerials = Line.ofSerials ∧
      InTextOrder Line.ofSerials.reverse ∧
      sortLines Line.ofSerials.reverse = Line.ofSerials.reverse := by
  obtain ⟨-, hsorted, -⟩ := exportLines_sorted false ⟨"/", [], none⟩
  have hordered : InTextOrder Line.ofSerials :=
    inTextOrder_iff.2 (List.pairwise_pair.2 (String.le_refl _))
  have hreversed : InTextOrder Line.ofSerials.reverse :=
    inTextOrder_iff.2 (List.pairwise_pair.2 (String.le_refl _))
  exact ⟨hordered, hsorted _ hordered, hreversed, hsorted _ hreversed⟩

end EventLog
