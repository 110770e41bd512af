import Mathlib.Data.String.Basic

/-!
# Sorting by a text

What is sorted by a text stands in the order of the texts (`pairwise_mergeSort_le`), and the
elements with a given text stand in the order that they had (`filter_mergeSort_le`): they are in
order already, so sorting does not move them past each other.
-/

namespace EventLog.Text

variable {α : Type} (key : α → String)

/-- Comparing by a text is transitive. -/
theorem decide_le_trans (a b c : α) (hab : decide (key a ≤ key b) = true)
    (hbc : decide (key b ≤ key c) = true) : decide (key a ≤ key c) = true :=
  decide_eq_true (String.le_trans (of_decide_eq_true hab) (of_decide_eq_true hbc))

/-- Comparing by a text is total. -/
theorem decide_le_total (a b : α) :
    (decide (key a ≤ key b) || decide (key b ≤ key a)) = true :=
  Bool.or_eq_true_iff.2 ((String.le_total _ _).imp decide_eq_true decide_eq_true)

/-- Sorted elements stand in the order of their texts. -/
theorem pairwise_mergeSort_le (xs : List α) :
    (xs.mergeSort fun a b => key a ≤ key b).Pairwise fun a b => key a ≤ key b :=
  (List.pairwise_mergeSort (decide_le_trans key) (decide_le_total key) xs).imp of_decide_eq_true

/-- Elements with the same text keep their order. -/
theorem filter_mergeSort_le (text : String) (xs : List α) :
    (xs.mergeSort fun a b => key a ≤ key b).filter (key · = text) =
      xs.filter (key · = text) := by
  have hkey : ∀ a ∈ xs.filter (key · = text), key a = text := by
    intro a ha
    exact of_decide_eq_true (List.mem_filter.1 ha).2
  have hordered : (xs.filter (key · = text)).Pairwise fun a b => decide (key a ≤ key b) = true := by
    refine List.pairwise_of_forall_mem_list ?_
    intro a ha b hb
    rw [hkey a ha, hkey b hb]
    exact decide_eq_true (String.le_refl text)
  have hsublist : (xs.filter (key · = text)).Sublist (xs.mergeSort fun a b => key a ≤ key b) :=
    List.sublist_mergeSort (decide_le_trans key) (decide_le_total key) hordered
      List.filter_sublist
  have hkept : (xs.filter (key · = text)).Sublist
      ((xs.mergeSort fun a b => key a ≤ key b).filter (key · = text)) := by
    have hall : (xs.filter (key · = text)).filter (key · = text) = xs.filter (key · = text) :=
      List.filter_eq_self.2 fun a ha => decide_eq_true (hkey a ha)
    rw [← hall]
    exact hsublist.filter _
  have hlength : ((xs.mergeSort fun a b => key a ≤ key b).filter (key · = text)).length =
      (xs.filter (key · = text)).length :=
    ((List.mergeSort_perm xs _).filter _).length_eq
  exact (hkept.eq_of_length hlength.symm).symm

end EventLog.Text
