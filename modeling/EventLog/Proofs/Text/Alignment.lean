import Mathlib.Data.Char
import Mathlib.Data.String.Basic
import EventLog.Proofs.Text.Numerals
import EventLog.Text.Column

/-!
# The order of aligned numerals

Texts are compared character by character (`compare_eq_toList`), so texts that begin with parts of
one length are compared by these parts first (`compare_append`). Numbers in columns of one width are
compared as numbers (`compare_aligned`), because a space comes before every digit: without its last
character, an aligned numeral is that of a tenth of the number, with nothing in place of zero, and
so the comparison is one by tenths first and by last digits then.
-/

namespace EventLog.Text

/-! ## Texts -/

/-- Characters are compared as numbers if their code points are in the order of the numbers. -/
theorem compare_char {c d : Char} {m n : Nat} (hlt : c.toNat < d.toNat ↔ m < n)
    (hgt : d.toNat < c.toNat ↔ n < m) : compare c d = compare m n := by
  have hpoints : compare c d = compare c.toNat d.toNat := by
    have hlt : c < d ↔ c.toNat < d.toNat := Iff.rfl
    change compareOfLessAndEq c d = compareOfLessAndEq c.toNat d.toNat
    simp only [compareOfLessAndEq, hlt, Char.toNat_inj]
  rw [hpoints, Nat.compare_eq_ite_lt, Nat.compare_eq_ite_lt]
  simp only [hlt, hgt]

/-- The order of lists of characters is lexicographic. -/
theorem compareOfLessAndEq_eq_compare (cs ds : List Char) :
    compareOfLessAndEq cs ds = compare cs ds := by
  induction cs generalizing ds with
  | nil => cases ds <;> rfl
  | cons c cs ih =>
    cases ds with
    | nil => rfl
    | cons d ds =>
      rw [List.compare_cons_cons, ← ih]
      change _ = (compareOfLessAndEq c d).then _
      simp only [compareOfLessAndEq, List.cons_lt_cons_iff, List.cons.injEq]
      rcases lt_trichotomy c d with hlt | rfl | hgt
      · simp [hlt]
      · simp
      · simp [hgt.ne', hgt.not_gt]

/-- Texts are compared as lists of characters. -/
theorem compare_eq_toList (a b : String) : compare a b = compare a.toList b.toList := by
  rw [← compareOfLessAndEq_eq_compare]
  change compareOfLessAndEq a b = _
  simp only [compareOfLessAndEq, String.lt_iff_toList_lt, String.toList_inj]

/-- The order of texts is that of comparing them. -/
theorem le_iff_isLE_compare {a b : String} : a ≤ b ↔ (compare a b).isLE :=
  (isLE_compareOfLessAndEq String.le_antisymm String.not_le String.le_total).symm

/-- Lists whose beginnings have one length are compared by the beginnings first. -/
theorem compare_append {α : Type} [Ord α] {front front' : List α}
    (h : front.length = front'.length) (rest rest' : List α) :
    compare (front ++ rest) (front' ++ rest') =
      (compare front front').then (compare rest rest') := by
  induction front generalizing front' with
  | nil =>
    rw [List.eq_nil_of_length_eq_zero h.symm]
    rfl
  | cons a front ih =>
    cases front' with
    | nil => cases h
    | cons b front' =>
      rw [List.cons_append, List.cons_append, List.compare_cons_cons, List.compare_cons_cons,
        ih (Nat.succ.inj h), Ordering.then_assoc]

/-! ## Numerals -/

/-- The last digit of a number, with nothing in place of zero. -/
def lastDigit (n : Nat) : Char :=
  if n = 0 then ' ' else (n % 10).digitChar

theorem toNat_lastDigit (n : Nat) : (lastDigit n).toNat = if n = 0 then 32 else 48 + n % 10 := by
  rw [lastDigit]
  split
  · rfl
  · exact Nat.toNat_digitChar_of_lt_ten (Nat.mod_lt n (by decide))

/-- The characters in front of the last one of an aligned numeral, for a tenth of its number. -/
def leading : Nat → Nat → List Char
  | 0, _ => []
  | width + 1, n => leading width (n / 10) ++ [lastDigit n]

theorem length_leading (width n : Nat) : (leading width n).length = width := by
  induction width generalizing n with
  | zero => rfl
  | succ width ih => rw [leading, List.length_append, ih, List.length_singleton]

/-- In front of a number below ten there are spaces only. -/
theorem leading_zero (width : Nat) : leading width 0 = List.replicate width ' ' := by
  induction width with
  | zero => rfl
  | succ width ih => rw [leading, Nat.zero_div, ih, List.replicate_succ', lastDigit, if_pos rfl]

/-- Leading characters are those of the numeral itself, unless it is zero. -/
theorem leading_of_pos {width n : Nat} (hpos : 0 < n) (hn : n < 10 ^ width) :
    leading width n =
      List.replicate (width - (Nat.toDigits 10 n).length) ' ' ++ Nat.toDigits 10 n := by
  induction width generalizing n with
  | zero => omega
  | succ width ih =>
    rw [leading, lastDigit, if_neg (Nat.ne_of_gt hpos)]
    by_cases hten : n < 10
    · rw [Nat.div_eq_of_lt hten, leading_zero, Nat.toDigits_of_lt_base hten, Nat.mod_eq_of_lt hten]
      rfl
    · rw [ih (by omega) (by omega), Nat.toDigits_of_base_le (n := n) (by decide) (by omega),
        List.length_append, List.length_singleton, Nat.add_sub_add_right, List.append_assoc]

/-- Numbers are compared by their tenths first, and then by something else. -/
theorem compare_div_then {m n : Nat} {last : Ordering}
    (h : m / 10 = n / 10 → last = compare m n) :
    (compare (m / 10) (n / 10)).then last = compare m n := by
  rcases Nat.lt_trichotomy (m / 10) (n / 10) with hlt | heq | hgt
  · rw [Nat.compare_eq_lt.2 hlt, Nat.compare_eq_lt.2 (by omega : m < n)]
    rfl
  · rw [Nat.compare_eq_eq.2 heq, h heq]
    rfl
  · rw [Nat.compare_eq_gt.2 hgt, Nat.compare_eq_gt.2 (by omega : n < m)]
    rfl

/-- Last digits of numbers with the same tenth are in the order of the numbers. -/
theorem compare_lastDigit {m n : Nat} (h : m / 10 = n / 10) :
    compare (lastDigit m) (lastDigit n) = compare m n := by
  refine compare_char ?_ ?_
  all_goals
    rw [toNat_lastDigit, toNat_lastDigit]
    split <;> split <;> omega

/-- Leading characters are in the order of the numbers. -/
theorem compare_leading {width m n : Nat} (hm : m < 10 ^ width) (hn : n < 10 ^ width) :
    compare (leading width m) (leading width n) = compare m n := by
  induction width generalizing m n with
  | zero =>
    obtain rfl : m = 0 := Nat.lt_one_iff.1 hm
    obtain rfl : n = 0 := Nat.lt_one_iff.1 hn
    rfl
  | succ width ih =>
    rw [leading, leading,
      compare_append ((length_leading ..).trans (length_leading ..).symm), ih (by omega) (by omega),
      List.compare_cons_cons, List.compare_nil_nil, Ordering.then_eq]
    exact compare_div_then compare_lastDigit

/-- An aligned numeral is what leads it for a tenth of the number, and the last digit. -/
theorem toList_alignRight_toString {width n : Nat} (hn : n < 10 ^ (width + 1)) :
    (alignRight (width + 1) (toString n)).toList =
      leading width (n / 10) ++ [(n % 10).digitChar] := by
  have htext : (toString n).toList = Nat.toDigits 10 n := Nat.toList_repr
  rw [toList_alignRight, ← String.length_toList, htext]
  rcases Nat.eq_zero_or_pos n with rfl | hpos
  · rw [Nat.zero_div, leading_zero]
    rfl
  · rw [← leading_of_pos hpos hn, leading, lastDigit, if_neg (Nat.ne_of_gt hpos)]

/-- Aligned numerals are in the order of the numbers, if these fit their column. -/
theorem compare_aligned {width m n : Nat} (hm : m < 10 ^ width) (hn : n < 10 ^ width) :
    compare (alignRight width (toString m)).toList (alignRight width (toString n)).toList =
      compare m n := by
  cases width with
  | zero =>
    obtain rfl : m = 0 := Nat.lt_one_iff.1 hm
    obtain rfl : n = 0 := Nat.lt_one_iff.1 hn
    rfl
  | succ width =>
    rw [toList_alignRight_toString hm, toList_alignRight_toString hn,
      compare_append ((length_leading ..).trans (length_leading ..).symm),
      compare_leading (by omega) (by omega), List.compare_cons_cons, List.compare_nil_nil,
      Ordering.then_eq]
    refine compare_div_then fun htenth => compare_char ?_ ?_
    all_goals
      rw [Nat.toNat_digitChar_of_lt_ten (Nat.mod_lt m (by decide)),
        Nat.toNat_digitChar_of_lt_ten (Nat.mod_lt n (by decide))]
      omega

/-- Numerals that fit their column are of one length in it. -/
theorem length_aligned {width m n : Nat} (hm : m < 10 ^ width) (hn : n < 10 ^ width) :
    (alignRight width (toString m)).toList.length =
      (alignRight width (toString n)).toList.length := by
  cases width with
  | zero =>
    obtain rfl : m = 0 := Nat.lt_one_iff.1 hm
    obtain rfl : n = 0 := Nat.lt_one_iff.1 hn
    rfl
  | succ width =>
    simp only [toList_alignRight_toString hm, toList_alignRight_toString hn, List.length_append,
      length_leading, List.length_singleton]

end EventLog.Text
