import Mathlib.Algebra.Order.Ring.Int
import Mathlib.Data.List.Induction
import EventLog.Text.Blank
import EventLog.Text.Numeral

/-!
# Numerals of unsigned words

A numeral is an optional plus sign and at least one decimal digit, with a value below `2 ^ 64`.
`readUnsigned_eq_ok` says that exactly these are read, as their values: digits are taken one by one,
and a value that fits is never exceeded on the way to it. The numerals of a word are its decimal
digits with any number of zeros in front (`isNumeral_iff`).
-/

namespace EventLog.Text

/-! ## Digits -/

theorem isDigit_eq (c : Char) : isDigit c = c.isDigit := by
  simp [isDigit, Char.isDigit, Char.le_def]

/-- The digits are the characters with ten code points in a row. -/
theorem isDigit_iff_toNat {d : Char} : d.isDigit = true ↔ 48 ≤ d.toNat ∧ d.toNat ≤ 57 := by
  simp [Char.isDigit, UInt32.le_iff_toNat_le]

/-- No digit is blank. -/
theorem isBlank_of_isDigit {c : Char} (h : c.isDigit = true) : isBlank c = false := by
  have hrange := isDigit_iff_toNat.1 h
  have hsolid : ¬ isBlank c = true := by
    simp only [isBlank, Bool.or_eq_true, Bool.and_eq_true, decide_eq_true_eq, beq_iff_eq]
    omega
  exact Bool.eq_false_iff.2 hsolid

/-- The decimal digits of a number are digits. -/
theorem isDigit_of_mem_toDigits {n : Nat} {c : Char} (hc : c ∈ Nat.toDigits 10 n) :
    isDigit c = true := by
  rw [isDigit_eq]
  exact Nat.isDigit_of_mem_toDigits (by decide) (by decide) hc

/-- Only zero is written with a leading zero. -/
theorem toDigits_head_ne_zero {n : Nat} (hn : 0 < n) : ∀ {c : Char} {cs : List Char},
    Nat.toDigits 10 n = c :: cs → c ≠ '0' := by
  induction n using Nat.strongRecOn with
  | _ n ih =>
    intro c cs h
    rcases Nat.lt_or_ge n 10 with hlt | hge
    · rw [Nat.toDigits_of_lt_base hlt] at h
      have hdigit : ∀ d < 10, 0 < d → Nat.digitChar d ≠ '0' := by decide
      cases h
      exact hdigit n hlt hn
    · rw [Nat.toDigits_of_base_le (by decide) hge] at h
      cases hq : Nat.toDigits 10 (n / 10) with
      | nil => exact absurd hq Nat.toDigits_ne_nil
      | cons d ds =>
        rw [hq] at h
        cases h
        exact ih (n / 10) (by omega) (by omega) hq

/-- The value of digits behind others. -/
theorem digitsValue_eq_ofDigitChars (acc : Nat) (cs : List Char) :
    digitsValue acc cs = Nat.ofDigitChars 10 cs acc := by
  rw [digitsValue, Nat.ofDigitChars_eq_foldl]
  simp only [Nat.mul_comm]
  rfl

/-- The digits of a number have its value. -/
theorem digitsValue_toDigits (n : Nat) : digitsValue 0 (Nat.toDigits 10 n) = n := by
  rw [digitsValue_eq_ofDigitChars, Nat.ofDigitChars_ten_toDigits]

/-- Digits only make a number larger. -/
theorem le_digitsValue (m : Nat) (ds : List Char) : m ≤ digitsValue m ds := by
  induction ds generalizing m with
  | nil => exact Nat.le_refl m
  | cons d ds ih => exact Nat.le_trans (by omega) (ih (m * 10 + (d.toNat - 48)))

/-- Digits in front of a text that begins with none are taken as a whole. -/
theorem takeWhile_isDigit {ds rest : List Char} (hd : ∀ c ∈ ds, isDigit c = true)
    (hr : ∀ c ∈ rest.head?, isDigit c = false) :
    (ds ++ rest).takeWhile isDigit = ds ∧ (ds ++ rest).dropWhile isDigit = rest := by
  have htake : rest.takeWhile isDigit = [] ∧ rest.dropWhile isDigit = rest := by
    cases rest with
    | nil => simp
    | cons c rest => simp [hr c rfl]
  rw [List.takeWhile_append_of_pos hd, List.dropWhile_append_of_pos hd, htake.1, htake.2]
  exact ⟨List.append_nil ds, rfl⟩

/-! ## Numerals are read -/

/-- A numeral of a 64-bit unsigned word: decimal digits of its value, perhaps behind a plus sign. -/
def IsNumeral (cs : List Char) (n : UInt64) : Prop :=
  ∃ digits, (cs = digits ∨ cs = '+' :: digits) ∧ digits ≠ [] ∧
    (∀ c ∈ digits, c.isDigit = true) ∧ Nat.ofDigitChars 10 digits 0 = n.toNat

/-- Digits are read, and nothing else, as long as their value fits. -/
theorem readDigits_eq_ok {acc n : Nat} {cs : List Char} (hacc : acc < UInt64.size) :
    readDigits acc cs = .ok n ↔
      (∀ c ∈ cs, c.isDigit = true) ∧ Nat.ofDigitChars 10 cs acc = n ∧ n < UInt64.size := by
  induction cs generalizing acc with
  | nil =>
    simp only [readDigits, Except.ok.injEq, Nat.ofDigitChars_nil]
    exact ⟨fun h => ⟨nofun, h, h ▸ hacc⟩, fun h => h.2.1⟩
  | cons c cs ih =>
    rw [readDigits, digit?, isDigit_eq, List.forall_mem_cons, Nat.ofDigitChars_cons]
    by_cases hdigit : c.isDigit = true
    · have hvalue : 10 * acc + (c.toNat - '0'.toNat) = acc * 10 + (c.toNat - 48) := by
        rw [Nat.mul_comm]
        rfl
      rw [if_pos hdigit, hvalue]
      by_cases hfits : acc * 10 + (c.toNat - 48) < UInt64.size
      · simp only [hfits, if_true, ih hfits, hdigit, true_and]
      · have hle := le_digitsValue (acc * 10 + (c.toNat - 48)) cs
        rw [digitsValue_eq_ofDigitChars] at hle
        simp only [hfits, if_false, reduceCtorEq, hdigit, true_and, false_iff]
        omega
    · simp [hdigit]

/-- Digits of a word are read as the word. -/
theorem map_readDigits_eq_ok {cs : List Char} {n : UInt64} :
    (readDigits 0 cs).map UInt64.ofNat = .ok n ↔
      (∀ c ∈ cs, c.isDigit = true) ∧ Nat.ofDigitChars 10 cs 0 = n.toNat := by
  have hread : readDigits 0 cs = .ok n.toNat ↔ _ := readDigits_eq_ok (by decide)
  have hn : n.toNat < UInt64.size := n.toNat_lt
  constructor
  · intro h
    cases hdigits : readDigits 0 cs with
    | error fault =>
      rw [hdigits] at h
      cases h
    | ok m =>
      rw [hdigits] at h
      cases h
      obtain ⟨hall, hvalue, hm⟩ := (readDigits_eq_ok (by decide)).1 hdigits
      rw [UInt64.toNat_ofNat_of_lt' hm]
      exact ⟨hall, hvalue⟩
  · rintro ⟨hall, hvalue⟩
    rw [hread.2 ⟨hall, hvalue, hn⟩, Except.map, UInt64.ofNat_toNat]

/-- Exactly the numerals are read, as their values. -/
theorem readUnsigned_eq_ok {cs : List Char} {n : UInt64} :
    readUnsigned cs = .ok n ↔ IsNumeral cs n := by
  have hplus : ¬ '+'.isDigit = true := by decide
  constructor
  · intro h
    unfold readUnsigned at h
    split at h
    · cases h
    · cases h
    · next rest hne =>
      obtain ⟨hall, hvalue⟩ := map_readDigits_eq_ok.1 h
      exact ⟨rest, .inr rfl, fun hnil => hne (by rw [hnil]), hall, hvalue⟩
    · next hnil _ _ =>
      obtain ⟨hall, hvalue⟩ := map_readDigits_eq_ok.1 h
      exact ⟨cs, .inl rfl, hnil, hall, hvalue⟩
  · rintro ⟨digits, rfl | rfl, hne, hall, hvalue⟩
    · unfold readUnsigned
      split
      · exact absurd rfl hne
      · exact absurd (hall '+' List.mem_cons_self) hplus
      · exact absurd (hall '+' List.mem_cons_self) hplus
      · exact map_readDigits_eq_ok.2 ⟨hall, hvalue⟩
    · obtain ⟨d, ds, rfl⟩ := List.exists_cons_of_ne_nil hne
      exact map_readDigits_eq_ok.2 ⟨hall, hvalue⟩

/-! ## The numerals of a word -/

/-- The decimal digits of a word, with zeros and perhaps a plus sign in front. -/
def numeral (plus : Bool) (zeros : Nat) (n : UInt64) : List Char :=
  (if plus then ['+'] else []) ++ (List.replicate zeros '0' ++ Nat.toDigits 10 n.toNat)

/-- A digit is the one that is written for its value. -/
theorem toDigits_of_isDigit {d : Char} (hd : d.isDigit = true) :
    Nat.toDigits 10 (d.toNat - 48) = [d] := by
  have hrange := isDigit_iff_toNat.1 hd
  have hten : d.toNat - 48 < 10 := by omega
  rw [Nat.toDigits_of_lt_base hten, List.singleton_inj]
  refine Char.toNat_inj.1 ?_
  rw [Nat.toNat_digitChar_of_lt_ten hten]
  omega

/-- Digits are the decimal ones of their value, with zeros in front. -/
theorem eq_zeros_append_toDigits {digits : List Char} (hne : digits ≠ [])
    (hdigits : ∀ c ∈ digits, c.isDigit = true) :
    ∃ zeros, digits =
      List.replicate zeros '0' ++ Nat.toDigits 10 (Nat.ofDigitChars 10 digits 0) := by
  -- the last digit is taken off, as it is when a number is written
  induction digits using List.reverseRecOn with
  | nil => exact absurd rfl hne
  | append_singleton front d ih =>
    obtain ⟨hfront, hlast⟩ := List.forall_mem_append.1 hdigits
    have hd : d.isDigit = true := hlast d (List.mem_singleton_self d)
    have hten : d.toNat - 48 < 10 := by
      have hrange := isDigit_iff_toNat.1 hd
      omega
    have hvalue : Nat.ofDigitChars 10 (front ++ [d]) 0 =
        10 * Nat.ofDigitChars 10 front 0 + (d.toNat - 48) := by
      rw [Nat.ofDigitChars_append, Nat.ofDigitChars_cons, Nat.ofDigitChars_nil]
      rfl
    rw [hvalue]
    by_cases hnil : front = []
    · subst hnil
      refine ⟨0, ?_⟩
      rw [Nat.ofDigitChars_nil, Nat.mul_zero, Nat.zero_add, toDigits_of_isDigit hd]
      rfl
    · obtain ⟨zeros, hzeros⟩ := ih hnil hfront
      generalize Nat.ofDigitChars 10 front 0 = value at hzeros
      rcases Nat.eq_zero_or_pos value with rfl | hpos
      · refine ⟨zeros + 1, ?_⟩
        rw [hzeros, Nat.mul_zero, Nat.zero_add, toDigits_of_isDigit hd, List.replicate_succ']
        rfl
      · refine ⟨zeros, ?_⟩
        rw [← Nat.toDigits_append_toDigits (by decide) hpos hten, toDigits_of_isDigit hd,
          ← List.append_assoc, ← hzeros]

/-- The numerals of a word are its decimal digits, with zeros and perhaps a plus sign in front. -/
theorem isNumeral_iff {cs : List Char} {n : UInt64} :
    IsNumeral cs n ↔ ∃ plus zeros, cs = numeral plus zeros n := by
  constructor
  · rintro ⟨digits, hcs, hne, hdigits, hvalue⟩
    obtain ⟨zeros, hzeros⟩ := eq_zeros_append_toDigits hne hdigits
    rw [hvalue] at hzeros
    rcases hcs with rfl | rfl
    · exact ⟨false, zeros, hzeros⟩
    · exact ⟨true, zeros, congrArg ('+' :: ·) hzeros⟩
  · rintro ⟨plus, zeros, rfl⟩
    refine ⟨List.replicate zeros '0' ++ Nat.toDigits 10 n.toNat, ?_, ?_, ?_, ?_⟩
    · cases plus
      · exact .inl rfl
      · exact .inr rfl
    · simp
    · refine List.forall_mem_append.2 ⟨fun c hc => ?_, fun c hc => ?_⟩
      · rw [List.eq_of_mem_replicate hc]
        rfl
      · exact Nat.isDigit_of_mem_toDigits (by decide) (by decide) hc
    · rw [Nat.ofDigitChars_append, Nat.ofDigitChars_replicate_zero, Nat.mul_zero,
        Nat.ofDigitChars_ten_toDigits]

/-! ## Numerals without leading zeros -/

/-- A decimal numeral without leading zeros, of no more digits than the width. -/
structure IsDecimal (width : Nat) (text : String) : Prop where
  nonempty : text ≠ ""
  digits : ∀ c ∈ text.toList, c.isDigit = true
  canonical : text.toList.head? = some '0' → text = "0"
  length_le : text.length ≤ width

/-- The number that a numeral stands for. -/
def numberOf (text : String) : Nat :=
  Nat.ofDigitChars 10 text.toList 0

/-- A numeral without leading zeros is the one that is written for its number. -/
theorem IsDecimal.toList_eq {width : Nat} {text : String} (h : IsDecimal width text) :
    text.toList = Nat.toDigits 10 (numberOf text) := by
  have hne : text.toList ≠ [] := mt String.toList_eq_nil_iff.1 h.nonempty
  obtain ⟨zeros, hzeros⟩ := eq_zeros_append_toDigits hne h.digits
  cases zeros with
  | zero => exact hzeros
  | succ zeros =>
    rw [h.canonical (by rw [hzeros]; rfl)]
    rfl

theorem IsDecimal.eq_toString {width : Nat} {text : String} (h : IsDecimal width text) :
    text = toString (numberOf text) :=
  String.toList_inj.1 (h.toList_eq.trans Nat.toList_repr.symm)

/-- The number fits the width. -/
theorem IsDecimal.numberOf_lt {width : Nat} {text : String} (h : IsDecimal width text) :
    numberOf text < 10 ^ width := by
  have hlength : (Nat.toDigits 10 (numberOf text)).length ≤ width := by
    rw [← h.toList_eq, String.length_toList]
    exact h.length_le
  have hpos : 0 < (Nat.toDigits 10 (numberOf text)).length :=
    List.length_pos_iff.2 Nat.toDigits_ne_nil
  exact (Nat.length_toDigits_le_iff (by decide) (by omega)).1 hlength

/-! ## Numbers inside texts -/

/-- A text that no number in front of it can reach into: it does not begin with a digit. -/
def EndsNumber (text : String) : Prop := ∀ c ∈ text.toList.head?, isDigit c = false

theorem EndsNumber.empty : EndsNumber "" := nofun

instance (text : String) : Decidable (EndsNumber text) :=
  decidable_of_iff (text.toList.head?.all (fun c => !isDigit c) = true) <| by
    cases h : text.toList.head? <;> simp [EndsNumber, h]

/-- A text goes on as it begins. -/
theorem EndsNumber.append {lead : String} (hne : lead ≠ "") (h : EndsNumber lead)
    (rest : String) : EndsNumber (lead ++ rest) := by
  obtain ⟨c, cs, hlead⟩ := List.exists_cons_of_ne_nil (mt String.toList_eq_nil_iff.1 hne)
  rw [EndsNumber, hlead] at h
  rwa [EndsNumber, String.toList_append, hlead]

/-- A number in front of a text that it cannot reach into is told apart from the text. -/
theorem natural_append_inj {m n : Nat} {a b : String} (ha : EndsNumber a) (hb : EndsNumber b) :
    toString m ++ a = toString n ++ b ↔ m = n ∧ a = b := by
  refine ⟨fun h => ?_, fun ⟨hm, hab⟩ => by rw [hm, hab]⟩
  have hchars : Nat.toDigits 10 m ++ a.toList = Nat.toDigits 10 n ++ b.toList := by
    simpa using congrArg String.toList h
  obtain ⟨hm, ha⟩ := takeWhile_isDigit (fun _ => isDigit_of_mem_toDigits (n := m)) ha
  obtain ⟨hn, hb⟩ := takeWhile_isDigit (fun _ => isDigit_of_mem_toDigits (n := n)) hb
  rw [hchars, hn] at hm
  rw [hchars, hb] at ha
  refine ⟨?_, String.toList_inj.1 ha.symm⟩
  rw [← digitsValue_toDigits m, ← hm, digitsValue_toDigits]

theorem natural_inj {m n : Nat} : toString m = toString n ↔ m = n := by
  have h := natural_append_inj (m := m) (n := n) .empty .empty
  rwa [String.append_empty, String.append_empty, and_iff_left rfl] at h

/-- A number is no text that begins with a sign. -/
theorem natural_append_ne_minus (n : Nat) (a b : String) : toString n ++ a ≠ "-" ++ b := by
  intro h
  have hchars : Nat.toDigits 10 n ++ a.toList = '-' :: b.toList := by
    simpa using congrArg String.toList h
  cases hdigits : Nat.toDigits 10 n with
  | nil => exact absurd hdigits Nat.toDigits_ne_nil
  | cons c cs =>
    have hc : isDigit c = true := isDigit_of_mem_toDigits (hdigits ▸ List.mem_cons_self)
    rw [hdigits, List.cons_append] at hchars
    rw [(List.cons.inj hchars).1] at hc
    cases hc

/-- An integer in front of a text that it cannot reach into is told apart from the text. -/
theorem integer_append_inj {i j : Int} {a b : String} (ha : EndsNumber a) (hb : EndsNumber b) :
    toString i ++ a = toString j ++ b ↔ i = j ∧ a = b := by
  have hnegative (n : Nat) (c : String) :
      toString (Int.negSucc n) ++ c = "-" ++ (toString (n + 1) ++ c) := String.append_assoc
  rcases i with m | m
  · rcases j with n | n
    · exact (natural_append_inj ha hb).trans (and_congr_left' Int.ofNat_inj.symm)
    · rw [hnegative]
      exact iff_of_false (natural_append_ne_minus m a _) (fun h => nomatch h.1)
  · rcases j with n | n
    · rw [hnegative]
      exact iff_of_false (natural_append_ne_minus n b _).symm (fun h => nomatch h.1)
    · rw [hnegative, hnegative, String.append_right_inj, natural_append_inj ha hb,
        Nat.add_right_cancel_iff, Int.negSucc_inj]

theorem integer_inj {i j : Int} : toString i = toString j ↔ i = j := by
  have h := integer_append_inj (i := i) (j := j) .empty .empty
  rwa [String.append_empty, String.append_empty, and_iff_left rfl] at h

end EventLog.Text
