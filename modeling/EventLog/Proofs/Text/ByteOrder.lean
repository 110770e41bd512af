import Mathlib.Data.String.Basic
import EventLog.Output

/-!
# The order of bytes

Texts are compared character by character, and this is the order of their bytes
(`bytesOf_le_bytesOf`). The code point of a character is written with digits to the base 64, one in
each byte (`markedBytes`), and a marker in the first byte tells how many bytes follow. Longer code
points have larger markers, so characters with different numbers of bytes differ in the first byte
already (`lead_lt_lead`), and others are compared digit by digit (`markedBytes_append_lt`). Whatever
stands behind the characters does not count as long as they differ.
-/

namespace EventLog.Text

/-! ## Digits -/

/-- A number in bytes: a marker is added to its first digit, and behind it stand as many digits to
the base 64 as are counted. -/
def markedBytes (marker : Nat) : Nat → Nat → List UInt8
  | 0, n => [UInt8.ofNat (n + marker)]
  | count + 1, n => markedBytes marker count (n / 64) ++ [UInt8.ofNat (n % 64 + 0x80)]

/-- The first of the bytes of a number. -/
theorem exists_markedBytes (marker count n : Nat) :
    ∃ rest, markedBytes marker count n = UInt8.ofNat (n / 64 ^ count + marker) :: rest := by
  induction count generalizing n with
  | zero => exact ⟨[], by rw [markedBytes, Nat.pow_zero, Nat.div_one]⟩
  | succ count ih =>
    obtain ⟨rest, hrest⟩ := ih (n / 64)
    refine ⟨rest ++ [UInt8.ofNat (n % 64 + 0x80)], ?_⟩
    rw [markedBytes, hrest, Nat.div_div_eq_div_mul, ← Nat.pow_succ', List.cons_append]

/-- Bytes are in the order of their numbers. -/
theorem ofNat_lt_ofNat {m n : Nat} (h : m < n) (hn : n < 256) : UInt8.ofNat m < UInt8.ofNat n :=
  (UInt8.ofNat_lt_iff_lt (Nat.lt_trans h hn) hn).2 h

/-- Numbers with the same number of digits are in the order of their bytes. -/
theorem markedBytes_append_lt {marker count m n : Nat} (hfirst : n / 64 ^ count + marker < 256)
    (h : m < n) (rest rest' : List UInt8) :
    markedBytes marker count m ++ rest < markedBytes marker count n ++ rest' := by
  induction count generalizing m n rest rest' with
  | zero =>
    rw [Nat.pow_zero, Nat.div_one] at hfirst
    exact List.cons_lt_cons_iff.2 (.inl (ofNat_lt_ofNat (by omega) hfirst))
  | succ count ih =>
    rw [markedBytes, markedBytes, List.append_assoc, List.append_assoc]
    rcases Nat.lt_or_eq_of_le (Nat.div_le_div_right (c := 64) (Nat.le_of_lt h)) with hlt | heq
    · refine ih ?_ hlt _ _
      rwa [Nat.div_div_eq_div_mul, ← Nat.pow_succ']
    · -- The digits in front are the same, so the last one decides.
      rw [heq]
      refine List.append_left_lt (List.cons_lt_cons_iff.2 (.inl (ofNat_lt_ofNat ?_ ?_)))
      all_goals omega

/-! ## Characters -/

/-- How many bytes follow the first one of a code point. -/
def following (n : Nat) : Nat :=
  if n ≤ 0x7f then 0 else if n ≤ 0x7ff then 1 else if n ≤ 0xffff then 2 else 3

/-- The marker of a first byte that so many bytes follow. -/
def leadMarker : Nat → Nat
  | 0 => 0
  | 1 => 0xc0
  | 2 => 0xe0
  | _ => 0xf0

/-- The first byte of a code point, as a number. -/
def lead (n : Nat) : Nat :=
  n / 64 ^ following n + leadMarker (following n)

/-- Code points have 21 bits at most. -/
theorem codePoint_lt (c : Char) : c.toNat < 0x110000 := by
  rcases c.valid with hlow | ⟨-, hhigh⟩
  · exact Nat.lt_trans hlow (by decide)
  · exact hhigh

/-- A character is its code point in bytes. -/
theorem utf8EncodeChar_eq (c : Char) :
    String.utf8EncodeChar c =
      markedBytes (leadMarker (following c.toNat)) (following c.toNat) c.toNat := by
  have hc : c.toNat < 0x110000 := codePoint_lt c
  have hval : c.val.toNat = c.toNat := rfl
  simp only [String.utf8EncodeChar, hval, following]
  split_ifs with h1 h2 h3
  · rfl
  · have hlead : c.toNat / 64 % 32 = c.toNat / 64 := Nat.mod_eq_of_lt (by omega)
    rw [hlead]
    rfl
  · have hlead : c.toNat / 4096 % 16 = c.toNat / 64 / 64 := by omega
    rw [hlead]
    rfl
  · have hlead : c.toNat / 262144 % 8 = c.toNat / 64 / 64 / 64 := by omega
    have hnext : c.toNat / 4096 % 64 = c.toNat / 64 / 64 % 64 := by omega
    rw [hlead, hnext]
    rfl

/-- The first byte of a character is a byte. -/
theorem lead_lt (c : Char) : lead c.toNat < 256 := by
  have hc : c.toNat < 0x110000 := codePoint_lt c
  rw [lead, following]
  split_ifs
  all_goals
    simp only [leadMarker]
    omega

/-- The first byte tells how many bytes follow. -/
theorem lead_lt_lead {m n : Nat} (h : following m < following n) : lead m < lead n := by
  revert h
  rw [lead, lead, following, following]
  split_ifs
  all_goals
    simp only [leadMarker]
    omega

/-- The smaller of two characters comes first, whatever stands behind them. -/
theorem utf8EncodeChar_append_lt {c d : Char} (h : c < d) (rest rest' : List UInt8) :
    String.utf8EncodeChar c ++ rest < String.utf8EncodeChar d ++ rest' := by
  have hlt : c.toNat < d.toNat := h
  have hfollowing : following c.toNat ≤ following d.toNat := by
    rw [following, following]
    split_ifs <;> omega
  rw [utf8EncodeChar_eq, utf8EncodeChar_eq]
  rcases Nat.lt_or_eq_of_le hfollowing with hless | hsame
  · obtain ⟨bytes, hbytes⟩ := exists_markedBytes (leadMarker (following c.toNat))
      (following c.toNat) c.toNat
    obtain ⟨bytes', hbytes'⟩ := exists_markedBytes (leadMarker (following d.toNat))
      (following d.toNat) d.toNat
    rw [hbytes, hbytes']
    exact List.cons_lt_cons_iff.2 (.inl (ofNat_lt_ofNat (lead_lt_lead hless) (lead_lt d)))
  · rw [hsame]
    exact markedBytes_append_lt (lead_lt d) hlt rest rest'

/-! ## Texts -/

/-- The bytes of a text are those of its characters. -/
theorem bytesOf_eq_flatMap (text : String) :
    bytesOf text = text.toList.flatMap String.utf8EncodeChar := by
  rw [bytesOf, String.toUTF8_eq_toByteArray, ← String.utf8Encode_toList, List.utf8Encode,
    List.toList_data_toByteArray]

/-- Lists of characters are in the order of their bytes. -/
theorem flatMap_lt_flatMap {cs ds : List Char} (h : cs < ds) :
    cs.flatMap String.utf8EncodeChar < ds.flatMap String.utf8EncodeChar := by
  induction h with
  | @nil c ds =>
    obtain ⟨byte, rest, hbytes⟩ := List.exists_cons_of_ne_nil (String.utf8EncodeChar_ne_nil (c := c))
    rw [List.flatMap_cons, hbytes]
    exact .nil
  | rel h => exact utf8EncodeChar_append_lt h _ _
  | cons _ ih =>
    rw [List.flatMap_cons, List.flatMap_cons]
    exact List.append_left_lt ih

/-- Texts are in the order of their bytes. -/
theorem bytesOf_le_bytesOf {a b : String} : bytesOf a ≤ bytesOf b ↔ a ≤ b := by
  have hlt {a b : String} (h : a < b) : bytesOf a < bytesOf b := by
    rw [bytesOf_eq_flatMap, bytesOf_eq_flatMap]
    exact flatMap_lt_flatMap (String.lt_iff_toList_lt.1 h)
  constructor
  · intro hbytes
    refine String.not_lt.1 fun h => ?_
    exact hbytes (hlt h)
  · intro hle
    rcases lt_or_eq_of_le hle with h | rfl
    · exact List.le_of_lt (hlt h)
    · exact List.le_refl _

end EventLog.Text
