import EventLog.Proofs.Binary64.Range
import EventLog.Proofs.Json.Grammar
import EventLog.Proofs.Json.Limits

/-!
# Strings and numbers of the grammar read

What a reader makes of the lexemes of the grammar: a string is read as the text that it stands for,
if it stands for any (`readString_tail`), and a number as its value, if that is in range
(`readNumber_text`), as it is with up to 286 digits in front of its point, where the exponent moves
that to (`Number.isSome_value?`). Statements of this kind are about the result of a reader as an
option, since of a text that is refused it only matters that it is: steps in a row are then steps in
a row of options (`toOption_bind`).
-/

namespace EventLog.Json

open EventLog.Text

/-! ## Results that may be faults -/

section

variable {ε α β : Type}

/-- A sequence of steps gives what the second makes of the result of the first. -/
theorem toOption_bind (x : Except ε α) (f : α → Except ε β) :
    (x >>= f).toOption = x.toOption.bind fun a => (f a).toOption := by
  cases x <;> rfl

/-- Another kind of faults makes no difference to the result. -/
@[simp] theorem toOption_lift (raise : Fault → ε) (x : Except Fault α) :
    (lift raise x).toOption = x.toOption := by
  cases x <;> rfl

end

/-- A character in front changes the text of a result. -/
theorem toOption_prepend (c : Char) (x : Except Fault (List Char × List Char)) :
    (prepend c x).toOption = x.toOption.map fun (text, rest) => (c :: text, rest) := by
  cases x <;> rfl

/-! ## Blanks -/

/-- Blanks in front of what is read are passed over. -/
@[simp] theorem skipSpace_blanks (bs : List Blank) (cs : List Char) :
    skipSpace (blanks bs ++ cs) = skipSpace cs := by
  refine skipSpace_append (fun c hc => ?_) cs
  obtain ⟨b, -, rfl⟩ := List.mem_map.1 hc
  cases b <;> rfl

/-- A numeral does not reach into blanks. -/
theorem Separated.blanks (bs : List Blank) {rest : List Char} (h : Separated rest) :
    Separated (blanks bs ++ rest) := by
  cases bs with
  | nil => exact h
  | cons b bs => cases b <;> exact .cons (by decide) (by decide) (by decide) (by decide) _

/-! ## Strings -/

/-- The character of a hexadecimal digit stands for it. -/
theorem hexDigit?_char (d : HexDigit) : hexDigit? d.char = some d.value := by
  obtain ⟨value, capital⟩ := d
  revert value
  cases capital <;> decide

/-- The characters of a unit, in front of others. -/
def CodeUnit.before (u : CodeUnit) (rest : List Char) : List Char :=
  '\\' :: 'u' :: u.first.char :: u.second.char :: u.third.char :: u.fourth.char :: rest

/-- The digits of a unit stand for its number. -/
theorem hexUnit?_number (u : CodeUnit) :
    hexUnit? u.first.char u.second.char u.third.char u.fourth.char = some u.number := by
  simp [hexUnit?, hexDigit?_char, CodeUnit.number]

/-- The second half of a pair is refused in front. -/
theorem readString_trailing {u : CodeUnit} (h : isTrailing u.number = true) (rest : List Char) :
    (readString (u.before rest)).toOption = none := by
  rw [readString.eq_def]
  simp [CodeUnit.before, hexUnit?_number, h, Except.toOption]

/-- A pair of units is read as one character. -/
theorem readString_pair {u v : CodeUnit} (hu : isTrailing u.number = false)
    (hlead : isLeading u.number = true) (hv : isTrailing v.number = true) (rest : List Char) :
    readString (u.before (v.before rest)) =
      prepend (pairedChar u.number v.number) (readString rest) := by
  rw [readString.eq_def]
  simp [CodeUnit.before, hexUnit?_number, hu, hlead, hv]

/-- The first half of a pair is refused in front of a unit that is no second half. -/
theorem readString_unpaired {u v : CodeUnit} (hu : isTrailing u.number = false)
    (hlead : isLeading u.number = true) (hv : isTrailing v.number = false) (rest : List Char) :
    (readString (u.before (v.before rest))).toOption = none := by
  rw [readString.eq_def]
  simp [CodeUnit.before, hexUnit?_number, hu, hlead, hv, Except.toOption]

/-- The first half of a pair is refused in front of anything but a unit. -/
theorem readString_alone {u : CodeUnit} (hu : isTrailing u.number = false)
    (hlead : isLeading u.number = true) {rest : List Char}
    (hrest : ∀ cs, rest ≠ '\\' :: 'u' :: cs) : (readString (u.before rest)).toOption = none := by
  rw [readString.eq_def]
  rcases rest with _ | ⟨c, _ | ⟨d, cs⟩⟩
  · simp [CodeUnit.before, hexUnit?_number, hu, hlead, Except.toOption]
  · by_cases hc : c = '\\' <;>
      simp [CodeUnit.before, hexUnit?_number, hu, hlead, hc, Except.toOption]
  · by_cases hc : c = '\\'
    · have hd : d ≠ 'u' := fun hd => hrest cs (by rw [hc, hd])
      simp [CodeUnit.before, hexUnit?_number, hu, hlead, hc, hd, Except.toOption]
    · simp [CodeUnit.before, hexUnit?_number, hu, hlead, hc, Except.toOption]

/-- The letter of an escape stands for the character that is escaped. -/
theorem escaped?_letter (e : Escape) : escaped? e.letter = some e.char := by
  cases e <;> rfl

namespace Literal

@[simp] theorem tail_nil_append (rest : List Char) : tail [] ++ rest = '"' :: rest := rfl

@[simp] theorem tail_cons_append (part : Part) (s : Literal) (rest : List Char) :
    tail (part :: s) ++ rest = part.text ++ (tail s ++ rest) := by
  simp [tail]

theorem unit_text_append (u : CodeUnit) (rest : List Char) :
    (Part.unit u).text ++ rest = u.before rest := rfl

end Literal

/-- A string is read from behind its opening quote as what it stands for, if it stands for
anything. -/
theorem readString_tail : ∀ (s : Literal) (rest : List Char),
    (readString (s.tail ++ rest)).toOption = s.value?.map fun text => (text, rest)
  | [], rest => by
    rw [Literal.tail_nil_append, readString_quote]
    rfl
  | .plain c hquote hslash hcontrol :: s, rest => by
    rw [Literal.tail_cons_append, Part.text, List.singleton_append,
      readString_plain hquote hslash (Nat.not_lt.2 hcontrol), toOption_prepend,
      readString_tail s rest, Literal.value?, Option.map_map, Option.map_map]
    rfl
  | .escaped e :: s, rest => by
    have hread := readString_escaped (escaped?_letter e) (Literal.tail s ++ rest)
    rw [Literal.tail_cons_append, Part.text, List.cons_append, List.singleton_append, hread,
      toOption_prepend, readString_tail s rest, Literal.value?, Option.map_map, Option.map_map]
    rfl
  | .unit u :: s, rest => by
    rw [Literal.tail_cons_append, Literal.unit_text_append]
    by_cases htrail : isTrailing u.number = true
    · rw [readString_trailing htrail, Literal.value?_unit, if_pos htrail]
      rfl
    have hno := Bool.eq_false_iff.2 htrail
    by_cases hlead : isLeading u.number = true
    · cases s with
      | nil =>
        rw [readString_alone hno hlead (by simp), Literal.value?_unit, if_neg htrail, if_pos hlead]
        rfl
      | cons part s =>
        cases part with
        | unit v =>
          rw [Literal.tail_cons_append, Literal.unit_text_append, Literal.value?_unit, if_neg htrail,
            if_pos hlead]
          by_cases hpair : isTrailing v.number = true
          · rw [readString_pair hno hlead hpair, toOption_prepend, readString_tail s rest]
            simp only [hpair, if_true, Option.map_map]
            rfl
          · rw [readString_unpaired hno hlead (Bool.eq_false_iff.2 hpair)]
            simp [hpair]
        | plain c _ hslash _ =>
          rw [readString_alone hno hlead (by simp [Part.text, hslash]), Literal.value?_unit,
            if_neg htrail, if_pos hlead]
          rfl
        | escaped e =>
          have hletter : e.letter ≠ 'u' := by cases e <;> decide
          rw [readString_alone hno hlead (by simp [Part.text, hletter]), Literal.value?_unit,
            if_neg htrail, if_pos hlead]
          rfl
    · have hplain := readString_unit (hexUnit?_number u) (Bool.eq_false_iff.2 hlead) hno
        (Literal.tail s ++ rest)
      rw [CodeUnit.before, hplain, toOption_prepend, readString_tail s rest, Literal.value?_unit,
        if_neg htrail, if_neg hlead, Option.map_map, Option.map_map]
      rfl

/-! ## Numbers -/

/-- The characters of decimal digits are digits. -/
theorem isDigit_decimal : ∀ d, isDigit (decimal d) = true := by decide

theorem isDigit_of_mem_map_decimal (ds : List (Fin 10)) {c : Char} (h : c ∈ ds.map decimal) :
    isDigit c = true := by
  obtain ⟨d, -, rfl⟩ := List.mem_map.1 h
  exact isDigit_decimal d

theorem Digits.isDigit_of_mem (ds : Digits) : ∀ c ∈ ds.text, isDigit c = true :=
  List.forall_mem_cons.2 ⟨isDigit_decimal ds.first, fun _ => isDigit_of_mem_map_decimal ds.rest⟩

/-- The digits in front of the point begin with a digit. -/
theorem Whole.text_eq_cons (whole : Whole) :
    ∃ c cs, whole.text = c :: cs ∧ isDigit c = true := by
  cases whole with
  | zero => exact ⟨_, _, rfl, by decide⟩
  | leading first more => exact ⟨_, _, rfl, isDigit_decimal _⟩

/-- The exponent is read, if there is one. -/
theorem readExponent_text (atEnd : Fault) (negative : Bool) (whole fraction : List Char)
    (e : Option Exponent) {rest : List Char} (hr : Separated rest) :
    readExponent atEnd ⟨negative, whole, fraction, none⟩ (e.elim [] Exponent.text ++ rest) =
      .ok (⟨negative, whole, fraction, e.map Exponent.value⟩, rest) := by
  cases e with
  | none =>
    cases rest with
    | nil => rfl
    | cons c rest =>
      obtain ⟨-, -, he, hE⟩ := hr c rfl
      simp [readExponent, he, hE]
  | some e =>
    obtain ⟨capital, sign, digits⟩ := e
    obtain ⟨htake, hdrop⟩ := takeWhile_isDigit digits.isDigit_of_mem
      hr.isDigit_head
    have hplus : decimal digits.first ≠ '+' := ne_of_isDigit (isDigit_decimal _) (by decide)
    have hminus : decimal digits.first ≠ '-' := ne_of_isDigit (isDigit_decimal _) (by decide)
    rw [Digits.text, List.cons_append] at htake hdrop
    rcases sign with _ | _ | _ <;>
      simp [Exponent.text, Exponent.value, readExponent, hplus, hminus, Sign.char, Digits.text,
        htake, hdrop]

/-- What follows the digits of a number, be it an exponent or another lexeme, begins with no digit
and no point. -/
theorem head_exponent_text (e : Option Exponent) {rest : List Char} (hr : Separated rest) :
    ∀ c ∈ (e.elim [] Exponent.text ++ rest).head?, isDigit c = false ∧ c ≠ '.' := by
  cases e with
  | none => exact fun c hc => ⟨(hr c hc).1, (hr c hc).2.1⟩
  | some e =>
    rintro c ⟨⟩
    cases e.capital <;> decide

/-- The fraction and the exponent are read, as far as there are any. -/
theorem readFraction_tail (atEnd : Fault) (n : Number) {rest : List Char} (hr : Separated rest) :
    readFraction atEnd ⟨n.negative, n.whole.text, [], none⟩ (n.tail ++ rest) =
      .ok (n.numeral, rest) := by
  obtain ⟨negative, whole, fraction, exponent⟩ := n
  have hhead := head_exponent_text exponent hr
  have hread := fun digits => readExponent_text atEnd negative whole.text digits exponent hr
  rw [Number.tail, List.append_assoc, Number.numeral]
  cases fraction with
  | none =>
    rw [Option.elim_none, List.nil_append, Option.elim_none, ← hread []]
    cases htail : exponent.elim [] Exponent.text ++ rest with
    | nil => rfl
    | cons c cs =>
      have hpoint : c ≠ '.' := (hhead c (by rw [htail]; rfl)).2
      simp [readFraction, hpoint]
  | some digits =>
    obtain ⟨htake, hdrop⟩ := takeWhile_isDigit digits.isDigit_of_mem
      fun c hc => (hhead c hc).1
    rw [Option.elim_some, List.cons_append, readFraction, htake, hdrop]
    exact hread digits.text

/-- A number is read as its numeral from behind its sign. -/
theorem readNumeral_text (atEnd : Fault) (n : Number) {rest : List Char} (hr : Separated rest) :
    readNumeral atEnd n.negative (n.whole.text ++ (n.tail ++ rest)) = .ok (n.numeral, rest) := by
  have hhead : ∀ c ∈ (n.tail ++ rest).head?, isDigit c = false := by
    rw [Number.tail, List.append_assoc]
    cases n.fraction with
    | none => exact fun c hc => (head_exponent_text n.exponent hr c hc).1
    | some digits =>
      rintro c ⟨⟩
      decide
  have hread := readFraction_tail atEnd n hr
  cases hwhole : n.whole with
  | zero =>
    obtain ⟨htake, -⟩ := @takeWhile_isDigit [] _ nofun hhead
    rw [hwhole, Whole.text] at hread
    rw [List.nil_append] at htake
    simp [Whole.text, readNumeral, htake, hread]
  | leading first more =>
    obtain ⟨htake, hdrop⟩ := takeWhile_isDigit (fun _ => isDigit_of_mem_map_decimal more) hhead
    have hzero : ∀ d : Fin 9, decimal d.succ ≠ '0' := by decide
    rw [hwhole, Whole.text] at hread
    simp [Whole.text, readNumeral, hzero, isDigit_decimal, htake, hdrop, hread]

/-- A number is read as its value from behind its sign, unless it is out of range. -/
theorem readNumber_text (n : Number) {rest : List Char} (hr : Separated rest) :
    (readNumber n.negative (n.whole.text ++ (n.tail ++ rest))).toOption =
      n.value?.map fun v => (v, rest) := by
  rw [readNumber, readNumeral_text .eofInValue n hr, Number.value?]
  cases hvalue : n.numeral.value <;>
    simp [bind, Except.bind, pure, Except.pure, hvalue, Except.toOption]

/-! ## Numbers in range -/

/-- No more digits are left than there are. -/
theorem appendDigits_snd_le (m : Nat) (ds : List Char) : (appendDigits m ds).2 ≤ ds.length := by
  induction ds generalizing m with
  | nil => exact Nat.le_refl _
  | cons d ds ih =>
    simp only [appendDigits]
    split
    · exact Nat.le_succ_of_le (ih _)
    · exact Nat.le_refl _

/-- A word scaled by a power of ten up to `10 ^ 286` is in range. -/
theorem isSome_scaled? {n : Nat} {e : Int} (hn : n < 2 ^ 64) (he : e ≤ 286) :
    (scaled? n e).isSome := by
  have hpower : 10 ^ e.toNat < 2 ^ 951 := calc
    10 ^ e.toNat ≤ 10 ^ 286 := Nat.pow_le_pow_right (by decide) (by omega)
    _ < 2 ^ 951 := by decide +kernel
  have hfinite := Binary64.isFinite_product hn hpower (by decide)
  rw [scaled?]
  simp only [Nat.pow_eq, hfinite, if_true]
  split
  · rfl
  · split
    · rfl
    · rw [if_neg (by omega)]
      rfl

/-- A number with at most 286 digits in front of the point, where its exponent moves that to, is in
range. -/
theorem Number.isSome_value? {n : Number}
    (h : (n.whole.text.length : Int) + n.exponent.elim 0 Exponent.value ≤ 286) :
    n.value?.isSome := by
  have hexponent : (n.exponent.map Exponent.value).getD 0 = n.exponent.elim 0 Exponent.value := by
    cases n.exponent <;> rfl
  have hsurplus := appendDigits_snd_le 0 n.whole.text
  have hdigits : (appendDigits (appendDigits 0 n.whole.text).1
      (n.fraction.elim [] Digits.text)).1 < 2 ^ 64 :=
    appendDigits_lt (appendDigits_lt (by decide) _) _
  rw [Number.value?, Number.numeral, Numeral.value]
  simp only [hexponent]
  split
  -- an integer that fits a word
  · split
    · rfl
    · split <;> rfl
  · split
    · rfl
    · next hnone =>
      rw [← Option.not_isSome_iff_eq_none] at hnone
      exact absurd (isSome_scaled? hdigits (by omega)) hnone

end EventLog.Json
