import EventLog.Json.Printer
import EventLog.Json.Reader
import EventLog.Proofs.Text.Numerals

/-!
# Lexemes read back

What the printer writes for a string or an integer, a reader takes off again: `writeString_eq`,
`readNumber_natural` and `readNumber_negative`. A string ends in its closing quote whatever follows.
A numeral ends where no further character could belong to it, so it reads back only in front of a
text that is `Separated` from it; in a document that is a comma, a closing bracket, a line feed or
nothing.
-/

namespace EventLog.Json

open EventLog.Text

/-! ## Blanks -/

/-- A character that is no blank stays in front. -/
theorem skipSpace_cons {c : Char} (hc : isSpace c = false) (cs : List Char) :
    skipSpace (c :: cs) = c :: cs := by
  simp [skipSpace, hc]

/-- Blanks in front are passed over. -/
theorem skipSpace_append {blanks : List Char} (hb : ∀ c ∈ blanks, isSpace c = true)
    (cs : List Char) : skipSpace (blanks ++ cs) = skipSpace cs := by
  induction blanks with
  | nil => rfl
  | cons b blanks ih =>
    have hb' := hb b (by simp)
    simpa [skipSpace, hb'] using ih fun c hc => hb c (by simp [hc])

/-- The break in front of an element holds blanks alone. -/
theorem isSpace_of_mem_lineBreak {spacing : Spacing} {level : Nat} {c : Char}
    (hc : c ∈ spacing.lineBreak level) : isSpace c = true := by
  cases spacing with
  | compact => simp [Spacing.lineBreak] at hc
  | indented =>
    simp only [Spacing.lineBreak, List.mem_cons, List.mem_replicate] at hc
    rcases hc with rfl | ⟨-, rfl⟩ <;> decide

@[simp] theorem skipSpace_lineBreak (spacing : Spacing) (level : Nat) (cs : List Char) :
    skipSpace (spacing.lineBreak level ++ cs) = skipSpace cs :=
  skipSpace_append (fun _ => isSpace_of_mem_lineBreak) cs

/-- The blanks between the colon behind a name and the value. -/
def Spacing.gap : Spacing → List Char
  | .compact => []
  | .indented => [' ']

theorem Spacing.colon_eq (spacing : Spacing) : spacing.colon = ':' :: spacing.gap := by
  cases spacing <;> rfl

@[simp] theorem skipSpace_gap (spacing : Spacing) (cs : List Char) :
    skipSpace (spacing.gap ++ cs) = skipSpace cs := by
  cases spacing <;> rfl

/-- The colon behind a name is taken, and the gap behind it stays. -/
theorem readColon_colon (spacing : Spacing) (cs : List Char) :
    readColon (spacing.colon ++ cs) = .ok (spacing.gap ++ cs) := by
  rw [Spacing.colon_eq]
  rfl

/-! ## Strings -/

/-- The four digits of an escaped control stand for it. -/
theorem hexUnit?_hexadecimalPadded : ∀ n < 0x20, ∃ a b c d,
    (hexadecimalPadded 4 n).toList = [a, b, c, d] ∧ hexUnit? a b c d = some n := by
  intro n hn
  have digits : ∀ n < 0x20, List.replicate (4 - (Nat.toDigits 16 n).length) '0' ++
      Nat.toDigits 16 n = ['0', '0', Nat.digitChar (n / 16), Nat.digitChar (n % 16)] := by decide
  have unit : ∀ n < 0x20, hexUnit? '0' '0' (Nat.digitChar (n / 16)) (Nat.digitChar (n % 16)) =
      some n := by decide
  exact ⟨_, _, _, _, by simpa [hexadecimalPadded] using digits n hn, unit n hn⟩

/-- The closing quote ends a string. -/
theorem readString_quote (rest : List Char) : readString ('"' :: rest) = .ok ([], rest) := by
  rw [readString.eq_def]
  simp

/-- A one-letter escape is read as the character that it stands for. -/
theorem readString_escaped {e d : Char} (h : escaped? e = some d) (rest : List Char) :
    readString ('\\' :: e :: rest) = prepend d (readString rest) := by
  have hu : e ≠ 'u' := by rintro rfl; cases h
  rw [readString.eq_def]
  simp [hu, h]

/-- A unit that is no half of a pair is read as the character with that number. -/
theorem readString_unit {h₁ h₂ h₃ h₄ : Char} {n : Nat} (h : hexUnit? h₁ h₂ h₃ h₄ = some n)
    (hlead : isLeading n = false) (htrail : isTrailing n = false) (rest : List Char) :
    readString ('\\' :: 'u' :: h₁ :: h₂ :: h₃ :: h₄ :: rest) =
      prepend (Char.ofNat n) (readString rest) := by
  rw [readString.eq_def]
  simp [h, hlead, htrail]

/-- A character that needs no escape is read as it is. -/
theorem readString_plain {c : Char} (hquote : c ≠ '"') (hslash : c ≠ '\\') (hc : ¬ c.toNat < 0x20)
    (rest : List Char) : readString (c :: rest) = prepend c (readString rest) := by
  rw [readString.eq_def]
  simp [hquote, hslash, hc]

/-- A character as it is written inside a string is read as that character. -/
theorem readString_writeChar (c : Char) (rest : List Char) :
    readString (writeChar c ++ rest) = prepend c (readString rest) := by
  unfold writeChar
  -- the seven characters with a one-letter escape
  iterate 7
    split
    · next h => subst h; exact readString_escaped rfl rest
  split
  · next hc =>
    obtain ⟨h₁, h₂, h₃, h₄, hd, hu⟩ := hexUnit?_hexadecimalPadded c.toNat hc
    have hlead : isLeading c.toNat = false := by simp [isLeading]; omega
    have htrail : isTrailing c.toNat = false := by simp [isTrailing]; omega
    rw [hd, List.cons_append, List.cons_append]
    simpa using readString_unit hu hlead htrail rest
  · next hquote hslash _ _ _ _ _ hc => exact readString_plain hquote hslash hc rest

/-- The characters of a string as they are written are read up to the closing quote. -/
theorem readString_flatMap_writeChar (cs rest : List Char) :
    readString (cs.flatMap writeChar ++ '"' :: rest) = .ok (cs, rest) := by
  induction cs with
  | nil => exact readString_quote rest
  | cons c cs ih =>
    rw [List.flatMap_cons, List.append_assoc, readString_writeChar, ih]
    rfl

/-- A written string is its opening quote and what is read back as the string. -/
theorem writeString_eq (s : String) (rest : List Char) :
    ∃ cs, writeString s ++ rest = '"' :: cs ∧ readString cs = .ok (s.toList, rest) :=
  ⟨s.toList.flatMap writeChar ++ '"' :: rest, by simp [writeString],
    readString_flatMap_writeChar s.toList rest⟩

/-! ## Numerals -/

/-- A text that no numeral in front of it can reach into. -/
def Separated (rest : List Char) : Prop :=
  ∀ c ∈ rest.head?, isDigit c = false ∧ c ≠ '.' ∧ c ≠ 'e' ∧ c ≠ 'E'

theorem Separated.nil : Separated [] := nofun

theorem Separated.cons {c : Char} (hd : isDigit c = false) (hp : c ≠ '.') (he : c ≠ 'e')
    (hE : c ≠ 'E') (rest : List Char) : Separated (c :: rest) := by
  intro d hd'
  cases hd'
  exact ⟨hd, hp, he, hE⟩

/-- No digit follows a numeral. -/
theorem Separated.isDigit_head {rest : List Char} (h : Separated rest) :
    ∀ c ∈ rest.head?, isDigit c = false := fun c hc => (h c hc).1

theorem Separated.comma (rest : List Char) : Separated (',' :: rest) :=
  .cons (by decide) (by decide) (by decide) (by decide) rest

/-- The end of an array or an object is separated from the last value, on whatever line it is. -/
theorem Separated.lineBreak (spacing : Spacing) (level : Nat) {rest : List Char}
    (h : Separated rest) : Separated (spacing.lineBreak level ++ rest) := by
  cases spacing with
  | compact => exact h
  | indented => exact .cons (by decide) (by decide) (by decide) (by decide) _

/-- A digit is no other character. -/
theorem ne_of_isDigit {c d : Char} (hc : isDigit c = true) (hd : isDigit d = false) : c ≠ d := by
  rintro rfl
  simp [hc] at hd

/-- A digit is no blank. -/
theorem isSpace_of_isDigit {c : Char} (hc : isDigit c = true) : isSpace c = false := by
  have hspace : c ≠ ' ' := ne_of_isDigit hc (by decide)
  have hfeed : c ≠ '\n' := ne_of_isDigit hc (by decide)
  have htab : c ≠ '\t' := ne_of_isDigit hc (by decide)
  have hreturn : c ≠ '\r' := ne_of_isDigit hc (by decide)
  simp [isSpace, hspace, hfeed, htab, hreturn]

/-- Digits that fit a word are all appended. -/
theorem appendDigits_of_lt {m : Nat} {ds : List Char} (h : digitsValue m ds < 2 ^ 64) :
    appendDigits m ds = (digitsValue m ds, 0) := by
  induction ds generalizing m with
  | nil => rfl
  | cons d ds ih =>
    have hm : m * 10 + (d.toNat - 48) < UInt64.size := Nat.lt_of_le_of_lt (le_digitsValue _ ds) h
    rw [appendDigits, if_pos hm]
    exact ih h

/-- The digits of a number are read as a numeral without fraction and exponent. -/
theorem readNumeral_toDigits (atEnd : Fault) (negative : Bool) (n : Nat) {rest : List Char}
    (hr : Separated rest) :
    readNumeral atEnd negative (Nat.toDigits 10 n ++ rest) =
      .ok (⟨negative, Nat.toDigits 10 n, [], none⟩, rest) := by
  have hexp (m : Numeral) : readFraction atEnd m rest = .ok (m, rest) := by
    cases rest with
    | nil => rfl
    | cons c rest =>
      obtain ⟨-, hp, he, hE⟩ := hr c rfl
      simp [readFraction, readExponent, hp, he, hE]
  rcases Nat.eq_zero_or_pos n with rfl | hn
  · have hd : (rest.takeWhile isDigit).isEmpty := by
      have h : ([] ++ rest).takeWhile isDigit = [] := (takeWhile_isDigit (by simp) hr.isDigit_head).1
      simpa using h
    simp [readNumeral, hd, hexp]
  · cases hds : Nat.toDigits 10 n with
    | nil => exact absurd hds Nat.toDigits_ne_nil
    | cons c cs =>
      have hc := isDigit_of_mem_toDigits (n := n) (c := c) (by simp [hds])
      have hcs : ∀ d ∈ cs, isDigit d = true := fun d hd =>
        isDigit_of_mem_toDigits (n := n) (by simp [hds, hd])
      obtain ⟨htake, hdrop⟩ := takeWhile_isDigit hcs hr.isDigit_head
      simp [readNumeral, toDigits_head_ne_zero hn hds, hc, htake, hdrop, hexp]

/-- An integer that fits a signed or an unsigned word. -/
def FitsWord (n : Int) : Prop := -2 ^ 63 ≤ n ∧ n < 2 ^ 64

/-- The value of a numeral without fraction and exponent, if its digits fit a word. -/
theorem value_toDigits (negative : Bool) {n : Nat} (hn : n < 2 ^ 64) :
    Numeral.value ⟨negative, Nat.toDigits 10 n, [], none⟩ =
      if !negative then .ok (.integer n)
      else if n = 0 || 2 ^ 63 < n then .ok (signed true (Binary64.ofNat n))
      else .ok (.integer (-n)) := by
  have hv : digitsValue 0 (Nat.toDigits 10 n) < 2 ^ 64 := by rwa [digitsValue_toDigits]
  rw [Numeral.value, appendDigits_of_lt hv, digitsValue_toDigits]
  rfl

/-- A numeral without sign of an integer is read as the integer. -/
theorem readNumber_natural {n : Nat} (hn : n < 2 ^ 64) {rest : List Char} (hr : Separated rest) :
    readNumber false (Nat.toDigits 10 n ++ rest) = .ok (.integer n, rest) := by
  have hvalue := value_toDigits false hn
  rw [if_pos (show (!false) = true from rfl)] at hvalue
  rw [readNumber, readNumeral_toDigits _ _ n hr]
  simp only [bind, Except.bind, hvalue]
  rfl

/-- A numeral behind a minus sign is read as a negative integer. -/
theorem readNumber_negative {n : Nat} (h0 : 0 < n) (hn : n ≤ 2 ^ 63) {rest : List Char}
    (hr : Separated rest) :
    readNumber true (Nat.toDigits 10 n ++ rest) = .ok (.integer (-n), rest) := by
  have hsmall : ¬ (decide (n = 0) || decide (2 ^ 63 < n)) = true := by
    rw [Bool.or_eq_true, decide_eq_true_iff, decide_eq_true_iff]
    omega
  have hvalue := value_toDigits true (n := n) (by omega)
  rw [if_neg (show ¬ (!true) = true by decide), if_neg hsmall] at hvalue
  rw [readNumber, readNumeral_toDigits _ _ n hr]
  simp only [bind, Except.bind, hvalue]
  rfl

end EventLog.Json
