import EventLog.Proofs.Json.Lexemes

/-!
# The grammar of documents

The texts that are documents by the grammar, whatever a reader makes of them. A `Phrase` is a value
as it is written, with every blank, digit and escape; `Phrase.text` are its characters, so that the
documents are the texts of the phrases with blanks behind them. No phrase is ill-formed: a leading
zero, a missing digit or a bare control character cannot be put into one.

What a phrase denotes (`Phrase.value?`) may be nothing: the grammar admits halves of pairs of units
that have no other half, and numerals of any size. `Phrase.isSome_value?` says that there is no
other reason.
-/

namespace EventLog.Json

open EventLog.Text

/-! ## Blanks and digits -/

/-- A blank. -/
inductive Blank where
  | space
  | tab
  | lineFeed
  | carriageReturn
  deriving DecidableEq, Repr

/-- The character of a blank. -/
def Blank.char : Blank → Char
  | .space => ' '
  | .tab => '\t'
  | .lineFeed => '\n'
  | .carriageReturn => '\r'

/-- The characters of blanks. -/
def blanks (bs : List Blank) : List Char := bs.map Blank.char

/-- One decimal digit or more. -/
structure Digits where
  first : Fin 10
  rest : List (Fin 10)
  deriving DecidableEq, Repr

/-- The character of a decimal digit. -/
def decimal (d : Fin 10) : Char := Nat.digitChar d

/-- The characters of digits. -/
def Digits.text (ds : Digits) : List Char := decimal ds.first :: ds.rest.map decimal

/-- A hexadecimal digit, written with a letter of either case if it needs one. -/
structure HexDigit where
  value : Fin 16
  capital : Bool
  deriving DecidableEq, Repr

/-- The character of a hexadecimal digit. -/
def HexDigit.char (d : HexDigit) : Char :=
  if d.capital then (Nat.digitChar d.value).toUpper else Nat.digitChar d.value

/-! ## Numbers -/

/-- The digits in front of the point: a zero alone, or digits of which the first is none. -/
inductive Whole where
  | zero
  | leading (first : Fin 9) (rest : List (Fin 10))
  deriving DecidableEq, Repr

/-- The characters of the digits in front of the point. -/
def Whole.text : Whole → List Char
  | .zero => ['0']
  | .leading first rest => decimal first.succ :: rest.map decimal

/-- The sign of an exponent. -/
inductive Sign where
  | plus
  | minus
  deriving DecidableEq, Repr

/-- The character of a sign. -/
def Sign.char : Sign → Char
  | .plus => '+'
  | .minus => '-'

/-- An exponent. -/
structure Exponent where
  capital : Bool
  sign : Option Sign
  digits : Digits
  deriving DecidableEq, Repr

/-- The characters of an exponent. -/
def Exponent.text (e : Exponent) : List Char :=
  (if e.capital then 'E' else 'e') :: (e.sign.toList.map Sign.char ++ e.digits.text)

/-- The number that an exponent is. -/
def Exponent.value (e : Exponent) : Int :=
  if e.sign = some .minus then -(digitsValue 0 e.digits.text : Int)
  else digitsValue 0 e.digits.text

/-- A number. -/
structure Number where
  negative : Bool
  whole : Whole
  fraction : Option Digits
  exponent : Option Exponent
  deriving DecidableEq, Repr

/-- The characters of the fraction and of the exponent, as far as there are any. -/
def Number.tail (n : Number) : List Char :=
  (n.fraction.elim [] fun ds => '.' :: ds.text) ++ n.exponent.elim [] Exponent.text

/-- The characters of a number. -/
def Number.text (n : Number) : List Char :=
  (if n.negative then ['-'] else []) ++ (n.whole.text ++ n.tail)

/-- The numeral that a number is. -/
def Number.numeral (n : Number) : Numeral where
  negative := n.negative
  whole := n.whole.text
  fraction := n.fraction.elim [] Digits.text
  exponent := n.exponent.map Exponent.value

/-- The value of a number, unless it is out of range. -/
def Number.value? (n : Number) : Option Json := n.numeral.value.toOption

/-! ## Strings -/

/-- A character that is escaped by a single letter. -/
inductive Escape where
  | quote
  | backslash
  | slash
  | backspace
  | formFeed
  | lineFeed
  | carriageReturn
  | tab
  deriving DecidableEq, Repr

/-- The letter of an escape. -/
def Escape.letter : Escape → Char
  | .quote => '"'
  | .backslash => '\\'
  | .slash => '/'
  | .backspace => 'b'
  | .formFeed => 'f'
  | .lineFeed => 'n'
  | .carriageReturn => 'r'
  | .tab => 't'

/-- The character that is escaped. -/
def Escape.char : Escape → Char
  | .quote => '"'
  | .backslash => '\\'
  | .slash => '/'
  | .backspace => '\x08'
  | .formFeed => '\x0c'
  | .lineFeed => '\n'
  | .carriageReturn => '\r'
  | .tab => '\t'

/-- A unit, by its four hexadecimal digits. -/
structure CodeUnit where
  first : HexDigit
  second : HexDigit
  third : HexDigit
  fourth : HexDigit
  deriving DecidableEq, Repr

/-- The number of a unit. -/
def CodeUnit.number (u : CodeUnit) : Nat :=
  ((u.first.value * 16 + u.second.value) * 16 + u.third.value) * 16 + u.fourth.value

/-- A part of a string: a character as it is, an escaped one, or an escaped unit. -/
inductive Part where
  | plain (c : Char) (quote : c ≠ '"') (backslash : c ≠ '\\') (control : 0x20 ≤ c.toNat)
  | escaped (e : Escape)
  | unit (u : CodeUnit)

/-- The characters of a part. -/
def Part.text : Part → List Char
  | .plain c _ _ _ => [c]
  | .escaped e => ['\\', e.letter]
  | .unit u => ['\\', 'u', u.first.char, u.second.char, u.third.char, u.fourth.char]

/-- A string, by its parts. -/
abbrev Literal := List Part

namespace Literal

/-- The characters of a string behind its opening quote. -/
def tail (s : Literal) : List Char := s.flatMap Part.text ++ ['"']

/-- The characters that a string stands for. A unit that is the first half of a pair stands for a
character together with the second half behind it, and for none without. -/
def value? : Literal → Option (List Char)
  | [] => some []
  | .plain c _ _ _ :: rest => (value? rest).map (c :: ·)
  | .escaped e :: rest => (value? rest).map (e.char :: ·)
  | .unit u :: rest =>
    if isTrailing u.number then none
    else if isLeading u.number then
      match rest with
      | .unit v :: rest =>
        if isTrailing v.number then (value? rest).map (pairedChar u.number v.number :: ·) else none
      | _ => none
    else (value? rest).map (Char.ofNat u.number :: ·)

/-- The cases of a unit in front, by the unit alone. -/
theorem value?_unit (u : CodeUnit) (rest : Literal) :
    value? (.unit u :: rest) =
      if isTrailing u.number then none
      else if isLeading u.number then
        match rest with
        | .unit v :: rest =>
          if isTrailing v.number then (value? rest).map (pairedChar u.number v.number :: ·) else none
        | _ => none
      else (value? rest).map (Char.ofNat u.number :: ·) := by
  rw [value?.eq_def]
  rfl

end Literal

/-- A character in a string, escaped if it has to be. -/
def Part.ofChar (c : Char) : Part :=
  if quote : c = '"' then .escaped .quote
  else if backslash : c = '\\' then .escaped .backslash
  else if control : 0x20 ≤ c.toNat then .plain c quote backslash control
  else
    .unit ⟨⟨⟨0, by omega⟩, false⟩, ⟨⟨0, by omega⟩, false⟩, ⟨⟨c.toNat / 16, by omega⟩, false⟩,
      ⟨⟨c.toNat % 16, by omega⟩, false⟩⟩

namespace Literal

/-- A string that stands for a text. -/
def ofText (text : String) : Literal := text.toList.map Part.ofChar

/-- Every text is what some string stands for. -/
theorem value?_ofText (text : String) : (ofText text).value? = some text.toList := by
  rw [ofText]
  induction text.toList with
  | nil => rfl
  | cons c cs ih =>
    rw [List.map_cons, Part.ofChar]
    split
    · next hquote => simp [value?, ih, hquote, Escape.char]
    · split
      · next hslash => simp [value?, ih, hslash, Escape.char]
      · split
        · simp [value?, ih]
        · next hcontrol =>
          -- controls are no halves of pairs
          have hlead : isLeading c.toNat = false := by simp [isLeading]; omega
          have htrail : isTrailing c.toNat = false := by simp [isTrailing]; omega
          have hnumber : c.toNat / 16 * 16 + c.toNat % 16 = c.toNat := Nat.div_add_mod' c.toNat 16
          simp [value?_unit, CodeUnit.number, hnumber, hlead, htrail, ih]

end Literal

/-! ## Values -/

/-- The name of a member with the blanks around it: in front of it, between it and the colon, and
those behind the value of the member. -/
structure Label where
  front : List Blank
  name : Literal
  colon : List Blank
  behind : List Blank

/-- A value as it is written. Behind an opening bracket or brace there are blanks, and behind every
item; a value may have blanks in front. -/
inductive Phrase where
  | null
  | bool (value : Bool)
  | number (n : Number)
  | string (s : Literal)
  | array (front : List Blank) (items : List (List Blank × Phrase))
  | object (front : List Blank) (members : List (Label × Phrase))
  | spaced (front : List Blank) (value : Phrase)

/-- A number or a string: a lexeme that may denote nothing. -/
inductive Lexeme where
  | number (n : Number)
  | string (s : Literal)

/-- The lexeme denotes something. -/
def Lexeme.Denotes : Lexeme → Prop
  | .number n => n.value?.isSome
  | .string s => s.value?.isSome

namespace Phrase

/-- What passes from its parts to a phrase holds of every phrase. -/
@[induction_eliminator]
theorem induction {motive : Phrase → Prop} (null : motive .null) (bool : ∀ b, motive (.bool b))
    (number : ∀ n, motive (.number n)) (string : ∀ s, motive (.string s))
    (array : ∀ front items, (∀ m ∈ items, motive m.2) → motive (.array front items))
    (object : ∀ front members, (∀ m ∈ members, motive m.2) → motive (.object front members))
    (spaced : ∀ front value, motive value → motive (.spaced front value)) (p : Phrase) : motive p :=
  @Phrase.rec motive (fun items => ∀ m ∈ items, motive m.2)
    (fun members => ∀ m ∈ members, motive m.2) (fun m => motive m.2) (fun m => motive m.2)
    null bool number string array object spaced
    nofun (fun _ _ head tail => List.forall_mem_cons.2 ⟨head, tail⟩)
    nofun (fun _ _ head tail => List.forall_mem_cons.2 ⟨head, tail⟩)
    (fun _ _ h => h) (fun _ _ h => h) p

mutual

/-- The characters of a value. -/
def text : Phrase → List Char
  | .null => ['n', 'u', 'l', 'l']
  | .bool true => ['t', 'r', 'u', 'e']
  | .bool false => ['f', 'a', 'l', 's', 'e']
  | .number n => n.text
  | .string s => '"' :: s.tail
  | .array front items => '[' :: (blanks front ++ (textItems true items ++ [']']))
  | .object front members => '\x7b' :: (blanks front ++ (textMembers true members ++ ['\x7d']))
  | .spaced front value => blanks front ++ text value

/-- The characters of items, with a comma in front of all but the first. -/
def textItems (first : Bool) : List (List Blank × Phrase) → List Char
  | [] => []
  | (behind, item) :: rest =>
    (if first then [] else [',']) ++ (text item ++ (blanks behind ++ textItems false rest))

/-- The characters of members, with a comma in front of all but the first. -/
def textMembers (first : Bool) : List (Label × Phrase) → List Char
  | [] => []
  | (label, value) :: rest =>
    (if first then [] else [',']) ++ (blanks label.front ++ ('"' :: (label.name.tail ++
      (blanks label.colon ++ (':' :: (text value ++
        (blanks label.behind ++ textMembers false rest)))))))

end

mutual

/-- What a value denotes. -/
def value? : Phrase → Option Json
  | .null => some .null
  | .bool b => some (.bool b)
  | .number n => n.value?
  | .string s => s.value?.map fun cs => .string (String.ofList cs)
  | .array _ items => (valueItems? items).map .array
  | .object _ members => (valueMembers? members).map .object
  | .spaced _ value => value? value

/-- What items denote. -/
def valueItems? : List (List Blank × Phrase) → Option (List Json)
  | [] => some []
  | (_, item) :: rest => do return (← value? item) :: (← valueItems? rest)

/-- What members denote. -/
def valueMembers? : List (Label × Phrase) → Option (List (String × Json))
  | [] => some []
  | (label, value) :: rest => do
    return (String.ofList (← label.name.value?), ← value? value) :: (← valueMembers? rest)

end

mutual

/-- How many arrays and objects are open around the innermost one, itself included. -/
def levels : Phrase → Nat
  | .array _ items => levelsItems items + 1
  | .object _ members => levelsMembers members + 1
  | .spaced _ value => levels value
  | _ => 0

/-- The nesting of the deepest item. -/
def levelsItems : List (List Blank × Phrase) → Nat
  | [] => 0
  | (_, item) :: rest => max (levels item) (levelsItems rest)

/-- The nesting of the deepest member. -/
def levelsMembers : List (Label × Phrase) → Nat
  | [] => 0
  | (_, value) :: rest => max (levels value) (levelsMembers rest)

end

mutual

/-- The numbers and the strings inside, names of members among them. -/
def lexemes : Phrase → List Lexeme
  | .number n => [.number n]
  | .string s => [.string s]
  | .array _ items => lexemesItems items
  | .object _ members => lexemesMembers members
  | .spaced _ value => lexemes value
  | _ => []

/-- The numbers and strings in items. -/
def lexemesItems : List (List Blank × Phrase) → List Lexeme
  | [] => []
  | (_, item) :: rest => lexemes item ++ lexemesItems rest

/-- The numbers and strings in members. -/
def lexemesMembers : List (Label × Phrase) → List Lexeme
  | [] => []
  | (label, value) :: rest => .string label.name :: (lexemes value ++ lexemesMembers rest)

end

/-! ## Items and members one by one -/

/-- `levelsItems` per item. -/
theorem levelsItems_le_iff {d : Nat} (items : List (List Blank × Phrase)) :
    levelsItems items ≤ d ↔ ∀ m ∈ items, m.2.levels ≤ d := by
  induction items with
  | nil => simp [levelsItems]
  | cons m rest ih => rw [levelsItems, Nat.max_le, ih, List.forall_mem_cons]

/-- `levelsMembers` per member. -/
theorem levelsMembers_le_iff {d : Nat} (members : List (Label × Phrase)) :
    levelsMembers members ≤ d ↔ ∀ m ∈ members, m.2.levels ≤ d := by
  induction members with
  | nil => simp [levelsMembers]
  | cons m rest ih => rw [levelsMembers, Nat.max_le, ih, List.forall_mem_cons]

/-- Items denote something if each of them does. -/
theorem isSome_valueItems? (items : List (List Blank × Phrase)) :
    (valueItems? items).isSome ↔ ∀ m ∈ items, m.2.value?.isSome := by
  induction items with
  | nil => simp [valueItems?]
  | cons m rest ih =>
    rw [List.forall_mem_cons, ← ih, valueItems?]
    cases m.2.value? <;> cases valueItems? rest <;> simp

/-- Members denote something if the name and the value of each of them do. -/
theorem isSome_valueMembers? (members : List (Label × Phrase)) :
    (valueMembers? members).isSome ↔
      ∀ m ∈ members, m.1.name.value?.isSome ∧ m.2.value?.isSome := by
  induction members with
  | nil => simp [valueMembers?]
  | cons m rest ih =>
    rw [List.forall_mem_cons, ← ih, valueMembers?]
    cases m.1.name.value? <;> cases m.2.value? <;> cases valueMembers? rest <;> simp

/-- `lexemesItems` per item. -/
theorem forall_mem_lexemesItems {q : Lexeme → Prop} (items : List (List Blank × Phrase)) :
    (∀ l ∈ lexemesItems items, q l) ↔ ∀ m ∈ items, ∀ l ∈ m.2.lexemes, q l := by
  induction items with
  | nil => simp [lexemesItems]
  | cons m rest ih => rw [lexemesItems, List.forall_mem_append, ih, List.forall_mem_cons]

/-- `lexemesMembers` per member. -/
theorem forall_mem_lexemesMembers {q : Lexeme → Prop} (members : List (Label × Phrase)) :
    (∀ l ∈ lexemesMembers members, q l) ↔
      ∀ m ∈ members, q (.string m.1.name) ∧ ∀ l ∈ m.2.lexemes, q l := by
  induction members with
  | nil => simp [lexemesMembers]
  | cons m rest ih =>
    rw [lexemesMembers, List.forall_mem_cons, List.forall_mem_append, ih, List.forall_mem_cons,
      and_assoc]

/-! ## Values and their lexemes -/

/-- A value denotes something exactly if all numbers and strings in it do. -/
theorem isSome_value? (p : Phrase) : p.value?.isSome ↔ ∀ l ∈ p.lexemes, l.Denotes := by
  induction p with
  | null => simp [value?, lexemes]
  | bool b => simp [value?, lexemes]
  | number n => simp [value?, lexemes, Lexeme.Denotes]
  | string s => simp [value?, lexemes, Lexeme.Denotes]
  | array front items ih =>
    rw [value?, Option.isSome_map, isSome_valueItems?, lexemes, forall_mem_lexemesItems]
    exact forall₂_congr ih
  | object front members ih =>
    rw [value?, Option.isSome_map, isSome_valueMembers?, lexemes, forall_mem_lexemesMembers]
    exact forall₂_congr fun m hm => and_congr Iff.rfl (ih m hm)
  | spaced front value ih => exact ih

/-! ## Lengths -/

/-- Items are shorter than their text, and every one but the first takes a comma. -/
theorem length_textItems (first : Bool) (items : List (List Blank × Phrase)) :
    items.length ≤ (textItems first items).length + 1 ∧
      ∀ m ∈ items, m.2.text.length ≤ (textItems first items).length := by
  have hcommas : ∀ first, items.length ≤ (textItems first items).length + first.toNat ∧
      ∀ m ∈ items, m.2.text.length ≤ (textItems first items).length := by
    induction items with
    | nil => exact fun _ => ⟨Nat.zero_le _, nofun⟩
    | cons m items ih =>
      obtain ⟨hlength, hmem⟩ := ih false
      rw [Bool.toNat_false] at hlength
      refine fun first => ⟨?_, List.forall_mem_cons.2 ⟨?_, fun n hn => ?_⟩⟩
      · cases first <;> simp [textItems] <;> omega
      · simp [textItems]
        omega
      · have := hmem n hn
        simp [textItems]
        omega
  refine ⟨?_, (hcommas first).2⟩
  have := Bool.toNat_le first
  have := (hcommas first).1
  omega

/-- An array is longer than any of its items, and has more characters than items. -/
theorem length_text_array (front : List Blank) (items : List (List Blank × Phrase)) :
    items.length < (text (.array front items)).length ∧
      ∀ m ∈ items, m.2.text.length < (text (.array front items)).length := by
  obtain ⟨hlength, hmem⟩ := length_textItems true items
  simp only [text, List.length_cons, List.length_append, List.length_nil]
  refine ⟨by omega, fun m hm => ?_⟩
  have := hmem m hm
  omega

/-- Members are shorter than their text, and have fewer than it has characters. -/
theorem length_textMembers (first : Bool) (members : List (Label × Phrase)) :
    members.length ≤ (textMembers first members).length ∧
      ∀ m ∈ members, m.2.text.length ≤ (textMembers first members).length := by
  induction members generalizing first with
  | nil => exact ⟨Nat.zero_le _, nofun⟩
  | cons m members ih =>
    obtain ⟨hlength, hmem⟩ := ih false
    refine ⟨?_, List.forall_mem_cons.2 ⟨?_, fun n hn => ?_⟩⟩
    · simp [textMembers]
      omega
    · simp [textMembers]
      omega
    · have := hmem n hn
      simp [textMembers]
      omega

/-- An object is longer than the value of any of its members, and has more characters than
members. -/
theorem length_text_object (front : List Blank) (members : List (Label × Phrase)) :
    members.length < (text (.object front members)).length ∧
      ∀ m ∈ members, m.2.text.length < (text (.object front members)).length := by
  obtain ⟨hlength, hmem⟩ := length_textMembers true members
  simp only [text, List.length_cons, List.length_append, List.length_nil]
  refine ⟨by omega, fun m hm => ?_⟩
  have := hmem m hm
  omega

/-- A value does not nest deeper than it is long. -/
theorem levels_le_length (p : Phrase) : p.levels ≤ p.text.length := by
  induction p with
  | array front items ih =>
    have hlength := (length_text_array front items).2
    have hpos := Nat.zero_lt_of_lt (length_text_array front items).1
    have hitems : levelsItems items ≤ (text (.array front items)).length - 1 :=
      (levelsItems_le_iff items).2 fun m hm => by
        have := ih m hm
        have := hlength m hm
        omega
    rw [levels]
    omega
  | object front members ih =>
    have hlength := (length_text_object front members).2
    have hpos := Nat.zero_lt_of_lt (length_text_object front members).1
    have hmembers : levelsMembers members ≤ (text (.object front members)).length - 1 :=
      (levelsMembers_le_iff members).2 fun m hm => by
        have := ih m hm
        have := hlength m hm
        omega
    rw [levels]
    omega
  | spaced front value ih =>
    rw [levels, text, List.length_append]
    omega
  | _ => exact Nat.zero_le _

end Phrase

end EventLog.Json
