import EventLog.Proofs.Json.Extent

/-!
# Documents read back

`readValueWith_write`: a document without floating-point numbers, written in either spacing and on
any level, is read back as itself, from in front of any text that is `Separated` from it, by a
reader that may open as many arrays and objects as the document nests. How numbers are read is left
open there (`readValueWith`), since all that counts is which integers are taken (`ReadsInteger`);
`readValue_write` is the case of `readNumber`, which takes those that fit a word. The steps of the
loops over elements and members (`elements_first`, `elements_next`, `members_first`, `members_next`
and the two ends) are stated for any reader of elements or members, so that readers with faults of
their own use them too.

Loops take fuel. A text longer than the fuel is never left to read, since every element and every
member takes a character.
-/

namespace EventLog.Json

/-! ## Elements and members -/

/-- A text that begins with a lexeme other than the end of an array. -/
def Opens (cs : List Char) : Prop := ∃ c rest, cs = c :: rest ∧ isSpace c = false ∧ c ≠ ']'

theorem Opens.append {cs : List Char} (h : Opens cs) (rest : List Char) : Opens (cs ++ rest) := by
  obtain ⟨c, tail, rfl, hs, hb⟩ := h
  exact ⟨c, tail ++ rest, rfl, hs, hb⟩

section

variable {ε α σ : Type} {raise : Fault → ε} {fuel : Nat}

/-- An array ends at its closing bracket, on whatever line that is. -/
theorem elements_end (element : Reader ε α) (first : Bool) (spacing : Spacing) (level : Nat)
    (rest : List Char) :
    elements raise element (fuel + 1) first (spacing.lineBreak level ++ ']' :: rest) =
      .ok ([], rest) := by
  have hs : skipSpace (']' :: rest) = ']' :: rest := skipSpace_cons (by decide) rest
  simp [elements, nextElement, endArray, hs, lift, bind, Except.bind, pure, Except.pure]

variable {element : Reader ε α} {x : α} {xs : List α} {cs cs' rest : List Char}

/-- The first element is read from behind the opening bracket and the break. -/
theorem elements_first (hcs : Opens cs) (hx : element cs = .ok (x, cs'))
    (hxs : elements raise element fuel false cs' = .ok (xs, rest)) (spacing : Spacing)
    (level : Nat) :
    elements raise element (fuel + 1) true (spacing.lineBreak level ++ cs) =
      .ok (x :: xs, rest) := by
  obtain ⟨c, tail, rfl, hspace, hbracket⟩ := hcs
  simp [elements, nextElement, skipSpace_cons hspace, hbracket, hx, hxs, lift, bind, Except.bind,
    pure, Except.pure]

/-- A further element is read from behind the comma and the break. -/
theorem elements_next (hcs : Opens cs) (hx : element cs = .ok (x, cs'))
    (hxs : elements raise element fuel false cs' = .ok (xs, rest)) (spacing : Spacing)
    (level : Nat) :
    elements raise element (fuel + 1) false (',' :: (spacing.lineBreak level ++ cs)) =
      .ok (x :: xs, rest) := by
  obtain ⟨c, tail, rfl, hspace, hbracket⟩ := hcs
  have hcomma (cs : List Char) : skipSpace (',' :: cs) = ',' :: cs := skipSpace_cons (by decide) cs
  simp [elements, nextElement, hcomma, skipSpace_cons hspace, hbracket, hx, hxs, lift, bind,
    Except.bind, pure, Except.pure]

/-- An object ends at its closing brace, on whatever line that is. -/
theorem members_end (member : σ → String → Reader ε σ) (first : Bool) (state : σ)
    (spacing : Spacing) (level : Nat) (rest : List Char) :
    members raise member (fuel + 1) first state (spacing.lineBreak level ++ '\x7d' :: rest) =
      .ok (state, rest) := by
  have hs : skipSpace ('\x7d' :: rest) = '\x7d' :: rest := skipSpace_cons (by decide) rest
  simp [members, nextMember, endObject, hs, lift, bind, Except.bind, pure, Except.pure]

variable {member : σ → String → Reader ε σ} {state state' : σ} {name : String} {spacing : Spacing}

/-- The first member is taken into the state from behind its name. -/
theorem members_first (hm : member state name (spacing.colon ++ cs) = .ok (state', cs'))
    (level : Nat) :
    members raise member (fuel + 1) true state
        (spacing.lineBreak level ++ (writeString name ++ (spacing.colon ++ cs))) =
      members raise member fuel false state' cs' := by
  obtain ⟨text, htext, hread⟩ := writeString_eq name (spacing.colon ++ cs)
  have hs (cs : List Char) : skipSpace ('"' :: cs) = '"' :: cs := skipSpace_cons (by decide) cs
  rw [htext]
  simp [members, nextMember, hs, hread, hm, lift, bind, Except.bind, String.ofList_toList]

/-- A further member is taken into the state from behind its name. -/
theorem members_next (hm : member state name (spacing.colon ++ cs) = .ok (state', cs'))
    (level : Nat) :
    members raise member (fuel + 1) false state
        (',' :: (spacing.lineBreak level ++ (writeString name ++ (spacing.colon ++ cs)))) =
      members raise member fuel false state' cs' := by
  obtain ⟨text, htext, hread⟩ := writeString_eq name (spacing.colon ++ cs)
  have hcomma (cs : List Char) : skipSpace (',' :: cs) = ',' :: cs := skipSpace_cons (by decide) cs
  have hs (cs : List Char) : skipSpace ('"' :: cs) = '"' :: cs := skipSpace_cons (by decide) cs
  rw [htext]
  simp [members, nextMember, hcomma, hs, hread, hm, lift, bind, Except.bind, String.ofList_toList]

end

/-! ## Values -/

/-- Reads a value as `readValue` does, but every number behind its sign by a given reader. -/
def readValueWith (number : Bool → Reader Fault Json) (fuel : Nat) : Nat → Reader Fault Json
  | depth, cs =>
    match skipSpace cs with
    | [] => .error .eofInValue
    | c :: rest =>
      if c = 'n' then return (.null, ← readLetters ['u', 'l', 'l'] rest)
      else if c = 't' then return (.bool true, ← readLetters ['r', 'u', 'e'] rest)
      else if c = 'f' then return (.bool false, ← readLetters ['a', 'l', 's', 'e'] rest)
      else if c = '-' then number true rest
      else if EventLog.Text.isDigit c then number false (c :: rest)
      else if c = '"' then do
        let (text, rest) ← readString rest
        return (.string (String.ofList text), rest)
      else if c = '[' then
        match depth with
        | 0 => .error .tooDeep
        | depth + 1 => do
          let (items, rest) ← elements id (readValueWith number fuel depth) fuel true rest
          return (.array items, rest)
      else if c = '\x7b' then
        match depth with
        | 0 => .error .tooDeep
        | depth + 1 => do
          let (read, rest) ←
            members id (takeMember (readValueWith number fuel depth)) fuel true [] rest
          return (.object read.reverse, rest)
      else .error .expectedValue

/-- Values are read with `readNumber`. -/
theorem readValueWith_readNumber (fuel depth : Nat) :
    readValueWith readNumber fuel depth = readValue fuel depth := by
  induction depth with
  | zero =>
    funext cs
    rw [readValueWith.eq_def]
    exact (readValue.eq_def fuel 0 cs).symm
  | succ depth ih =>
    funext cs
    rw [readValueWith.eq_def]
    simp only [ih]
    exact (readValue.eq_def fuel (depth + 1) cs).symm

section

variable {number : Bool → Reader Fault Json} {fuel depth : Nat} {cs cs' rest : List Char}

/-- The value in front is read from behind the blanks. -/
theorem readValueWith_congr (h : skipSpace cs = skipSpace cs') :
    readValueWith number fuel depth cs = readValueWith number fuel depth cs' := by
  rw [readValueWith.eq_def, readValueWith.eq_def]
  simp only [h]

theorem readValueWith_array {items : List Json}
    (h : elements id (readValueWith number fuel depth) fuel true cs = .ok (items, rest)) :
    readValueWith number fuel (depth + 1) ('[' :: cs) = .ok (.array items, rest) := by
  have hs : skipSpace ('[' :: cs) = '[' :: cs := skipSpace_cons (by decide) cs
  rw [readValueWith.eq_def]
  simp [hs, h, EventLog.Text.isDigit, bind, Except.bind, pure, Except.pure]

theorem readValueWith_object {read : List (String × Json)}
    (h : members id (takeMember (readValueWith number fuel depth)) fuel true [] cs =
      .ok (read, rest)) :
    readValueWith number fuel (depth + 1) ('\x7b' :: cs) = .ok (.object read.reverse, rest) := by
  have hs : skipSpace ('\x7b' :: cs) = '\x7b' :: cs := skipSpace_cons (by decide) cs
  rw [readValueWith.eq_def]
  simp [hs, h, EventLog.Text.isDigit, bind, Except.bind, pure, Except.pure]

/-- A value that begins with a digit is a number. -/
theorem readValueWith_digit {c : Char} (hc : Text.isDigit c = true) (rest : List Char) :
    readValueWith number fuel depth (c :: rest) = number false (c :: rest) := by
  have hs : skipSpace (c :: rest) = c :: rest := skipSpace_cons (isSpace_of_isDigit hc) rest
  have hnull : c ≠ 'n' := ne_of_isDigit hc (by decide)
  have htrue : c ≠ 't' := ne_of_isDigit hc (by decide)
  have hfalse : c ≠ 'f' := ne_of_isDigit hc (by decide)
  have hminus : c ≠ '-' := ne_of_isDigit hc (by decide)
  rw [readValueWith.eq_def]
  simp [hs, hc, hnull, htrue, hfalse, hminus]

/-- A value that begins with a minus sign is a number. -/
theorem readValueWith_minus (rest : List Char) :
    readValueWith number fuel depth ('-' :: rest) = number true rest := by
  have hs : skipSpace ('-' :: rest) = '-' :: rest := skipSpace_cons (by decide) rest
  rw [readValueWith.eq_def]
  simp [hs]

end

/-- The value in front is read from behind the blanks. -/
theorem readValue_congr {cs cs' : List Char} (h : skipSpace cs = skipSpace cs') (fuel depth : Nat) :
    readValue fuel depth cs = readValue fuel depth cs' := by
  rw [← readValueWith_readNumber]
  exact readValueWith_congr h

/-- A value that begins with a digit is a number. -/
theorem readValue_digit {c : Char} (hc : Text.isDigit c = true) (fuel depth : Nat)
    (rest : List Char) : readValue fuel depth (c :: rest) = readNumber false (c :: rest) := by
  rw [← readValueWith_readNumber]
  exact readValueWith_digit hc rest

/-- A reader of numbers takes the digits of an integer as the integer, in front of any text that is
separated from them. -/
def ReadsInteger (number : Bool → Reader Fault Json) (n : Int) : Prop :=
  ∀ {rest : List Char}, Separated rest →
    number (decide (n < 0)) (Nat.toDigits 10 n.natAbs ++ rest) = .ok (.integer n, rest)

/-- `readNumber` takes every integer that fits a word. -/
theorem readsInteger_readNumber {n : Int} (hn : FitsWord n) : ReadsInteger readNumber n := by
  obtain ⟨hlow, hhigh⟩ := hn
  intro rest hr
  rcases Int.lt_or_le n 0 with hneg | hnonneg
  · have h := readNumber_negative (n := n.natAbs) (by omega) (by omega) hr
    have habs : (-(n.natAbs : Int)) = n := by omega
    rwa [habs, ← decide_eq_true hneg] at h
  · have h := readNumber_natural (n := n.natAbs) (by omega) hr
    have habs : (n.natAbs : Int) = n := by omega
    rwa [habs, ← decide_eq_false (Int.not_lt.2 hnonneg)] at h

/-- An integer that the reader of numbers takes is read back. -/
theorem readValueWith_writeInteger {number : Bool → Reader Fault Json} {n : Int}
    (hn : ReadsInteger number n) {rest : List Char} (hr : Separated rest) (fuel depth : Nat) :
    readValueWith number fuel depth (writeInteger n ++ rest) = .ok (.integer n, rest) := by
  have h := hn hr
  rcases Int.lt_or_le n 0 with hneg | hnonneg
  · rw [writeInteger, if_pos hneg, List.append_assoc, List.singleton_append, readValueWith_minus]
    rwa [decide_eq_true hneg] at h
  · have hneg : ¬ n < 0 := Int.not_lt.2 hnonneg
    rw [writeInteger, if_neg hneg, List.nil_append]
    rw [decide_eq_false hneg] at h
    cases hd : Nat.toDigits 10 n.natAbs with
    | nil => exact absurd hd Nat.toDigits_ne_nil
    | cons c cs =>
      rw [hd] at h
      have hc := Text.isDigit_of_mem_toDigits (n := n.natAbs) (c := c) (by simp [hd])
      rw [List.cons_append, readValueWith_digit hc]
      exact h

/-! ## What is written -/

theorem write_array_cons (spacing : Spacing) (level : Nat) (item : Json) (items : List Json) :
    write spacing level (.array (item :: items)) =
      '[' :: spacing.lineBreak (level + 1) ++ write spacing (level + 1) item ++
        writeItems spacing (level + 1) items ++ spacing.lineBreak level ++ [']'] := rfl

theorem write_object_cons (spacing : Spacing) (level : Nat) (name : String) (value : Json)
    (ms : List (String × Json)) :
    write spacing level (.object ((name, value) :: ms)) =
      '\x7b' :: spacing.lineBreak (level + 1) ++ writeString name ++ spacing.colon ++
        write spacing (level + 1) value ++ writeMembers spacing (level + 1) ms ++
        spacing.lineBreak level ++ ['\x7d'] := rfl

theorem writeItems_cons (spacing : Spacing) (level : Nat) (item : Json) (items : List Json) :
    writeItems spacing level (item :: items) =
      ',' :: spacing.lineBreak level ++ write spacing level item ++
        writeItems spacing level items := rfl

theorem writeMembers_cons (spacing : Spacing) (level : Nat) (name : String) (value : Json)
    (ms : List (String × Json)) :
    writeMembers spacing level ((name, value) :: ms) =
      ',' :: spacing.lineBreak level ++ writeString name ++ spacing.colon ++
        write spacing level value ++ writeMembers spacing level ms := rfl

/-- What is written for a value begins with the first lexeme of the value. -/
theorem opens_write (spacing : Spacing) (level : Nat) :
    ∀ {v : Json}, v.FloatFree → Opens (write spacing level v)
  | .null, _ => ⟨'n', _, rfl, by decide, by decide⟩
  | .bool true, _ => ⟨'t', _, rfl, by decide, by decide⟩
  | .bool false, _ => ⟨'f', _, rfl, by decide, by decide⟩
  | .float x, h => absurd h (not_floatFree_float x)
  | .string _, _ => ⟨'"', _, rfl, by decide, by decide⟩
  | .array [], _ => ⟨'[', _, rfl, by decide, by decide⟩
  | .array (_ :: _), _ => ⟨'[', _, rfl, by decide, by decide⟩
  | .object [], _ => ⟨'\x7b', _, rfl, by decide, by decide⟩
  | .object ((_, _) :: _), _ => ⟨'\x7b', _, rfl, by decide, by decide⟩
  | .integer n, _ => by
    change Opens (writeInteger n)
    rw [writeInteger]
    split
    · exact ⟨'-', _, rfl, by decide, by decide⟩
    · cases hd : Nat.toDigits 10 n.natAbs with
      | nil => exact absurd hd Nat.toDigits_ne_nil
      | cons c cs =>
        have hc := Text.isDigit_of_mem_toDigits (n := n.natAbs) (c := c) (by simp [hd])
        exact ⟨c, cs, rfl, isSpace_of_isDigit hc, ne_of_isDigit hc (by decide)⟩

/-- Every further item takes a character, and all of its own text. -/
theorem length_writeItems (spacing : Spacing) (level : Nat) (items : List Json) :
    items.length ≤ (writeItems spacing level items).length ∧
      ∀ item ∈ items,
        (write spacing level item).length ≤ (writeItems spacing level items).length := by
  induction items with
  | nil => simp
  | cons item items ih =>
    obtain ⟨hlen, hmem⟩ := ih
    simp only [writeItems_cons, List.length_append, List.length_cons, List.forall_mem_cons]
    exact ⟨by omega, by omega, fun i hi => by have := hmem i hi; omega⟩

/-- The text of an array is longer than its items are many, and than the text of each. -/
theorem length_write_array (spacing : Spacing) (level : Nat) (items : List Json) :
    items.length < (write spacing level (.array items)).length ∧
      ∀ item ∈ items,
        (write spacing (level + 1) item).length < (write spacing level (.array items)).length := by
  cases items with
  | nil => exact ⟨Nat.zero_lt_succ _, List.forall_mem_nil _⟩
  | cons item items =>
    obtain ⟨hlen, hmem⟩ := length_writeItems spacing (level + 1) items
    simp only [write_array_cons, List.length_append, List.length_cons, List.length_nil,
      List.forall_mem_cons]
    exact ⟨by omega, by omega, fun i hi => by have := hmem i hi; omega⟩

/-- Every further member takes a character, and all of the text of its value. -/
theorem length_writeMembers (spacing : Spacing) (level : Nat) (ms : List (String × Json)) :
    ms.length ≤ (writeMembers spacing level ms).length ∧
      ∀ m ∈ ms, (write spacing level m.2).length ≤ (writeMembers spacing level ms).length := by
  induction ms with
  | nil => simp
  | cons m ms ih =>
    obtain ⟨name, value⟩ := m
    obtain ⟨hlen, hmem⟩ := ih
    simp only [writeMembers_cons, List.length_append, List.length_cons, List.forall_mem_cons]
    exact ⟨by omega, by omega, fun m hm => by have := hmem m hm; omega⟩

/-- The text of an object is longer than its members are many, and than the text of each value. -/
theorem length_write_object (spacing : Spacing) (level : Nat) (ms : List (String × Json)) :
    ms.length < (write spacing level (.object ms)).length ∧
      ∀ m ∈ ms,
        (write spacing (level + 1) m.2).length < (write spacing level (.object ms)).length := by
  cases ms with
  | nil => exact ⟨Nat.zero_lt_succ _, List.forall_mem_nil _⟩
  | cons m ms =>
    obtain ⟨name, value⟩ := m
    obtain ⟨hlen, hmem⟩ := length_writeMembers spacing (level + 1) ms
    simp only [write_object_cons, List.length_append, List.length_cons, List.length_nil,
      List.forall_mem_cons]
    exact ⟨by omega, by omega, fun m hm => by have := hmem m hm; omega⟩

/-- What follows an item is separated from it. -/
theorem separated_writeItems (spacing : Spacing) (level : Nat) (items : List Json)
    (rest : List Char) :
    Separated
      (writeItems spacing (level + 1) items ++ (spacing.lineBreak level ++ ']' :: rest)) := by
  have hend : Separated (']' :: rest) := .cons (by decide) (by decide) (by decide) (by decide) rest
  cases items with
  | nil => exact .lineBreak spacing level hend
  | cons item items => rw [writeItems_cons]; exact .comma _

/-- What follows a member is separated from it. -/
theorem separated_writeMembers (spacing : Spacing) (level : Nat) (ms : List (String × Json))
    (rest : List Char) :
    Separated
      (writeMembers spacing (level + 1) ms ++ (spacing.lineBreak level ++ '\x7d' :: rest)) := by
  have hend : Separated ('\x7d' :: rest) :=
    .cons (by decide) (by decide) (by decide) (by decide) rest
  cases ms with
  | nil => exact .lineBreak spacing level hend
  | cons m ms => obtain ⟨name, value⟩ := m; rw [writeMembers_cons]; exact .comma _

section

variable {ε α σ : Type} (raise : Fault → ε) {spacing : Spacing} {level : Nat}

/-- A reader reads back what is written on a level for the document of a value. -/
def ReadsBack (spacing : Spacing) (level : Nat) (element : Reader ε α) (document : Json) (x : α) :
    Prop :=
  ∀ {rest : List Char}, Separated rest →
    element (write spacing level document ++ rest) = .ok (x, rest)

/-- The items behind the first one and the closing bracket are read back. -/
theorem elements_writeItems {element : Reader ε α} {document : α → Json} :
    ∀ {xs : List α}, (∀ x ∈ xs, (document x).FloatFree) →
      (∀ x ∈ xs, ReadsBack spacing (level + 1) element (document x) x) →
      ∀ {loop : Nat} (rest : List Char), xs.length < loop →
        elements raise element loop false (writeItems spacing (level + 1) (xs.map document) ++
          (spacing.lineBreak level ++ ']' :: rest)) = .ok (xs, rest)
  | _, _, _, 0, _, h => absurd h (Nat.not_lt_zero _)
  | [], _, _, _ + 1, rest, _ => elements_end element false spacing level rest
  | x :: xs, hf, hx, loop + 1, rest, hloop => by
    have hopens := (opens_write spacing (level + 1) (hf x (by simp))).append
      (writeItems spacing (level + 1) (xs.map document) ++ (spacing.lineBreak level ++ ']' :: rest))
    have hitem := hx x (by simp) (separated_writeItems spacing level (xs.map document) rest)
    have hitems := elements_writeItems (fun y hy => hf y (by simp [hy]))
      (fun y hy => hx y (by simp [hy])) rest (Nat.lt_of_succ_lt_succ hloop)
    simpa [writeItems_cons] using elements_next hopens hitem hitems spacing (level + 1)

/-- What is written for an array is an opening bracket and a text from which the elements are read
back. -/
theorem elements_write {element : Reader ε α} {document : α → Json} {xs : List α}
    (hf : ∀ x ∈ xs, (document x).FloatFree)
    (hx : ∀ x ∈ xs, ReadsBack spacing (level + 1) element (document x) x) (loop : Nat)
    (hloop : xs.length < loop) (rest : List Char) :
    ∃ cs, write spacing level (.array (xs.map document)) ++ rest = '[' :: cs ∧
      elements raise element loop true cs = .ok (xs, rest) := by
  obtain ⟨loop, rfl⟩ : ∃ n, loop = n + 1 := ⟨loop - 1, by omega⟩
  cases xs with
  | nil => exact ⟨']' :: rest, rfl, elements_end element true .compact 0 rest⟩
  | cons x xs =>
    have hopens := (opens_write spacing (level + 1) (hf x (by simp))).append
      (writeItems spacing (level + 1) (xs.map document) ++ (spacing.lineBreak level ++ ']' :: rest))
    have hitem := hx x (by simp) (separated_writeItems spacing level (xs.map document) rest)
    have hitems := elements_writeItems raise (fun y hy => hf y (by simp [hy]))
      (fun y hy => hx y (by simp [hy])) rest (Nat.lt_of_succ_lt_succ hloop)
    exact ⟨_, by simp [write_array_cons], elements_first hopens hitem hitems spacing (level + 1)⟩

/-- A reader of members takes some members one after the other, as they are written on a level,
from one state to another. -/
inductive Takes (spacing : Spacing) (level : Nat) (member : σ → String → Reader ε σ) :
    σ → List (String × Json) → σ → Prop
  | nil (state : σ) : Takes spacing level member state [] state
  | cons {state state' state'' : σ} {name : String} {value : Json} {ms : List (String × Json)}
      (head : ∀ {rest : List Char}, Separated rest →
        member state name (spacing.colon ++ (write spacing level value ++ rest)) =
          .ok (state', rest))
      (tail : Takes spacing level member state' ms state'') :
      Takes spacing level member state ((name, value) :: ms) state''

/-- The members behind the first one and the closing brace are taken. -/
theorem members_writeMembers {member : σ → String → Reader ε σ} {state state' : σ}
    {ms : List (String × Json)} (h : Takes spacing (level + 1) member state ms state') :
    ∀ {loop : Nat} (rest : List Char), ms.length < loop →
      members raise member loop false state (writeMembers spacing (level + 1) ms ++
        (spacing.lineBreak level ++ '\x7d' :: rest)) = .ok (state', rest) := by
  induction h with
  | nil state =>
    intro loop rest hloop
    obtain ⟨loop, rfl⟩ : ∃ n, loop = n + 1 := ⟨loop - 1, by simp at hloop; omega⟩
    exact members_end member false state spacing level rest
  | @cons state state' _ name value ms head _ ih =>
    intro loop rest hloop
    obtain ⟨loop, rfl⟩ : ∃ n, loop = n + 1 := ⟨loop - 1, by omega⟩
    have hhead := head (separated_writeMembers spacing level ms rest)
    have htail := ih rest (Nat.lt_of_succ_lt_succ hloop)
    simpa [writeMembers_cons, members_next hhead] using htail

/-- What is written for an object is an opening brace and a text from which the members are
taken. -/
theorem members_write {member : σ → String → Reader ε σ} {state state' : σ}
    {ms : List (String × Json)} (h : Takes spacing (level + 1) member state ms state')
    (loop : Nat) (hloop : ms.length < loop) (rest : List Char) :
    ∃ cs, write spacing level (.object ms) ++ rest = '\x7b' :: cs ∧
      members raise member loop true state cs = .ok (state', rest) := by
  obtain ⟨loop, rfl⟩ : ∃ n, loop = n + 1 := ⟨loop - 1, by omega⟩
  cases h with
  | nil => exact ⟨'\x7d' :: rest, rfl, members_end member true state .compact 0 rest⟩
  | @cons _ state' _ name value ms head tail =>
    have hhead := head (separated_writeMembers spacing level ms rest)
    have htail := members_writeMembers raise tail rest (Nat.lt_of_succ_lt_succ hloop)
    exact ⟨_, by simp [write_object_cons], (members_first hhead (level + 1)).trans htail⟩

end

/-! ## Documents -/

/-- The members of an object are taken, the last one first, if every value is read back. -/
theorem takes_takeMember {spacing : Spacing} {level : Nat} {readValue : Reader Fault Json}
    {ms : List (String × Json)}
    (h : ∀ m ∈ ms, ∀ {rest : List Char}, Separated rest →
      readValue (spacing.gap ++ (write spacing level m.2 ++ rest)) = .ok (m.2, rest))
    (read : List (String × Json)) :
    Takes spacing level (takeMember readValue) read ms (ms.reverse ++ read) := by
  induction ms generalizing read with
  | nil => exact .nil read
  | cons m ms ih =>
    obtain ⟨name, value⟩ := m
    rw [List.reverse_cons, List.append_assoc]
    refine .cons (fun hr => ?_) (ih (fun m hm => h m (by simp [hm])) ((name, value) :: read))
    simp [takeMember, readColon_colon, h (name, value) (by simp) hr, bind, Except.bind, pure,
      Except.pure]

/-- A document without floating-point numbers is read back as itself, if the reader of numbers takes
all its integers and no more arrays and objects are nested in it than may be open. -/
theorem readValueWith_write {number : Bool → Reader Fault Json} (spacing : Spacing) {v : Json}
    {depth fuel level : Nat} (hd : v.depth ≤ depth) (hf : v.FloatFree)
    (hn : ∀ n, .integer n ∈ v.scalars → ReadsInteger number n)
    (hl : (write spacing level v).length < fuel) :
    ReadsBack spacing level (readValueWith number fuel depth) v v := by
  induction v generalizing depth level with
  | null =>
    intro rest _
    have hs (cs : List Char) : skipSpace ('n' :: cs) = 'n' :: cs := skipSpace_cons (by decide) cs
    rw [readValueWith.eq_def]
    simp [write, hs, readLetters, bind, Except.bind, pure, Except.pure]
  | bool b =>
    intro rest _
    have htrue (cs : List Char) : skipSpace ('t' :: cs) = 't' :: cs := skipSpace_cons (by decide) cs
    have hfalse (cs : List Char) : skipSpace ('f' :: cs) = 'f' :: cs :=
      skipSpace_cons (by decide) cs
    rw [readValueWith.eq_def]
    cases b <;> simp [write, htrue, hfalse, readLetters, bind, Except.bind, pure, Except.pure]
  | integer n =>
    intro rest hr
    exact readValueWith_writeInteger (hn n (by simp [scalars])) hr fuel depth
  | float x => exact absurd hf (not_floatFree_float x)
  | string s =>
    intro rest _
    obtain ⟨cs, hcs, hread⟩ := writeString_eq s rest
    have hs (cs : List Char) : skipSpace ('"' :: cs) = '"' :: cs := skipSpace_cons (by decide) cs
    rw [readValueWith.eq_def, write, hcs]
    simp [hs, hread, Text.isDigit, bind, Except.bind, pure, Except.pure, String.ofList_toList]
  | array items ih =>
    intro rest _
    obtain ⟨e, rfl, hitems⟩ := (depth_array_le_iff items).1 hd
    rw [floatFree_array] at hf
    obtain ⟨hlen, hmem⟩ := length_write_array spacing level items
    have hread : ∀ item ∈ items,
        ReadsBack spacing (level + 1) (readValueWith number fuel e) item item := fun item hi =>
      ih item hi (hitems item hi) (hf item hi)
        (fun n h => hn n ((mem_scalarsOfItems items).2 ⟨item, hi, h⟩))
        (by have := hmem item hi; omega)
    obtain ⟨cs, hcs, hread⟩ := elements_write id hf hread fuel (by omega) rest
    rw [List.map_id'] at hcs
    rw [hcs]
    exact readValueWith_array hread
  | object ms ih =>
    intro rest _
    obtain ⟨e, rfl, hms⟩ := (depth_object_le_iff ms).1 hd
    rw [floatFree_object] at hf
    obtain ⟨hlen, hmem⟩ := length_write_object spacing level ms
    have hread : ∀ m ∈ ms, ∀ {rest : List Char}, Separated rest →
        readValueWith number fuel e (spacing.gap ++ (write spacing (level + 1) m.2 ++ rest)) =
          .ok (m.2, rest) := by
      intro m hm rest hr
      rw [readValueWith_congr (skipSpace_gap spacing _)]
      exact ih m hm (hms m hm) (hf m hm)
        (fun n h => hn n ((mem_scalarsOfMembers ms).2 ⟨m, hm, h⟩))
        (by have := hmem m hm; omega) hr
    obtain ⟨cs, hcs, hread⟩ := members_write id (takes_takeMember hread []) fuel (by omega) rest
    rw [hcs, readValueWith_object hread]
    simp

/-- A document without floating-point numbers that is within the limits of `readValue` is read back
as itself. -/
theorem readValue_write (spacing : Spacing) {v : Json} {depth fuel level : Nat}
    (hw : v.Within depth) (hf : v.FloatFree) (hl : (write spacing level v).length < fuel) :
    ReadsBack spacing level (readValue fuel depth) v v := by
  rw [← readValueWith_readNumber]
  exact readValueWith_write spacing hw.depth_le hf
    (fun n hn => readsInteger_readNumber (hw.fits (.integer n) hn)) hl

/-- A document without floating-point numbers that nests at most 127 deep is read back from its text
in either spacing. -/
theorem read_write (spacing : Spacing) {v : Json} (hw : v.Within maxDepth) (hf : v.FloatFree) :
    read (String.ofList (write spacing 0 v)) = .ok v := by
  have h : readValue ((write spacing 0 v).length + 1) maxDepth (write spacing 0 v ++ []) =
      .ok (v, []) := readValue_write spacing hw hf (Nat.lt_succ_self _) Separated.nil
  rw [List.append_nil] at h
  simp [read, h, readEnd, skipSpace, bind, Except.bind, pure, Except.pure]

end EventLog.Json
