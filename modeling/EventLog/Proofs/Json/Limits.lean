import EventLog.Proofs.Json.Extent

/-!
# The limits of reading

A reader returns nothing that goes beyond its limits. `within_of_readValue`: a document that was
read with `depth` levels left is nested no deeper than that, and all of its integers fit a word. The
two loops keep what their steps keep (`forall_of_elements`, `invariant_of_members`), whatever they
read.
-/

namespace EventLog.Json

/-! ## Steps that succeed -/

section

variable {ε α β : Type}

/-- A sequence of steps succeeds if each of them does. -/
theorem bind_eq_ok {x : Except ε α} {f : α → Except ε β} {b : β} :
    (x >>= f) = .ok b ↔ ∃ a, x = .ok a ∧ f a = .ok b := by
  cases x with
  | error e => simp [bind, Except.bind]
  | ok a => simp [bind, Except.bind]

@[simp] theorem lift_eq_ok {raise : Fault → ε} {x : Except Fault α} {a : α} :
    lift raise x = .ok a ↔ x = .ok a := by
  cases x <;> simp [lift]

end

/-! ## Loops -/

section

variable {ε α σ : Type} {raise : Fault → ε}

/-- What holds of every element that is read holds of all elements of an array. -/
theorem forall_of_elements {element : Reader ε α} {p : α → Prop}
    (hp : ∀ {cs x rest}, element cs = .ok (x, rest) → p x) :
    ∀ {fuel : Nat} {first : Bool} {cs : List Char} {xs : List α} {rest : List Char},
      elements raise element fuel first cs = .ok (xs, rest) → ∀ x ∈ xs, p x
  | 0, _, _, _, _, h => by simp [elements] at h
  | fuel + 1, first, cs, xs, rest, h => by
    rw [elements] at h
    obtain ⟨next, -, h⟩ := bind_eq_ok.1 h
    cases next with
    | none =>
      obtain ⟨_, -, h⟩ := bind_eq_ok.1 h
      cases h
      simp
    | some cs =>
      obtain ⟨⟨y, cs⟩, hy, h⟩ := bind_eq_ok.1 h
      obtain ⟨⟨ys, cs⟩, hys, h⟩ := bind_eq_ok.1 h
      cases h
      exact List.forall_mem_cons.2 ⟨hp hy, forall_of_elements hp hys⟩

/-- What every member that is taken keeps is kept by all members of an object. -/
theorem invariant_of_members {member : σ → String → Reader ε σ} {p : σ → Prop}
    (hp : ∀ {state name cs state' rest}, p state → member state name cs = .ok (state', rest) →
      p state') :
    ∀ {fuel : Nat} {first : Bool} {state : σ} {cs : List Char} {state' : σ} {rest : List Char},
      p state → members raise member fuel first state cs = .ok (state', rest) → p state'
  | 0, _, _, _, _, _, _, h => by simp [members] at h
  | fuel + 1, first, state, cs, state', rest, hs, h => by
    rw [members] at h
    obtain ⟨next, -, h⟩ := bind_eq_ok.1 h
    cases next with
    | none =>
      obtain ⟨_, -, h⟩ := bind_eq_ok.1 h
      cases h
      exact hs
    | some cs =>
      obtain ⟨⟨name, cs⟩, -, h⟩ := bind_eq_ok.1 h
      obtain ⟨⟨mid, cs⟩, hm, h⟩ := bind_eq_ok.1 h
      exact invariant_of_members hp (hp hs hm) h

end

/-! ## Numbers -/

/-- Digits are appended as long as the number fits a word. -/
theorem appendDigits_lt {m : Nat} (hm : m < 2 ^ 64) (ds : List Char) :
    (appendDigits m ds).1 < 2 ^ 64 := by
  induction ds generalizing m with
  | nil => exact hm
  | cons d ds ih =>
    simp only [appendDigits]
    split
    · next h => exact ih h
    · exact hm

/-- A numeral denotes an integer that fits a word, or a floating-point number. -/
theorem within_of_value {n : Numeral} {v : Json} (h : n.value = .ok v) (d : Nat) : v.Within d := by
  have hdigits : (appendDigits (appendDigits 0 n.whole).1 n.fraction).1 < 2 ^ 64 :=
    appendDigits_lt (appendDigits_lt (by decide) n.whole) n.fraction
  unfold Numeral.value at h
  simp only at h
  split at h
  · split at h
    · cases h
      rw [within_integer]
      exact ⟨by omega, by omega⟩
    · split at h
      · cases h
        exact within_float d _
      · next hbig =>
        cases h
        rw [within_integer]
        simp only [Bool.or_eq_true, decide_eq_true_eq, not_or, Nat.not_lt] at hbig
        have hword : Nat.pow 2 63 = 2 ^ 63 := rfl
        exact ⟨by omega, by omega⟩
  · split at h
    · cases h
      exact within_float d _
    · cases h

theorem within_of_readNumber {negative : Bool} {cs : List Char} {v : Json} {rest : List Char}
    (h : readNumber negative cs = .ok (v, rest)) (d : Nat) : v.Within d := by
  obtain ⟨⟨n, cs⟩, -, h⟩ := bind_eq_ok.1 h
  obtain ⟨w, hw, h⟩ := bind_eq_ok.1 h
  cases h
  exact within_of_value hw d

/-! ## Values -/

/-- How a value can have been read by a reader with `depth` levels left: as a word, a number, a
string, or behind an opening bracket or brace, which takes a level. -/
inductive ReadAs (fuel : Nat) (rest : List Char) : Nat → Json → Prop
  | null {depth : Nat} : ReadAs fuel rest depth .null
  | bool {depth : Nat} (b : Bool) : ReadAs fuel rest depth (.bool b)
  | number {depth : Nat} {v : Json} {negative : Bool} {cs : List Char}
      (h : readNumber negative cs = .ok (v, rest)) : ReadAs fuel rest depth v
  | string {depth : Nat} (s : String) : ReadAs fuel rest depth (.string s)
  | array {depth : Nat} {items : List Json} {cs : List Char}
      (h : elements id (readValue fuel depth) fuel true cs = .ok (items, rest)) :
      ReadAs fuel rest (depth + 1) (.array items)
  | object {depth : Nat} {read : List (String × Json)} {cs : List Char}
      (h : members id (takeMember (readValue fuel depth)) fuel true [] cs = .ok (read, rest)) :
      ReadAs fuel rest (depth + 1) (.object read.reverse)

theorem readAs_of_readValue {fuel depth : Nat} {cs : List Char} {v : Json} {rest : List Char}
    (h : readValue fuel depth cs = .ok (v, rest)) : ReadAs fuel rest depth v := by
  rw [readValue.eq_def] at h
  simp only at h
  split at h
  · cases h
  -- the words
  split at h
  · obtain ⟨_, -, h⟩ := bind_eq_ok.1 h
    cases h
    exact .null
  split at h
  · obtain ⟨_, -, h⟩ := bind_eq_ok.1 h
    cases h
    exact .bool true
  split at h
  · obtain ⟨_, -, h⟩ := bind_eq_ok.1 h
    cases h
    exact .bool false
  -- the numbers
  split at h
  · exact .number h
  split at h
  · exact .number h
  split at h
  · obtain ⟨⟨text, _⟩, -, h⟩ := bind_eq_ok.1 h
    cases h
    exact .string _
  -- arrays and objects
  split at h
  · cases depth with
    | zero => cases h
    | succ depth =>
      obtain ⟨⟨items, _⟩, hitems, h⟩ := bind_eq_ok.1 h
      cases h
      exact .array hitems
  split at h
  · cases depth with
    | zero => cases h
    | succ depth =>
      obtain ⟨⟨read, _⟩, hread, h⟩ := bind_eq_ok.1 h
      cases h
      exact .object hread
  · cases h

/-- A value that was read is within the limits of its reader. -/
theorem within_of_readValue {fuel depth : Nat} : ∀ {cs : List Char} {v : Json} {rest : List Char},
    readValue fuel depth cs = .ok (v, rest) → v.Within depth := by
  induction depth using Nat.strongRecOn with
  | _ depth ih =>
    intro cs v rest h
    cases readAs_of_readValue h with
    | null => exact within_null depth
    | bool b => exact within_bool depth b
    | number h => exact within_of_readNumber h depth
    | string s => exact within_string depth s
    | @array depth items _ hitems =>
      exact (within_array_succ items).2
        (forall_of_elements (fun h => ih depth (Nat.lt_succ_self depth) h) hitems)
    | @object depth read _ hmembers =>
      have hread : ∀ m ∈ read, m.2.Within depth := by
        refine invariant_of_members (p := fun read => ∀ m ∈ read, m.2.Within depth) ?_ (by simp)
          hmembers
        intro read name cs read' rest hr hm
        obtain ⟨cs', -, hm⟩ := bind_eq_ok.1 hm
        obtain ⟨⟨value, rest⟩, hvalue, hm⟩ := bind_eq_ok.1 hm
        cases hm
        exact List.forall_mem_cons.2 ⟨ih depth (Nat.lt_succ_self depth) hvalue, hr⟩
      rw [within_object_succ]
      exact fun m hm => hread m (List.mem_reverse.1 hm)

/-- What is read of a text is within limits. -/
theorem within_of_read {text : String} {v : Json} (h : read text = .ok v) :
    v.Within maxDepth := by
  obtain ⟨⟨_, _⟩, hread, h⟩ := bind_eq_ok.1 h
  obtain ⟨_, -, h⟩ := bind_eq_ok.1 h
  cases h
  exact within_of_readValue hread

end EventLog.Json
