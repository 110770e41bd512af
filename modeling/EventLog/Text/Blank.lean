/-!
# Blank characters and words

A character is blank when it has the Unicode property `White_Space`. `words` cuts a text into its
maximal runs of characters that are not blank; `words_cons_blank` says that a blank in front adds
nothing, and `words_not_blank` that no word is empty or holds a blank.
-/

namespace EventLog.Text

/-- The code points with the Unicode property `White_Space`: the controls from tab to carriage
return, the space, next line, no-break space, and the spaces and separators of the later blocks. -/
def isBlank (c : Char) : Bool :=
  let n := c.toNat
  (9 ≤ n && n ≤ 13) || n == 0x20 || n == 0x85 || n == 0xA0 || n == 0x1680 ||
    (0x2000 ≤ n && n ≤ 0x200A) || n == 0x2028 || n == 0x2029 || n == 0x202F || n == 0x205F ||
    n == 0x3000

/-- Puts a word in front of others, unless it is empty. -/
def consWord (word : List Char) (others : List (List Char)) : List (List Char) :=
  if word.isEmpty then others else word :: others

/-- The characters up to the first blank, and the words behind it. -/
def splitWord : List Char → List Char × List (List Char)
  | [] => ([], [])
  | c :: rest =>
    let (word, others) := splitWord rest
    if isBlank c then ([], consWord word others) else (c :: word, others)

/-- The maximal runs of characters that are not blank, in order. -/
def words (cs : List Char) : List (List Char) :=
  let (word, others) := splitWord cs
  consWord word others

theorem splitWord_cons_blank {c : Char} (h : isBlank c = true) (cs : List Char) :
    splitWord (c :: cs) = ([], words cs) := by
  simp [splitWord, words, h]

theorem splitWord_cons_of_not_blank {c : Char} (h : isBlank c = false) (cs : List Char) :
    splitWord (c :: cs) = (c :: (splitWord cs).1, (splitWord cs).2) := by
  simp [splitWord, h]

/-- A blank in front of a text adds no word. -/
theorem words_cons_blank {c : Char} (h : isBlank c = true) (cs : List Char) :
    words (c :: cs) = words cs := by
  simp [words, splitWord_cons_blank h, consWord]

/-- Every word holds a character, and none that is blank. -/
theorem words_not_blank (cs : List Char) :
    (∀ c ∈ (splitWord cs).1, isBlank c = false) ∧
      ∀ w ∈ (splitWord cs).2, w ≠ [] ∧ ∀ c ∈ w, isBlank c = false := by
  induction cs with
  | nil => simp [splitWord]
  | cons c cs ih =>
    by_cases h : isBlank c = true
    · rw [splitWord_cons_blank h]
      refine ⟨by simp, fun w hw => ?_⟩
      by_cases hnil : (splitWord cs).1 = []
      · exact ih.2 w (by simpa [words, consWord, hnil] using hw)
      · rcases (by simpa [words, consWord, hnil] using hw : w = (splitWord cs).1 ∨ _) with rfl | hw
        · exact ⟨hnil, ih.1⟩
        · exact ih.2 w hw
    · have h' : isBlank c = false := by simpa using h
      rw [splitWord_cons_of_not_blank h']
      exact ⟨by simpa [h'] using ih.1, ih.2⟩

end EventLog.Text
