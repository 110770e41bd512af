import EventLog.Proofs.Text.Numerals
import EventLog.Text.Lines

/-!
# Texts of several lines

Lines with a line feed behind each are the pieces of their text, with an empty one at the end,
exactly if none of them holds a line feed itself (`flatMap_pieces_eq_map`). Such a text gives back
its lines (`pieces_unlines_of_oneLine`, `unlines_inj`). Numbers stay in one line.
-/

namespace EventLog

open EventLog.Text

/-! ## Texts split at line feeds -/

/-- There is one piece more than there are line feeds. -/
theorem length_pieces (cs : List Char) : (pieces cs).length = cs.count '\n' + 1 := by
  induction cs with
  | nil => rfl
  | cons c rest ih =>
    rw [pieces, List.count_cons]
    split
    · next hc => simp [hc, ih]
    · next hc =>
      obtain ⟨piece, others, hpieces⟩ := List.exists_cons_of_ne_nil (pieces_ne_nil rest)
      rw [hpieces] at ih ⊢
      simpa [hc] using ih

/-- Lines with a line feed behind each have the pieces of all lines, and an empty one at the end. -/
theorem pieces_unlines (ls : List String) :
    pieces (unlines ls).toList = (ls.flatMap fun l => pieces l.toList) ++ [[]] := by
  induction ls with
  | nil => rfl
  | cons l ls ih =>
    have hunlines : (unlines (l :: ls)).toList = l.toList ++ '\n' :: (unlines ls).toList := by
      simp [unlines]
    rw [hunlines, pieces_append_lineFeed, ih, List.flatMap_cons, List.append_assoc]

/-- A text that stays in one line. -/
def OneLine (text : String) : Prop := '\n' ∉ text.toList

instance (text : String) : Decidable (OneLine text) := inferInstanceAs (Decidable (¬ _))

/-- Only such a text is its own only piece. -/
theorem length_pieces_eq_one {text : String} :
    (pieces text.toList).length = 1 ↔ OneLine text := by
  rw [length_pieces, OneLine, ← List.count_eq_zero]
  omega

/-- Lines have at least as many pieces together as there are lines. -/
theorem length_le_pieces (ls : List String) :
    ls.length ≤ (ls.flatMap fun l => pieces l.toList).length := by
  induction ls with
  | nil => exact Nat.le_refl _
  | cons l ls ih =>
    have hone := List.length_pos_iff.2 (pieces_ne_nil l.toList)
    rw [List.flatMap_cons, List.length_append, List.length_cons]
    omega

/-- Lines are the pieces of their text exactly if each of them stays in one line. -/
theorem flatMap_pieces_eq_map (ls : List String) :
    (ls.flatMap fun l => pieces l.toList) = ls.map String.toList ↔ ∀ l ∈ ls, OneLine l := by
  induction ls with
  | nil => simp
  | cons l ls ih =>
    rw [List.forall_mem_cons, ← ih, List.flatMap_cons, List.map_cons]
    constructor
    · intro h
      -- the lines behind have no fewer pieces than lines, so one is left for this line
      have hlength := congrArg List.length h
      have hrest := length_le_pieces ls
      have hpos := List.length_pos_iff.2 (pieces_ne_nil l.toList)
      rw [List.length_append, List.length_cons, List.length_map] at hlength
      have hone : OneLine l := length_pieces_eq_one.1 (by omega)
      rw [pieces_of_not_mem hone] at h
      exact ⟨hone, List.tail_eq_of_cons_eq h⟩
    · rintro ⟨hone, hrest⟩
      rw [pieces_of_not_mem hone, hrest, List.singleton_append]

/-! ## Texts that stay in one line -/

theorem oneLine_append {a b : String} : OneLine (a ++ b) ↔ OneLine a ∧ OneLine b := by
  rw [OneLine, String.toList_append, List.mem_append, not_or]
  rfl

/-- There is no line feed among decimal digits. -/
theorem lineFeed_not_mem_toDigits (n : Nat) : '\n' ∉ Nat.toDigits 10 n := fun h =>
  absurd (isDigit_of_mem_toDigits h) (by decide)

theorem oneLine_natural (n : Nat) : OneLine (toString n) := by
  change '\n' ∉ (String.ofList (Nat.toDigits 10 n)).toList
  rw [String.toList_ofList]
  exact lineFeed_not_mem_toDigits n

theorem oneLine_integer (n : Int) : OneLine (toString n) := by
  cases n with
  | ofNat n => exact oneLine_natural n
  | negSucc n => exact oneLine_append.2 ⟨by decide, oneLine_natural (n + 1)⟩

/-! ## Lines that their text gives back -/

/-- Lines that stay in one line each are the pieces of their text, but for the empty last one. -/
theorem pieces_unlines_of_oneLine {ls : List String} (h : ∀ l ∈ ls, OneLine l) :
    pieces (unlines ls).toList = ls.map String.toList ++ [[]] := by
  rw [pieces_unlines, (flatMap_pieces_eq_map ls).2 h]

/-- Lines that stay in one line each are told apart by their text. -/
theorem unlines_inj {ls ls' : List String} (h : ∀ l ∈ ls, OneLine l) (h' : ∀ l ∈ ls', OneLine l) :
    unlines ls = unlines ls' ↔ ls = ls' := by
  refine ⟨fun htext => ?_, congrArg unlines⟩
  have hpieces := pieces_unlines_of_oneLine h
  rw [htext, pieces_unlines_of_oneLine h', List.append_cancel_right_eq] at hpieces
  exact (List.map_inj_right fun _ _ => String.toList_inj.1).1 hpieces.symm

end EventLog
