import Mathlib.Data.List.Forall2
import EventLog.Proofs.Json.ReadBack
import EventLog.Proofs.Store.Forms

/-!
# Reading rows and cells loses nothing

Every text that is read as a document is read as a row and as a cell. Which form these have is
settled by the kind of the document value alone (`Row.Follows`, `Cell.Follows`), and so again for
the cells in a row and in a sequence. What is written of them is read as the same document, as long
as the order of members does not count and the last of equal names does (`decoding_lossless`): a row
keeps its members in order and with all repetitions, while objects inside of cells are kept without.
Floating-point numbers are left out where texts are read back.
-/

namespace EventLog

/-! ## Documents without order -/

namespace Json

/-- Reads a whole text as a document whose members are in no order: they are taken by name, the last
of equal names alone. -/
def readUnordered (text : String) : Except Fault Json :=
  (read text).map sorted

/-- A document without floating-point numbers is read from its text in either spacing. -/
theorem readUnordered_write (spacing : Spacing) {v : Json} (hw : v.Within maxDepth)
    (hf : v.FloatFree) :
    readUnordered (String.ofList (write spacing 0 v)) = .ok v.sorted := by
  rw [readUnordered, read_write spacing hw hf]
  rfl

end Json

/-! ## Cells -/

namespace Cell

/-- The form of a cell is settled by the kind of the document value, and for integers by which words
they fit. -/
structure HasFormOf (document : Json) (cell : Cell) : Prop where
  integer : (∃ n, cell = .integer n) ↔ ∃ n, document = .integer n ∧ -2 ^ 63 ≤ n ∧ n < 2 ^ 63
  unsigned : (∃ n, cell = .unsigned n) ↔ ∃ n, document = .integer n ∧ 2 ^ 63 ≤ n ∧ n < 2 ^ 64
  float : (∃ x, cell = .float x) ↔ ∃ x, document = .float x
  text : (∃ s, cell = .text s) ↔ ∃ s, document = .string s
  sequence : (∃ items, cell = .sequence items) ↔ ∃ items, document = .array items
  other : (∃ v, cell = .other v) ↔
    document = .null ∨ (∃ b, document = .bool b) ∨ ∃ members, document = .object members

/-- So it is for the cell, and for the cells of a sequence again. -/
inductive Follows : Json → Cell → Prop
  | intro {document : Json} {cell : Cell} (form : cell.HasFormOf document)
      (items : ∀ items cells, document = .array items → cell = .sequence cells →
        List.Forall₂ Follows items cells) :
      Follows document cell

/-- The cell of a document value that is within limits has its form. -/
theorem hasFormOf_ofJson {d : Nat} {v : Json} (h : v.Within d) : (ofJson v).HasFormOf v := by
  cases v with
  | null | bool _ | float _ | string _ | array _ | object _ => constructor <;> simp [ofJson]
  | integer n =>
    obtain ⟨hlow, hhigh⟩ := (Json.within_integer d n).1 h
    have hmax : Int64.maxValue.toInt = 2 ^ 63 - 1 := Int64.toInt_maxValue
    by_cases hsmall : n ≤ Int64.maxValue.toInt
    · have hcell : ofJson (.integer n) = .integer (Int64.ofInt n) := by rw [ofJson, if_pos hsmall]
      rw [hcell]
      constructor <;> simp <;> omega
    · have hcell : ofJson (.integer n) = .unsigned (UInt64.ofNat n.toNat) := by
        rw [ofJson, if_neg hsmall]
      rw [hcell]
      constructor <;> simp <;> omega

/-- So have the cells in it. -/
theorem follows_ofJson {d : Nat} {v : Json} (h : v.Within d) : Follows v (ofJson v) := by
  induction v generalizing d with
  | null | bool _ | integer _ | float _ | string _ | object _ =>
    refine .intro (hasFormOf_ofJson h) ?_
    rintro _ _ ⟨⟩
  | array items ih =>
    refine .intro (hasFormOf_ofJson h) ?_
    obtain ⟨e, rfl, hitems⟩ := (Json.within_array items).1 h
    rintro _ _ ⟨⟩ hcells
    obtain rfl := Cell.sequence.inj hcells
    rw [ofItems_eq_map, List.forall₂_map_right_iff, List.forall₂_same]
    intro item hi
    exact ih item hi (hitems item hi)

/-- A cell is read as the document that it was read from. -/
theorem readUnordered_write (spacing : Json.Spacing) {v : Json} (hw : v.Within Json.maxDepth)
    (hf : v.FloatFree) :
    Json.readUnordered (String.ofList (Json.write spacing 0 (ofJson v).toJson)) = .ok v.sorted := by
  rw [toJson_ofJson hw, Json.readUnordered_write spacing hw.sorted hf.sorted, Json.sorted_sorted]

end Cell

/-! ## Rows -/

namespace Row

/-- The form of a row is settled by the kind of the document value. Its cells follow the values of
the members or the items, in order, and members keep their names. -/
structure Follows (document : Json) (row : Row) : Prop where
  compound : (∃ cells, row = .compound cells) ↔ ∃ members, document = .object members
  flat : (∃ cells, row = .flat cells) ↔ ∃ items, document = .array items
  malformed : (∃ v, row = .malformed v) ↔
    (∀ members, document ≠ .object members) ∧ ∀ items, document ≠ .array items
  members : ∀ members cells, document = .object members → row = .compound cells →
    List.Forall₂ (fun m cell => cell.1 = m.1 ∧ Cell.Follows m.2 cell.2) members cells
  items : ∀ items cells, document = .array items → row = .flat cells →
    List.Forall₂ Cell.Follows items cells

/-- The row of a document value that is within limits has its form, and so have its cells. -/
theorem follows_ofJson {d : Nat} {v : Json} (h : v.Within d) : Follows v (ofJson v) := by
  cases v with
  | null | bool _ | integer _ | float _ | string _ => constructor <;> simp [ofJson]
  | array items =>
    obtain ⟨e, rfl, hitems⟩ := (Json.within_array items).1 h
    refine ⟨by simp [ofJson], by simp [ofJson], by simp [ofJson], ?_, ?_⟩
    · rintro _ _ ⟨⟩
    · rintro _ _ ⟨⟩ ⟨⟩
      rw [List.forall₂_map_right_iff, List.forall₂_same]
      intro item hi
      exact Cell.follows_ofJson (hitems item hi)
  | object members =>
    obtain ⟨e, rfl, hmembers⟩ := (Json.within_object members).1 h
    refine ⟨by simp [ofJson], by simp [ofJson], by simp [ofJson], ?_, ?_⟩
    · rintro _ _ ⟨⟩ ⟨⟩
      rw [List.forall₂_map_right_iff, List.forall₂_same]
      intro m hm
      exact ⟨rfl, Cell.follows_ofJson (hmembers m hm)⟩
    · rintro _ _ ⟨⟩

/-- A row is read as the document that it was read from. -/
theorem readUnordered_write (spacing : Json.Spacing) {v : Json} (hw : v.Within Json.maxDepth)
    (hf : v.FloatFree) :
    Json.readUnordered (String.ofList (Json.write spacing 0 (ofJson v).toJson)) = .ok v.sorted := by
  rw [toJson_ofJson_eq hw, Json.readUnordered_write spacing hw.sortedValues hf.sortedValues,
    Json.sorted_sortedValues]

end Row

/-! ## Texts -/

/-- Every text that is read as a document is read as a row and as a cell, and these are what trying
the forms in order gives. Their forms are those of the kind of the document value. If no
floating-point number is in it, the texts of the row and of the cell, in either spacing, are read as
the document that the text itself is read as, where members are taken by name and the last of equal
names alone. -/
theorem decoding_lossless {text : String} {document : Json} (h : Json.read text = .ok document) :
    (∃ row, Row.read text = .ok row ∧ (Json.read text).map Row.tried = .ok row ∧
        row.Follows document ∧
        (document.FloatFree → ∀ spacing,
          Json.readUnordered (String.ofList (Json.write spacing 0 row.toJson)) =
            Json.readUnordered text)) ∧
      ∃ cell, Cell.read text = .ok cell ∧ (Json.read text).map Cell.tried = .ok cell ∧
        cell.Follows document ∧
        (document.FloatFree → ∀ spacing,
          Json.readUnordered (String.ofList (Json.write spacing 0 cell.toJson)) =
            Json.readUnordered text) := by
  have hwithin := Json.within_of_read h
  have hrow : Row.read text = .ok (.ofJson document) := by
    rw [Row.read, h]
    rfl
  have hcell : Cell.read text = .ok (.ofJson document) := by
    rw [Cell.read, h]
    rfl
  have hunordered : Json.readUnordered text = .ok document.sorted := by
    rw [Json.readUnordered, h]
    rfl
  refine ⟨⟨.ofJson document, hrow, ?_, Row.follows_ofJson hwithin, ?_⟩,
    .ofJson document, hcell, ?_, Cell.follows_ofJson hwithin, ?_⟩
  · rw [← Row.read_eq_tried, hrow]
  · intro hfloat spacing
    rw [hunordered, Row.readUnordered_write spacing hwithin hfloat]
  · rw [← Cell.read_eq_tried, hcell]
  · intro hfloat spacing
    rw [hunordered, Cell.readUnordered_write spacing hwithin hfloat]

/-- A document with two members of a name, also inside of one of them, and with integers on both
sides of the largest signed word. -/
def Json.mixed : Json :=
  .object [("b", .integer 9223372036854775808),
    ("a", .object [("p", .integer 1), ("p", .integer (-1)), ("o", .array [.null, .bool true])]),
    ("b", .array [.integer 9223372036854775807, .string "x"])]

/-- The row keeps both members with their name, and the object in it only the last one, before the
other in the order of names. Its text is read as the same document. -/
theorem decoding_lossless_mixed :
    Json.read Json.mixed.compact = .ok .mixed ∧ Json.mixed.FloatFree ∧
      ∃ row, Row.read Json.mixed.compact = .ok row ∧
        row.toJson.compact = "\x7b\"b\":9223372036854775808," ++
          "\"a\":\x7b\"o\":[null,true],\"p\":-1\x7d,\"b\":[9223372036854775807,\"x\"]\x7d" ∧
        Json.readUnordered row.toJson.compact = Json.readUnordered Json.mixed.compact := by
  have hfloat : Json.mixed.FloatFree := by simp [Json.mixed]
  have hwithin : Json.mixed.Within Json.maxDepth := by
    refine ⟨by decide, ?_⟩
    simp [Json.mixed, Json.scalars, Json.scalarsOfItems, Json.scalarsOfMembers, Json.Fits,
      Json.FitsWord]
  have hread : Json.read Json.mixed.compact = .ok .mixed := Json.read_write .compact hwithin hfloat
  obtain ⟨⟨row, hrow, -, -, hlossless⟩, -⟩ := decoding_lossless hread
  refine ⟨hread, hfloat, row, hrow, ?_, hlossless hfloat .compact⟩
  have hmixed : Row.read Json.mixed.compact = .ok (.ofJson .mixed) := by
    rw [Row.read, hread]
    rfl
  rw [Except.ok.inj (hrow.symm.trans hmixed)]
  decide

end EventLog
