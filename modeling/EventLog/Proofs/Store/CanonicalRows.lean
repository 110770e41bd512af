import EventLog.Proofs.Json.ReadBack
import EventLog.Proofs.Store.Forms
import EventLog.Proofs.Store.NormalForm

/-!
# Rows read back from their own texts

A row that is read from a text by itself keeps its members in the order of the text, with all
repetitions. So a row is read back from its compact text exactly if every cell in it has the form
that reading gives it (`Row.read_compact`): these are the canonical rows. Nothing is said of the
names of members, while the documents that cells keep are sorted, as all of them are in memory.
-/

namespace EventLog

/-! ## Canonical cells -/

/-- A cell that has the form of the kind of its document value. -/
inductive Cell.Canonical : Cell → Prop
  | integer (n : Int64) : Canonical (.integer n)
  | unsigned {n : UInt64} (h : 2 ^ 63 ≤ n.toNat) : Canonical (.unsigned n)
  | float (x : Binary64) : Canonical (.float x)
  | text (s : String) : Canonical (.text s)
  | sequence {items : List Cell} (h : ∀ item ∈ items, Canonical item) : Canonical (.sequence items)
  | null : Canonical (.other .null)
  | bool (b : Bool) : Canonical (.other (.bool b))
  | object {members : List (String × Json)} (h : (Json.object members).sorted = .object members) :
    Canonical (.other (.object members))

/-- The cells that keep a document value are those of words and sorted objects. -/
theorem Cell.ofJson_eq_other {document : Json} :
    ofJson document = .other document ↔ (Cell.other document).Canonical := by
  constructor
  · intro h
    cases document with
    | null => exact .null
    | bool b => exact .bool b
    | integer n =>
      rw [ofJson] at h
      split at h <;> cases h
    | float x => cases h
    | string s => cases h
    | array items => cases h
    | object members => exact .object (Cell.other.inj h)
  · intro h
    cases h with
    | null => rfl
    | bool b => rfl
    | object h => exact congrArg Cell.other h

/-- A cell is its own normal form exactly if it is canonical. -/
theorem Cell.normal_eq_self {cell : Cell} : cell.normal = cell ↔ cell.Canonical := by
  induction cell with
  | integer n => exact iff_of_true rfl (.integer n)
  | unsigned n =>
    rw [normal]
    split
    · next h =>
      constructor
      · intro hsame
        cases hsame
      · intro hcanonical
        cases hcanonical with
        | unsigned hlarge => exact absurd hlarge (Nat.not_le.2 h)
    · next h => exact iff_of_true rfl (.unsigned (Nat.not_lt.1 h))
  | float x => exact iff_of_true rfl (.float x)
  | text s => exact iff_of_true rfl (.text s)
  | sequence items ih =>
    rw [normal, normalItems_eq_map, Cell.sequence.injEq]
    constructor
    · intro h
      have hitems := List.map_inj_left.1 (h.trans (List.map_id items).symm)
      exact .sequence fun item hi => (ih item hi).1 (hitems item hi)
    · intro h
      cases h with
      | sequence h =>
        refine (List.map_congr_left fun item hi => ?_).trans (List.map_id items)
        exact (ih item hi).2 (h item hi)
  | other document => exact ofJson_eq_other

/-! ## Canonical rows -/

/-- A row that has the form of the kind of its document value: it holds canonical cells, or else is
neither an object nor an array. -/
inductive Row.Canonical : Row → Prop
  | compound {members : List (String × Cell)} (h : ∀ m ∈ members, m.2.Canonical) :
    Canonical (.compound members)
  | flat {cells : List Cell} (h : ∀ cell ∈ cells, cell.Canonical) : Canonical (.flat cells)
  | null : Canonical (.malformed .null)
  | bool (b : Bool) : Canonical (.malformed (.bool b))
  | integer (n : Int) : Canonical (.malformed (.integer n))
  | float (x : Binary64) : Canonical (.malformed (.float x))
  | string (s : String) : Canonical (.malformed (.string s))

/-- The row of the document value of a row is the row itself exactly if that is canonical. -/
theorem Row.ofJson_toJson {row : Row} : ofJson row.toJson = row ↔ row.Canonical := by
  cases row with
  | compound members =>
    have hread : ofJson (toJson (.compound members)) =
        .compound (members.map fun m => (m.1, m.2.normal)) := by
      rw [toJson, ofJson, List.map_map]
      refine congrArg Row.compound (List.map_congr_left fun m _ => ?_)
      exact congrArg (Prod.mk m.1) (Cell.ofJson_toJson m.2)
    rw [hread, Row.compound.injEq]
    constructor
    · intro h
      have hmembers := List.map_inj_left.1 (h.trans (List.map_id members).symm)
      exact .compound fun m hm => Cell.normal_eq_self.1 (congrArg Prod.snd (hmembers m hm))
    · intro h
      cases h with
      | compound h =>
        refine (List.map_congr_left fun m hm => ?_).trans (List.map_id members)
        exact congrArg (Prod.mk m.1) (Cell.normal_eq_self.2 (h m hm))
  | flat cells =>
    have hread : ofJson (toJson (.flat cells)) = .flat (cells.map Cell.normal) := by
      rw [toJson, ofJson, List.map_map]
      exact congrArg Row.flat (List.map_congr_left fun cell _ => Cell.ofJson_toJson cell)
    rw [hread, Row.flat.injEq]
    constructor
    · intro h
      have hcells := List.map_inj_left.1 (h.trans (List.map_id cells).symm)
      exact .flat fun cell hcell => Cell.normal_eq_self.1 (hcells cell hcell)
    · intro h
      cases h with
      | flat h =>
        refine (List.map_congr_left fun cell hcell => ?_).trans (List.map_id cells)
        exact Cell.normal_eq_self.2 (h cell hcell)
  | malformed document =>
    cases document with
    | null => exact iff_of_true rfl .null
    | bool b => exact iff_of_true rfl (.bool b)
    | integer n => exact iff_of_true rfl (.integer n)
    | float x => exact iff_of_true rfl (.float x)
    | string s => exact iff_of_true rfl (.string s)
    | array items | object members =>
      constructor
      · intro h
        cases h
      · intro h
        cases h

/-! ## Texts -/

/-- A row without floating-point numbers, whose integers fit a word and which nests at most 127
deep, is read back from its compact text exactly if it is canonical, and the forms that are tried in
order then give it too. -/
theorem Row.read_compact {row : Row} (hfloat : row.toJson.FloatFree)
    (hfits : ∀ x ∈ row.toJson.scalars, x.Fits) (hdepth : row.toJson.depth ≤ Json.maxDepth) :
    (read row.toJson.compact = .ok row ↔ row.Canonical) ∧
      (row.Canonical → (Json.read row.toJson.compact).map tried = .ok row) := by
  have hdocument : Json.read row.toJson.compact = .ok row.toJson :=
    Json.read_write .compact ⟨hdepth, hfits⟩ hfloat
  have hread : read row.toJson.compact = .ok row ↔ row.Canonical := by
    rw [read, hdocument, Except.map, Except.ok.injEq, ofJson_toJson]
  exact ⟨hread, fun h => (read_eq_tried row.toJson.compact).symm.trans (hread.2 h)⟩

/-- A row with members out of order and twice, and cells of all forms without fractions. -/
def Row.repeated : Row :=
  .compound [("b", .unsigned 18446744073709551615), ("a", .integer (-1)),
    ("b", .sequence [.text "x\n", .sequence [], .other .null]),
    ("a", .other (.object [("p", .integer 1), ("q", .array [.string "", .bool true])]))]

/-- Its text has the members in its own order, and it is read back from that. -/
theorem Row.read_compact_repeated :
    Row.repeated.toJson.compact = "\x7b\"b\":18446744073709551615,\"a\":-1," ++
        "\"b\":[\"x\\n\",[],null],\"a\":\x7b\"p\":1,\"q\":[\"\",true]\x7d\x7d" ∧
      Row.repeated.Canonical ∧ Row.read Row.repeated.toJson.compact = .ok .repeated := by
  have hcanonical : Row.repeated.Canonical := by
    refine .compound ?_
    simp only [List.forall_mem_cons]
    exact ⟨.unsigned (by decide), .integer (-1), .sequence (by
      simp only [List.forall_mem_cons]
      exact ⟨.text "x\n", .sequence nofun, .null, nofun⟩), .object (by rfl), nofun⟩
  have hfloat : Row.repeated.toJson.FloatFree := by
    simp [Row.repeated, Row.toJson, Cell.toJson, Cell.toItems]
  have hfits : ∀ x ∈ Row.repeated.toJson.scalars, x.Fits := by
    simp [Row.repeated, Row.toJson, Cell.toJson, Cell.toItems, Json.scalars, Json.scalarsOfItems,
      Json.scalarsOfMembers, Json.Fits, Json.FitsWord]
  exact ⟨by decide, hcanonical, (Row.read_compact hfloat hfits (by decide)).1.2 hcanonical⟩

end EventLog
