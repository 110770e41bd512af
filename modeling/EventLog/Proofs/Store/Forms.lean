import EventLog.Binary64.Nearest
import EventLog.Proofs.Json.Limits
import EventLog.Proofs.Store.Reread

/-!
# Forms tried in order

A cell can be read by trying its forms one after the other and taking the first one that fits the
document value, and so can a row. More than one form may fit: a small integer is a signed and an
unsigned word and a floating-point number too, and every value at all is a document. In the order
in which the forms are declared, the first one is the form that belongs to the kind of the value
(`Cell.tried_eq_ofJson`, `Row.tried_eq_ofJson`), as long as integers fit a word, which they do in
everything that is read (`Row.read_eq_tried`).
-/

namespace EventLog

/-! ## Cells -/

namespace Cell

/-- The cell of an integer that fits a signed word. -/
def asInteger? : Json → Option Cell
  | .integer n =>
    if Int64.minValue.toInt ≤ n ∧ n ≤ Int64.maxValue.toInt then some (.integer (Int64.ofInt n))
    else none
  | _ => none

/-- The cell of an integer that fits an unsigned word. -/
def asUnsigned? : Json → Option Cell
  | .integer n =>
    if 0 ≤ n ∧ n < UInt64.size then some (.unsigned (UInt64.ofNat n.toNat)) else none
  | _ => none

/-- The cell of a number, which for an integer is the nearest floating-point number. -/
def asFloat? : Json → Option Cell
  | .integer n => some (.float (.ofMagnitude (n < 0) (Binary64.nearestMagnitude n.natAbs 1)))
  | .float x => some (.float x)
  | _ => none

/-- The cell of a string. -/
def asText? : Json → Option Cell
  | .string s => some (.text s)
  | _ => none

/-- The cell in the first form that fits, where the items are given if there are any. -/
def firstForm (items? : Option (List Cell)) (document : Json) : Cell :=
  ((((asInteger? document).or (asUnsigned? document)).or (asFloat? document)).or
    (asText? document)).or (items?.map .sequence) |>.getD (.other document.sorted)

mutual

/-- The cell of a document value in the first form that fits, and so inside of a sequence. -/
def tried : Json → Cell
  | .array items => firstForm (some (triedItems items)) (.array items)
  | document => firstForm none document

/-- The cells of document values. -/
def triedItems : List Json → List Cell
  | [] => []
  | item :: rest => tried item :: triedItems rest

end

/-- `triedItems` per item. -/
theorem triedItems_eq_map (items : List Json) : triedItems items = items.map tried := by
  induction items with
  | nil => rfl
  | cons item rest ih => rw [triedItems, ih, List.map_cons]

/-- The first form of an integer is that of a signed word, or else of an unsigned one. -/
theorem tried_integer {n : Int} (h : Json.FitsWord n) :
    tried (.integer n) = ofJson (.integer n) := by
  obtain ⟨hlow, hhigh⟩ := h
  have hmin : Int64.minValue.toInt = -2 ^ 63 := Int64.toInt_minValue
  have hmax : Int64.maxValue.toInt = 2 ^ 63 - 1 := Int64.toInt_maxValue
  have htried : tried (.integer n) = firstForm none (.integer n) := rfl
  rw [htried, firstForm, ofJson, asInteger?, asUnsigned?]
  by_cases hsmall : n ≤ Int64.maxValue.toInt
  · have hsigned : Int64.minValue.toInt ≤ n ∧ n ≤ Int64.maxValue.toInt := ⟨by omega, hsmall⟩
    rw [if_pos hsigned, if_pos hsmall]
    rfl
  · have hunsigned : 0 ≤ n ∧ n < UInt64.size := ⟨by omega, by rw [UInt64.size]; omega⟩
    rw [if_neg fun h => hsmall h.2, if_pos hunsigned, if_neg hsmall]
    rfl

/-- The first form that fits is the one of the kind of the value. -/
theorem tried_eq_ofJson {v : Json} (h : ∀ x ∈ v.scalars, x.Fits) : tried v = ofJson v := by
  induction v with
  | null | bool _ | float _ | string _ | object _ => rfl
  | integer n => exact tried_integer (h (.integer n) (by simp [Json.scalars]))
  | array items ih =>
    have hitems : triedItems items = ofItems items := by
      rw [triedItems_eq_map, ofItems_eq_map]
      exact List.map_congr_left fun item hi =>
        ih item hi fun x hx => h x ((Json.mem_scalarsOfItems items).2 ⟨item, hi, hx⟩)
    rw [tried, ofJson, hitems]
    rfl

end Cell

/-! ## Rows -/

namespace Row

/-- The row of an object, with its members as they are stored. -/
def asCompound? : Json → Option Row
  | .object members => some (.compound (members.map fun (name, value) => (name, Cell.tried value)))
  | _ => none

/-- The row of an array. -/
def asFlat? : Json → Option Row
  | .array items => some (.flat (items.map Cell.tried))
  | _ => none

/-- The row of a document value in the first form that fits. -/
def tried (document : Json) : Row :=
  ((asCompound? document).or (asFlat? document)).getD (.malformed document.sorted)

/-- The first form that fits is the one of the kind of the value. -/
theorem tried_eq_ofJson {v : Json} (h : ∀ x ∈ v.scalars, x.Fits) : tried v = ofJson v := by
  cases v with
  | null | bool _ | integer _ | float _ | string _ => rfl
  | array items =>
    refine congrArg Row.flat (List.map_congr_left fun item hi => ?_)
    exact Cell.tried_eq_ofJson fun x hx => h x ((Json.mem_scalarsOfItems items).2 ⟨item, hi, hx⟩)
  | object members =>
    refine congrArg Row.compound (List.map_congr_left fun m hm => congrArg (Prod.mk m.1) ?_)
    exact Cell.tried_eq_ofJson fun x hx => h x ((Json.mem_scalarsOfMembers members).2 ⟨m, hm, hx⟩)

end Row

/-! ## Texts -/

/-- A cell is read from a text in the first form that fits. -/
theorem Cell.read_eq_tried (text : String) : read text = (Json.read text).map tried := by
  rw [read]
  cases hread : Json.read text with
  | error fault => rfl
  | ok v => exact congrArg Except.ok (tried_eq_ofJson (Json.within_of_read hread).fits).symm

/-- A row is read from a text in the first form that fits. -/
theorem Row.read_eq_tried (text : String) : read text = (Json.read text).map tried := by
  rw [read]
  cases hread : Json.read text with
  | error fault => rfl
  | ok v => exact congrArg Except.ok (tried_eq_ofJson (Json.within_of_read hread).fits).symm

end EventLog
