import EventLog.Proofs.Json.Order
import EventLog.Store.Outline

/-!
# Stored data and its documents

Cells, rows and datasets come from documents and go back to them. A cell keeps all of its document
but the order of members (`Cell.toJson_ofJson`), a row keeps the order of its own members too
(`Row.toJson_ofJson_eq`), and the row of a sorted document all of it (`Row.toJson_ofJson`). So a
dataset that was read from a document is read again from its own (`Dataset.ofDocument?_toJson`),
which is within the limits of the first one (`Dataset.within_toJson`): an empty dataset is written
with one level more than it may have been read with, but a payload always stands where the number of
levels left is even.
-/

namespace EventLog

open Json (FitsWord)

/-! ## Cells -/

namespace Cell

/-- `ofItems` per item. -/
theorem ofItems_eq_map (items : List Json) : ofItems items = items.map ofJson := by
  induction items with
  | nil => rfl
  | cons item rest ih => rw [ofItems, ih, List.map_cons]

/-- `toItems` per item. -/
theorem toItems_eq_map (cells : List Cell) : toItems cells = cells.map toJson := by
  induction cells with
  | nil => rfl
  | cons cell rest ih => rw [toItems, ih, List.map_cons]

/-- The cell of an integer has its value. -/
theorem toJson_ofJson_integer {n : Int} (h : FitsWord n) :
    (ofJson (.integer n)).toJson = .integer n := by
  obtain ⟨hlow, hhigh⟩ := h
  have hmax : Int64.maxValue.toInt = 2 ^ 63 - 1 := Int64.toInt_maxValue
  rw [ofJson]
  split
  · next hsmall => rw [toJson, Int64.toInt_ofInt_of_le hlow (by omega)]
  · have hn : n.toNat < 2 ^ 64 := by omega
    rw [toJson, UInt64.toNat_ofNat_of_lt' hn, Int.toNat_of_nonneg (by omega)]

/-- A cell keeps its document but for the order of members. -/
theorem toJson_ofJson {d : Nat} {v : Json} (h : v.Within d) : (ofJson v).toJson = v.sorted := by
  induction v generalizing d with
  | null | bool _ | float _ | string _ | object _ => rfl
  | integer n => exact toJson_ofJson_integer ((Json.within_integer d n).1 h)
  | array items ih =>
    obtain ⟨e, rfl, hitems⟩ := (Json.within_array items).1 h
    rw [ofJson, toJson, ofItems_eq_map, toItems_eq_map, Json.sorted_array, List.map_map]
    exact congrArg Json.array (List.map_congr_left fun item hi => ih item hi (hitems item hi))

/-- The cell of a document does not depend on the order of members. -/
theorem ofJson_sorted (v : Json) : ofJson v.sorted = ofJson v := by
  induction v with
  | null | bool _ | integer _ | float _ | string _ => rfl
  | array items ih =>
    rw [Json.sorted_array, ofJson, ofJson, ofItems_eq_map, ofItems_eq_map, List.map_map]
    exact congrArg Cell.sequence (List.map_congr_left ih)
  | object members ih =>
    have h := Json.sorted_sorted (.object members)
    rw [Json.sorted] at h ⊢
    exact congrArg Cell.other h

end Cell

/-! ## Rows -/

/-- A row keeps its document but for the order inside of cells. -/
theorem Row.toJson_ofJson_eq {d : Nat} {v : Json} (h : v.Within d) :
    (Row.ofJson v).toJson = v.sortedValues := by
  cases v with
  | null | bool _ | integer _ | float _ | string _ => rfl
  | array items =>
    obtain ⟨e, rfl, hitems⟩ := (Json.within_array items).1 h
    show Json.array ((items.map Cell.ofJson).map Cell.toJson) = (Json.array items).sorted
    rw [List.map_map, Json.sorted_array]
    refine congrArg Json.array (List.map_congr_left ?_)
    intro item hi
    exact Cell.toJson_ofJson (hitems item hi)
  | object members =>
    obtain ⟨e, rfl, hmembers⟩ := (Json.within_object members).1 h
    show Json.object ((members.map fun m => (m.1, Cell.ofJson m.2)).map fun m => (m.1, m.2.toJson)) =
      Json.object (members.map Json.sortedMember)
    rw [List.map_map]
    refine congrArg Json.object (List.map_congr_left ?_)
    intro m hm
    exact congrArg (Prod.mk m.1) (Cell.toJson_ofJson (hmembers m hm))

/-- A row keeps its document if that has its members in order. -/
theorem Row.toJson_ofJson {d : Nat} {v : Json} (h : v.Within d) (hs : v.sorted = v) :
    (Row.ofJson v).toJson = v :=
  (toJson_ofJson_eq h).trans (Json.sortedValues_eq_self hs)

/-! ## Datasets -/

namespace Dataset

/-- A payload that holds a dataset is an object or an array; the dataset has the rows that are in
it, or none. -/
theorem ofPayload?_eq_some {v : Json} {dataset : Dataset} (h : ofPayload? v = some dataset) :
    (∃ members, v = .object members ∧ (dataset = ⟨[]⟩ ∨
      ∃ rows, members.lookup "rows" = some (.array rows) ∧ dataset = ⟨rows.map Row.ofJson⟩)) ∨
    (∃ items, v = .array items ∧ (dataset = ⟨[]⟩ ∨
      ∃ rows, items = [.array rows] ∧ dataset = ⟨rows.map Row.ofJson⟩)) := by
  unfold ofPayload? at h
  split at h
  · next members =>
    refine .inl ⟨members, rfl, ?_⟩
    split at h
    · exact .inl (Option.some.inj h).symm
    · next rows hrows => exact .inr ⟨rows, hrows, (Option.some.inj h).symm⟩
    · cases h
  · exact .inr ⟨[], rfl, .inl (Option.some.inj h).symm⟩
  · next rows => exact .inr ⟨_, rfl, .inr ⟨rows, rfl, (Option.some.inj h).symm⟩⟩
  · cases h

/-- The rows of a payload are read from their sorted documents. -/
theorem ofDocument?_rows (rows : List Json) :
    ofDocument? (.object [("rows", .array rows)]) =
      some ⟨rows.map fun row => Row.ofJson row.sorted⟩ := by
  have hsorted : (Json.object [("rows", .array rows)]).sorted =
      .object [("rows", .array (rows.map Json.sorted))] := by
    rw [Json.sorted, Json.sortedMembers, Json.sortedMembers, Json.sorted_array]
    rfl
  have hrows : ofPayload? (.object [("rows", .array (rows.map Json.sorted))]) =
      some ⟨(rows.map Json.sorted).map Row.ofJson⟩ := rfl
  rw [ofDocument?, hsorted, hrows, List.map_map]
  rfl

/-- The rows of a sorted array of rows are sorted, and nest two levels less than the payload around
it. -/
theorem rows_of_array {e : Nat} {rows : List Json} (hs : (Json.array rows).sorted = .array rows)
    (hw : (Json.array rows).Within e) :
    ∀ row ∈ rows, row.sorted = row ∧ ∃ d, e + 1 = d + 2 ∧ row.Within d := by
  obtain ⟨d, rfl, hrows⟩ := (Json.within_array rows).1 hw
  exact fun row hr => ⟨Json.sorted_array_eq_self.1 hs row hr, d, rfl, hrows row hr⟩

/-- A dataset holds the rows of sorted documents, which nest two levels less than the payload. -/
theorem exists_rows {n : Nat} {document : Json} {dataset : Dataset} (hw : document.Within n)
    (h : ofDocument? document = some dataset) :
    0 < n ∧ ∃ rows : List Json, dataset = ⟨rows.map Row.ofJson⟩ ∧
      ∀ row ∈ rows, row.sorted = row ∧ ∃ d, n = d + 2 ∧ row.Within d := by
  have hs := document.sorted_sorted
  have hw := hw.sorted
  unfold ofDocument? at h
  generalize document.sorted = v at h hs hw
  rcases ofPayload?_eq_some h with ⟨members, rfl, hrows⟩ | ⟨items, rfl, hrows⟩
  · obtain ⟨e, rfl, hmembers⟩ := (Json.within_object members).1 hw
    refine ⟨Nat.succ_pos e, ?_⟩
    rcases hrows with rfl | ⟨rows, hlookup, rfl⟩
    · exact ⟨[], rfl, nofun⟩
    · obtain ⟨before, behind, rfl, -⟩ := List.lookup_eq_some_iff.1 hlookup
      have hmem : ("rows", Json.array rows) ∈ before ++ ("rows", Json.array rows) :: behind := by
        simp
      have hrows := (Json.sorted_object_eq_self.1 hs).2 _ hmem
      exact ⟨rows, rfl, rows_of_array hrows (hmembers _ hmem)⟩
  · obtain ⟨e, rfl, hitems⟩ := (Json.within_array items).1 hw
    refine ⟨Nat.succ_pos e, ?_⟩
    rcases hrows with rfl | ⟨rows, rfl, rfl⟩
    · exact ⟨[], rfl, nofun⟩
    · have hmem : Json.array rows ∈ [Json.array rows] := by simp
      have hrows := Json.sorted_array_eq_self.1 hs _ hmem
      exact ⟨rows, rfl, rows_of_array hrows (hitems _ hmem)⟩

/-- The document of a dataset whose rows keep their documents. -/
theorem toJson_of_rows {rows : List Json} (h : ∀ row ∈ rows, (Row.ofJson row).toJson = row) :
    toJson ⟨rows.map Row.ofJson⟩ = .object [("rows", .array rows)] := by
  have hrows : rows.map (Row.toJson ∘ Row.ofJson) = rows :=
    (List.map_congr_left h).trans (List.map_id rows)
  rw [toJson, List.map_map, hrows]

variable {n : Nat} {document : Json} {dataset : Dataset}

/-- A dataset that was read from a document is read from its own document. -/
theorem ofDocument?_toJson (hw : document.Within n) (h : ofDocument? document = some dataset) :
    ofDocument? dataset.toJson = some dataset := by
  obtain ⟨-, rows, rfl, hrows⟩ := exists_rows hw h
  have hsorted : (Json.object [("rows", .array rows)]).sorted =
      .object [("rows", .array rows)] := by
    refine Json.sorted_object_eq_self.2 ⟨List.pairwise_singleton _ _, fun m hm => ?_⟩
    rw [List.mem_singleton.1 hm]
    exact Json.sorted_array_eq_self.2 fun row hr => (hrows row hr).1
  rw [toJson_of_rows fun row hr => ?_, ofDocument?, hsorted]
  · rfl
  · obtain ⟨hs, d, -, hd⟩ := hrows row hr
    exact Row.toJson_ofJson hd hs

/-- The document of a dataset that was read where an even number of levels was left needs no more of
them. -/
theorem within_toJson (hn : n % 2 = 0) (hw : document.Within n)
    (h : ofDocument? document = some dataset) : dataset.toJson.Within n := by
  obtain ⟨hpos, rows, rfl, hrows⟩ := exists_rows hw h
  obtain ⟨d, rfl⟩ : ∃ d, n = d + 2 := ⟨n - 2, by omega⟩
  rw [toJson_of_rows fun row hr => ?_, Json.within_object_succ]
  · intro m hm
    rw [List.mem_singleton.1 hm, Json.within_array_succ]
    intro row hr
    obtain ⟨-, e, he, hwithin⟩ := hrows row hr
    exact (Nat.add_right_cancel he) ▸ hwithin
  · obtain ⟨hs, e, -, he⟩ := hrows row hr
    exact Row.toJson_ofJson he hs

end Dataset

end EventLog
