import Mathlib
import EventLog.Loading
import EventLog.Proofs.Snapshot.ReadBack

/-!
# Rewriting snapshots

`loadStore_write`: a tree without floating-point numbers that was loaded from a file, whatever else
was in that file, is loaded again from what is written for it. The first load left out what makes no
difference to the tree, so the text of the tree is the same from then on, and it does not nest
deeper than loading allows: the reader stood at an odd level for every node (`Outline.within_node`).
-/

namespace EventLog

/-! ## The text of a file -/

/-- The text of a file that was written as text. -/
theorem fileText_toUTF8 (text : String) : fileText (.ok text.toUTF8) = .ok text := by
  have h : String.fromUTF8? text.toUTF8 = some text := dif_pos text.isValidUTF8
  simp only [fileText, bind, Except.bind]
  rw [h]
  rfl

/-- A tree that was loaded was read as an outline from the text of the file. -/
theorem loadStore_eq_ok {path : String} {content : Except FileFault ByteArray} {root : Node}
    (h : loadStore path content = .ok root) :
    ∃ text source, fileText content = .ok text ∧ Snapshot.outline text = .ok source ∧
      root = source.node := by
  unfold loadStore at h
  split at h
  · cases h
  · next text htext =>
    refine ⟨text, ?_⟩
    cases hread : Snapshot.outline text with
    | error fault =>
      rw [Snapshot.read, hread] at h
      cases h
    | ok source =>
      rw [Snapshot.read, hread] at h
      cases h
      exact ⟨source, htext, rfl, rfl⟩

/-! ## Loading again -/

/-- A tree that was loaded nests no deeper than loading allows. -/
theorem within_of_loadStore {path : String} {content : Except FileFault ByteArray} {root : Node}
    (h : loadStore path content = .ok root) : root.toJson.Within Json.maxDepth := by
  obtain ⟨_, source, -, hsource, rfl⟩ := loadStore_eq_ok h
  have hodd : Json.maxDepth % 2 = 1 := rfl
  rw [← Node.toJson_outline]
  exact Outline.within_node hodd (Snapshot.within_of_outline hsource)

/-- A tree that was loaded is the tree of its own outline. -/
theorem node_outline_of_loadStore {path : String} {content : Except FileFault ByteArray}
    {root : Node} (h : loadStore path content = .ok root) : root.outline.node = root := by
  obtain ⟨_, source, -, hsource, rfl⟩ := loadStore_eq_ok h
  exact Outline.node_outline_node (Snapshot.within_of_outline hsource)

/-- A tree without floating-point numbers that was loaded is written so that it is loaded again from
there, within the limits of loading, and is then written in the same way. -/
theorem loadStore_write {path : String} {content : Except FileFault ByteArray} {root : Node}
    (h : loadStore path content = .ok root) (hf : root.toJson.FloatFree) (copy : String) :
    loadStore copy (.ok (Snapshot.write root).toUTF8) = .ok root ∧
      root.toJson.depth ≤ Json.maxDepth ∧
      ∀ again, loadStore copy (.ok (Snapshot.write root).toUTF8) = .ok again →
        (Snapshot.write again).toUTF8 = (Snapshot.write root).toUTF8 := by
  have hw := within_of_loadStore h
  have hload : loadStore copy (.ok (Snapshot.write root).toUTF8) = .ok root := by
    rw [loadStore, fileText_toUTF8]
    simp only [Snapshot.read_write hw hf, node_outline_of_loadStore h, Except.mapError]
  refine ⟨hload, hw.depth_le, fun again hagain => ?_⟩
  rw [hload] at hagain
  cases hagain
  rfl

/-- A snapshot with nodes in both forms, members out of order and repeated, and an empty payload. -/
def Snapshot.mixedText : String :=
  "[\"/\",[\x7b\"payload\":\x7b\"rows\":[\x7b\"b\":[\x7b\"z\":1,\"z\":null\x7d]," ++
    "\"a\":18446744073709551615\x7d,true]\x7d,\"name\":\"\\u0041\"\x7d,[\"\",[],[]]]]"

/-- The tree of that snapshot. -/
def Snapshot.mixed : Node :=
  ⟨"/", [
    ⟨"A", [], some ⟨[
      .compound [("a", .unsigned 18446744073709551615),
        ("b", .sequence [.other (.object [("z", .null)])])],
      .malformed (.bool true)]⟩⟩,
    ⟨"", [], some ⟨[]⟩⟩], none⟩

/-- The snapshot is loaded, and loaded again from what is written for its tree. -/
theorem loadStore_write_mixed :
    loadStore "out.json" (.ok Snapshot.mixedText.toUTF8) = .ok Snapshot.mixed ∧
      Snapshot.mixed.toJson.FloatFree ∧
      loadStore "copy.json" (.ok (Snapshot.write Snapshot.mixed).toUTF8) = .ok Snapshot.mixed := by
  have hread : Snapshot.read Snapshot.mixedText = .ok Snapshot.mixed := by cbv
  have hload : loadStore "out.json" (.ok Snapshot.mixedText.toUTF8) = .ok Snapshot.mixed := by
    rw [loadStore, fileText_toUTF8]
    simp only [hread, Except.mapError]
  have hf : Snapshot.mixed.toJson.FloatFree := by
    simp [Snapshot.mixed, Node.toJson, Node.toJsonAll, Node.childrenMember, Node.payloadMember,
      Dataset.toJson, Row.toJson, Cell.toJson, Cell.toItems]
  exact ⟨hload, hf, (loadStore_write hload hf "copy.json").1⟩

end EventLog
