import EventLog.Proofs.Snapshot.Rewrite
import EventLog.Proofs.Store.NormalForm

/-!
# Reopening trees

`loadStore_write_normal`: what is written for a tree without floating-point numbers, however it was
put together, is loaded as the normal form of the tree, and from then on nothing changes any more.
-/

namespace EventLog

/-- A tree without floating-point numbers that nests at most 127 deep is loaded in its normal form
from what is written for it, and a normal form is its own normal form. The integers in the documents
of a tree are words. -/
theorem loadStore_write_normal {root : Node} (hwords : ∀ x ∈ root.toJson.scalars, x.Fits) :
    (root.toJson.FloatFree → root.toJson.depth ≤ Json.maxDepth → ∀ path,
      loadStore path (.ok (Snapshot.write root).toUTF8) = .ok root.normal) ∧
      root.normal.normal = root.normal := by
  refine ⟨fun hf hdepth path => ?_, Node.normal_normal hwords⟩
  have hread : Snapshot.read (Snapshot.write root) = .ok root.outline.node :=
    Snapshot.read_write ⟨hdepth, hwords⟩ hf
  rw [loadStore, fileText_toUTF8]
  simp only [hread, Node.node_outline, Except.mapError]

/-- A tree with members twice and out of order, a small unsigned number, and documents of all
kinds. -/
def Node.assembled : Node :=
  ⟨"/", [⟨"list-0", [], some ⟨[
    .compound [("b", .unsigned 5), ("a", .other (.array [.integer 18446744073709551615,
      .string "x", .array [.integer (-1)]])), ("b", .unsigned 7), ("", .other (.bool true))],
    .malformed (.object [("k", .integer 1), ("j", .null)]),
    .malformed (.array [.string "s", .object []]),
    .malformed (.integer 3),
    .flat [.other (.integer 4), .unsigned 9223372036854775808]]⟩⟩], some ⟨[]⟩⟩

/-- Its normal form. -/
def Node.assembledNormal : Node :=
  ⟨"/", [⟨"list-0", [], some ⟨[
    .compound [("", .other (.bool true)), ("a", .sequence [.unsigned 18446744073709551615,
      .text "x", .sequence [.integer (-1)]]), ("b", .integer 7)],
    .compound [("j", .other .null), ("k", .integer 1)],
    .flat [.text "s", .other (.object [])],
    .malformed (.integer 3),
    .flat [.integer 4, .unsigned 9223372036854775808]]⟩⟩], some ⟨[]⟩⟩

/-- The tree is loaded in its normal form. -/
theorem loadStore_write_assembled :
    (∀ x ∈ Node.assembled.toJson.scalars, x.Fits) ∧ Node.assembled.toJson.FloatFree ∧
      Node.assembled.toJson.depth ≤ Json.maxDepth ∧
      loadStore "copy.json" (.ok (Snapshot.write Node.assembled).toUTF8) =
        .ok Node.assembledNormal ∧
      Node.assembledNormal.normal = Node.assembledNormal := by
  have hnormal : Node.assembled.normal = Node.assembledNormal := by cbv
  have hf : Node.assembled.toJson.FloatFree := by
    simp [Node.assembled, Node.toJson, Node.toJsonAll, Node.childrenMember, Node.payloadMember,
      Dataset.toJson, Row.toJson, Cell.toJson]
  have hdepth : Node.assembled.toJson.depth ≤ Json.maxDepth := by decide
  have hwords : ∀ x ∈ Node.assembled.toJson.scalars, x.Fits := by
    simp [Node.assembled, Node.toJson, Node.toJsonAll, Node.childrenMember, Node.payloadMember,
      Dataset.toJson, Row.toJson, Cell.toJson, Json.scalars, Json.scalarsOfItems,
      Json.scalarsOfMembers, Json.Fits, Json.FitsWord]
  obtain ⟨hload, hnormal'⟩ := loadStore_write_normal hwords
  rw [hnormal] at hload hnormal'
  exact ⟨hwords, hf, hdepth, hload hf hdepth "copy.json", hnormal'⟩

end EventLog
