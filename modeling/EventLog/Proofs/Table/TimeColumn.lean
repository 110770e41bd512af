import Mathlib.Data.List.Forall2
import EventLog.Proofs.Table.Order
import EventLog.Proofs.Walk.Sightings

/-!
# The column of the global time

A table with global times has the lines of the table without them, some of them with one column more
in front (`exportLines_timed`). Two walks of one tree, with and without global times, are compared
name by name: `Standing.SameButTime` says that they stand at the same path with the same serial, and
that the walk without global times knows none. Every step into a child keeps this, whatever the name
of the child is (`Standing.SameButTime.enter`), so it holds behind all names that lead to a record.
-/

namespace EventLog

open EventLog.Text
open Node (Descendant)

/-! ## Two walks of one tree -/

namespace Standing

/-- Where a walk with global times stands, and where one without them does: at the same path, with
the same serial, and the second one without a global time. -/
structure SameButTime (timed plain : Standing) : Prop where
  path : timed.path = plain.path
  serial : timed.context.serial = plain.context.serial
  untimed : plain.context.globalTime = none

/-- Both walks begin at the root. -/
theorem SameButTime.root : SameButTime Standing.root Standing.root :=
  ⟨rfl, rfl, rfl⟩

/-- A step into a child sets a global time in the first walk at most. -/
theorem SameButTime.enter {timed plain : Standing} (h : SameButTime timed plain) (name : String) :
    SameButTime (timed.enter true name) (plain.enter false name) := by
  obtain ⟨hpath, hserial, huntimed⟩ := h
  refine ⟨?_, ?_, huntimed⟩
  · show childPath timed.path name = childPath plain.path name
    rw [hpath]
  · show timed.context.serial.or _ = plain.context.serial.or _
    rw [hserial]

/-- Behind the same names, the two walks differ in the global time alone. -/
theorem SameButTime.along {timed plain : Standing} (h : SameButTime timed plain)
    (names : List String) : SameButTime (timed.along true names) (plain.along false names) := by
  induction names generalizing timed plain with
  | nil => exact h
  | cons name rest ih => exact ih (h.enter name)

end Standing

/-! ## Lines with the column and without -/

/-- A line has the serial and the text of another one, and if it has a global time, this stands in
front of the text, aligned to the right in 16 characters, with a space behind it. -/
structure Line.AddsTime (timed plain : Line) : Prop where
  serial : timed.serial = plain.serial
  text_of_time : ∀ time, timed.globalTime = some time →
    timed.text.toList =
      List.replicate (16 - time.length) ' ' ++ time.toList ++ ' ' :: plain.text.toList
  text_of_none : timed.globalTime = none → timed.text = plain.text

/-- The lines of a record for two contexts that differ in the global time alone. -/
theorem Record.addsTime_render (record : Record) {timed plain : Context}
    (hserial : timed.serial = plain.serial) :
    (record.render true timed).AddsTime (record.render false plain) := by
  have hplain : (record.render false plain).text =
      alignRight fieldWidth (timed.serial.getD "-") ++ record.columns := by
    rw [Record.render, Context.leadingColumns_eq, hserial]
    rfl
  have htimed : (record.render true timed).text =
      (timed.globalTime.elim (alignRight fieldWidth (timed.serial.getD "-")) fun time =>
        alignRight timeWidth time ++ " " ++ alignRight fieldWidth (timed.serial.getD "-")) ++
      record.columns := by
    rw [Record.render, Context.leadingColumns_eq]
    rfl
  refine ⟨hserial, ?_, ?_⟩
  · intro time htime
    change timed.globalTime = some time at htime
    rw [htimed, hplain, htime, Option.elim_some, String.append_assoc, String.append_assoc,
      String.toList_append, toList_alignRight, String.toList_append]
    rfl
  · intro hnone
    change timed.globalTime = none at hnone
    rw [htimed, hplain, hnone, Option.elim_none]

/-! ## Tables -/

/-- A line without a global time, and the line of the same record with a column for it. -/
def Line.LacksTime (plain timed : Line) : Prop :=
  plain.globalTime = none ∧ timed.AddsTime plain

/-- A node below the root has a line in both tables or in neither. -/
theorem rel_line? (d : Descendant) :
    Option.Rel Line.LacksTime ((d.sighting false).line? false) ((d.sighting true).line? true) := by
  have hwalks := Standing.SameButTime.root.along d.names
  rw [Descendant.sighting, Descendant.sighting, Standing.sighting, Standing.sighting,
    Sighting.line?, Sighting.line?]
  cases classify d.node.name d.node.payload with
  | none => exact .none
  | some record => exact .some ⟨hwalks.untimed, record.addsTime_render hwalks.serial⟩

/-- The two tables of a tree have lines for the same nodes, in the same order. -/
theorem forall₂_lacksTime (root : Node) :
    List.Forall₂ Line.LacksTime (exportLines ⟨false, false⟩ root)
      (exportLines ⟨true, false⟩ root) := by
  have hsame : List.Forall₂ Eq root.descendants root.descendants := List.forall₂_refl _
  rw [exportLines_eq_filterMap, exportLines_eq_filterMap, sightings_eq_map, sightings_eq_map,
    List.filterMap_map, List.filterMap_map]
  refine List.rel_filterMap ?_ hsame
  rintro d _ rfl
  exact rel_line? d

/-- In the order of the walk, a table with global times has a line for every line of the table
without them, with the same serial. Where it has a global time, its text is the other text behind
this time, aligned to the right in 16 characters, and a space; where it has none, it is the other
text. No line of the table without global times has one. -/
theorem exportLines_timed (root : Node) :
    (exportLines ⟨true, false⟩ root).length = (exportLines ⟨false, false⟩ root).length ∧
      List.Forall₂ Line.AddsTime (exportLines ⟨true, false⟩ root)
        (exportLines ⟨false, false⟩ root) ∧
      ∀ line ∈ exportLines ⟨false, false⟩ root, line.globalTime = none := by
  obtain ⟨huntimed, htimed⟩ := (List.forall₂_and_left _ _).1 (forall₂_lacksTime root)
  exact ⟨htimed.length_eq.symm, htimed.flip, huntimed⟩

end EventLog
