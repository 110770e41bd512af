import EventLog.Proofs.Walk.Exact

/-!
# What the walk says of a node

A visit shows a node with all that is below it. What the walk itself says of the node is less: its
path, its name, what it inherits, and its record. That depends on the names on the way and on the
payload alone (`sightings_eq_map`), and a table in the order of the walk is made from it
(`exportLines_eq_filterMap`). So trees are compared by it where their nodes are not the same.
-/

namespace EventLog

open Node (Descendant)

/-- What the walk says of a node: its path and name, what it inherits, and its record. -/
structure Sighting where
  path : String
  name : String
  context : Context
  record : Option Record

/-- What is said of the node of a visit. -/
def Visit.sighting (visit : Visit) : Sighting :=
  ⟨visit.path, visit.node.name, visit.context, visit.record⟩

/-- The line of a record that is seen. -/
def Sighting.line? (globalTime : Bool) (s : Sighting) : Option Line :=
  s.record.map fun record => record.render globalTime s.context

/-- What the walk says of the nodes of a tree, in order. -/
def sightings (globalTime : Bool) (root : Node) : List Sighting :=
  (walk globalTime root).map Visit.sighting

/-- What is said of a node with a name and a payload, where the walk stands. -/
def Standing.sighting (s : Standing) (name : String) (payload : Option Dataset) : Sighting :=
  ⟨s.path, name, s.context, classify name payload⟩

/-- What is said of a node below the root. -/
def Node.Descendant.sighting (globalTime : Bool) (d : Descendant) : Sighting :=
  (Standing.root.along globalTime d.names).sighting d.node.name d.node.payload

/-- The nodes are seen as they are listed, each by the names on the way to it and its payload. -/
theorem sightings_eq_map (globalTime : Bool) (root : Node) :
    sightings globalTime root = root.descendants.map (Descendant.sighting globalTime) := by
  rw [sightings, walk_eq_map, List.map_map]
  rfl

/-- The walk comes to the nodes that are listed below the root. -/
theorem map_node_walk (globalTime : Bool) (root : Node) :
    (walk globalTime root).map Visit.node = root.descendants.map Descendant.node := by
  rw [walk_eq_map, List.map_map]
  rfl

/-- A table in the order of the walk has the lines of the records that are seen. -/
theorem exportLines_eq_filterMap (globalTime : Bool) (root : Node) :
    exportLines ⟨globalTime, false⟩ root =
      (sightings globalTime root).filterMap (Sighting.line? globalTime) := by
  rw [exportLines, if_neg Bool.false_ne_true, sightings, List.filterMap_map]
  rfl

end EventLog
