import EventLog.Record
import EventLog.Store.Node

/-!
# Walking the store

The walk visits every node below the root, parents before children and children in order. A visit
knows the path of its node and the context inherited on the way to it: a serial, fixed by the first
name on the path with an identifier, and a global time, set by nodes whose path has the depth of
global times. The root itself is not visited and gives no context.
-/

namespace EventLog

/-- The identifier in a name: what is behind its first underscore. -/
def identifier? (name : List Char) : Option (List Char) :=
  match name.dropWhile (· ≠ '_') with
  | [] => none
  | _ :: rest => some rest

/-- The identifiers inherited from ancestors. -/
structure Context where
  serial : Option String
  globalTime : Option String
  deriving DecidableEq, Repr

/-- The context at the root. -/
def Context.empty : Context := ⟨none, none⟩

/-- The number of separators in the path of a node that sets the global time. -/
def globalTimeDepth : Nat := 2

/-- Whether a path has the depth at which global times are set. -/
def setsGlobalTime (path : String) : Bool :=
  path.toList.count '/' == globalTimeDepth

/-- What is behind the last separator of a path. -/
def lastSegment (path : String) : List Char :=
  (path.toList.reverse.takeWhile (· ≠ '/')).reverse

/-- The global time that a path gives: the identifier in its last segment, or else the segment. -/
def globalTimeOf (path : String) : String :=
  let segment := lastSegment path
  String.ofList ((identifier? segment).getD segment)

/-- The context of a node with a path and a name, below a node with this context. -/
def Context.derive (globalTime : Bool) (path name : String) (context : Context) : Context where
  serial := context.serial.or ((identifier? name.toList).map String.ofList)
  globalTime :=
    if globalTime && setsGlobalTime path then some (globalTimeOf path) else context.globalTime

/-- The path of a child. The separator is left out behind a path that ends in one. -/
def childPath (parent name : String) : String :=
  if parent.toList.getLast? = some '/' then parent ++ name else parent ++ "/" ++ name

/-- A node as the walk sees it. -/
structure Visit where
  path : String
  node : Node
  context : Context
  record : Option Record

mutual

/-- The visits below a node with a path and a context. -/
def visitsBelow (globalTime : Bool) (path : String) (context : Context) : Node → List Visit
  | ⟨_, children, _⟩ => visitsOf globalTime path context children

/-- The visits of some children of a node with a path and a context, and below them. -/
def visitsOf (globalTime : Bool) (path : String) (context : Context) : List Node → List Visit
  | [] => []
  | child :: rest =>
    let here := childPath path child.name
    let derived := context.derive globalTime here child.name
    ⟨here, child, derived, classify child.name child.payload⟩ ::
      (visitsBelow globalTime here derived child ++ visitsOf globalTime path context rest)

end

/-- The visits of all nodes below the root, in order. -/
def walk (globalTime : Bool) (root : Node) : List Visit :=
  visitsBelow globalTime "/" Context.empty root

end EventLog
