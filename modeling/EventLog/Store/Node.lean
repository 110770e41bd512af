import EventLog.Store.Row

/-!
# Nodes

The store is a tree of named nodes. Children keep their order, and any node may carry a dataset.
-/

namespace EventLog

/-- A node of the store. -/
structure Node where
  name : String
  children : List Node
  payload : Option Dataset
  deriving Inhabited

namespace Node

mutual

/-- The number of nodes of a tree, the root included. -/
def count : Node → Nat
  | ⟨_, children, _⟩ => 1 + countAll children

/-- The number of nodes of several trees. -/
def countAll : List Node → Nat
  | [] => 0
  | node :: rest => count node + countAll rest

end

/-- The document member of a payload, if there is one. -/
def payloadMember : Option Dataset → List (String × Json)
  | none => []
  | some dataset => [("payload", dataset.toJson)]

/-- The document member of children, if there are any. -/
def childrenMember : List Json → List (String × Json)
  | [] => []
  | children => [("children", .array children)]

mutual

/-- The document of a node. Children and payload are left out where there are none. -/
def toJson : Node → Json
  | ⟨name, children, payload⟩ =>
    .object (("name", .string name) :: (childrenMember (toJsonAll children) ++ payloadMember payload))

/-- The documents of nodes. -/
def toJsonAll : List Node → List Json
  | [] => []
  | node :: rest => toJson node :: toJsonAll rest

end

/-- Equality of payloads. -/
def equalsPayload : Option Dataset → Option Dataset → Bool
  | none, none => true
  | some a, some b => a.equals b
  | _, _ => false

mutual

/-- Equality of trees, with floating-point numbers compared as numbers. -/
def equals : Node → Node → Bool
  | ⟨m, as, p⟩, ⟨n, bs, q⟩ => m == n && equalsAll as bs && equalsPayload p q

/-- Equality of nodes, one by one. -/
def equalsAll : List Node → List Node → Bool
  | [], [] => true
  | a :: as, b :: bs => equals a b && equalsAll as bs
  | _, _ => false

end

end Node

end EventLog
