import EventLog.Store.Node

/-!
# Outlines

An outline is a tree as its text has it: names and children are read, and a payload is still the
document value that stands there, with its members in the order of the text. `Outline.node` makes
datasets of the payloads.
-/

namespace EventLog

/-- A node of which the payload is a document value. -/
structure Outline where
  name : String
  children : List Outline
  payload : Option Json
  deriving Inhabited

/-- The dataset that a payload document holds. Its members are read in the order of their names. -/
def Dataset.ofDocument? (document : Json) : Option Dataset :=
  Dataset.ofPayload? document.sorted

namespace Outline

mutual

/-- The node of an outline. A payload that holds no dataset is dropped. -/
def node : Outline → Node
  | ⟨name, children, payload⟩ => ⟨name, nodes children, payload.bind Dataset.ofDocument?⟩

/-- The nodes of outlines. -/
def nodes : List Outline → List Node
  | [] => []
  | outline :: rest => node outline :: nodes rest

end

end Outline

end EventLog
