import Hypertext.Grammar.Node

/-!
# Walks

A walk visits a node and all that is in it in document order and reports what it meets: the tag of
each element, then its attributes' leaves, then its content.
-/

namespace Hypertext

/-- What a walk meets. -/
inductive Event where
  /-- An element of a tag name. -/
  | tag (name : String)
  /-- A leaf: an attribute's name or value, or text. -/
  | leaf (text : Leaf)
  /-- A piece of content without a model. -/
  | hole (kind : Unmodeled)
  deriving DecidableEq

/-- The events of attributes. -/
def Attributes.events (as : Attributes) : List Event :=
  as.leaves.map .leaf

/-- The events of holes. -/
def Hole.events {kind : Unmodeled} (holes : List (Hole kind)) : List Event :=
  holes.map fun _ ↦ .hole kind

/-- The events at the start of a node: its tag, if it has one, and its attributes. -/
def Node.opening {c : Category} (n : Node c) : List Event :=
  n.tagName?.toList.map .tag ++ n.attrs.events

mutual

/-- The events of a node. -/
def Node.events {c : Category} : Node c → List Event
  | .plain text => [.leaf text]
  | .lift _ n => n.events
  | n@(.void _ _) => n.opening
  | n@(.verbatim _ _ text) => n.opening ++ [.leaf text]
  | n@(.element _ _ content) => n.opening ++ content.events
  | n@(.list _ _ first rest) => n.opening ++ first.events ++ rest.events
  | n@(.definitions _ entries) => n.opening ++ Hole.events entries.toList
  | n@(.form _ controls) => n.opening ++ Hole.events controls
  | n@(.map _ areas) => n.opening ++ Hole.events areas
  | n@(.media _ _ params alternate) => n.opening ++ Hole.events params ++ alternate.events
  | n@(.heading _ _ content) => n.opening ++ content.events
  | n@(.paragraph _ content) => n.opening ++ content.events
  | n@(.table _ none colgroups rows) => n.opening ++ Hole.events colgroups ++ Hole.events rows
  | n@(.table _ (some caption) colgroups rows) =>
    n.opening ++ caption.events ++ Hole.events colgroups ++ Hole.events rows
  | n@(.caption _ content) => n.opening ++ content.events
  | n@(.item _ flow) => n.opening ++ flow.events
  | n@(.frames _ content) => n.opening ++ content.events
termination_by structural n => n

/-- The events of the nodes of a sequence. -/
def Content.events {c : Category} : Content c → List Event
  | .nil => []
  | .cons x xs => x.events ++ xs.events
termination_by structural xs => xs

end

end Hypertext
