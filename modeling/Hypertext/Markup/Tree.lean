import Hypertext.Markup.Attributes

/-!
# Trees

A tree of elements and character data, as markup is read before anything is known about which
element may stand where. Tag names are kept in lowercase. An element without a name is kept, with
a warning.

Equality of trees is equality of shape, names, values and text, wherever they stand in the source.
-/

namespace Hypertext

/-- The name of an element. -/
structure Tag where
  /-- The name, in lowercase. -/
  name : Leaf
  deriving DecidableEq, Inhabited

namespace Tag

/-- What is said of an element without a name. -/
def emptyMessage : String :=
  "element with empty tag name"

/-- The tag of a name as written. -/
def ofName (name : Leaf) : Build Tag := do
  if name.value.isEmpty then
    warnOnce Attributes.component emptyMessage
  return ⟨name.map Ascii.lower⟩

/-- What is kept does not depend on the log, and the log changes only for an empty name. -/
theorem run_ofName (name : Leaf) (log : Log) :
    (ofName name).run log =
      (⟨name.map Ascii.lower⟩, if name.value.isEmpty then
        log.warnOnce Attributes.component emptyMessage else log) := by
  unfold ofName
  split <;> rfl

instance : BEq Tag where
  beq s t := s.name == t.name

instance : HashInput Tag where
  hashInput t := hashInput t.name

/-- The serialized form, that of the name. -/
def toJson (t : Tag) : Json :=
  t.name.toJson

end Tag

/-- A tree of elements and character data. -/
inductive Tree where
  /-- An element. -/
  | element (tag : Tag) (attrs : Attributes) (children : List Tree)
  /-- Character data. -/
  | data (text : Leaf)
  deriving Inhabited

/-- The parts of an element. -/
structure Element where
  /-- The name. -/
  tag : Tag
  /-- The attributes. -/
  attrs : Attributes
  /-- The content. -/
  children : List Tree
  deriving Inhabited

namespace Element

/-- The element with a name as written. -/
def build (name : Leaf) (attrs : Attributes) (children : List Tree) : Build Element := do
  return ⟨← Tag.ofName name, attrs, children⟩

/-- What is kept does not depend on the log, and the log changes as for the tag alone. -/
theorem run_build (name : Leaf) (attrs : Attributes) (children : List Tree) (log : Log) :
    (build name attrs children).run log =
      (⟨⟨name.map Ascii.lower⟩, attrs, children⟩, ((Tag.ofName name).run log).2) := by
  have htag : ((Tag.ofName name).run log).1 = ⟨name.map Ascii.lower⟩ := by
    rw [Tag.run_ofName]
  rw [← htag]
  rfl

/-- The element's identifier, the value of its attribute `id`. -/
def id? (e : Element) : Option Leaf :=
  e.attrs.get? "id"

end Element

namespace Tree

/-- An element as a tree. -/
def ofElement (e : Element) : Tree :=
  .element e.tag e.attrs e.children

/-- The tree of an element with a name as written. -/
def buildElement (name : Leaf) (attrs : Attributes) (children : List Tree) : Build Tree := do
  return ofElement (← Element.build name attrs children)

/-- As for the element, so for the tree of it. -/
theorem run_buildElement (name : Leaf) (attrs : Attributes) (children : List Tree) (log : Log) :
    (buildElement name attrs children).run log =
      (.element ⟨name.map Ascii.lower⟩ attrs children, ((Tag.ofName name).run log).2) := by
  rw [buildElement, StateT.run_bind, Element.run_build]
  rfl

/-- The element at the root, if the tree is not character data. -/
def element? : Tree → Option Element
  | .element tag attrs children => some ⟨tag, attrs, children⟩
  | .data _ => none

/-- The text, if the tree is character data. -/
def data? : Tree → Option Leaf
  | .element _ _ _ => none
  | .data text => some text

mutual

/-- The leaves, depth first: the tag, name and value of each attribute, then the children. -/
def leaves : Tree → List Leaf
  | .element tag attrs children => tag.name :: attrs.leaves ++ forestLeaves children
  | .data text => [text]

/-- The leaves of several trees. -/
def forestLeaves : List Tree → List Leaf
  | [] => []
  | t :: ts => leaves t ++ forestLeaves ts

end

mutual

/-- Equality of trees, positions apart. -/
def beq : Tree → Tree → Bool
  | .element s as ts, .element t bs us => s == t && as == bs && forestBeq ts us
  | .data x, .data y => x == y
  | _, _ => false

/-- Equality of several trees. -/
def forestBeq : List Tree → List Tree → Bool
  | [], [] => true
  | t :: ts, u :: us => beq t u && forestBeq ts us
  | _, _ => false

end

instance : BEq Tree where
  beq := beq

mutual

/-- The serialized form. -/
def toJson : Tree → Json
  | .element tag attrs children =>
    .variant "Element" (.obj [("tag", tag.toJson), ("attrs", attrs.toJson),
      ("children", .arr (forestJson children))])
  | .data text => .variant "Data" text.toJson

/-- The serialized forms of several trees. -/
def forestJson : List Tree → List Json
  | [] => []
  | t :: ts => toJson t :: forestJson ts

end

end Tree

instance : BEq Element where
  beq e f := e.tag == f.tag && e.attrs == f.attrs && e.children == f.children

end Hypertext
