import Hypertext.Grammar.Equality
import Hypertext.Grammar.Serial
import Hypertext.Grammar.Walk

/-!
# Documents

A document has a head and, after it, a body or a set of frames.
-/

namespace Hypertext

/-- The head of a document. -/
structure Head where
  /-- The attributes. -/
  attrs : Attributes
  /-- The content. -/
  content : Content .head
  deriving Inhabited

/-- The body of a document. -/
structure Body where
  /-- The attributes. -/
  attrs : Attributes
  /-- The content. -/
  content : Content .body
  deriving Inhabited

/-- What follows the head. -/
inductive Page where
  /-- A body. -/
  | body (body : Body)
  /-- A set of frames. -/
  | frameset (frames : Node .frames)

/-- A document. -/
structure Document where
  /-- The attributes. -/
  attrs : Attributes
  /-- The head. -/
  head : Head
  /-- What follows the head. -/
  page : Page

namespace Head

instance : EmptyCollection Head where
  emptyCollection := ⟨∅, ∅⟩

instance : BEq Head where
  beq a b := a.attrs == b.attrs && a.content == b.content

/-- The serialized form. -/
def toJson (h : Head) : Json :=
  .obj [("attrs", h.attrs.toJson), ("content", h.content.toJson)]

/-- The events of a walk. A head is announced by no tag. -/
def events (h : Head) : List Event :=
  h.attrs.events ++ h.content.events

end Head

namespace Body

instance : EmptyCollection Body where
  emptyCollection := ⟨∅, ∅⟩

instance : BEq Body where
  beq a b := a.attrs == b.attrs && a.content == b.content

/-- The serialized form. -/
def toJson (b : Body) : Json :=
  .obj [("attrs", b.attrs.toJson), ("content", b.content.toJson)]

/-- The events of a walk inside a body. -/
def events (b : Body) : List Event :=
  b.attrs.events ++ b.content.events

end Body

namespace Page

instance : BEq Page where
  beq
    | .body a, .body b => a == b
    | .frameset a, .frameset b => a == b
    | _, _ => false

/-- The tag name. -/
def tagName : Page → String
  | .body _ => "body"
  | .frameset _ => "frameset"

/-- The serialized form. -/
def toJson : Page → Json
  | .body b => .variant "Body" b.toJson
  | .frameset f => .variant "Frameset" f.toJson

/-- The events of a walk. -/
def events : Page → List Event
  | p@(.body b) => .tag p.tagName :: b.events
  | .frameset f => f.events

end Page

namespace Document

instance : BEq Document where
  beq a b := a.attrs == b.attrs && a.head == b.head && a.page == b.page

/-- The serialized form. -/
def toJson (d : Document) : Json :=
  .obj [("attrs", d.attrs.toJson), ("head", d.head.toJson), ("body", d.page.toJson)]

/-- The events of a walk. A document is announced by no tag. -/
def events (d : Document) : List Event :=
  d.attrs.events ++ d.head.events ++ d.page.events

end Document

end Hypertext
