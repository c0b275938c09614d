import Hypertext.Json.Basic

/-!
# Holes

Some elements hold content for which the grammar has no types yet. A hole stands for one piece of
such content: it has a place and a kind, and nothing else.
-/

namespace Hypertext

/-- The kinds of content without a model. -/
inductive Unmodeled where
  /-- The controls of a form. -/
  | form
  /-- The rows of a table. -/
  | table
  /-- The columns of a column group. -/
  | colgroup
  /-- The terms and definitions of a definition list. -/
  | dl
  /-- The areas of an image map. -/
  | area
  /-- The parameters of an applet or object. -/
  | param
  deriving DecidableEq

/-- The elements that hold content of the kind. -/
def Unmodeled.contentOf : Unmodeled → String
  | .form => "form"
  | .table => "table"
  | .colgroup => "colgroup"
  | .dl => "dl"
  | .area => "map"
  | .param => "applet, object"

/-- A piece of content without a model. -/
structure Hole (kind : Unmodeled) where
  deriving DecidableEq, Inhabited

namespace Hole

/-- The elements that hold such content. -/
def contentOf {kind : Unmodeled} (_ : Hole kind) : String :=
  kind.contentOf

/-- The serialized form. -/
def toJson {kind : Unmodeled} (_ : Hole kind) : Json :=
  .null

end Hole

end Hypertext
