import Hypertext.HashInput
import Hypertext.Json.Basic

/-!
# Raw markup

Markup as text, not looked into.
-/

namespace Hypertext

/-- Markup that has not been read. -/
structure Raw where
  /-- The text. -/
  markup : String
  deriving DecidableEq, Inhabited

namespace Raw

/-- No markup. -/
def empty : Raw :=
  ⟨""⟩

instance : EmptyCollection Raw where
  emptyCollection := empty

instance : HashInput Raw where
  hashInput r := hashInput r.markup

/-- The serialized form. -/
def toJson (r : Raw) : Json :=
  .str r.markup

end Raw

end Hypertext
