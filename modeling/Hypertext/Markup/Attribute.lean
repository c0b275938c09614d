import Hypertext.Ascii
import Hypertext.Source.Located

/-!
# Attributes

An attribute is a name with a value, or a name alone. A bare name stands for the attribute whose
value is that name: asked for its value, it gives the name, at the name's position. The two
spellings differ when printed as an outline, but they are equal, hash alike and serialize alike.
-/

namespace Hypertext

/-- An attribute. -/
inductive Attribute where
  /-- A bare name. -/
  | flag (name : Leaf)
  /-- A name with a value. -/
  | pair (name value : Leaf)
  deriving DecidableEq, Inhabited

namespace Attribute

/-- The name. -/
def name : Attribute → Leaf
  | .flag n => n
  | .pair n _ => n

/-- The value, which for a bare name is the name itself. -/
def value : Attribute → Leaf
  | .flag n => n
  | .pair _ v => v

/-- Whether the attribute is a bare name. -/
def isBoolean : Attribute → Bool
  | .flag _ => true
  | .pair _ _ => false

/-- The attribute with its name in lowercase, as documents keep it. Values are kept as written. -/
def normalize : Attribute → Attribute
  | .flag n => .flag (n.map Ascii.lower)
  | .pair n v => .pair (n.map Ascii.lower) v

/-- The name of an attribute is kept in lowercase, where it stands. -/
@[simp]
theorem name_normalize (a : Attribute) : a.normalize.name = a.name.map Ascii.lower := by
  cases a <;> rfl

/-- The leaves, in the order of the source: name, then value. -/
def leaves (a : Attribute) : List Leaf :=
  [a.name, a.value]

instance : BEq Attribute where
  beq a b := a.name == b.name && a.value == b.value

instance : HashInput Attribute where
  hashInput a := hashInput a.name ++ hashInput a.value

/-- The serialized form, which does not tell the spellings apart. -/
def toJson (a : Attribute) : Json :=
  .obj [("name", a.name.toJson), ("value", a.value.toJson)]

end Attribute

end Hypertext
