/-!
# Serialized values

The values that the types of this library serialize to. Objects keep their fields in the order in
which they were written, and numbers are integers: nothing here produces a fraction.
-/

namespace Hypertext

/-- A serialized value. -/
inductive Json where
  /-- Absence: a missing hint, anchor or caption, or content without a model. -/
  | null
  /-- An integer. -/
  | num (value : Int)
  /-- A text. -/
  | str (value : String)
  /-- A sequence. -/
  | arr (items : List Json)
  /-- A record, its fields in order. -/
  | obj (fields : List (String × Json))
  deriving Inhabited

namespace Json

/-- A machine word as a number. -/
def word (n : UInt64) : Json :=
  .num n.toNat

/-- An optional value: `null` if there is none. -/
def option (f : α → Json) : Option α → Json
  | none => .null
  | some a => f a

/-- A value under its variant's key. -/
def variant (key : String) (payload : Json) : Json :=
  .obj [(key, payload)]

end Json

end Hypertext
