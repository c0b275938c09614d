import Hypertext.Source.Position

/-!
# Located values

A value together with the position it comes from. The position is for the reader of a diagnostic:
equality and hashing look at the value alone, so two documents that differ only in where their
tokens stand are equal.
-/

namespace Hypertext

/-- A value and where it comes from. -/
structure Located (α : Type) where
  /-- The value. -/
  value : α
  /-- Where it comes from. -/
  pos : Position
  deriving DecidableEq, Inhabited

namespace Located

/-- A made-up value, with a hint and no neighbour. -/
def fake (value : α) (hint : String) : Located α :=
  ⟨value, .nextTo (some hint) none⟩

/-- Applies a function to the value and keeps the position. -/
def map (f : α → β) (x : Located α) : Located β :=
  ⟨f x.value, x.pos⟩

@[simp]
theorem value_map (f : α → β) (x : Located α) : (x.map f).value = f x.value :=
  rfl

@[simp]
theorem pos_map (f : α → β) (x : Located α) : (x.map f).pos = x.pos :=
  rfl

instance [BEq α] : BEq (Located α) where
  beq x y := x.value == y.value

instance [HashInput α] : HashInput (Located α) where
  hashInput x := hashInput x.value

/-- Equality does not look at positions. -/
theorem beq_eq [BEq α] (x y : Located α) : (x == y) = (x.value == y.value) :=
  rfl

/-- The serialized form, given that of the value. -/
def toJson (f : α → Json) (x : Located α) : Json :=
  .obj [("value", f x.value), ("pos", x.pos.toJson)]

end Located

/-- A located text, the leaf of every document. -/
abbrev Leaf := Located String

/-- The serialized form of a leaf. -/
def Leaf.toJson (x : Leaf) : Json :=
  Located.toJson .str x

end Hypertext
