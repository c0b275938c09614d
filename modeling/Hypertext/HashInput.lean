/-!
# Hash input

What a value feeds to a hash function: a sequence of texts and numbers. Two values hash alike
under every hash function exactly if they feed it the same sequence, so it is this sequence, and
not the word that one function makes of it, that says which parts of a value count.

A list feeds its length before its items, so that items cannot move between neighbouring lists.
-/

namespace Hypertext

/-- One piece of hash input. -/
inductive HashAtom where
  /-- A text. -/
  | text (value : String)
  /-- A number. -/
  | number (value : Int)
  deriving DecidableEq, Hashable

/-- Types whose values can be hashed. -/
class HashInput (α : Type) where
  /-- What a value feeds to a hash function. -/
  hashInput : α → List HashAtom

export HashInput (hashInput)

instance : HashInput String where
  hashInput s := [.text s]

instance : HashInput Int where
  hashInput n := [.number n]

instance : HashInput UInt64 where
  hashInput n := [.number n.toNat]

instance [HashInput α] : HashInput (List α) where
  hashInput l := .number l.length :: l.flatMap hashInput

/-- The hash of what a value feeds. -/
instance (priority := low) [HashInput α] : Hashable α where
  hash a := hash (hashInput a)

end Hypertext
