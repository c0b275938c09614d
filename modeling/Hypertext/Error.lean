/-!
# Errors

The ways in which building a document can fail, and what is said about each.
-/

namespace Hypertext

/-- Why a value could not be built. -/
inductive Error where
  /-- A list that needs an item has none; the context names what needed it. -/
  | emptyList (context : String)
  /-- A number that is no heading level. -/
  | notAHeadingLevel (rank : UInt8)
  /-- A text that is no heading level's name. -/
  | unknownHeadingName
  deriving DecidableEq, Inhabited

/-- The error for a reader. -/
def Error.message : Error → String
  | .emptyList context => context ++ " requires at least one item"
  | .notAHeadingLevel rank => "heading level must be between 1 and 6, got " ++ rank.toNat.repr
  | .unknownHeadingName => "Matching variant not found"

end Hypertext
