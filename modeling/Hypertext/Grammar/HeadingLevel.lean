import Hypertext.Ascii
import Hypertext.Error
import Hypertext.HashInput
import Hypertext.Json.Basic

/-!
# Heading levels

The six levels of headings, from the most to the least important. A level is read from its rank
or from its name in any letter case.
-/

namespace Hypertext

/-- The level of a heading. -/
inductive HeadingLevel where
  | h1
  | h2
  | h3
  | h4
  | h5
  | h6
  deriving DecidableEq, Inhabited

namespace HeadingLevel

/-- All levels, the most important first. -/
def all : List HeadingLevel :=
  [.h1, .h2, .h3, .h4, .h5, .h6]

/-- The number of the level, from one to six. -/
def rank : HeadingLevel → UInt8
  | .h1 => 1
  | .h2 => 2
  | .h3 => 3
  | .h4 => 4
  | .h5 => 5
  | .h6 => 6

/-- The tag name of a heading of the level. -/
def name : HeadingLevel → String
  | .h1 => "h1"
  | .h2 => "h2"
  | .h3 => "h3"
  | .h4 => "h4"
  | .h5 => "h5"
  | .h6 => "h6"

/-- The level in serialized form. -/
def key : HeadingLevel → String
  | .h1 => "H1"
  | .h2 => "H2"
  | .h3 => "H3"
  | .h4 => "H4"
  | .h5 => "H5"
  | .h6 => "H6"

/-- The level of a number. -/
def ofRank (rank : UInt8) : Except Error HeadingLevel :=
  match all.find? fun level ↦ level.rank == rank with
  | some level => .ok level
  | none => .error (.notAHeadingLevel rank)

/-- The level of a name, in any letter case. -/
def ofName (name : String) : Except Error HeadingLevel :=
  match all.find? fun level ↦ Ascii.agree level.name name with
  | some level => .ok level
  | none => .error .unknownHeadingName

/-- Every level is found under its number. -/
@[simp]
theorem ofRank_rank (level : HeadingLevel) : ofRank level.rank = .ok level := by
  cases level <;> rfl

/-- Every level is found under its name. -/
@[simp]
theorem ofName_name (level : HeadingLevel) : ofName level.name = .ok level := by
  cases level <;> rfl

instance : Ord HeadingLevel where
  compare a b := compare a.rank b.rank

instance : LT HeadingLevel where
  lt a b := a.rank < b.rank

instance (a b : HeadingLevel) : Decidable (a < b) :=
  inferInstanceAs (Decidable (a.rank < b.rank))

/-- A level feeds its place among the levels, counted from zero, and not its rank. -/
instance : HashInput HeadingLevel where
  hashInput level := [.number level.ctorIdx]

/-- The serialized form. -/
def toJson (level : HeadingLevel) : Json :=
  .str level.key

end HeadingLevel

end Hypertext
