import Hypertext.Source.Location

/-!
# Positions

A position says where a token comes from: from the source, or from nowhere in it, because the
token was made up. A made-up token may carry a hint for the reader and may stand next to another
token. What is kept of that neighbour is its anchor, the location that the chain of neighbours
leads to, so an anchor is always a real location.
-/

namespace Hypertext

/-- Where a token comes from. -/
inductive Position where
  /-- The token was read at a location. -/
  | real (location : Location)
  /-- The token was made up, for the reason that the hint gives, next to the anchor. -/
  | fake (hint : Option String) (anchor : Option Location)
  deriving DecidableEq, Inhabited

namespace Position

/-- Whether the token was made up. -/
def isFake : Position → Bool
  | .real _ => false
  | .fake _ _ => true

/-- The location at which the token was read. -/
def location : Position → Option Location
  | .real l => some l
  | .fake _ _ => none

/-- The real location closest to the token: its own, or the one it was made up next to. -/
def anchor : Position → Option Location
  | .real l => some l
  | .fake _ a => a

/-- The hint of a made-up token. -/
def hint : Position → Option String
  | .real _ => none
  | .fake h _ => h

/-- The position of a token made up next to another one, whose anchor it takes over. -/
def nextTo (hint : Option String) (neighbour : Option Position) : Position :=
  .fake hint (neighbour.bind anchor)

/-- The position for a reader. -/
def display : Position → String
  | .real l => l.display
  | .fake h a =>
    "<fake" ++ (match h with | some h => " " ++ h | none => "")
      ++ (match a with | some l => " near " ++ l.display | none => "") ++ ">"

/-- A token that was read is shown by its location. -/
@[simp]
theorem display_real (l : Location) : (real l).display = l.display :=
  rfl

/-- The serialized form. -/
def toJson : Position → Json
  | .real l => .variant "Real" l.toJson
  | .fake h a =>
    .variant "Fake" (.obj [("hint", .option .str h), ("next_to", .option Location.toJson a)])

end Position

end Hypertext
