import Hypertext.Markup.Attribute
import Hypertext.Warning

/-!
# Attribute lists

The attributes of an element, in source order and without two of the same name. A second attribute
of a name is dropped with a warning, so of several the first one counts. Names are looked up
without regard to the case of `A` to `Z`.
-/

namespace Hypertext

/-- The attributes of an element. -/
structure Attributes where
  /-- The attributes in order. -/
  toList : List Attribute
  deriving DecidableEq, Inhabited

namespace Attributes

/-- No attributes. -/
def empty : Attributes :=
  ⟨[]⟩

instance : EmptyCollection Attributes where
  emptyCollection := empty

/-- The value of the attribute of a name. -/
def get? (as : Attributes) (name : String) : Option Leaf :=
  (as.toList.find? fun a ↦ Ascii.agree a.name.value name).map Attribute.value

/-- Whether there is an attribute of a name. -/
def contains (as : Attributes) (name : String) : Bool :=
  (as.get? name).isSome

/-- The number of attributes. -/
def size (as : Attributes) : Nat :=
  as.toList.length

/-- Whether there are no attributes. -/
def isEmpty (as : Attributes) : Bool :=
  as.toList.isEmpty

/-- The component under which the markup warns. -/
def component : String :=
  "DOM"

/-- What is said of a dropped attribute. -/
def duplicateMessage (name : String) : String :=
  "duplicate attribute '" ++ name ++ "' dropped"

/-- Adds an attribute at the end, unless its name is taken. -/
def insert (as : Attributes) (a : Attribute) : Attributes :=
  if as.contains a.name.value then as else ⟨as.toList ++ [a]⟩

/-- Adds an attribute at the end, or drops it with a warning if its name is taken. -/
def push (as : Attributes) (a : Attribute) : Build Attributes := do
  if as.contains a.name.value then
    warnOnce component (duplicateMessage a.name.value)
  return as.insert a

/-- What is kept does not depend on the log, and the log changes only when an attribute is
dropped. -/
theorem run_push (as : Attributes) (a : Attribute) (log : Log) :
    (as.push a).run log =
      (as.insert a, if as.contains a.name.value then
        log.warnOnce component (duplicateMessage a.name.value) else log) := by
  unfold push
  split <;> rfl

/-- Adds attributes one after the other. -/
def pushAll (as : Attributes) (more : List Attribute) : Build Attributes :=
  more.foldlM push as

/-- The list of the given attributes. -/
def collect (given : List Attribute) : Build Attributes :=
  pushAll empty given

/-- The list of attributes written as names with values. -/
def ofPairs (pairs : List (Leaf × Leaf)) : Build Attributes :=
  collect (pairs.map fun p ↦ (Attribute.pair p.1 p.2).normalize)

/-- The leaves of all attributes in order. -/
def leaves (as : Attributes) : List Leaf :=
  as.toList.flatMap Attribute.leaves

instance : BEq Attributes where
  beq as bs := as.toList == bs.toList

instance : HashInput Attributes where
  hashInput as := hashInput as.toList

/-- The serialized form. -/
def toJson (as : Attributes) : Json :=
  .arr (as.toList.map Attribute.toJson)

end Attributes

end Hypertext
