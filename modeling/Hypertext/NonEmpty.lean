import Hypertext.Error
import Hypertext.HashInput
import Hypertext.Json.Basic

/-!
# Non-empty lists

A list with at least one item, kept as its first item and the rest. Every operation is described
through the list view `toList`; the only way to fail is to be given no item at all (`ofList`).
-/

namespace Hypertext

/-- A list with at least one item. -/
structure NonEmpty (α : Type) where
  /-- The first item. -/
  head : α
  /-- The items after the first. -/
  tail : List α
  deriving DecidableEq, Inhabited

namespace NonEmpty

/-- The list of one item. -/
def singleton (x : α) : NonEmpty α :=
  ⟨x, []⟩

/-- All items in order. -/
def toList (xs : NonEmpty α) : List α :=
  xs.head :: xs.tail

/-- The items of a list; the context is named in the error if there is none. -/
def ofList (context : String) : List α → Except Error (NonEmpty α)
  | [] => .error (.emptyList context)
  | x :: xs => .ok ⟨x, xs⟩

/-- The context named when a list is converted for no particular purpose. -/
def anyContext : String :=
  "list"

/-- The number of items. -/
def length (xs : NonEmpty α) : Nat :=
  xs.tail.length + 1

/-- The last item. -/
def last (xs : NonEmpty α) : α :=
  xs.tail.getLastD xs.head

/-- Adds an item at the end. -/
def push (xs : NonEmpty α) (x : α) : NonEmpty α :=
  ⟨xs.head, xs.tail ++ [x]⟩

/-- Applies a function to every item. -/
def map (f : α → β) (xs : NonEmpty α) : NonEmpty β :=
  ⟨f xs.head, xs.tail.map f⟩

/-- Runs an action on every item, the first item first. -/
def mapM [Monad m] (f : α → m β) (xs : NonEmpty α) : m (NonEmpty β) := do
  let head ← f xs.head
  let tail ← xs.tail.mapM f
  return ⟨head, tail⟩

/-- Loops visit the first item first. -/
instance [Monad m] : ForIn m (NonEmpty α) α where
  forIn xs init body := do
    match ← body xs.head init with
    | .done result => return result
    | .yield result => forIn xs.tail result body

/-- Visits the items from the last one back to the first. -/
def foldr (f : α → β → β) (init : β) (xs : NonEmpty α) : β :=
  f xs.head (xs.tail.foldr f init)

/-- All items in order, as an array with room for just them. -/
def toArray (xs : NonEmpty α) : Array α :=
  (Array.emptyWithCapacity xs.length).push xs.head ++ xs.tail

theorem length_toList (xs : NonEmpty α) : xs.toList.length = xs.length :=
  rfl

/-- A loop visits the items of the list. -/
theorem forIn_eq_forIn_toList [Monad m] (xs : NonEmpty α) (init : β)
    (body : α → β → m (ForInStep β)) : forIn xs init body = forIn xs.toList init body :=
  (List.forIn_cons ..).symm

/-- So does a fold from the end. -/
theorem foldr_eq_foldr_toList (f : α → β → β) (init : β) (xs : NonEmpty α) :
    xs.foldr f init = xs.toList.foldr f init :=
  rfl

theorem toArray_eq_toArray_toList (xs : NonEmpty α) : xs.toArray = xs.toList.toArray := by
  simp [toArray, toList]

/-- The last item is the last one of the list. -/
theorem getLast_toList (xs : NonEmpty α) : xs.toList.getLast? = some xs.last := by
  obtain ⟨x, xs⟩ := xs
  simp [toList, last, List.getLast?_cons, List.getLastD_eq_getLast?]

theorem toList_ne_nil (xs : NonEmpty α) : xs.toList ≠ [] := by
  simp [toList]

/-- The list view loses nothing. -/
theorem toList_inj {xs ys : NonEmpty α} : xs.toList = ys.toList ↔ xs = ys := by
  cases xs; cases ys; simp [toList]

/-- Conversion succeeds with exactly the given items, or there were none. -/
theorem ofList_eq_ok_iff {context : String} {l : List α} {xs : NonEmpty α} :
    ofList context l = .ok xs ↔ l = xs.toList := by
  cases l <;> cases xs <;> simp [ofList, toList]

instance [BEq α] : BEq (NonEmpty α) where
  beq xs ys := xs.head == ys.head && xs.tail == ys.tail

instance [HashInput α] : HashInput (NonEmpty α) where
  hashInput xs := hashInput xs.head ++ hashInput xs.tail

/-- The serialized form, given that of an item. -/
def toJson (f : α → Json) (xs : NonEmpty α) : Json :=
  .arr (xs.toList.map f)

end NonEmpty

end Hypertext
