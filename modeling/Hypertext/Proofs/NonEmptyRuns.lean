import Hypertext.NonEmpty

/-!
# Non-empty lists as lists

A non-empty list keeps its first item apart from the rest, and every operation has to take the two
together again. Nothing of this can be seen from outside: after **any run of operations** all ways
of reading the items give one and the same list (`NonEmpty.ReadsAs`), and it is the list that the
same operations make of an ordinary list.

`Op` are the operations and `Script` their sequences, which may change the type of the items on the
way. A script is performed on a non-empty list by the operations of this library
(`Script.perform`) and on an ordinary list by what the operations mean (`Script.onList`).
`Op.perform_eq_onList` compares them for one operation, `Script.perform_eq_onList` for a run.
-/

namespace Hypertext

namespace NonEmpty

/-! ### Reading -/

/-- Every way of reading the items gives the list, which is not empty. -/
structure ReadsAs (xs : NonEmpty α) (l : List α) : Prop where
  ne_nil : l ≠ []
  toList_eq : xs.toList = l
  forIn_eq : ∀ (m : Type → Type) [Monad m] (β : Type) (init : β)
    (body : α → β → m (ForInStep β)), forIn xs init body = forIn l init body
  foldr_eq : ∀ (β : Type) (f : α → β → β) (init : β), xs.foldr f init = l.foldr f init
  toArray_eq : xs.toArray = l.toArray
  toJson_eq : ∀ item : α → Json, xs.toJson item = .arr (l.map item)
  length_eq : xs.length = l.length
  head_eq : some xs.head = l.head?
  last_eq : some xs.last = l.getLast?
  tail_eq : xs.tail = l.tail

/-- The list view is what is read. -/
theorem readsAs_iff {xs : NonEmpty α} {l : List α} : xs.ReadsAs l ↔ xs.toList = l := by
  refine ⟨ReadsAs.toList_eq, ?_⟩
  rintro rfl
  exact
    { ne_nil := xs.toList_ne_nil
      toList_eq := rfl
      forIn_eq := fun _ _ _ init body ↦ xs.forIn_eq_forIn_toList init body
      foldr_eq := fun _ f init ↦ xs.foldr_eq_foldr_toList f init
      toArray_eq := xs.toArray_eq_toArray_toList
      toJson_eq := fun _ ↦ rfl
      length_eq := xs.length_toList.symm
      head_eq := rfl
      last_eq := xs.getLast_toList.symm
      tail_eq := rfl }

/-- Non-empty lists are compared as the lists that they read as. -/
theorem beq_eq_of_readsAs [BEq α] {xs ys : NonEmpty α} {l k : List α} (hxs : xs.ReadsAs l)
    (hys : ys.ReadsAs k) : (xs == ys) = (l == k) := by
  obtain rfl := hxs.toList_eq
  obtain rfl := hys.toList_eq
  rfl

/-! ### Making -/

/-- A conversion fails exactly if there is no item, and names its context. -/
theorem ofList_eq_error_iff {context : String} {l : List α} {e : Error} :
    ofList context l = .error e ↔ l = [] ∧ e = .emptyList context := by
  cases l with
  | nil => simp [ofList, eq_comm]
  | cons x l => simp [ofList]

/-- The ways to make a non-empty list. -/
inductive Start (α : Type) where
  /-- From one item. -/
  | one (x : α)
  /-- From a first item and the rest. -/
  | withTail (x : α) (l : List α)
  /-- From a list, for no particular purpose. -/
  | ofItems (l : List α)
  /-- From a list, for a purpose. -/
  | ofItemsFor (context : String) (l : List α)

namespace Start

/-- The items to start from. -/
def items : Start α → List α
  | .one x => [x]
  | .withTail x l => x :: l
  | .ofItems l | .ofItemsFor _ l => l

/-- Makes the non-empty list. -/
def make : Start α → Except Error (NonEmpty α)
  | .one x => .ok (singleton x)
  | .withTail x l => .ok ⟨x, l⟩
  | .ofItems l => ofList anyContext l
  | .ofItemsFor context l => ofList context l

/-- There is a non-empty list of the items, if there are any. -/
theorem exists_make_eq_ok {start : Start α} (h : start.items ≠ []) :
    ∃ xs, start.make = .ok xs ∧ xs.toList = start.items := by
  have hlist : ∀ {context : String} {l : List α}, l ≠ [] →
      ∃ xs, ofList context l = .ok xs ∧ xs.toList = l := by
    intro context l hl
    obtain ⟨x, rest, rfl⟩ := List.exists_cons_of_ne_nil hl
    exact ⟨⟨x, rest⟩, rfl, rfl⟩
  cases start with
  | one x => exact ⟨_, rfl, rfl⟩
  | withTail x l => exact ⟨_, rfl, rfl⟩
  | ofItems l => exact hlist h
  | ofItemsFor context l => exact hlist h

end Start

/-! ### Operations -/

/-- The operations, with the types of the items before and after. The functions that items are
mapped with share a state. -/
inductive Op (σ : Type) : Type → Type → Type 1 where
  /-- Adds an item at the end. -/
  | push {α : Type} (x : α) : Op σ α α
  /-- Applies a function to every item. -/
  | map {α β : Type} (f : α → β) : Op σ α β
  /-- Applies a function with a state to every item. -/
  | mapM {α β : Type} (f : α → StateM σ β) : Op σ α β
  /-- Takes all items out and makes a non-empty list of them. -/
  | rebuild {α : Type} : Op σ α α
  /-- Makes a non-empty list of the items after the first, or leaves the list as it is if there are
  none. -/
  | dropFirst {α : Type} : Op σ α α

/-- A sequence of operations. -/
inductive Script (σ : Type) : Type → Type → Type 1 where
  | done {α : Type} : Script σ α α
  | next {α β γ : Type} (op : Op σ α β) (rest : Script σ β γ) : Script σ α γ

/-- The new list if there is one, and otherwise the old one and the error. -/
def orKeep (xs : NonEmpty α) : Except Error (NonEmpty α) → NonEmpty α × List Error
  | .ok ys => (ys, [])
  | .error e => (xs, [e])

variable {σ α β : Type}

/-- Performs an operation: the list after it, and the error if there was one. -/
def Op.perform : Op σ α β → NonEmpty α → StateM σ (NonEmpty β × List Error)
  | .push x, xs => return (xs.push x, [])
  | .map f, xs => return (xs.map f, [])
  | .mapM f, xs => return (← xs.mapM f, [])
  | .rebuild, xs => return xs.orKeep (ofList anyContext xs.toArray.toList)
  | .dropFirst, xs => return xs.orKeep (ofList anyContext xs.tail)

/-- Performs a sequence of operations: the list after it, and the errors on the way. -/
def Script.perform {α β : Type} : Script σ α β → NonEmpty α → StateM σ (NonEmpty β × List Error)
  | .done, xs => return (xs, [])
  | .next op rest, xs => do
    let (ys, errors) ← op.perform xs
    let (zs, more) ← rest.perform ys
    return (zs, errors ++ more)

/-! ### The same on ordinary lists -/

/-- The results of a function with a state on the items of a list, the state being handed on from
left to right. -/
def thread (f : α → StateM σ β) : List α → σ → List β × σ
  | [], s => ([], s)
  | x :: l, s =>
    let first := (f x).run s
    let rest := thread f l first.2
    (first.1 :: rest.1, rest.2)

/-- What an operation means for an ordinary list and the state. -/
def Op.onList : Op σ α β → List α → σ → (List β × List Error) × σ
  | .push x, l, s => ((l ++ [x], []), s)
  | .map f, l, s => ((l.map f, []), s)
  | .mapM f, l, s => (((thread f l s).1, []), (thread f l s).2)
  | .rebuild, l, s => ((l, []), s)
  | .dropFirst, l, s => if l.tail = [] then ((l, [.emptyList "list"]), s) else ((l.tail, []), s)

/-- What a sequence of operations means for an ordinary list and the state. -/
def Script.onList {α β : Type} : Script σ α β → List α → σ → (List β × List Error) × σ
  | .done, l, s => ((l, []), s)
  | .next op rest, l, s =>
    let first := op.onList l s
    let last := rest.onList first.1.1 first.2
    ((last.1.1, first.1.2 ++ last.1.2), last.2)

/-- A stateful map hands the state on from item to item. -/
theorem run_mapM_eq_thread (f : α → StateM σ β) (l : List α) (s : σ) :
    (l.mapM f).run s = thread f l s := by
  induction l generalizing s with
  | nil => rfl
  | cons x l ih =>
    rw [List.mapM_cons, thread, ← ih ((f x).run s).2]
    rfl

/-- What can be seen of a result: its list, the errors and the state. -/
def outcome (r : (NonEmpty α × List Error) × σ) : (List α × List Error) × σ :=
  ((r.1.1.toList, r.1.2), r.2)

/-- The new list has the given items, if there are any. -/
theorem outcome_orKeep_ofList (xs : NonEmpty α) (l : List α) (s : σ) :
    outcome (xs.orKeep (ofList anyContext l), s) =
      if l = [] then ((xs.toList, [.emptyList "list"]), s) else ((l, []), s) := by
  cases l <;> rfl

/-- **One operation** does to the list view what it means for lists. -/
theorem Op.perform_eq_onList (op : Op σ α β) (xs : NonEmpty α) (s : σ) :
    outcome ((op.perform xs).run s) = op.onList xs.toList s := by
  cases op with
  | push x => rfl
  | map f => rfl
  | mapM f =>
    have htail := run_mapM_eq_thread f xs.tail ((f xs.head).run s).2
    rw [Op.onList, toList, thread, ← htail]
    rfl
  | rebuild =>
    have harray : xs.toArray.toList = xs.toList := by rw [toArray_eq_toArray_toList]
    refine (outcome_orKeep_ofList xs xs.toArray.toList s).trans ?_
    rw [harray, if_neg xs.toList_ne_nil]
    rfl
  | dropFirst => exact outcome_orKeep_ofList xs xs.tail s

/-- **A run** does to the list view what its operations mean for lists. -/
theorem Script.perform_eq_onList {α β : Type} (script : Script σ α β) (xs : NonEmpty α) (s : σ) :
    outcome ((script.perform xs).run s) = script.onList xs.toList s := by
  induction script generalizing s with
  | done => rfl
  | next op rest ih =>
    have hrest : outcome ((rest.perform ((op.perform xs).run s).1.1).run
          ((op.perform xs).run s).2) =
        rest.onList (outcome ((op.perform xs).run s)).1.1 (outcome ((op.perform xs).run s)).2 :=
      ih _ _
    rw [Script.onList, ← op.perform_eq_onList, ← hrest]
    rfl

/-! ### Whole runs -/

/-- Non-empty lists of a type of items do everywhere what ordinary lists do. -/
structure RunsAsList (α : Type) : Prop where
  /-- A conversion fails exactly if there is no item, and says which context asked for one. -/
  fails_iff : ∀ (context : String) (l : List α) (e : Error),
    ofList context l = .error e ↔ l = [] ∧ e = .emptyList context
  /-- Without a context of its own, a conversion is for a list. -/
  fails_plain_iff : ∀ (l : List α) (e : Error),
    ofList anyContext l = .error e ↔ l = [] ∧ e = .emptyList "list"
  /-- From every start with an item, every run leads to what it leads to with an ordinary list, read
  in any way, with the same errors and the same state on the way. -/
  run : ∀ {σ β : Type} (start : Start α) (script : Script σ α β) (s : σ), start.items ≠ [] →
    ∃ xs, start.make = .ok xs ∧
      ((script.perform xs).run s).1.1.ReadsAs (script.onList start.items s).1.1 ∧
      ((script.perform xs).run s).1.2 = (script.onList start.items s).1.2 ∧
      ((script.perform xs).run s).2 = (script.onList start.items s).2
  /-- Two of them are equal exactly if they read as equal lists. -/
  beq_iff : ∀ [BEq α] (xs ys : NonEmpty α) (l k : List α), xs.ReadsAs l → ys.ReadsAs k →
    ((xs == ys) = true ↔ (l == k) = true)

/-- **Non-empty lists are lists**, over whole runs and in every way of reading them. -/
theorem runsAsList (α : Type) : RunsAsList α where
  fails_iff _ _ _ := ofList_eq_error_iff
  fails_plain_iff _ _ := ofList_eq_error_iff
  run start script s h := by
    obtain ⟨xs, hmake, hitems⟩ := Start.exists_make_eq_ok h
    have hrun := script.perform_eq_onList xs s
    rw [hitems] at hrun
    refine ⟨xs, hmake, readsAs_iff.2 ?_, ?_, ?_⟩
    · rw [← hrun]
      rfl
    · rw [← hrun]
      rfl
    · rw [← hrun]
      rfl
  beq_iff _ _ _ _ hxs hys := by rw [beq_eq_of_readsAs hxs hys]

/-- Adds an item, sums up from the left, and drops the first item once more than there are items to
drop. -/
def tally : Script Nat Nat Nat :=
  .next (.push 3) <| .next (.mapM fun n sum ↦ (sum + n, sum + n)) <| .next .rebuild <|
    .next .dropFirst <| .next .dropFirst <| .next .dropFirst .done

theorem tally_runsAsList :
    (Start.withTail 1 [2]).items ≠ [] ∧
      ∃ xs, (Start.withTail 1 [2]).make = .ok xs ∧
        ((tally.perform xs).run 0).1.1.ReadsAs [6] ∧
        ((tally.perform xs).run 0).1.2 = [.emptyList "list"] ∧
        ((tally.perform xs).run 0).2 = 6 :=
  ⟨by decide, (runsAsList Nat).run (.withTail 1 [2]) tally 0 (by decide)⟩

end NonEmpty

end Hypertext
