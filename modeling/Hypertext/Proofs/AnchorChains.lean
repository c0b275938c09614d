import Mathlib.Data.List.Induction
import Mathlib.Logic.Relation
import Hypertext.Source.Position

/-!
# Anchors and chains of neighbours

Tokens are made one after the other. Some are read in the source, others are made up next to a token
that was there before, which may be made up itself. So each token starts a chain: from it to its
neighbour, from there to the neighbour's neighbour, and so on until a token without one.

A position keeps nothing of that chain but a location. It is still **the location at which the
chain ends**: a link of the chain does not change the anchor (`History.anchor_eq_of_link`), at the
end of the chain the anchor is the token's own location, if it has one
(`History.anchor_eq_location?`), and every chain has an end, because neighbours come earlier
(`History.exists_end`).
-/

namespace Hypertext

/-! ### Where tokens come from -/

/-- How a token comes about. Tokens are numbered from zero on, in the order in which they are
made. -/
inductive Origin where
  /-- The token is read in a file, at the place that the numbers give. -/
  | source (file : String) (line column offset length : UInt64)
  /-- The token is read at a location. -/
  | located (location : Location)
  /-- The token is made up, next to the token of a number or to none. -/
  | madeUp (hint : Option String) (neighbour : Option Nat)

namespace Origin

/-- The location at which the token is read. -/
def location? : Origin → Option Location
  | .source file line column offset length => some ⟨file, line, column, offset, length⟩
  | .located l => some l
  | .madeUp _ _ => none

/-- The number of the token next to which this one is made up. -/
def neighbour? : Origin → Option Nat
  | .madeUp _ neighbour => neighbour
  | .source .. | .located _ => none

/-- The hint with which the token is made up. -/
def hint? : Origin → Option String
  | .madeUp hint _ => hint
  | .source .. | .located _ => none

/-- The position of the token, given the positions of the tokens before it. -/
def position (before : List Position) : Origin → Position
  | .source file line column offset length => .real ⟨file, line, column, offset, length⟩
  | .located l => .real l
  | .madeUp hint neighbour => .nextTo hint (neighbour.bind fun j ↦ before[j]?)

/-- A token has the location it was read at, and none if it was made up. -/
theorem location_position (before : List Position) (o : Origin) :
    (o.position before).location = o.location? := by
  cases o <;> rfl

/-- The hint is the token's own. -/
theorem hint_position (before : List Position) (o : Origin) :
    (o.position before).hint = o.hint? := by
  cases o <;> rfl

theorem isFake_position_iff (before : List Position) (o : Origin) :
    (o.position before).isFake = true ↔ ∃ hint neighbour, o = .madeUp hint neighbour := by
  cases o <;> simp [position, Position.nextTo, Position.isFake]

/-- A token takes over the anchor of its neighbour. -/
theorem anchor_position_of_neighbour {before : List Position} {o : Origin} {j : Nat} {p : Position}
    (ho : o.neighbour? = some j) (hj : before[j]? = some p) :
    (o.position before).anchor = p.anchor := by
  cases o with
  | source | located => cases ho
  | madeUp hint neighbour =>
    obtain rfl : neighbour = some j := ho
    simp [position, Position.nextTo, Position.anchor, hj]

/-- Without a neighbour, a token is anchored at most at its own location. -/
theorem anchor_position_of_no_neighbour (before : List Position) {o : Origin}
    (ho : o.neighbour? = none) : (o.position before).anchor = o.location? := by
  cases o with
  | source | located => rfl
  | madeUp hint neighbour =>
    obtain rfl : neighbour = none := ho
    rfl

/-- What was read has no neighbour. -/
theorem neighbour?_of_location? {o : Origin} {l : Location} (ho : o.location? = some l) :
    o.neighbour? = none := by
  cases o with
  | source | located => rfl
  | madeUp => cases ho

/-- A token that was neither read nor made up next to another was made up next to nothing. -/
theorem exists_eq_madeUp {o : Origin} (hlocation : o.location? = none)
    (hneighbour : o.neighbour? = none) : ∃ hint, o = .madeUp hint none := by
  cases o with
  | source | located => cases hlocation
  | madeUp hint neighbour =>
    obtain rfl : neighbour = none := hneighbour
    exact ⟨hint, rfl⟩

/-- Of the positions before it, a token looks only at that of its neighbour. -/
theorem position_congr {before before' : List Position} {o : Origin}
    (h : ∀ j ∈ o.neighbour?, before[j]? = before'[j]?) :
    o.position before = o.position before' := by
  cases o with
  | source | located => rfl
  | madeUp hint neighbour =>
    cases neighbour with
    | none => rfl
    | some j => rw [position, position, Option.bind_some, Option.bind_some, h j rfl]

end Origin

/-! ### Positions made one after the other -/

/-- The positions of tokens that are made one after the other. -/
def positionsOf (origins : List Origin) : List Position :=
  origins.foldl (fun before o ↦ before ++ [o.position before]) []

/-- A further token is placed by what stands before it. -/
theorem positionsOf_concat (origins : List Origin) (o : Origin) :
    positionsOf (origins ++ [o]) = positionsOf origins ++ [o.position (positionsOf origins)] := by
  rw [positionsOf, List.foldl_append]
  rfl

theorem length_positionsOf (origins : List Origin) :
    (positionsOf origins).length = origins.length := by
  induction origins using List.reverseRecOn with
  | nil => rfl
  | append_singleton origins o ih => simp [positionsOf_concat, ih]

/-- The position of a token was made from those of the tokens before it, and no later token changes
it. -/
theorem getElem?_positionsOf (origins : List Origin) (i : Nat) :
    (positionsOf origins)[i]? =
      origins[i]?.map fun o ↦ o.position ((positionsOf origins).take i) := by
  induction origins using List.reverseRecOn with
  | nil => rfl
  | append_singleton origins o ih =>
    have hlength := length_positionsOf origins
    rw [positionsOf_concat]
    rcases Nat.lt_trichotomy i origins.length with hi | rfl | hi
    · rw [List.getElem?_append_left (by omega), List.getElem?_append_left hi, ih,
        List.take_append_of_le_length (by omega)]
    · rw [← hlength, List.getElem?_concat_length, hlength, List.getElem?_concat_length, ← hlength,
        List.take_left]
      rfl
    · rw [List.getElem?_eq_none (by simp; omega), List.getElem?_eq_none (by simp; omega)]
      rfl

/-- Tokens made one after the other, each next to an earlier one or to none. -/
structure History where
  /-- How the tokens come about, in the order in which they are made. -/
  origins : List Origin
  /-- A neighbour is there before the token that is made up next to it. -/
  neighbour_lt : ∀ i (hi : i < origins.length), ∀ j ∈ origins[i].neighbour?, j < i

namespace History

variable (h : History)

/-- The number of tokens. -/
def size : Nat :=
  h.origins.length

/-- How a token comes about. -/
def origin (i : Fin h.size) : Origin :=
  h.origins.get i

/-- The position of a token. -/
def position (i : Fin h.size) : Position :=
  (positionsOf h.origins).get (i.cast (length_positionsOf h.origins).symm)

/-- From a token to its neighbour. -/
def Link (i j : Fin h.size) : Prop :=
  (h.origin i).neighbour? = some j.val

/-- The position of a token is the one at its index. -/
theorem getElem?_positions (i : Fin h.size) :
    (positionsOf h.origins)[i.val]? = some (h.position i) :=
  List.getElem?_eq_getElem _

variable {h}

/-- Neighbours stand earlier. -/
theorem lt_of_neighbour? {i : Fin h.size} {j : Nat} (hj : (h.origin i).neighbour? = some j) :
    j < i.val :=
  h.neighbour_lt i.val i.isLt j hj

/-- Since neighbours come earlier, a token may be placed when all positions are known. -/
theorem position_eq (i : Fin h.size) :
    h.position i = (h.origin i).position (positionsOf h.origins) := by
  have horigin : h.origins[i.val]? = some (h.origin i) := List.getElem?_eq_getElem i.isLt
  have hplaced := getElem?_positionsOf h.origins i.val
  rw [h.getElem?_positions, horigin] at hplaced
  rw [Option.some.inj hplaced]
  refine Origin.position_congr fun j hj ↦ ?_
  rw [List.getElem?_take_of_lt (lt_of_neighbour? hj)]

/-! ### Following the chain -/

/-- **A link does not change the anchor.** -/
theorem anchor_eq_of_link {i j : Fin h.size} (hij : h.Link i j) :
    (h.position i).anchor = (h.position j).anchor := by
  rw [position_eq i]
  exact Origin.anchor_position_of_neighbour hij (h.getElem?_positions j)

/-- So no number of links does. -/
theorem anchor_eq_of_links {i j : Fin h.size} (hij : Relation.ReflTransGen h.Link i j) :
    (h.position i).anchor = (h.position j).anchor := by
  induction hij with
  | refl => rfl
  | tail _ hlink ih => rw [ih, anchor_eq_of_link hlink]

/-- At the end of a chain, the anchor is the token's own location, if it has one. -/
theorem anchor_eq_location? {i : Fin h.size} (hi : (h.origin i).neighbour? = none) :
    (h.position i).anchor = (h.origin i).location? := by
  rw [position_eq i]
  exact Origin.anchor_position_of_no_neighbour _ hi

/-- **Every chain ends.** -/
theorem exists_end (i : Fin h.size) :
    ∃ j, Relation.ReflTransGen h.Link i j ∧ (h.origin j).neighbour? = none := by
  match hj : (h.origin i).neighbour? with
  | none => exact ⟨i, .refl, hj⟩
  | some j =>
    have hlt : j < i.val := lt_of_neighbour? hj
    have hlink : h.Link i ⟨j, Nat.lt_trans hlt i.isLt⟩ := hj
    obtain ⟨k, hk, hend⟩ := exists_end ⟨j, Nat.lt_trans hlt i.isLt⟩
    exact ⟨k, hk.head hlink, hend⟩
termination_by i.val

/-- **Anchors follow the chain of neighbours.** A token is anchored at a location exactly if its
chain ends at a token read there, and nowhere exactly if its chain ends at a token made up next to
none. All else that a position tells is the token's own: the location at which it is read, whether
it is made up, and the hint. -/
theorem anchor_follows_links (h : History) (i : Fin h.size) :
    (∀ l, (h.position i).anchor = some l ↔
        ∃ j, Relation.ReflTransGen h.Link i j ∧ (h.origin j).location? = some l) ∧
      ((h.position i).anchor = none ↔
        ∃ j, Relation.ReflTransGen h.Link i j ∧ ∃ hint, h.origin j = .madeUp hint none) ∧
      (∀ l, (h.position i).location = some l ↔ (h.origin i).location? = some l) ∧
      ((h.position i).isFake = true ↔ ∃ hint neighbour, h.origin i = .madeUp hint neighbour) ∧
      (h.position i).hint = (h.origin i).hint? := by
  obtain ⟨k, hk, hend⟩ := exists_end i
  have hanchor : (h.position i).anchor = (h.origin k).location? :=
    (anchor_eq_of_links hk).trans (anchor_eq_location? hend)
  refine ⟨fun l ↦ ⟨fun hl ↦ ⟨k, hk, hanchor ▸ hl⟩, ?_⟩, ⟨fun hnone ↦ ⟨k, hk, ?_⟩, ?_⟩, ?_, ?_, ?_⟩
  · rintro ⟨j, hj, hl⟩
    rw [anchor_eq_of_links hj, anchor_eq_location? (Origin.neighbour?_of_location? hl), hl]
  · exact Origin.exists_eq_madeUp (hanchor ▸ hnone) hend
  · rintro ⟨j, hj, hint, hmade⟩
    rw [anchor_eq_of_links hj, anchor_eq_location? (by rw [hmade]; rfl), hmade]
    rfl
  · intro l
    rw [position_eq, Origin.location_position]
  · rw [position_eq, Origin.isFake_position_iff]
  · rw [position_eq, Origin.hint_position]

/-- A token that was read, a chain of three that leads to it, one that leads nowhere, and a second
token next to the first. -/
def branching : History where
  origins := [.source "a.html" 2 7 15 3, .madeUp (some "tbody") (some 0), .madeUp none (some 1),
    .madeUp (some "floating") none, .madeUp none (some 3), .madeUp (some "tr") (some 2),
    .located ⟨"b.html", 1, 1, 0, 4⟩, .madeUp none (some 0)]
  neighbour_lt := by decide

/-- The last token of the chain of three is anchored where the first token was read, and that is
where its links lead; the one that floats is where another chain ends. -/
theorem branching_anchor_follows_links :
    (∃ j, Relation.ReflTransGen branching.Link ⟨5, by decide⟩ j ∧
        (branching.origin j).location? = some ⟨"a.html", 2, 7, 15, 3⟩) ∧
      ∃ j, Relation.ReflTransGen branching.Link ⟨4, by decide⟩ j ∧
        ∃ hint, branching.origin j = .madeUp hint none := by
  have hread : (branching.position ⟨5, by decide⟩).anchor = some ⟨"a.html", 2, 7, 15, 3⟩ := by
    decide
  have hfloating : (branching.position ⟨4, by decide⟩).anchor = none := by decide
  exact ⟨((anchor_follows_links branching _).1 _).1 hread,
    (anchor_follows_links branching _).2.1.1 hfloating⟩

end History

end Hypertext
