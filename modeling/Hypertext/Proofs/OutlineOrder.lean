import Hypertext.Proofs.OutlineReading

/-!
# The order of an outline

An outline is written by a recursion that carries the depth down and what has been written along.
What it comes to is said here without that recursion, by **addresses**. The address of a node is the
way to it from the root: which child to go to, and on from there. So the depth of a node is the
length of its address, and a node comes before another one in depth-first order exactly if its
address is the smaller one in lexicographic order, where a way comes before its continuations.

`Tree.visits` lists the nodes with their addresses. Each node is listed (`Tree.mem_visits_iff`), in
the order of the addresses (`Tree.pairwise_visits`), which leaves no other list. Forgetting the
addresses up to their lengths gives the preorder with depths (`Tree.preorder_eq_map_visits`), which
an outline is known to follow. What is written for a node is said part by part
(`Tree.Label.entryText`).
-/

namespace Hypertext

namespace Tree

/-! ### Addresses -/

/-- What stands at the root. -/
def label : Tree → Label
  | .element tag attrs _ => .element tag attrs
  | .data text => .data text

/-- The trees below the root. -/
def children : Tree → List Tree
  | .element _ _ children => children
  | .data _ => []

/-- The tree at an address, the way to it from the root by the positions of children. -/
def subtree? (t : Tree) : List Nat → Option Tree
  | [] => some t
  | i :: a => t.children[i]?.bind fun c ↦ c.subtree? a

mutual

/-- The nodes of a tree with their addresses, each before its children. -/
def visits : Tree → List (List Nat × Label)
  | .element tag attrs children => ([], .element tag attrs) :: forestVisits 0 children
  | .data text => [([], .data text)]

/-- The nodes of several trees, which are children from a position on. -/
def forestVisits (i : Nat) : List Tree → List (List Nat × Label)
  | [] => []
  | t :: ts => (visits t).map (Prod.map (i :: ·) id) ++ forestVisits (i + 1) ts

end

/-- A node is visited before its children. -/
theorem visits_eq_cons (t : Tree) : t.visits = ([], t.label) :: forestVisits 0 t.children := by
  cases t <;> rfl

/-- A node of several trees is a node of one of them, at an address that starts with its
position. -/
theorem mem_forestVisits_iff {i : Nat} {ts : List Tree} {a : List Nat} {n : Label} :
    (a, n) ∈ forestVisits i ts ↔
      ∃ j b t, a = (i + j) :: b ∧ ts[j]? = some t ∧ (b, n) ∈ t.visits := by
  induction ts generalizing i with
  | nil => simp [forestVisits]
  | cons t ts ih =>
    rw [forestVisits, List.mem_append, ih]
    constructor
    · rintro (hfirst | ⟨j, b, u, rfl, hu, hb⟩)
      · obtain ⟨⟨b, m⟩, hb, heq⟩ := List.mem_map.1 hfirst
        obtain ⟨rfl, rfl⟩ := Prod.mk.inj heq
        exact ⟨0, b, t, rfl, rfl, hb⟩
      · exact ⟨j + 1, b, u, by rw [Nat.add_right_comm, Nat.add_assoc], hu, hb⟩
    · rintro ⟨j, b, u, rfl, hu, hb⟩
      cases j with
      | zero =>
        obtain rfl : t = u := Option.some.inj hu
        exact .inl (List.mem_map.2 ⟨(b, n), hb, rfl⟩)
      | succ j => exact .inr ⟨j, b, u, by rw [Nat.add_right_comm, Nat.add_assoc], hu, hb⟩

/-- **Each node is listed at its address**, and nothing else is. -/
theorem mem_visits_iff {t : Tree} {a : List Nat} {n : Label} :
    (a, n) ∈ t.visits ↔ (t.subtree? a).map label = some n := by
  induction a generalizing t with
  | nil =>
    rw [visits_eq_cons, List.mem_cons, mem_forestVisits_iff]
    constructor
    · rintro (hroot | ⟨_, _, _, hbelow, -⟩)
      · rw [(Prod.mk.inj hroot).2]
        rfl
      · cases hbelow
    · intro h
      exact .inl (congrArg (Prod.mk []) (Option.some.inj h).symm)
  | cons i a ih =>
    rw [visits_eq_cons, List.mem_cons, mem_forestVisits_iff, subtree?]
    constructor
    · rintro (hroot | ⟨j, b, c, hbelow, hc, hb⟩)
      · cases hroot
      · obtain ⟨hi, rfl⟩ := List.cons.inj hbelow
        rw [Nat.zero_add] at hi
        rw [hi, hc]
        exact ih.1 hb
    · intro h
      obtain ⟨u, hu, hn⟩ := Option.map_eq_some_iff.1 h
      obtain ⟨c, hc, hcu⟩ := Option.bind_eq_some_iff.1 hu
      exact .inr ⟨i, a, c, by rw [Nat.zero_add], hc, ih.2 (by rw [hcu, Option.map_some, hn])⟩

mutual

/-- **The nodes are listed in the order of their addresses.** -/
theorem pairwise_visits : ∀ t : Tree, t.visits.Pairwise fun v w ↦ v.1 < w.1
  | .element tag attrs children => by
    rw [visits, List.pairwise_cons]
    refine ⟨?_, pairwise_forestVisits 0 children⟩
    rintro ⟨a, n⟩ hbelow
    obtain ⟨j, b, t, rfl, -⟩ := mem_forestVisits_iff.1 hbelow
    exact List.nil_lt_cons _ _
  | .data text => List.pairwise_singleton _ _

theorem pairwise_forestVisits (i : Nat) :
    ∀ ts : List Tree, (forestVisits i ts).Pairwise fun v w ↦ v.1 < w.1
  | [] => List.Pairwise.nil
  | t :: ts => by
    rw [forestVisits, List.pairwise_append, List.pairwise_map]
    refine ⟨(pairwise_visits t).imp fun h ↦ ?_, pairwise_forestVisits (i + 1) ts, ?_⟩
    · exact List.cons_lt_cons_iff.2 (.inr ⟨rfl, h⟩)
    · -- addresses in a later tree start with a larger position
      rintro v hv ⟨a, n⟩ hlater
      obtain ⟨w, -, rfl⟩ := List.mem_map.1 hv
      obtain ⟨j, b, u, rfl, -⟩ := mem_forestVisits_iff.1 hlater
      exact List.cons_lt_cons_iff.2 (.inl (by omega))

end

mutual

/-- The depth of a node is the length of its address. -/
theorem preorder_eq_map_visits (depth : Nat) :
    ∀ t : Tree, t.preorder depth = t.visits.map fun v ↦ (depth + v.1.length, v.2)
  | .element tag attrs children => by
    rw [preorder, visits, List.map_cons, forestPreorder_eq_map_forestVisits depth 0 children]
    rfl
  | .data text => rfl

theorem forestPreorder_eq_map_forestVisits (depth i : Nat) :
    ∀ ts : List Tree, forestPreorder (depth + 1) ts =
      (forestVisits i ts).map fun v ↦ (depth + v.1.length, v.2)
  | [] => rfl
  | t :: ts => by
    rw [forestPreorder, forestVisits, List.map_append, List.map_map,
      preorder_eq_map_visits (depth + 1) t, forestPreorder_eq_map_forestVisits depth (i + 1) ts]
    congr 2
    funext v
    show (depth + 1 + v.1.length, v.2) = (depth + (v.1.length + 1), v.2)
    rw [Nat.add_right_comm, Nat.add_assoc]

end

end Tree

/-! ### What is written -/

/-- An attribute in an entry: a blank, the name and, unless it is a bare name, the value in
quotes. -/
def Attribute.entryText (a : Attribute) : String :=
  " " ++ a.name.value ++
    if a.isBoolean then "" else "=\"" ++ String.ofList (Outline.escape a.value.value.toList) ++ "\""

/-- A node in its entry: for an element the tag and the attributes in their order, in brackets, and
for character data the text in quotes. -/
def Tree.Label.entryText : Tree.Label → String
  | .element tag attrs =>
    "<" ++ tag.name.value ++ String.join (attrs.toList.map Attribute.entryText) ++ ">"
  | .data text => "\"" ++ String.ofList (Outline.visible text.value.toList) ++ "\""

namespace Outline

open Hypertext.Tree

/-- The entry of an attribute, as a text and as characters. -/
theorem toList_entryText_attribute (a : Attribute) : a.entryText.toList = attributeChars a := by
  cases a with
  | flag name => simp [Attribute.entryText, Attribute.isBoolean, Attribute.name, attributeChars]
  | pair name value =>
    simp [Attribute.entryText, Attribute.isBoolean, Attribute.name, Attribute.value,
      attributeChars, quoted]

/-- The entry of a node, as a text and as characters. -/
theorem toList_entryText (n : Label) : n.entryText.toList = n.header := by
  cases n with
  | element tag attrs =>
    simp [Label.entryText, Label.header, elementChars, List.flatMap_map,
      toList_entryText_attribute]
  | data text => simp [Label.entryText, Label.header, dataChars, quoted]

/-- **An outline is the preorder of its tree.** Whatever has been written stays, and the lines of
the nodes are appended to it: two blanks for each level, counted from the depth of the root, the
node's own entry, and a line break. The nodes come in depth-first order, which is the lexicographic
order of their addresses, and all of them come. -/
theorem write_appends_preorder (depth : Nat) (out : String) (t : Tree) :
    write depth out t = out ++ String.join (t.visits.map fun v ↦
      String.ofList (List.replicate (2 * (depth + v.1.length)) ' ') ++ v.2.entryText ++ "\n") ∧
    t.visits.Pairwise (fun v w ↦ v.1 < w.1) ∧
    ∀ (a : List Nat) (n : Label), (a, n) ∈ t.visits ↔ (t.subtree? a).map label = some n := by
  refine ⟨String.toList_inj.1 ?_, pairwise_visits t, fun a n ↦ mem_visits_iff⟩
  rw [toList_write, preorder_eq_map_visits, String.toList_append, String.toList_join,
    List.flatMap_map, List.flatMap_map]
  simp only [String.toList_append, String.toList_ofList, toList_entryText]
  rfl

end Outline

end Hypertext
