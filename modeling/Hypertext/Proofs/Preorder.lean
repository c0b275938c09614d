import Hypertext.Proofs.Relabeling

/-!
# Preorder with depths

A tree, node by node: each node before its children, with its depth and what stands at it apart
from its children (`Tree.Label`). This is the order in which outlines show a tree.

The depths are enough to put the tree together again. The children of a node are the nodes after
it that lie deeper, up to the first one that does not, so a list of labels with depths comes from
at most one tree (`Tree.preorder_injective`). The induction needs the statement with further nodes
behind the tree: `Shallow d r` says of those nodes that they cannot be taken for a part of it.

Since relabeling a tree relabels the nodes where they stand (`Tree.preorder_relabel`), what two
trees have in common can be checked label by label (`Tree.relabel_eq_of_labels`).
-/

namespace Hypertext.Tree

/-- What stands at a node of a tree. -/
inductive Label where
  /-- An element's tag and attributes. -/
  | element (tag : Tag) (attrs : Attributes)
  /-- Character data. -/
  | data (text : Leaf)

/-- The label with its leaves and attributes changed. -/
def Label.relabel (ρ : Relabeling) : Label → Label
  | .element tag attrs => .element ⟨ρ.tag tag.name⟩ (attrs.map ρ.attr)
  | .data text => .data (ρ.text text)

mutual

/-- The nodes of a tree whose root lies at a depth, each before its children. -/
def preorder (depth : Nat) : Tree → List (Nat × Label)
  | .element tag attrs children =>
    (depth, .element tag attrs) :: forestPreorder (depth + 1) children
  | .data text => [(depth, .data text)]

/-- The nodes of several trees whose roots lie at a depth. -/
def forestPreorder (depth : Nat) : List Tree → List (Nat × Label)
  | [] => []
  | t :: ts => preorder depth t ++ forestPreorder depth ts

end

/-- What stands at the nodes of a tree. -/
def labels (t : Tree) : List Label :=
  (t.preorder 0).map Prod.snd

mutual

/-- Relabeling a tree relabels its nodes where they stand. -/
theorem preorder_relabel (ρ : Relabeling) (depth : Nat) :
    ∀ t : Tree, (t.relabel ρ).preorder depth =
      (t.preorder depth).map (Prod.map id (Label.relabel ρ))
  | .element tag attrs children => by
    rw [relabel, preorder, preorder, forestPreorder_relabelForest ρ (depth + 1) children]
    rfl
  | .data text => rfl

theorem forestPreorder_relabelForest (ρ : Relabeling) (depth : Nat) :
    ∀ ts : List Tree, forestPreorder depth (relabelForest ρ ts) =
      (forestPreorder depth ts).map (Prod.map id (Label.relabel ρ))
  | [] => rfl
  | t :: ts => by
    rw [relabelForest, forestPreorder, forestPreorder, preorder_relabel ρ depth t,
      forestPreorder_relabelForest ρ depth ts, List.map_append]

end

/-! ### The tree behind a list of labels -/

/-- Nothing, or a list that starts above a depth. -/
def Shallow (depth : Nat) (r : List (Nat × Label)) : Prop :=
  ∀ p ∈ r.head?, p.1 < depth

theorem shallow_nil (depth : Nat) : Shallow depth [] := by
  simp [Shallow]

/-- After one of several trees, the rest of them starts above its children. -/
theorem shallow_forestPreorder_append {depth : Nat} {r : List (Nat × Label)}
    (hr : Shallow depth r) (ts : List Tree) :
    Shallow (depth + 1) (forestPreorder depth ts ++ r) := by
  intro p hp
  match ts with
  | [] => exact Nat.lt_succ_of_lt (hr p hp)
  | .element _ _ _ :: _ | .data _ :: _ =>
    obtain rfl := Option.some.inj hp
    exact Nat.lt_succ_self depth

mutual

/-- A tree ends where its nodes end, if what follows lies no deeper than its root. -/
theorem preorder_append_inj {depth : Nat} {r s : List (Nat × Label)}
    (hr : Shallow (depth + 1) r) (hs : Shallow (depth + 1) s) :
    ∀ t u : Tree, t.preorder depth ++ r = u.preorder depth ++ s → t = u ∧ r = s
  | .element tag attrs ts, .element tag' attrs' us, h => by
    obtain ⟨hlabel, hrest⟩ := List.cons.inj h
    obtain ⟨rfl, rfl⟩ : tag = tag' ∧ attrs = attrs' := by simpa using hlabel
    obtain ⟨rfl, rfl⟩ := forestPreorder_append_inj hr hs ts us hrest
    exact ⟨rfl, rfl⟩
  | .data x, .data y, h => by
    obtain ⟨hlabel, hrest⟩ := List.cons.inj h
    obtain rfl : x = y := by simpa using hlabel
    exact ⟨rfl, hrest⟩
  | .element _ _ _, .data _, h => by simp [preorder] at h
  | .data _, .element _ _ _, h => by simp [preorder] at h

/-- Several trees end where their nodes end, if what follows lies above their roots. -/
theorem forestPreorder_append_inj {depth : Nat} {r s : List (Nat × Label)}
    (hr : Shallow depth r) (hs : Shallow depth s) :
    ∀ ts us : List Tree, forestPreorder depth ts ++ r = forestPreorder depth us ++ s →
      ts = us ∧ r = s
  | [], [], h => ⟨rfl, h⟩
  | t :: ts, u :: us, h => by
    rw [forestPreorder, forestPreorder, List.append_assoc, List.append_assoc] at h
    obtain ⟨rfl, hrest⟩ := preorder_append_inj (shallow_forestPreorder_append hr ts)
      (shallow_forestPreorder_append hs us) t u h
    obtain ⟨rfl, rfl⟩ := forestPreorder_append_inj hr hs ts us hrest
    exact ⟨rfl, rfl⟩
  -- a further tree starts at `depth`, and what follows does not
  | [], .element _ _ _ :: _, h | [], .data _ :: _, h => by
    subst h
    exact absurd (hr _ rfl) (Nat.lt_irrefl depth)
  | .element _ _ _ :: _, [], h | .data _ :: _, [], h => by
    subst h
    exact absurd (hs _ rfl) (Nat.lt_irrefl depth)

end

/-- **The nodes with their depths determine the tree.** -/
theorem preorder_injective (depth : Nat) : Function.Injective (preorder depth) := by
  intro t u h
  have hnil := shallow_nil (depth + 1)
  exact (preorder_append_inj hnil hnil t u (congrArg (· ++ []) h)).1

/-- Trees that agree in one respect agree in another, if their labels do. -/
theorem relabel_eq_of_labels {ρ σ : Relabeling} {t u : Tree}
    (h : ∀ n ∈ t.labels, ∀ m ∈ u.labels, n.relabel ρ = m.relabel ρ → n.relabel σ = m.relabel σ)
    (htu : t.relabel ρ = u.relabel ρ) : t.relabel σ = u.relabel σ := by
  apply preorder_injective 0
  have hnodes := congrArg (preorder 0) htu
  rw [preorder_relabel, preorder_relabel] at hnodes ⊢
  refine map_eq_map_of_map_eq_map (fun p hp q hq hpq ↦ ?_) hnodes
  obtain ⟨hdepth, hlabel⟩ := Prod.ext_iff.1 hpq
  exact Prod.ext hdepth
    (h p.2 (List.mem_map_of_mem hp) q.2 (List.mem_map_of_mem hq) hlabel)

end Hypertext.Tree
