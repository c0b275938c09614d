import Hypertext.Grammar.Document
import Hypertext.Markup.Tree
import Hypertext.Proofs.Induction

/-!
# Relabeling

A relabeling changes the leaves and the attributes of a tree or a document and nothing else: shape,
order, element kinds, heading levels and holes stay. It is how "equal up to …" is said of documents
here. To forget a part of every leaf is to relabel with a function that overwrites that part, and
two documents agree in everything else exactly if they become **the same** document.

* `Relabeling.unplaced` forgets every position;
* `Relabeling.spelledOut` forgets whether an attribute was written as a bare name;
* `Relabeling.erased` forgets both.

What is left of a single leaf or attribute is said by `Located.unplaced_eq_iff`,
`Attribute.unplaced_eq_iff`, `Attribute.spellOut_eq_iff` and `Attribute.erase_eq_iff`.
-/

namespace Hypertext

/-! ### Lists that agree under a function -/

/-- Lists that one function maps alike are mapped alike by another, if this holds item by item. -/
theorem map_eq_map_of_map_eq_map {f : α → β} {g : α → γ} {l k : List α}
    (h : ∀ x ∈ l, ∀ y ∈ k, f x = f y → g x = g y) (hlk : l.map f = k.map f) :
    l.map g = k.map g := by
  induction l generalizing k with
  | nil => rw [List.map_eq_nil_iff.1 hlk.symm]
  | cons x l ih =>
    cases k with
    | nil => cases hlk
    | cons y k =>
      obtain ⟨hxy, htail⟩ := List.cons.inj hlk
      have hrest := ih (fun a ha b hb ↦ h a (.tail _ ha) b (.tail _ hb)) htail
      rw [List.map_cons, List.map_cons, h x (.head _) y (.head _) hxy, hrest]

/-- Two functions that tell the same items apart tell the same lists apart. -/
theorem map_eq_map_iff_map_eq_map {f : α → β} {g : α → γ} (h : ∀ x y, f x = f y ↔ g x = g y)
    {l k : List α} : l.map f = k.map f ↔ l.map g = k.map g :=
  ⟨map_eq_map_of_map_eq_map fun x _ y _ ↦ (h x y).1,
    map_eq_map_of_map_eq_map fun x _ y _ ↦ (h x y).2⟩

/-! ### Leaves and attributes -/

/-- The position that says nothing. -/
def Position.nowhere : Position :=
  .fake none none

/-- The value without its position. -/
def Located.unplaced (x : Located α) : Located α :=
  ⟨x.value, .nowhere⟩

/-- Without positions, located values are known by their values. -/
theorem Located.unplaced_eq_iff {x y : Located α} :
    x.unplaced = y.unplaced ↔ x.value = y.value := by
  simp [unplaced]

namespace Attribute

/-- The attribute without its positions. -/
def unplaced : Attribute → Attribute
  | .flag n => .flag n.unplaced
  | .pair n v => .pair n.unplaced v.unplaced

/-- The attribute with its value written out. -/
def spellOut (a : Attribute) : Attribute :=
  .pair a.name a.value

/-- The attribute with its value written out and without its positions. -/
def erase (a : Attribute) : Attribute :=
  a.spellOut.unplaced

/-- Without positions, attributes are known by name, value and spelling. -/
theorem unplaced_eq_iff {a b : Attribute} :
    a.unplaced = b.unplaced ↔ a.name.value = b.name.value ∧ a.value.value = b.value.value ∧
      a.isBoolean = b.isBoolean := by
  cases a <;> cases b <;> simp [unplaced, name, value, isBoolean, Located.unplaced_eq_iff]

/-- Spelled out, attributes are known by name and value, with their positions. -/
theorem spellOut_eq_iff {a b : Attribute} :
    a.spellOut = b.spellOut ↔ a.name = b.name ∧ a.value = b.value := by
  simp [spellOut]

/-- Erased, attributes are known by the texts of name and value. -/
theorem erase_eq_iff {a b : Attribute} :
    a.erase = b.erase ↔ a.name.value = b.name.value ∧ a.value.value = b.value.value := by
  simp [erase, spellOut, unplaced, Located.unplaced_eq_iff]

@[simp]
theorem erase_unplaced (a : Attribute) : a.unplaced.erase = a.erase := by
  cases a <;> rfl

end Attribute

/-- The attributes, each changed by a function. -/
def Attributes.map (f : Attribute → Attribute) (as : Attributes) : Attributes :=
  ⟨as.toList.map f⟩

theorem Attributes.map_eq_iff {f : Attribute → Attribute} {as bs : Attributes} :
    as.map f = bs.map f ↔ as.toList.map f = bs.toList.map f := by
  simp [map]

@[simp]
theorem Attributes.map_map (f g : Attribute → Attribute) (as : Attributes) :
    (as.map f).map g = as.map (g ∘ f) := by
  simp [map]

/-! ### Relabelings -/

/-- What becomes of the leaves and the attributes of a document. -/
structure Relabeling where
  /-- What becomes of the name of a tag. -/
  tag : Leaf → Leaf
  /-- What becomes of an attribute. -/
  attr : Attribute → Attribute
  /-- What becomes of text. -/
  text : Leaf → Leaf

namespace Relabeling

/-- Positions are forgotten. -/
def unplaced : Relabeling :=
  ⟨Located.unplaced, Attribute.unplaced, Located.unplaced⟩

/-- It is forgotten whether an attribute was written as a bare name. -/
def spelledOut : Relabeling :=
  ⟨id, Attribute.spellOut, id⟩

/-- Positions and the spelling of attributes are forgotten. -/
def erased : Relabeling :=
  ⟨Located.unplaced, Attribute.erase, Located.unplaced⟩

/-- One relabeling after another. -/
def comp (σ ρ : Relabeling) : Relabeling :=
  ⟨σ.tag ∘ ρ.tag, σ.attr ∘ ρ.attr, σ.text ∘ ρ.text⟩

/-- Once positions and spelling are forgotten, it does not matter that positions were forgotten
before. -/
theorem erased_comp_unplaced : erased.comp unplaced = erased := by
  have hattr : Attribute.erase ∘ Attribute.unplaced = Attribute.erase :=
    funext Attribute.erase_unplaced
  rw [comp, erased, unplaced, hattr]
  rfl

end Relabeling

/-! ### Trees -/

namespace Tree

mutual

/-- The tree with its leaves and attributes changed. -/
def relabel (ρ : Relabeling) : Tree → Tree
  | .element tag attrs children =>
    .element ⟨ρ.tag tag.name⟩ (attrs.map ρ.attr) (relabelForest ρ children)
  | .data text => .data (ρ.text text)

/-- Several trees with their leaves and attributes changed. -/
def relabelForest (ρ : Relabeling) : List Tree → List Tree
  | [] => []
  | t :: ts => relabel ρ t :: relabelForest ρ ts

end

mutual

/-- **One relabeling after another** is one relabeling. -/
theorem relabel_relabel (σ ρ : Relabeling) :
    ∀ t : Tree, (t.relabel ρ).relabel σ = t.relabel (σ.comp ρ)
  | .element tag attrs children => by
    simp [relabel, Relabeling.comp, relabelForest_relabelForest σ ρ children]
  | .data text => rfl

theorem relabelForest_relabelForest (σ ρ : Relabeling) :
    ∀ ts : List Tree, relabelForest σ (relabelForest ρ ts) = relabelForest (σ.comp ρ) ts
  | [] => rfl
  | t :: ts => by
    rw [relabelForest, relabelForest, relabelForest, relabel_relabel σ ρ t,
      relabelForest_relabelForest σ ρ ts]

end

/-- The tree without positions. -/
def unplaced (t : Tree) : Tree :=
  t.relabel .unplaced

/-- The tree without positions and without the spelling of attributes. -/
def erase (t : Tree) : Tree :=
  t.relabel .erased

/-- Positions can be forgotten before a tree is erased. -/
@[simp]
theorem erase_unplaced (t : Tree) : t.unplaced.erase = t.erase := by
  rw [erase, unplaced, relabel_relabel, Relabeling.erased_comp_unplaced, erase]

end Tree

/-! ### Documents -/

mutual

/-- The node with its leaves and attributes changed. -/
def Node.relabel (ρ : Relabeling) {c : Category} : Node c → Node c
  | .plain text => .plain (ρ.text text)
  | .lift via n => .lift via (n.relabel ρ)
  | .void kind as => .void kind (as.map ρ.attr)
  | .verbatim kind as text => .verbatim kind (as.map ρ.attr) (ρ.text text)
  | .element kind as content => .element kind (as.map ρ.attr) (content.relabel ρ)
  | .list kind as first rest => .list kind (as.map ρ.attr) (first.relabel ρ) (rest.relabel ρ)
  | .definitions as entries => .definitions (as.map ρ.attr) entries
  | .form as controls => .form (as.map ρ.attr) controls
  | .map as areas => .map (as.map ρ.attr) areas
  | .media kind as params alternate =>
    .media kind (as.map ρ.attr) params (alternate.relabel ρ)
  | .heading level as content => .heading level (as.map ρ.attr) (content.relabel ρ)
  | .paragraph as content => .paragraph (as.map ρ.attr) (content.relabel ρ)
  | .table as none colgroups rows => .table (as.map ρ.attr) none colgroups rows
  | .table as (some caption) colgroups rows =>
    .table (as.map ρ.attr) (some (caption.relabel ρ)) colgroups rows
  | .caption as content => .caption (as.map ρ.attr) (content.relabel ρ)
  | .item as flow => .item (as.map ρ.attr) (flow.relabel ρ)
  | .frames as content => .frames (as.map ρ.attr) (content.relabel ρ)
termination_by structural n => n

/-- The sequence with the leaves and attributes of its nodes changed. -/
def Content.relabel (ρ : Relabeling) {c : Category} : Content c → Content c
  | .nil => .nil
  | .cons x xs => .cons (x.relabel ρ) (xs.relabel ρ)
termination_by structural xs => xs

end

/-- **One relabeling after another** is one relabeling, if this holds of all nodes in a node. -/
theorem Node.hereditary_relabel_relabel (σ ρ : Relabeling) :
    Node.Hereditary (fun n ↦ (n.relabel ρ).relabel σ = n.relabel (σ.comp ρ))
      (fun xs ↦ (xs.relabel ρ).relabel σ = xs.relabel (σ.comp ρ)) := by
  constructor <;> intros <;> simp_all [Node.relabel, Content.relabel, Relabeling.comp]

theorem Node.relabel_relabel (σ ρ : Relabeling) {c : Category} (n : Node c) :
    (n.relabel ρ).relabel σ = n.relabel (σ.comp ρ) :=
  (Node.hereditary_relabel_relabel σ ρ).node n

theorem Content.relabel_relabel (σ ρ : Relabeling) {c : Category} (xs : Content c) :
    (xs.relabel ρ).relabel σ = xs.relabel (σ.comp ρ) :=
  (Node.hereditary_relabel_relabel σ ρ).content xs

/-- What follows the head, with its leaves and attributes changed. -/
def Page.relabel (ρ : Relabeling) : Page → Page
  | .body b => .body ⟨b.attrs.map ρ.attr, b.content.relabel ρ⟩
  | .frameset f => .frameset (f.relabel ρ)

namespace Document

/-- The document with its leaves and attributes changed. -/
def relabel (ρ : Relabeling) (d : Document) : Document where
  attrs := d.attrs.map ρ.attr
  head := ⟨d.head.attrs.map ρ.attr, d.head.content.relabel ρ⟩
  page := d.page.relabel ρ

/-- One relabeling of a document after another is one relabeling. -/
theorem relabel_relabel (σ ρ : Relabeling) (d : Document) :
    (d.relabel ρ).relabel σ = d.relabel (σ.comp ρ) := by
  obtain ⟨attrs, head, page⟩ := d
  cases page <;>
    simp [relabel, Page.relabel, Relabeling.comp, Node.relabel_relabel, Content.relabel_relabel]

/-- The document without positions. -/
def unplaced (d : Document) : Document :=
  d.relabel .unplaced

/-- The document with the values of all attributes written out. -/
def spellOut (d : Document) : Document :=
  d.relabel .spelledOut

/-- The document without positions and without the spelling of attributes. -/
def erase (d : Document) : Document :=
  d.relabel .erased

/-- Positions can be forgotten before a document is erased. -/
@[simp]
theorem erase_unplaced (d : Document) : d.unplaced.erase = d.erase := by
  rw [erase, unplaced, relabel_relabel, Relabeling.erased_comp_unplaced, erase]

end Document

end Hypertext
