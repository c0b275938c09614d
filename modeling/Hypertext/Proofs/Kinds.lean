import Hypertext.Grammar.Serial
import Hypertext.Proofs.Relabeling

/-!
# Kinds of nodes

The kind of a node is how it is built, apart from the parts that it is built from: which element it
is, or which inclusion lifts it. Nodes of one kind differ in their parts only
(`Node.sameKind_of_kind_eq`), so a comparison of two nodes takes one case for each kind and not one
for each pair of them.

Within its category a kind is identified by the key under which it is serialized
(`NodeKind.key?_injective`): every kind is found under its key in one table, `NodeKind.all`. A
serialized node has that key at its outside, so what two nodes of a category are serialized to
tells whether they are of one kind (`Node.kind_eq_of_toJson_eq`).
-/

namespace Hypertext

/-- The ways to build a node of a category. -/
inductive NodeKind : Category → Type where
  | plain : NodeKind .text
  | lift {c d : Category} (via : Inclusion c d) : NodeKind d
  | void {c : Category} (kind : Void c) : NodeKind c
  | verbatim {c : Category} (kind : Verbatim c) : NodeKind c
  | element {c d : Category} (kind : Container c d) : NodeKind c
  | list (kind : ListKind) : NodeKind .block
  | definitions : NodeKind .block
  | form : NodeKind .block
  | map : NodeKind .body
  | media (kind : Media) : NodeKind .text
  | heading : NodeKind .heading
  | paragraph : NodeKind .address
  | table : NodeKind .table
  | caption : NodeKind .caption
  | item : NodeKind .item
  | frames : NodeKind .frames
  deriving DecidableEq

namespace NodeKind

variable {c : Category}

/-- The key of the kind in serialized nodes. A kind that is the only one of its category has
none. -/
def key? : NodeKind c → Option String
  | .plain => "Plain"
  | .lift via => via.key
  | .void kind => kind.key
  | .verbatim kind => kind.key
  | .element kind => kind.key
  | .list kind => kind.key
  | .definitions => "Dl"
  | .form => "Form"
  | .map => "Map"
  | .media kind => kind.key
  | .paragraph => "P"
  | .heading | .table | .caption | .item | .frames => none

/-- The kinds of a category that are neither inclusions nor of the shared vocabulary. -/
def own : (c : Category) → List (NodeKind c)
  | .text => .plain :: Media.all.map .media
  | .block => .definitions :: .form :: ListKind.all.map .list
  | .body => [.map]
  | .heading => [.heading]
  | .address => [.paragraph]
  | .table => [.table]
  | .caption => [.caption]
  | .item => [.item]
  | .frames => [.frames]
  | _ => []

/-- The kinds of a category. -/
def all (c : Category) : List (NodeKind c) :=
  (Inclusion.all c).map (fun i ↦ .lift i.2) ++ (Void.all c).map .void ++
    (Verbatim.all c).map .verbatim ++ (Container.all c).map (fun e ↦ .element e.2) ++ own c

/-- The kind of a category with a key. -/
def ofKey? (c : Category) (key : Option String) : Option (NodeKind c) :=
  (all c).find? fun f ↦ f.key? == key

/-- **Every kind is found under its key.** -/
theorem ofKey?_key? (f : NodeKind c) : ofKey? c f.key? = some f := by
  cases f with
  | lift via => cases via <;> decide
  | void kind => cases kind <;> decide
  | verbatim kind => cases kind <;> decide
  | element kind => cases kind <;> decide
  | list kind => cases kind <;> decide
  | media kind => cases kind <;> decide
  | _ => decide

theorem mem_all (f : NodeKind c) : f ∈ all c :=
  List.mem_of_find?_eq_some (ofKey?_key? f)

/-- **Within a category the key identifies the kind.** -/
theorem key?_injective : Function.Injective (key? (c := c)) := by
  intro f g h
  have hfind := ofKey?_key? f
  rw [h, ofKey?_key?] at hfind
  exact (Option.some.inj hfind).symm

end NodeKind

/-! ### Nodes of one kind -/

namespace Node

/-- How a node is built. -/
def kind {c : Category} : Node c → NodeKind c
  | .plain _ => .plain
  | .lift via _ => .lift via
  | .void kind _ => .void kind
  | .verbatim kind _ _ => .verbatim kind
  | .element kind _ _ => .element kind
  | .list kind _ _ _ => .list kind
  | .definitions _ _ => .definitions
  | .form _ _ => .form
  | .map _ _ => .map
  | .media kind _ _ _ => .media kind
  | .heading _ _ _ => .heading
  | .paragraph _ _ => .paragraph
  | .table _ _ _ _ => .table
  | .caption _ _ => .caption
  | .item _ _ => .item
  | .frames _ _ => .frames

/-- Two nodes built in the same way from parts of their own. -/
inductive SameKind : {c : Category} → Node c → Node c → Prop where
  | plain (x y : Leaf) : SameKind (.plain x) (.plain y)
  | lift {c d : Category} (via : Inclusion c d) (m n : Node c) :
    SameKind (.lift via m) (.lift via n)
  | void {c : Category} (kind : Void c) (as bs : Attributes) :
    SameKind (.void kind as) (.void kind bs)
  | verbatim {c : Category} (kind : Verbatim c) (as bs : Attributes) (x y : Leaf) :
    SameKind (.verbatim kind as x) (.verbatim kind bs y)
  | element {c d : Category} (kind : Container c d) (as bs : Attributes) (xs ys : Content d) :
    SameKind (.element kind as xs) (.element kind bs ys)
  | list (kind : ListKind) (as bs : Attributes) (x y : Node .item) (xs ys : Content .item) :
    SameKind (.list kind as x xs) (.list kind bs y ys)
  | definitions (as bs : Attributes) (hs is : NonEmpty (Hole .dl)) :
    SameKind (.definitions as hs) (.definitions bs is)
  | form (as bs : Attributes) (hs is : List (Hole .form)) :
    SameKind (.form as hs) (.form bs is)
  | map (as bs : Attributes) (hs is : List (Hole .area)) : SameKind (.map as hs) (.map bs is)
  | media (kind : Media) (as bs : Attributes) (hs is : List (Hole .param))
    (xs ys : Content .text) : SameKind (.media kind as hs xs) (.media kind bs is ys)
  | heading (k l : HeadingLevel) (as bs : Attributes) (xs ys : Content .text) :
    SameKind (.heading k as xs) (.heading l bs ys)
  | paragraph (as bs : Attributes) (xs ys : Content .text) :
    SameKind (.paragraph as xs) (.paragraph bs ys)
  | table (as bs : Attributes) (x y : Option (Node .caption)) (gs gs' : List (Hole .colgroup))
    (hs hs' : List (Hole .table)) : SameKind (.table as x gs hs) (.table bs y gs' hs')
  | caption (as bs : Attributes) (xs ys : Content .text) :
    SameKind (.caption as xs) (.caption bs ys)
  | item (as bs : Attributes) (xs ys : Content .flow) : SameKind (.item as xs) (.item bs ys)
  | frames (as bs : Attributes) (xs ys : Content .frame) :
    SameKind (.frames as xs) (.frames bs ys)

/-- **Nodes of one kind are built in the same way.** -/
theorem sameKind_of_kind_eq {c : Category} {m n : Node c} (h : m.kind = n.kind) :
    SameKind m n := by
  cases m <;> cases n <;> cases h <;> constructor

end Node

/-- The key of a record with one field. -/
def Json.key? : Json → Option String
  | .obj [(k, _)] => some k
  | _ => none

namespace Node

/-- A serialized node has the key of its kind at its outside. -/
theorem key?_toJson {c : Category} (n : Node c) : n.toJson.key? = n.kind.key? := by
  cases n with
  | table as caption colgroups rows => cases caption <;> rfl
  | _ => rfl

/-- Nodes of a category that are serialized alike are of one kind. -/
theorem kind_eq_of_toJson_eq {c : Category} {m n : Node c} (h : m.toJson = n.toJson) :
    m.kind = n.kind := by
  apply NodeKind.key?_injective
  rw [← key?_toJson, ← key?_toJson, h]

/-- The kind of a node does not depend on its leaves and attributes. -/
theorem kind_relabel (ρ : Relabeling) {c : Category} (n : Node c) :
    (n.relabel ρ).kind = n.kind := by
  cases n with
  | table as caption colgroups rows => cases caption <;> rfl
  | _ => rfl

/-- Nodes that become the same are of one kind. -/
theorem kind_eq_of_relabel_eq {ρ : Relabeling} {c : Category} {m n : Node c}
    (h : m.relabel ρ = n.relabel ρ) : m.kind = n.kind := by
  rw [← kind_relabel ρ m, h, kind_relabel]

/-- To show that some comparison holds exactly of the nodes that become the same, it is enough to
compare nodes of one kind. -/
theorem iff_relabel_eq_of_sameKind {ρ : Relabeling} {c : Category} {m n : Node c} {p : Prop}
    (hkind : p → m.kind = n.kind)
    (h : SameKind m n → (p ↔ m.relabel ρ = n.relabel ρ)) :
    p ↔ m.relabel ρ = n.relabel ρ := by
  constructor
  · intro hp
    exact (h (sameKind_of_kind_eq (hkind hp))).1 hp
  · intro hsame
    exact (h (sameKind_of_kind_eq (kind_eq_of_relabel_eq hsame))).2 hsame

end Node

end Hypertext
