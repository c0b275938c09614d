import Hypertext.Proofs.Kinds

/-!
# What serialized documents tell

A serialized document has everything in it that the document has, except whether an attribute was
written as a bare name. Two nodes, and so two documents, are serialized alike **exactly** if they
become the same when the values of all attributes are written out (`Node.toJson_eq_iff`).

The leaves, with their positions down to the last number, are dealt with first. For nodes the
induction goes over one of the two. Both sides of the equivalence force the other node to be of the
same kind (`Node.kind_eq_of_toJson_eq`, `Node.kind_eq_of_relabel_eq`), so only nodes of one kind
have to be compared, part by part (`Node.iff_relabel_eq_of_sameKind`).
-/

namespace Hypertext

/-! ### Leaves and attributes -/

theorem Json.word_inj {m n : UInt64} : Json.word m = Json.word n ↔ m = n := by
  rw [word, word, Json.num.injEq, Int.ofNat_inj, UInt64.toNat_inj]

/-- A location is known from its serialized form. -/
theorem Location.toJson_inj {l k : Location} : l.toJson = k.toJson ↔ l = k := by
  cases l
  cases k
  simp [toJson, Json.word_inj]

/-- An optional value is serialized without loss, if values are and none of them as `null`. -/
theorem Json.option_inj {f : α → Json} (hf : ∀ {a b}, f a = f b ↔ a = b)
    (hnull : ∀ a, f a ≠ .null) {x y : Option α} :
    Json.option f x = Json.option f y ↔ x = y := by
  cases x <;> cases y <;> simp [option, hf, hnull, (hnull _).symm]

/-- A position is known from its serialized form. -/
theorem Position.toJson_inj {p q : Position} : p.toJson = q.toJson ↔ p = q := by
  have hhint : ∀ {h k : Option String}, Json.option .str h = Json.option .str k ↔ h = k :=
    Json.option_inj (by simp) (by simp)
  have hanchor : ∀ {a b : Option Location},
      Json.option Location.toJson a = Json.option Location.toJson b ↔ a = b :=
    Json.option_inj Location.toJson_inj (by simp [Location.toJson])
  cases p <;> cases q <;> simp [toJson, Json.variant, Location.toJson_inj, hhint, hanchor]

/-- A leaf is known from its serialized form, position included. -/
theorem Leaf.toJson_inj {x y : Leaf} : x.toJson = y.toJson ↔ x = y := by
  obtain ⟨v, p⟩ := x
  obtain ⟨w, q⟩ := y
  simp [toJson, Located.toJson, Position.toJson_inj]

/-- Attributes are serialized alike exactly if they differ in spelling at most. -/
theorem Attribute.toJson_eq_iff {a b : Attribute} :
    a.toJson = b.toJson ↔ a.spellOut = b.spellOut := by
  rw [spellOut_eq_iff]
  simp [toJson, Leaf.toJson_inj]

/-- Attribute lists are serialized alike exactly if they are the same, bare names spelled out. -/
theorem Attributes.toJson_eq_iff {as bs : Attributes} :
    as.toJson = bs.toJson ↔ as.map Attribute.spellOut = bs.map Attribute.spellOut := by
  rw [toJson, toJson, Json.arr.injEq, map_eq_iff]
  exact map_eq_map_iff_map_eq_map fun a b ↦ Attribute.toJson_eq_iff

/-! ### Levels and holes -/

theorem HeadingLevel.toJson_inj {k l : HeadingLevel} : k.toJson = l.toJson ↔ k = l := by
  rw [toJson, toJson, Json.str.injEq]
  cases k <;> cases l <;> decide

/-- Of holes only the number is serialized, and there is nothing else to know of them. -/
theorem Hole.listJson_inj {kind : Unmodeled} {hs is : List (Hole kind)} :
    Hole.listJson hs = Hole.listJson is ↔ hs = is := by
  rw [listJson, listJson, Json.arr.injEq,
    map_eq_map_iff_map_eq_map (g := id) fun _ _ ↦ by simp [Hole.toJson], List.map_id, List.map_id]

theorem NonEmpty.holeJson_inj {kind : Unmodeled} {hs is : NonEmpty (Hole kind)} :
    hs.toJson Hole.toJson = is.toJson Hole.toJson ↔ hs = is := by
  rw [← NonEmpty.toList_inj]
  exact Hole.listJson_inj

/-! ### Nodes -/

/-- A caption that is there is not serialized like one that is missing. -/
theorem Node.toJson_caption_ne_null (n : Node .caption) : n.toJson ≠ .null := by
  cases n <;> simp [Node.toJson, Json.variant]

/-- **Nodes are serialized alike exactly if they are the same, bare names spelled out**, if this
holds of all nodes in them. -/
theorem Node.hereditary_toJson_eq_iff :
    Node.Hereditary
      (fun {c} m ↦ ∀ n : Node c,
        m.toJson = n.toJson ↔ m.relabel .spelledOut = n.relabel .spelledOut)
      (fun {c} xs ↦ ∀ ys : Content c,
        xs.toJsons = ys.toJsons ↔ xs.relabel .spelledOut = ys.relabel .spelledOut) := by
  constructor
  case nil =>
    rintro c (_ | ⟨y, ys⟩) <;> simp [Content.toJsons, Content.relabel]
  case cons =>
    rintro c x xs hx hxs (_ | ⟨y, ys⟩) <;> simp [Content.toJsons, Content.relabel, hx, hxs]
  -- a missing caption is `null`, which no caption is
  case table =>
    intro as gs hs n
    refine iff_relabel_eq_of_sameKind kind_eq_of_toJson_eq fun hkind ↦ ?_
    cases hkind with
    | table _ bs _ y _ gs' _ hs' =>
      cases y <;> simp [Node.toJson, Node.relabel, Relabeling.spelledOut,
        Attributes.toJson_eq_iff, Hole.listJson_inj, (toJson_caption_ne_null _).symm]
  case captionedTable =>
    intro as x gs hs hx n
    refine iff_relabel_eq_of_sameKind kind_eq_of_toJson_eq fun hkind ↦ ?_
    cases hkind with
    | table _ bs _ y _ gs' _ hs' =>
      cases y <;> simp [Node.toJson, Node.relabel, Relabeling.spelledOut,
        Attributes.toJson_eq_iff, Hole.listJson_inj, toJson_caption_ne_null, hx]
  -- every other kind has its parts one after the other
  all_goals
    intros
    refine iff_relabel_eq_of_sameKind kind_eq_of_toJson_eq fun hkind ↦ ?_
    cases hkind
    simp_all [Node.toJson, Node.relabel, Relabeling.spelledOut, Json.variant,
      Attributes.toJson_eq_iff, Hole.listJson_inj, NonEmpty.holeJson_inj,
      HeadingLevel.toJson_inj, Leaf.toJson_inj]

/-- Nodes are serialized alike exactly if they are the same, bare names spelled out. -/
theorem Node.toJson_eq_iff {c : Category} {m n : Node c} :
    m.toJson = n.toJson ↔ m.relabel .spelledOut = n.relabel .spelledOut :=
  Node.hereditary_toJson_eq_iff.node m n

theorem Content.toJson_eq_iff {c : Category} {xs ys : Content c} :
    xs.toJson = ys.toJson ↔ xs.relabel .spelledOut = ys.relabel .spelledOut := by
  rw [toJson, toJson, Json.arr.injEq]
  exact Node.hereditary_toJson_eq_iff.content xs ys

/-! ### Documents -/

/-- Pages are serialized alike exactly if they are the same, bare names spelled out. -/
theorem Page.toJson_eq_iff {p q : Page} :
    p.toJson = q.toJson ↔ p.relabel .spelledOut = q.relabel .spelledOut := by
  cases p <;> cases q <;>
    simp [toJson, relabel, Json.variant, Body.toJson, Relabeling.spelledOut,
      Attributes.toJson_eq_iff, Content.toJson_eq_iff, Node.toJson_eq_iff]

/-- **Serialization loses nothing but the spelling of attributes.** Two documents are serialized
alike exactly if they are the same in every part, text and position once the values of all
attributes are written out. -/
theorem Document.toJson_eq_iff_spellOut_eq (a b : Document) :
    a.toJson = b.toJson ↔ a.spellOut = b.spellOut := by
  obtain ⟨as, ⟨hs, xs⟩, p⟩ := a
  obtain ⟨bs, ⟨is, ys⟩, q⟩ := b
  simp [toJson, spellOut, relabel, Head.toJson, Relabeling.spelledOut, Attributes.toJson_eq_iff,
    Content.toJson_eq_iff, Page.toJson_eq_iff]

end Hypertext
