import Hypertext.Proofs.Kinds

/-!
# What equality compares

Equality of trees and of documents is put together from two comparisons: of located values, which
leaves their positions out, and of attributes, which leaves out how they are spelled. Nothing else
is left out at any level: `==` is equality of what is left when positions and spellings are erased
(`Tree.beq_iff`, `Document.beq_iff`).

Everything else follows from that. Equality after a function is an equivalence, positions cannot
count because erasing does not see them, and hashes take in nothing that erasing removes.
-/

namespace Hypertext

/-! ### Leaves and attributes -/

/-- Leaves are equal exactly if their texts are. -/
theorem Leaf.beq_iff {x y : Leaf} : (x == y) = true ↔ x.unplaced = y.unplaced := by
  rw [Located.beq_eq, beq_iff_eq, Located.unplaced_eq_iff]

/-- Attributes are equal exactly if their names and values are, also a bare name and a spelled-out
one. -/
theorem Attribute.beq_iff {a b : Attribute} : (a == b) = true ↔ a.erase = b.erase := by
  rw [erase_eq_iff, ← Located.unplaced_eq_iff, ← Located.unplaced_eq_iff, ← Leaf.beq_iff,
    ← Leaf.beq_iff]
  exact Bool.and_eq_true_iff

/-- Attribute lists are equal exactly if they are the same when erased. -/
theorem Attributes.beq_iff {as bs : Attributes} :
    (as == bs) = true ↔ as.map Attribute.erase = bs.map Attribute.erase := by
  obtain ⟨as⟩ := as
  obtain ⟨bs⟩ := bs
  rw [map_eq_iff]
  show (as == bs) = true ↔ _
  induction as generalizing bs with
  | nil => cases bs <;> simp
  | cons a as ih => cases bs <;> simp [Attribute.beq_iff, ih]

/-- Tags are equal exactly if their names are. -/
theorem Tag.beq_iff {s t : Tag} : (s == t) = true ↔ s.name.unplaced = t.name.unplaced :=
  Leaf.beq_iff

/-! ### Trees -/

namespace Tree

mutual

/-- **Trees are equal exactly if they are the same when erased**, by the forms of both. -/
theorem beq_iff_relabel : ∀ t u : Tree, t.beq u = true ↔ t.relabel .erased = u.relabel .erased
  | .element s as ts, .element t bs us => by
    rw [beq, Bool.and_eq_true_iff, Bool.and_eq_true_iff, Tag.beq_iff, Attributes.beq_iff,
      forestBeq_iff_relabelForest ts us, relabel, relabel]
    simp [Relabeling.erased, and_assoc]
  | .data x, .data y => by
    rw [beq, Leaf.beq_iff, relabel, relabel]
    simp [Relabeling.erased]
  | .element _ _ _, .data _ => by simp [beq, relabel]
  | .data _, .element _ _ _ => by simp [beq, relabel]

theorem forestBeq_iff_relabelForest : ∀ ts us : List Tree,
    forestBeq ts us = true ↔ relabelForest .erased ts = relabelForest .erased us
  | [], [] => by simp [forestBeq]
  | t :: ts, u :: us => by
    rw [forestBeq, Bool.and_eq_true_iff, beq_iff_relabel t u, forestBeq_iff_relabelForest ts us,
      relabelForest, relabelForest, List.cons.injEq]
  | [], _ :: _ => by simp [forestBeq, relabelForest]
  | _ :: _, [] => by simp [forestBeq, relabelForest]

end

/-- Trees are equal exactly if they are the same when erased. -/
theorem beq_iff {t u : Tree} : (t == u) = true ↔ t.erase = u.erase :=
  beq_iff_relabel t u

end Tree

/-! ### Nodes -/

/-- There is at most one way in which a category is part of another. -/
instance (c d : Category) : Subsingleton (Inclusion c d) where
  allEq i j := by cases i <;> cases j <;> rfl

/-- Equality of non-empty lists is lawful if that of their items is. -/
theorem NonEmpty.beq_iff_eq [BEq α] [LawfulBEq α] {xs ys : NonEmpty α} :
    (xs == ys) = true ↔ xs = ys := by
  obtain ⟨x, xs⟩ := xs
  obtain ⟨y, ys⟩ := ys
  show (x == y && xs == ys) = true ↔ _
  simp

namespace Node

section Step

variable {c d : Category} (as bs : Attributes)

@[simp]
theorem beq_plain (x y : Leaf) : (Node.plain x).beq (.plain y) = (x == y) :=
  rfl

@[simp]
theorem beq_lift (via : Inclusion c d) (m n : Node c) :
    (Node.lift via m).beq (.lift via n) = m.beq n :=
  dif_pos rfl

@[simp]
theorem beq_void (k l : Void c) : (Node.void k as).beq (.void l bs) = (k == l && as == bs) :=
  rfl

@[simp]
theorem beq_verbatim (k l : Verbatim c) (x y : Leaf) :
    (Node.verbatim k as x).beq (.verbatim l bs y) = (k == l && as == bs && x == y) :=
  rfl

@[simp]
theorem beq_element (k l : Container c d) (xs ys : Content d) :
    (Node.element k as xs).beq (.element l bs ys) = (k == l && as == bs && xs.beq ys) :=
  dif_pos rfl

@[simp]
theorem beq_list (k l : ListKind) (x y : Node .item) (xs ys : Content .item) :
    (Node.list k as x xs).beq (.list l bs y ys) =
      (k == l && as == bs && x.beq y && xs.beq ys) :=
  rfl

@[simp]
theorem beq_definitions (hs is : NonEmpty (Hole .dl)) :
    (Node.definitions as hs).beq (.definitions bs is) = (as == bs && hs == is) :=
  rfl

@[simp]
theorem beq_form (hs is : List (Hole .form)) :
    (Node.form as hs).beq (.form bs is) = (as == bs && hs == is) :=
  rfl

@[simp]
theorem beq_map (hs is : List (Hole .area)) :
    (Node.map as hs).beq (.map bs is) = (as == bs && hs == is) :=
  rfl

@[simp]
theorem beq_media (k l : Media) (hs is : List (Hole .param)) (xs ys : Content .text) :
    (Node.media k as hs xs).beq (.media l bs is ys) =
      (k == l && as == bs && hs == is && xs.beq ys) :=
  rfl

@[simp]
theorem beq_heading (k l : HeadingLevel) (xs ys : Content .text) :
    (Node.heading k as xs).beq (.heading l bs ys) = (k == l && as == bs && xs.beq ys) :=
  rfl

@[simp]
theorem beq_paragraph (xs ys : Content .text) :
    (Node.paragraph as xs).beq (.paragraph bs ys) = (as == bs && xs.beq ys) :=
  rfl

@[simp]
theorem beq_table (gs gs' : List (Hole .colgroup)) (hs hs' : List (Hole .table)) :
    (Node.table as none gs hs).beq (.table bs none gs' hs') =
      (as == bs && gs == gs' && hs == hs') :=
  rfl

@[simp]
theorem beq_captionedTable (x y : Node .caption) (gs gs' : List (Hole .colgroup))
    (hs hs' : List (Hole .table)) :
    (Node.table as (some x) gs hs).beq (.table bs (some y) gs' hs') =
      (as == bs && x.beq y && gs == gs' && hs == hs') :=
  rfl

@[simp]
theorem beq_table_captionedTable (y : Node .caption) (gs gs' : List (Hole .colgroup))
    (hs hs' : List (Hole .table)) :
    (Node.table as none gs hs).beq (.table bs (some y) gs' hs') = false :=
  rfl

@[simp]
theorem beq_captionedTable_table (x : Node .caption) (gs gs' : List (Hole .colgroup))
    (hs hs' : List (Hole .table)) :
    (Node.table as (some x) gs hs).beq (.table bs none gs' hs') = false :=
  rfl

@[simp]
theorem beq_caption (xs ys : Content .text) :
    (Node.caption as xs).beq (.caption bs ys) = (as == bs && xs.beq ys) :=
  rfl

@[simp]
theorem beq_item (xs ys : Content .flow) :
    (Node.item as xs).beq (.item bs ys) = (as == bs && xs.beq ys) :=
  rfl

@[simp]
theorem beq_frames (xs ys : Content .frame) :
    (Node.frames as xs).beq (.frames bs ys) = (as == bs && xs.beq ys) :=
  rfl

end Step

/-- Equal nodes are of one kind. -/
theorem kind_eq_of_beq {c : Category} {m n : Node c} (h : m.beq n = true) : m.kind = n.kind := by
  cases m <;> cases n
  case lift.lift b m via b' n via' =>
    -- which inclusion it is follows from the categories
    by_cases hb : b = b'
    · subst hb
      exact congrArg NodeKind.lift (Subsingleton.elim via via')
    · exact absurd (h.symm.trans (dif_neg hb)) Bool.noConfusion
  case element.element d as xs k d' bs ys l =>
    by_cases hd : d = d'
    · subst hd
      simp at h
      exact congrArg NodeKind.element h.1.1
    · exact absurd (h.symm.trans (dif_neg hd)) Bool.noConfusion
  case void.void | verbatim.verbatim | list.list | media.media =>
    simp at h
    simp [kind, h]
  case plain.plain | definitions.definitions | form.form | map.map | heading.heading |
      paragraph.paragraph | table.table | caption.caption | item.item | frames.frames => rfl
  case table.lift k | table.void k | table.verbatim k | table.element k => cases k
  all_goals exact Bool.noConfusion h

/-- **Nodes are equal exactly if they are the same when erased**, if this holds of all nodes in
them. -/
theorem hereditary_beq_iff :
    Node.Hereditary
      (fun {c} m ↦ ∀ n : Node c, m.beq n = true ↔ m.relabel .erased = n.relabel .erased)
      (fun {c} xs ↦ ∀ ys : Content c,
        xs.beq ys = true ↔ xs.relabel .erased = ys.relabel .erased) := by
  constructor
  case nil =>
    rintro c (_ | ⟨y, ys⟩) <;> simp [Content.beq, Content.relabel]
  case cons =>
    rintro c x xs hx hxs (_ | ⟨y, ys⟩) <;> simp [Content.beq, Content.relabel, hx, hxs]
  -- a table with a caption is not equal to one without
  case table =>
    intro as gs hs n
    refine iff_relabel_eq_of_sameKind kind_eq_of_beq fun hkind ↦ ?_
    cases hkind with
    | table _ bs _ y _ gs' _ hs' =>
      cases y <;> simp [Node.relabel, Relabeling.erased, Attributes.beq_iff, and_assoc]
  case captionedTable =>
    intro as x gs hs hx n
    refine iff_relabel_eq_of_sameKind kind_eq_of_beq fun hkind ↦ ?_
    cases hkind with
    | table _ bs _ y _ gs' _ hs' =>
      cases y <;> simp [Node.relabel, Relabeling.erased, Attributes.beq_iff, hx, and_assoc]
  -- every other kind compares its parts one after the other
  all_goals
    intros
    refine iff_relabel_eq_of_sameKind kind_eq_of_beq fun hkind ↦ ?_
    cases hkind
    simp_all [Node.relabel, Relabeling.erased, Attributes.beq_iff, Leaf.beq_iff,
      NonEmpty.beq_iff_eq, and_assoc]

/-- Nodes are equal exactly if they are the same when erased. -/
theorem beq_iff {c : Category} {m n : Node c} :
    (m == n) = true ↔ m.relabel .erased = n.relabel .erased :=
  hereditary_beq_iff.node m n

end Node

/-- Sequences are equal exactly if they are the same when erased. -/
theorem Content.beq_iff {c : Category} {xs ys : Content c} :
    (xs == ys) = true ↔ xs.relabel .erased = ys.relabel .erased :=
  Node.hereditary_beq_iff.content xs ys

/-! ### Documents -/

/-- A head and a body are compared in their attributes and their content. -/
theorem attrs_and_content_beq_iff {c : Category} {as bs : Attributes} {xs ys : Content c} :
    (as == bs && xs == ys) = true ↔
      as.map Attribute.erase = bs.map Attribute.erase ∧
        xs.relabel .erased = ys.relabel .erased := by
  rw [Bool.and_eq_true_iff, Attributes.beq_iff, Content.beq_iff]

/-- Pages are equal exactly if they are the same when erased. -/
theorem Page.beq_iff {p q : Page} :
    (p == q) = true ↔ p.relabel .erased = q.relabel .erased := by
  cases p with
  | body a =>
    cases q with
    | body b =>
      refine attrs_and_content_beq_iff.trans ?_
      simp [relabel, Relabeling.erased]
    | frameset g => exact ⟨Bool.noConfusion, Page.noConfusion⟩
  | frameset f =>
    cases q with
    | body b => exact ⟨Bool.noConfusion, Page.noConfusion⟩
    | frameset g =>
      refine Node.beq_iff.trans ?_
      simp [relabel]

/-- Documents are equal exactly if they are the same when erased. -/
theorem Document.beq_iff {a b : Document} : (a == b) = true ↔ a.erase = b.erase := by
  have hhead : (a.head == b.head) = true ↔ _ := attrs_and_content_beq_iff
  have hparts : (a == b) = true ↔
      ((a.attrs == b.attrs) = true ∧ (a.head == b.head) = true) ∧ (a.page == b.page) = true := by
    rw [← Bool.and_eq_true_iff, ← Bool.and_eq_true_iff]
    rfl
  rw [hparts, Attributes.beq_iff, hhead, Page.beq_iff]
  simp [erase, relabel, Relabeling.erased, and_assoc]

/-! ### Hashes -/

/-- What is erased is not hashed. -/
theorem Attributes.hashInput_map_erase (as : Attributes) :
    hashInput (as.map Attribute.erase) = hashInput as := by
  have hattr : hashInput ∘ Attribute.erase = (hashInput : Attribute → List HashAtom) :=
    funext fun a ↦ rfl
  show HashAtom.number (as.toList.map Attribute.erase).length ::
      (as.toList.map Attribute.erase).flatMap hashInput = _
  rw [List.length_map, List.flatMap_map, ← Function.comp_def, hattr]
  rfl

/-- Equal attribute lists feed the same to a hash. -/
theorem Attributes.hashInput_eq_of_beq {as bs : Attributes} (h : (as == bs) = true) :
    hashInput as = hashInput bs := by
  rw [← hashInput_map_erase as, Attributes.beq_iff.1 h, hashInput_map_erase]

/-- Equal located values feed the same to a hash, if equal values do. -/
theorem Located.hashInput_eq_of_beq [BEq α] [HashInput α]
    (hα : ∀ v w : α, (v == w) = true → hashInput v = hashInput w) {x y : Located α}
    (h : (x == y) = true) : hashInput x = hashInput y :=
  hα x.value y.value h

/-- Equal leaves feed the same to a hash. -/
theorem Leaf.hashInput_eq_of_beq {x y : Leaf} (h : (x == y) = true) : hashInput x = hashInput y :=
  Located.hashInput_eq_of_beq (fun v w hvw ↦ by rw [eq_of_beq hvw]) h

/-! ### Equality of content -/

/-- `==` is equality of what `erase` leaves: an equivalence that does not change when positions are
replaced, that is, when a value is replaced by any other with the same `unplaced`. -/
structure EqualityOfContent (α : Type) [BEq α] (erase unplaced : α → α) : Prop where
  beq_iff_erase_eq : ∀ a b : α, (a == b) = true ↔ erase a = erase b
  equivalence : Equivalence fun a b : α ↦ (a == b) = true
  beq_congr : ∀ a a' b b' : α, unplaced a = unplaced a' → unplaced b = unplaced b' →
    (a == b) = (a' == b')

/-- All of it follows from the first part, if erasing removes the positions. -/
theorem EqualityOfContent.of_beq_iff [BEq α] {erase unplaced : α → α}
    (h : ∀ a b : α, (a == b) = true ↔ erase a = erase b)
    (herase : ∀ a, erase (unplaced a) = erase a) : EqualityOfContent α erase unplaced where
  beq_iff_erase_eq := h
  equivalence :=
    { refl := fun a ↦ (h a a).2 rfl
      symm := fun hab ↦ (h _ _).2 ((h _ _).1 hab).symm
      trans := fun hab hbc ↦ (h _ _).2 (((h _ _).1 hab).trans ((h _ _).1 hbc)) }
  beq_congr a a' b b' ha hb := by
    have ha' : erase a = erase a' := by rw [← herase a, ha, herase]
    have hb' : erase b = erase b' := by rw [← herase b, hb, herase]
    rw [Bool.eq_iff_iff, h, h, ha', hb']

/-- **Equality is equality of content**, for trees and for documents, and equal attribute lists,
tags and located values feed the same to a hash. -/
theorem equality_of_content :
    EqualityOfContent Tree Tree.erase Tree.unplaced ∧
      EqualityOfContent Document Document.erase Document.unplaced ∧
      (∀ as bs : Attributes, (as == bs) = true → hashInput as = hashInput bs) ∧
      (∀ s t : Tag, (s == t) = true → hashInput s = hashInput t) ∧
      (∀ x y : Leaf, (x == y) = true → hashInput x = hashInput y) ∧
      ∀ (α : Type) [BEq α] [HashInput α],
        (∀ v w : α, (v == w) = true → hashInput v = hashInput w) →
          ∀ x y : Located α, (x == y) = true → hashInput x = hashInput y := by
  refine ⟨.of_beq_iff (fun _ _ ↦ Tree.beq_iff) Tree.erase_unplaced,
    .of_beq_iff (fun _ _ ↦ Document.beq_iff) Document.erase_unplaced, ?_, ?_, ?_, ?_⟩
  · exact fun as bs h ↦ Attributes.hashInput_eq_of_beq h
  · exact fun s t h ↦ Leaf.hashInput_eq_of_beq (x := s.name) (y := t.name) h
  · exact fun x y h ↦ Leaf.hashInput_eq_of_beq h
  · exact fun α _ _ hα x y h ↦ Located.hashInput_eq_of_beq hα h

/-- The list of the attribute `hidden` alone, without a value. -/
def hiddenFlag : Attributes := ⟨[.flag (.fake "hidden" "bare")]⟩

/-- The same with its value written out, at other positions. -/
def hiddenPair : Attributes := ⟨[.pair (.fake "hidden" "name") (.fake "hidden" "value")]⟩

theorem equality_of_content_hidden :
    (hiddenFlag == hiddenPair) = true ∧ hashInput hiddenFlag = hashInput hiddenPair ∧
      hashInput (Located.fake hiddenFlag "here") = hashInput (Located.fake hiddenPair "there") ∧
      (Tree.element ⟨.fake "p" "a"⟩ hiddenFlag [] == .data (.fake "p" "b")) =
        (Tree.element ⟨.fake "p" "c"⟩ hiddenFlag [] == .data (.fake "p" "d")) := by
  have hequal : (hiddenFlag == hiddenPair) = true := by decide
  obtain ⟨htree, -, hattrs, -, -, hlocated⟩ := equality_of_content
  exact ⟨hequal, hattrs _ _ hequal, hlocated Attributes hattrs _ _ hequal,
    htree.beq_congr _ _ _ _ rfl rfl⟩

end Hypertext
