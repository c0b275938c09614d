import Mathlib.Data.List.Forall2
import Hypertext.Proofs.Drafts
import Hypertext.Proofs.Equality
import Hypertext.Proofs.Noninterference
import Hypertext.Proofs.OutlineReading

/-!
# Drafts that differ in spelling

Two drafts may say the same and be written differently: with names in other letter case, and at
other places. Then **nobody can tell the trees apart** that are built from them, except by asking
for positions: they are equal, they have the same outline, they answer lookups alike, and building
them warns of the same things.

A draft gives a tree and raises messages, and both can be told without a log (`Draft.tree`,
`Draft.raised`). Changing the leaves and attributes of a draft changes those of its tree in the same
way and leaves the messages as they are, as long as names are kept up to letter case
(`Relabeling.Lifts`, `Draft.tree_relabel`, `Draft.raised_relabel`). Putting names into lowercase is
such a change, and it does not change the tree; forgetting positions is another, and it forgets the
positions of the tree. Two drafts that become the same by the two of them have trees that become
the same by the second one.
-/

namespace Hypertext

/-! ### Attributes changed where they stand -/

namespace Attributes

/-- What is dropped stays what is dropped when attributes are changed and their names are not. -/
theorem dropped_map {f : Attribute → Attribute} (hf : ∀ a, (f a).key = a.key)
    (given : List Attribute) :
    dropped (given.map f) = (dropped given).map f := by
  induction given using List.reverseRecOn with
  | nil => rfl
  | append_singleton given a ih =>
    rw [List.map_append, List.map_singleton, dropped_concat, ih, hf, map_key_map hf,
      dropped_concat, List.map_append]
    split <;> rfl

/-- Names that are dropped are spoken of in lowercase. -/
theorem droppedMessages_map_normalize (written : List Attribute) :
    droppedMessages (written.map Attribute.normalize) =
      (dropped written).map fun a ↦ duplicateMessage a.key := by
  rw [droppedMessages, dropped_map Attribute.key_normalize, List.map_map]
  refine List.map_congr_left fun a _ ↦ ?_
  rw [Function.comp_apply, Attribute.name_normalize, Located.value_map, Attribute.key]
  rfl

end Attributes

/-! ### What a draft gives and what it raises -/

namespace Draft

mutual

/-- The tree of a draft: names in lowercase, and of several attributes of one name the first. -/
def tree : Draft → Tree
  | .element tag attrs children =>
    .element ⟨tag.map Ascii.lower⟩ ⟨(Attributes.firsts attrs).map Attribute.normalize⟩
      (trees children)
  | .data text => .data text

/-- The trees of several drafts. -/
def trees : List Draft → List Tree
  | [] => []
  | d :: ds => tree d :: trees ds

end

mutual

/-- The messages that building a draft raises: for its attributes, its content and its name. -/
def raised : Draft → List String
  | .element tag attrs children =>
    (Attributes.dropped attrs).map (fun a ↦ Attributes.duplicateMessage a.key) ++
      (forestRaised children ++ if tag.value.isEmpty then [Tag.emptyMessage] else [])
  | .data _ => []

/-- The messages that building several drafts raises. -/
def forestRaised : List Draft → List String
  | [] => []
  | d :: ds => raised d ++ forestRaised ds

end

mutual

/-- **Building a draft** gives its tree and raises its messages, from every log. -/
theorem raises_build : ∀ d : Draft, Raises d.build d.tree d.raised
  | .element tag attrs children => by
    have hattrs := Attributes.raises_collect (attrs.map Attribute.normalize)
    rw [Attributes.firsts_map Attribute.key_normalize,
      Attributes.droppedMessages_map_normalize] at hattrs
    rw [build, tree, raised]
    exact hattrs.bind ((raises_buildForest children).bind (Tree.raises_buildElement tag _ _))
  | .data text => Raises.pure _

theorem raises_buildForest : ∀ ds : List Draft, Raises (buildForest ds) (trees ds) (forestRaised ds)
  | [] => Raises.pure _
  | d :: ds => by
    have hlast : Raises (pure (d.tree :: trees ds)) _ [] := Raises.pure _
    have hrest := (raises_buildForest ds).bind (f := fun ts ↦ pure (d.tree :: ts)) hlast
    rw [List.append_nil] at hrest
    exact (raises_build d).bind hrest

end

end Draft

/-! ### Drafts changed where they are written -/

/-- What `ρ` does to the leaves and attributes of a draft, `σ` does to those of its tree. Names are
changed by `ρ` in letter case at most. -/
structure Relabeling.Lifts (ρ σ : Relabeling) : Prop where
  tag : ∀ x, (ρ.tag x).map Ascii.lower = σ.tag (x.map Ascii.lower)
  isEmpty_tag : ∀ x, (ρ.tag x).value.isEmpty = x.value.isEmpty
  attr : ∀ a, (ρ.attr a).normalize = σ.attr a.normalize
  key_attr : ∀ a, (ρ.attr a).key = a.key
  text : ∀ x, ρ.text x = σ.text x

/-- Names are put into lowercase. -/
def Relabeling.folded : Relabeling :=
  ⟨Located.map Ascii.lower, Attribute.normalize, id⟩

/-- Nothing is changed. -/
def Relabeling.kept : Relabeling :=
  ⟨id, id, id⟩

mutual

/-- A relabeling that changes nothing gives the same tree. -/
theorem Tree.relabel_kept : ∀ t : Tree, t.relabel .kept = t
  | .element tag attrs children => by
    rw [relabel, relabelForest_kept children, Relabeling.kept, Attributes.map, List.map_id]
    rfl
  | .data text => rfl

theorem Tree.relabelForest_kept : ∀ ts : List Tree, relabelForest .kept ts = ts
  | [] => rfl
  | t :: ts => by rw [relabelForest, relabel_kept t, relabelForest_kept ts]

end

/-- Case folding keeps empty texts apart from the others. -/
theorem Ascii.isEmpty_lower (s : String) : (Ascii.lower s).isEmpty = s.isEmpty := by
  rw [Bool.eq_iff_iff, String.isEmpty_iff, String.isEmpty_iff, ← String.toList_eq_nil_iff,
    Ascii.toList_lower, List.map_eq_nil_iff, String.toList_eq_nil_iff]

/-- An attribute in lowercase stays as it is. -/
theorem Attribute.normalize_normalize (a : Attribute) : a.normalize.normalize = a.normalize := by
  cases a <;> simp [normalize, Located.map, Ascii.lower_lower]

/-- Names can be put into lowercase beforehand. -/
theorem Relabeling.folded_lifts : folded.Lifts kept where
  tag x := by simp [folded, kept, Located.map, Ascii.lower_lower]
  isEmpty_tag x := Ascii.isEmpty_lower x.value
  attr := Attribute.normalize_normalize
  key_attr := Attribute.key_normalize
  text _ := rfl

/-- Positions can be forgotten beforehand. -/
theorem Relabeling.unplaced_lifts : unplaced.Lifts unplaced where
  tag _ := rfl
  isEmpty_tag _ := rfl
  attr a := by cases a <;> rfl
  key_attr a := by cases a <;> rfl
  text _ := rfl

namespace Draft

mutual

/-- The draft with its leaves and attributes changed. -/
def relabel (ρ : Relabeling) : Draft → Draft
  | .element tag attrs children =>
    .element (ρ.tag tag) (attrs.map ρ.attr) (relabelForest ρ children)
  | .data text => .data (ρ.text text)

/-- Several drafts with their leaves and attributes changed. -/
def relabelForest (ρ : Relabeling) : List Draft → List Draft
  | [] => []
  | d :: ds => relabel ρ d :: relabelForest ρ ds

end

mutual

/-- **Changing a draft changes its tree** in the same way. -/
theorem tree_relabel {ρ σ : Relabeling} (h : ρ.Lifts σ) :
    ∀ d : Draft, (d.relabel ρ).tree = d.tree.relabel σ
  | .element tag attrs children => by
    have hattr : Attribute.normalize ∘ ρ.attr = σ.attr ∘ Attribute.normalize := funext h.attr
    rw [relabel, tree, tree, Tree.relabel, Attributes.firsts_map h.key_attr, h.tag,
      trees_relabelForest h children, Attributes.map, List.map_map, hattr, List.map_map]
  | .data text => congrArg Tree.data (h.text text)

theorem trees_relabelForest {ρ σ : Relabeling} (h : ρ.Lifts σ) :
    ∀ ds : List Draft, trees (relabelForest ρ ds) = Tree.relabelForest σ (trees ds)
  | [] => rfl
  | d :: ds => by
    rw [relabelForest, trees, trees, Tree.relabelForest, tree_relabel h d,
      trees_relabelForest h ds]

end

mutual

/-- It does not change what is raised. -/
theorem raised_relabel {ρ σ : Relabeling} (h : ρ.Lifts σ) :
    ∀ d : Draft, (d.relabel ρ).raised = d.raised
  | .element tag attrs children => by
    rw [relabel, raised, raised, Attributes.dropped_map h.key_attr, h.isEmpty_tag,
      forestRaised_relabelForest h children, List.map_map]
    simp only [Function.comp_def, h.key_attr]
  | .data text => rfl

theorem forestRaised_relabelForest {ρ σ : Relabeling} (h : ρ.Lifts σ) :
    ∀ ds : List Draft, forestRaised (relabelForest ρ ds) = forestRaised ds
  | [] => rfl
  | d :: ds => by
    rw [relabelForest, forestRaised, forestRaised, raised_relabel h d,
      forestRaised_relabelForest h ds]

end

/-- The draft with its names in lowercase. -/
def folded (d : Draft) : Draft :=
  d.relabel .folded

/-- The draft without positions. -/
def unplaced (d : Draft) : Draft :=
  d.relabel .unplaced

/-- Putting names into lowercase does not change the tree. -/
theorem tree_folded (d : Draft) : d.folded.tree = d.tree := by
  rw [folded, tree_relabel Relabeling.folded_lifts, Tree.relabel_kept]

/-- Forgetting positions forgets the positions of the tree. -/
theorem tree_unplaced (d : Draft) : d.unplaced.tree = d.tree.unplaced :=
  tree_relabel Relabeling.unplaced_lifts d

/-- Neither of the two changes what is raised. -/
theorem raised_folded_unplaced (d : Draft) : d.folded.unplaced.raised = d.raised := by
  rw [unplaced, raised_relabel Relabeling.unplaced_lifts, folded,
    raised_relabel Relabeling.folded_lifts]

/-- Drafts that differ in letter case and positions give trees that differ in positions. -/
theorem unplaced_tree_eq {d e : Draft} (h : d.folded.unplaced = e.folded.unplaced) :
    d.tree.unplaced = e.tree.unplaced := by
  rw [← tree_folded d, ← tree_unplaced, h, tree_unplaced, tree_folded]

/-- Drafts that differ only in letter case and positions raise the same messages. -/
theorem raised_eq {d e : Draft} (h : d.folded.unplaced = e.folded.unplaced) :
    d.raised = e.raised := by
  rw [← raised_folded_unplaced d, h, raised_folded_unplaced]

end Draft

/-! ### Answers of equal trees -/

theorem Leaf.option_beq_iff {x y : Option Leaf} :
    (x == y) = true ↔ x.map Located.unplaced = y.map Located.unplaced := by
  cases x <;> cases y <;> simp [Leaf.beq_iff]

namespace Attributes

/-- What a lookup finds, positions apart, can be found when positions and spellings are erased. -/
theorem map_unplaced_get? (as : Attributes) (name : String) :
    (as.get? name).map Located.unplaced = (as.map Attribute.erase).get? name := by
  rw [get?, get?, map, List.find?_map, Option.map_map, Option.map_map]
  rfl

/-- Lookups do not see letter case. -/
theorem get?_congr {as : Attributes} {p q : String} (h : Ascii.agree p q = true) :
    as.get? p = as.get? q := by
  have htest : ∀ s, Ascii.agree s p = Ascii.agree s q := by
    intro s
    rw [Bool.eq_iff_iff, Ascii.agree_iff, Ascii.agree_iff, Ascii.agree_iff.1 h]
  simp only [get?, htest]

/-- Equal lists answer alike, asked for names that agree. -/
theorem get?_beq_get? {as bs : Attributes} (h : (as == bs) = true) {p q : String}
    (hpq : Ascii.agree p q = true) : (as.get? p == bs.get? q) = true := by
  rw [Leaf.option_beq_iff, map_unplaced_get?, map_unplaced_get?, Attributes.beq_iff.1 h,
    get?_congr hpq]

/-- Equal lists have the same number of attributes. -/
theorem size_eq_size {as bs : Attributes} (h : (as == bs) = true) : as.size = bs.size := by
  have hlists := map_eq_iff.1 (Attributes.beq_iff.1 h)
  simpa [size] using congrArg List.length hlists

end Attributes

/-- The elements give the same answers, positions apart, to questions that differ in letter case at
most. -/
structure Element.AnswersAlike (e f : Element) : Prop where
  get? : ∀ p q : String, Ascii.agree p q = true → (e.attrs.get? p == f.attrs.get? q) = true
  contains : ∀ p q : String, Ascii.agree p q = true → e.attrs.contains p = f.attrs.contains q
  size : e.attrs.size = f.attrs.size
  id? : (e.id? == f.id?) = true

/-- Elements with equal attributes answer alike. -/
theorem Element.answersAlike_of_beq {e f : Element} (h : (e.attrs == f.attrs) = true) :
    e.AnswersAlike f where
  get? p q hpq := Attributes.get?_beq_get? h hpq
  contains p q hpq := by
    have hfound := Leaf.option_beq_iff.1 (Attributes.get?_beq_get? h hpq)
    rw [Attributes.contains, Attributes.contains, ← Option.isSome_map, hfound, Option.isSome_map]
  size := Attributes.size_eq_size h
  id? := Attributes.get?_beq_get? h (Ascii.agree_iff.2 rfl)

namespace Tree

mutual

/-- The elements of a tree, each before those in its content. -/
def elements : Tree → List Element
  | .element tag attrs children => ⟨tag, attrs, children⟩ :: forestElements children
  | .data _ => []

/-- The elements of several trees. -/
def forestElements : List Tree → List Element
  | [] => []
  | t :: ts => elements t ++ forestElements ts

end

mutual

/-- **Equal trees answer alike**, element by element. -/
theorem answersAlike_of_beq : ∀ t u : Tree, t.beq u = true →
    List.Forall₂ Element.AnswersAlike t.elements u.elements
  | .element s as ts, .element t bs us, h => by
    rw [beq, Bool.and_eq_true_iff, Bool.and_eq_true_iff] at h
    exact .cons (Element.answersAlike_of_beq h.1.2) (forest_answersAlike_of_beq ts us h.2)
  | .data _, .data _, _ => .nil
  | .element _ _ _, .data _, h => by simp [beq] at h
  | .data _, .element _ _ _, h => by simp [beq] at h

theorem forest_answersAlike_of_beq : ∀ ts us : List Tree, forestBeq ts us = true →
    List.Forall₂ Element.AnswersAlike (forestElements ts) (forestElements us)
  | [], [], _ => .nil
  | t :: ts, u :: us, h => by
    rw [forestBeq, Bool.and_eq_true_iff] at h
    exact List.rel_append (answersAlike_of_beq t u h.1) (forest_answersAlike_of_beq ts us h.2)
  | [], _ :: _, h => by simp [forestBeq] at h
  | _ :: _, [], h => by simp [forestBeq] at h

end

/-- Trees that differ in positions at most are equal. -/
theorem beq_of_unplaced_eq {t u : Tree} (h : t.unplaced = u.unplaced) : (t == u) = true := by
  rw [beq_iff, ← erase_unplaced, h, erase_unplaced]

/-- They have the same outline. -/
theorem outline_eq_of_unplaced_eq {t u : Tree} (h : t.unplaced = u.unplaced) :
    t.outline = u.outline := by
  rw [← outline_shown, ← shown_unplaced, h, shown_unplaced, outline_shown]

end Tree

/-! ### Runs that cannot be told apart -/

/-- What is new to a log depends on what it has seen only. -/
theorem Log.fresh_congr {log log' : Log} (h : ∀ k, k ∈ log.seen ↔ k ∈ log'.seen)
    (messages : List String) : log.fresh messages = log'.fresh messages := by
  simp only [fresh, h]

namespace Draft

/-- **Spelling and positions make no difference.** If two drafts become the same with names in
lowercase and without positions, and if the same warnings have been seen before they are built,
then the trees are equal, have the same outline and give the same answers, the same lines are
printed, and the same warnings have been seen afterwards. If the drafts become the same with names
in lowercase alone, so that they agree in their positions, the trees are the same. -/
theorem build_unaffected_by_spelling {d e : Draft} (h : d.folded.unplaced = e.folded.unplaced)
    (log log' : Log) (hlog : ∀ k, k ∈ log.seen ↔ k ∈ log'.seen) :
    ((d.build.run log).1 == (e.build.run log').1) = true ∧
      (d.build.run log).1.outline = (e.build.run log').1.outline ∧
      List.Forall₂ Element.AnswersAlike (d.build.run log).1.elements
        (e.build.run log').1.elements ∧
      (∃ lines, (d.build.run log).2.printed = log.printed ++ lines ∧
        (e.build.run log').2.printed = log'.printed ++ lines) ∧
      (∀ k, k ∈ (d.build.run log).2.seen ↔ k ∈ (e.build.run log').2.seen) ∧
      (d.folded = e.folded → (d.build.run log).1 = (e.build.run log').1) := by
  rw [d.raises_build log, e.raises_build log', raised_eq h]
  have htree := unplaced_tree_eq h
  have hbeq := Tree.beq_of_unplaced_eq htree
  refine ⟨hbeq, Tree.outline_eq_of_unplaced_eq htree, Tree.answersAlike_of_beq _ _ hbeq,
    ⟨(log'.fresh e.raised).map (Log.line Attributes.component), ?_, log'.printed_warnAll _⟩,
    ?_, ?_⟩
  · rw [Log.printed_warnAll, Log.fresh_congr hlog]
  · intro k
    rw [Log.mem_seen_warnAll, Log.mem_seen_warnAll, hlog]
  · intro hfolded
    show d.tree = e.tree
    rw [← tree_folded d, hfolded, tree_folded]

/-- A notice with a repeated attribute and an element without a name, all of it at one position, in
a spelling of its own. -/
def notice (tag name again : String) (pos : Position) : Draft :=
  .element ⟨tag, pos⟩ [.pair ⟨name, pos⟩ ⟨"X", pos⟩, .flag ⟨again, pos⟩, .flag ⟨"Ä", pos⟩]
    [.data ⟨"hÄ", pos⟩, .element ⟨"", pos⟩ [] []]

/-- The position of one of the spellings. -/
def noticePos : Position :=
  .real ⟨"a.html", 1, 2, 1, 1⟩

theorem notice_unaffected_by_spelling :
    (notice "P" "Class" "CLASS" noticePos).folded.unplaced =
        (notice "p" "cLASS" "class" .nowhere).folded.unplaced ∧
      (((notice "P" "Class" "CLASS" noticePos).build.run .empty).1 ==
        ((notice "p" "cLASS" "class" .nowhere).build.run .empty).1) = true ∧
      ((notice "P" "Class" "CLASS" noticePos).build.run .empty).1 =
        ((notice "p" "cLASS" "class" noticePos).build.run .empty).1 := by
  have hp : Ascii.lower "P" = Ascii.lower "p" := by decide +kernel
  have hname : Ascii.lower "Class" = Ascii.lower "cLASS" := by decide +kernel
  have hagain : Ascii.lower "CLASS" = Ascii.lower "class" := by decide +kernel
  have hsame : ∀ pos, (notice "P" "Class" "CLASS" pos).folded =
      (notice "p" "cLASS" "class" pos).folded := by
    intro pos
    simp [notice, folded, relabel, relabelForest, Relabeling.folded, Attribute.normalize,
      Located.map, hp, hname, hagain]
  have hunplaced : (notice "P" "Class" "CLASS" noticePos).folded.unplaced =
      (notice "p" "cLASS" "class" .nowhere).folded.unplaced := by
    rw [hsame]
    rfl
  have hmoved := build_unaffected_by_spelling hunplaced .empty .empty fun _ ↦ Iff.rfl
  have hplaced := build_unaffected_by_spelling (congrArg unplaced (hsame noticePos)) .empty .empty
    fun _ ↦ Iff.rfl
  exact ⟨hunplaced, hmoved.1, hplaced.2.2.2.2.2 (hsame noticePos)⟩

end Draft

end Hypertext
