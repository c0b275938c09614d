import Hypertext.Proofs.Preorder
import Hypertext.Proofs.Quoting

/-!
# What an outline tells about its tree

An outline is the list of a tree's nodes in preorder, one after the other: blanks for the depth, the
node's own entry, a line break (`Outline.toList_write`). Entries are unambiguous from the left. The
depth ends at the first character that is no blank. A tag and the names of attributes end at the
first character that they may not contain. A quoted string ends at its own quote, so a line break,
a bracket or a quote inside a value is never taken for the end of the entry.

So the entries can be read off one by one (`Outline.lines_injective`), and with their depths they
give the tree back, up to what an outline does not show: positions, and the difference between a
blank and a raised dot in text (`Relabeling.shown`).
-/

namespace Hypertext

/-! ### Outlines as lists of lines -/

/-- The entry of a node. -/
def Tree.Label.header : Tree.Label → List Char
  | .element tag attrs => Outline.elementChars tag attrs
  | .data text => Outline.dataChars text

namespace Outline

open Hypertext.Tree

/-- A node's entry at its depth, with the line break after it. -/
def lineChars (p : Nat × Label) : List Char :=
  List.replicate (2 * p.1) ' ' ++ p.2.header ++ ['\n']

mutual

/-- Writing a tree appends the lines of its nodes to what has been written. -/
theorem toList_write (depth : Nat) (out : String) :
    ∀ t : Tree, (write depth out t).toList =
      out.toList ++ (t.preorder depth).flatMap lineChars
  | .element tag attrs children => by
    rw [write, toList_writeForest, preorder, List.flatMap_cons, String.toList_append, entry,
      String.toList_ofList, List.append_assoc]
    rfl
  | .data text => by
    rw [write, preorder, List.flatMap_cons, List.flatMap_nil, List.append_nil,
      String.toList_append, entry, String.toList_ofList]
    rfl

theorem toList_writeForest (depth : Nat) (out : String) :
    ∀ ts : List Tree, (writeForest depth out ts).toList =
      out.toList ++ (forestPreorder depth ts).flatMap lineChars
  | [] => by simp [writeForest, forestPreorder]
  | t :: ts => by
    rw [writeForest, toList_writeForest, toList_write, forestPreorder, List.flatMap_append,
      List.append_assoc]

end

/-- An outline is the lines of the nodes in preorder. -/
theorem toList_outline (t : Tree) : t.outline.toList = (t.preorder 0).flatMap lineChars := by
  rw [Tree.outline, toList_write]
  rfl

/-! ### Reading an entry from the left -/

/-- Two stretches of admitted characters, each followed by one that is not admitted, are equal if
the texts are. -/
theorem append_cons_inj_of_forall {p : Char → Prop} {xs ys r s : List Char} {c d : Char}
    (hxs : ∀ x ∈ xs, p x) (hys : ∀ y ∈ ys, p y) (hc : ¬p c) (hd : ¬p d)
    (h : xs ++ c :: r = ys ++ d :: s) : xs = ys ∧ c = d ∧ r = s := by
  induction xs generalizing ys with
  | nil =>
    cases ys with
    | nil => exact ⟨rfl, List.cons.inj h⟩
    | cons y ys =>
      obtain ⟨rfl, -⟩ := List.cons.inj h
      exact absurd (hys c List.mem_cons_self) hc
  | cons x xs ih =>
    cases ys with
    | nil =>
      obtain ⟨rfl, -⟩ := List.cons.inj h
      exact absurd (hxs x List.mem_cons_self) hd
    | cons y ys =>
      obtain ⟨rfl, hrest⟩ := List.cons.inj h
      obtain ⟨rfl, htail⟩ := ih (fun z hz ↦ hxs z (List.mem_cons_of_mem _ hz))
        (fun z hz ↦ hys z (List.mem_cons_of_mem _ hz)) hrest
      exact ⟨rfl, htail⟩

/-- The characters that the name of an attribute may hold for its end to be seen. -/
def NameChar (c : Char) : Prop :=
  c ≠ ' ' ∧ c ≠ '=' ∧ c ≠ '>'

/-- The characters that a tag may hold for its end to be seen. -/
def TagChar (c : Char) : Prop :=
  c ≠ ' ' ∧ c ≠ '>'

/-- What follows an attribute: another one, or the end of the entry. -/
def AfterAttribute (r : List Char) : Prop :=
  ∃ c r', r = c :: r' ∧ (c = ' ' ∨ c = '>')

/-- Attributes are followed by a blank or by the bracket. -/
theorem afterAttribute_flatMap (as : List Attribute) (r : List Char) :
    AfterAttribute (as.flatMap attributeChars ++ '>' :: r) := by
  cases as with
  | nil => exact ⟨'>', r, rfl, .inr rfl⟩
  | cons a as =>
    rw [List.flatMap_cons, List.append_assoc]
    cases a <;> exact ⟨' ', _, rfl, .inl rfl⟩

theorem attributeChars_pair_append (n v : Leaf) (r : List Char) :
    attributeChars (.pair n v) ++ r =
      ' ' :: (n.value.toList ++ '=' :: (quoted (escape v.value.toList) ++ r)) := by
  simp [attributeChars]

/-- An attribute ends where it ends, if another one or the end of the entry follows. -/
theorem attributeChars_append_inj {a b : Attribute} {r s : List Char}
    (ha : ∀ c ∈ a.name.value.toList, NameChar c) (hb : ∀ c ∈ b.name.value.toList, NameChar c)
    (hr : AfterAttribute r) (hs : AfterAttribute s)
    (h : attributeChars a ++ r = attributeChars b ++ s) : a.unplaced = b.unplaced ∧ r = s := by
  obtain ⟨c, r, rfl, hc⟩ := hr
  obtain ⟨d, s, rfl, hd⟩ := hs
  have hc' : ¬NameChar c ∧ c ≠ '=' := by rcases hc with rfl | rfl <;> simp [NameChar]
  have hd' : ¬NameChar d ∧ d ≠ '=' := by rcases hd with rfl | rfl <;> simp [NameChar]
  have heq : ¬NameChar '=' := by simp [NameChar]
  rw [Attribute.unplaced_eq_iff]
  -- the character after the name tells a bare name from a name with a value
  cases a with
  | flag n =>
    cases b with
    | flag m =>
      obtain ⟨hname, rfl, rfl⟩ := append_cons_inj_of_forall ha hb hc'.1 hd'.1 (List.cons.inj h).2
      have hvalue : n.value = m.value := String.toList_inj.1 hname
      exact ⟨⟨hvalue, hvalue, rfl⟩, rfl⟩
    | pair m w =>
      rw [attributeChars_pair_append] at h
      obtain ⟨-, hmark, -⟩ := append_cons_inj_of_forall ha hb hc'.1 heq (List.cons.inj h).2
      exact absurd hmark hc'.2
  | pair n v =>
    cases b with
    | flag m =>
      rw [attributeChars_pair_append] at h
      obtain ⟨-, hmark, -⟩ := append_cons_inj_of_forall ha hb heq hd'.1 (List.cons.inj h).2
      exact absurd hmark.symm hd'.2
    | pair m w =>
      rw [attributeChars_pair_append, attributeChars_pair_append] at h
      obtain ⟨hname, -, hrest⟩ := append_cons_inj_of_forall ha hb heq heq (List.cons.inj h).2
      obtain ⟨hvalue, hrest⟩ := quoted_escape_append_inj hrest
      exact ⟨⟨String.toList_inj.1 hname, String.toList_inj.1 hvalue, rfl⟩, hrest⟩

/-- The attributes of an entry end at its bracket. -/
theorem attributes_append_inj {as bs : List Attribute} {r s : List Char}
    (has : ∀ a ∈ as, ∀ c ∈ a.name.value.toList, NameChar c)
    (hbs : ∀ b ∈ bs, ∀ c ∈ b.name.value.toList, NameChar c)
    (h : as.flatMap attributeChars ++ '>' :: r = bs.flatMap attributeChars ++ '>' :: s) :
    as.map Attribute.unplaced = bs.map Attribute.unplaced ∧ r = s := by
  induction as generalizing bs with
  | nil =>
    cases bs with
    | nil => exact ⟨rfl, (List.cons.inj h).2⟩
    | cons b bs => cases b <;> simp [attributeChars] at h
  | cons a as ih =>
    cases bs with
    | nil => cases a <;> simp [attributeChars] at h
    | cons b bs =>
      rw [List.flatMap_cons, List.flatMap_cons, List.append_assoc, List.append_assoc] at h
      obtain ⟨hab, hrest⟩ := attributeChars_append_inj (has a List.mem_cons_self)
        (hbs b List.mem_cons_self) (afterAttribute_flatMap as r) (afterAttribute_flatMap bs s) h
      obtain ⟨htail, hend⟩ := ih (fun x hx ↦ has x (List.mem_cons_of_mem _ hx))
        (fun x hx ↦ hbs x (List.mem_cons_of_mem _ hx)) hrest
      exact ⟨by rw [List.map_cons, List.map_cons, hab, htail], hend⟩

end Outline

/-! ### Reading an outline line by line -/

/-- What an outline shows: no positions, and blanks in text as raised dots. -/
def Relabeling.shown : Relabeling where
  tag := Located.unplaced
  attr := Attribute.unplaced
  text x := (x.map Outline.dotted).unplaced

namespace Tree

/-- Names end where they can be seen to end. -/
def Label.PlainNames : Label → Prop
  | .element tag attrs => (∀ c ∈ tag.name.value.toList, Outline.TagChar c) ∧
      ∀ a ∈ attrs.toList, ∀ c ∈ a.name.value.toList, Outline.NameChar c
  | .data _ => True

/-- Text without raised dots. -/
def Label.Undotted : Label → Prop
  | .element _ _ => True
  | .data text => '·' ∉ text.value.toList

/-- No tag contains a blank or `>`, and no name of an attribute a blank, `=` or `>`. -/
def PlainNames (t : Tree) : Prop :=
  ∀ n ∈ t.labels, n.PlainNames

/-- No text contains a raised dot. -/
def Undotted (t : Tree) : Prop :=
  ∀ n ∈ t.labels, n.Undotted

/-- The tree as outlines show it. -/
def shown (t : Tree) : Tree :=
  t.relabel .shown

end Tree

namespace Outline

open Hypertext.Tree

theorem elementChars_append (tag : Tag) (attrs : Attributes) (r : List Char) :
    elementChars tag attrs ++ r = '<' :: (tag.name.value.toList ++
      (attrs.toList.flatMap attributeChars ++ '>' :: r)) := by
  simp [elementChars]

/-- **An entry ends where it ends**, and tells what an outline shows of its node. -/
theorem header_append_inj {n m : Label} {r s : List Char} (hn : n.PlainNames)
    (hm : m.PlainNames) (h : n.header ++ r = m.header ++ s) :
    n.relabel .shown = m.relabel .shown ∧ r = s := by
  cases n with
  | element tag as =>
    cases m with
    | element tag' bs =>
      rw [Label.header, Label.header, elementChars_append, elementChars_append] at h
      obtain ⟨c, r', hr', hc⟩ := afterAttribute_flatMap as.toList r
      obtain ⟨d, s', hs', hd⟩ := afterAttribute_flatMap bs.toList s
      have hc' : ¬TagChar c := by rcases hc with rfl | rfl <;> simp [TagChar]
      have hd' : ¬TagChar d := by rcases hd with rfl | rfl <;> simp [TagChar]
      have htext := (List.cons.inj h).2
      rw [hr', hs'] at htext
      obtain ⟨htag, hcd, hrest⟩ := append_cons_inj_of_forall hn.1 hm.1 hc' hd' htext
      have hattrs : as.toList.flatMap attributeChars ++ '>' :: r =
          bs.toList.flatMap attributeChars ++ '>' :: s := by
        rw [hr', hs', hcd, hrest]
      obtain ⟨hmap, hend⟩ := attributes_append_inj hn.2 hm.2 hattrs
      refine ⟨?_, hend⟩
      have htag' := Located.unplaced_eq_iff.2 (String.toList_inj.1 htag)
      have hmap' := Attributes.map_eq_iff.2 hmap
      show Label.element ⟨tag.name.unplaced⟩ (as.map Attribute.unplaced) =
        .element ⟨tag'.name.unplaced⟩ (bs.map Attribute.unplaced)
      rw [htag', hmap']
    | data y => simp [Label.header, elementChars, dataChars, quoted] at h
  | data x =>
    cases m with
    | element tag bs => simp [Label.header, elementChars, dataChars, quoted] at h
    | data y =>
      obtain ⟨htext, hend⟩ := quoted_visible_append_inj h
      refine ⟨congrArg Label.data (Located.unplaced_eq_iff.2 ?_), hend⟩
      exact congrArg String.ofList htext

/-- The entry of a node does not start with a blank. -/
theorem exists_header_eq_cons (n : Label) (r : List Char) :
    ∃ c cs, n.header ++ r = c :: cs ∧ ¬c = ' ' := by
  cases n with
  | element tag attrs => exact ⟨'<', _, rfl, by decide⟩
  | data text => exact ⟨'"', _, rfl, by decide⟩

/-- A line ends where it ends, and tells the depth of its node. -/
theorem lineChars_append_inj {p q : Nat × Label} {r s : List Char} (hp : p.2.PlainNames)
    (hq : q.2.PlainNames) (h : lineChars p ++ r = lineChars q ++ s) :
    Prod.map id (Label.relabel .shown) p = Prod.map id (Label.relabel .shown) q ∧ r = s := by
  obtain ⟨i, n⟩ := p
  obtain ⟨j, m⟩ := q
  simp only [lineChars, List.append_assoc] at h
  obtain ⟨c, cs, hcs, hc⟩ := exists_header_eq_cons n (['\n'] ++ r)
  obtain ⟨d, ds, hds, hd⟩ := exists_header_eq_cons m (['\n'] ++ s)
  rw [hcs, hds] at h
  obtain ⟨hblanks, hcd, hrest⟩ := append_cons_inj_of_forall (p := (· = ' '))
    (fun x hx ↦ List.eq_of_mem_replicate hx) (fun x hx ↦ List.eq_of_mem_replicate hx) hc hd h
  have hdepth : i = j := by
    have hlength := congrArg List.length hblanks
    simp only [List.length_replicate] at hlength
    omega
  have hheader : n.header ++ (['\n'] ++ r) = m.header ++ (['\n'] ++ s) := by
    rw [hcs, hds, hcd, hrest]
  obtain ⟨hlabel, hend⟩ := header_append_inj hp hq hheader
  exact ⟨Prod.ext hdepth hlabel, (List.cons.inj hend).2⟩

/-- **Lines can be read off one by one.** -/
theorem lines_injective {l k : List (Nat × Label)} (hl : ∀ p ∈ l, p.2.PlainNames)
    (hk : ∀ p ∈ k, p.2.PlainNames) (h : l.flatMap lineChars = k.flatMap lineChars) :
    l.map (Prod.map id (Label.relabel .shown)) = k.map (Prod.map id (Label.relabel .shown)) := by
  induction l generalizing k with
  | nil =>
    cases k with
    | nil => rfl
    | cons q k => simp [lineChars] at h
  | cons p l ih =>
    cases k with
    | nil => simp [lineChars] at h
    | cons q k =>
      rw [List.flatMap_cons, List.flatMap_cons] at h
      obtain ⟨hpq, hrest⟩ := lineChars_append_inj (hl p List.mem_cons_self)
        (hk q List.mem_cons_self) h
      have htail := ih (fun x hx ↦ hl x (List.mem_cons_of_mem _ hx))
        (fun x hx ↦ hk x (List.mem_cons_of_mem _ hx)) hrest
      rw [List.map_cons, List.map_cons, hpq, htail]

/-- What an outline does not show makes no difference to it. -/
theorem lineChars_relabel_shown (p : Nat × Label) :
    lineChars (Prod.map id (Label.relabel .shown) p) = lineChars p := by
  obtain ⟨depth, n⟩ := p
  cases n with
  | element tag attrs =>
    have hattr : attributeChars ∘ Attribute.unplaced = attributeChars := by
      funext a
      cases a <;> rfl
    simp [lineChars, Label.relabel, Label.header, elementChars, Relabeling.shown, Attributes.map,
      Located.unplaced, List.flatMap_map, ← Function.comp_def, hattr]
  | data text =>
    simp [lineChars, Label.relabel, Label.header, dataChars, Relabeling.shown, Located.unplaced,
      visible_map_dot]

end Outline

namespace Tree

/-- The outline depends only on what is shown. -/
theorem outline_shown (t : Tree) : t.shown.outline = t.outline := by
  apply String.toList_inj.1
  rw [Outline.toList_outline, Outline.toList_outline, shown, preorder_relabel, List.flatMap_map]
  simp only [Outline.lineChars_relabel_shown]

/-- Trees with plain names and the same outline are shown alike. -/
theorem shown_eq_of_outline_eq {t u : Tree} (ht : t.PlainNames) (hu : u.PlainNames)
    (h : t.outline = u.outline) : t.shown = u.shown := by
  apply preorder_injective 0
  rw [shown, shown, preorder_relabel, preorder_relabel]
  have hlines := congrArg String.toList h
  rw [Outline.toList_outline, Outline.toList_outline] at hlines
  exact Outline.lines_injective (fun p hp ↦ ht p.2 (List.mem_map_of_mem hp))
    (fun p hp ↦ hu p.2 (List.mem_map_of_mem hp)) hlines

/-- Dotting the blanks loses nothing where there are no dots. -/
theorem map_dot_injOn {s t : List Char} (hs : '·' ∉ s) (ht : '·' ∉ t)
    (h : s.map Outline.dot = t.map Outline.dot) : s = t := by
  have hid : s.map id = t.map id := by
    refine map_eq_map_of_map_eq_map (fun c hc d hd hcd ↦ ?_) h
    have hc' : c ≠ '·' := fun hdot ↦ hs (hdot ▸ hc)
    have hd' : d ≠ '·' := fun hdot ↦ ht (hdot ▸ hd)
    grind [Outline.dot]
  simpa using hid

/-- Without raised dots in text, nothing but positions is lost. -/
theorem unplaced_eq_of_shown_eq {t u : Tree} (ht : t.Undotted) (hu : u.Undotted)
    (h : t.shown = u.shown) : t.unplaced = u.unplaced := by
  refine relabel_eq_of_labels (fun n hn m hm hnm ↦ ?_) h
  have hn' := ht n hn
  have hm' := hu m hm
  cases n <;> cases m
  case element.element => exact hnm
  case data.data x y =>
    have hdotted := Located.unplaced_eq_iff.1 (Label.data.inj hnm)
    have htext := map_dot_injOn hn' hm' (by simpa using congrArg String.toList hdotted)
    exact congrArg Label.data (Located.unplaced_eq_iff.2 (String.toList_inj.1 htext))
  all_goals cases hnm

/-- Positions are not shown. -/
theorem shown_unplaced (t : Tree) : t.unplaced.shown = t.shown := by
  have hcomp : Relabeling.shown.comp .unplaced = .shown := by
    have hattr : Attribute.unplaced ∘ Attribute.unplaced = Attribute.unplaced := by
      funext a
      cases a <;> rfl
    rw [Relabeling.comp, Relabeling.shown, Relabeling.unplaced, hattr]
    rfl
  rw [shown, unplaced, relabel_relabel, hcomp, shown]

/-- **Outlines tell trees apart exactly by what they show.** With plain names, two outlines are the
same exactly if the trees have the same shape, tags, names, values and spellings of attributes, and
texts that differ at most in blanks against raised dots. Without raised dots in text, they are the
same exactly if the trees are, positions apart. -/
theorem outline_eq_iff_shown_eq {t u : Tree} (ht : t.PlainNames) (hu : u.PlainNames) :
    (t.outline = u.outline ↔ t.shown = u.shown) ∧
      (t.Undotted → u.Undotted → (t.outline = u.outline ↔ t.unplaced = u.unplaced)) := by
  have hshown : t.outline = u.outline ↔ t.shown = u.shown := by
    refine ⟨shown_eq_of_outline_eq ht hu, fun h ↦ ?_⟩
    rw [← outline_shown t, h, outline_shown]
  refine ⟨hshown, fun ht' hu' ↦ hshown.trans ⟨unplaced_eq_of_shown_eq ht' hu', fun h ↦ ?_⟩⟩
  rw [← shown_unplaced t, h, shown_unplaced]

/-- A tree whose values and texts look like more of the outline, all leaves at one position. -/
def imitation (pos : Position) : Tree :=
  .element ⟨⟨"a", pos⟩⟩ ⟨[.pair ⟨"title", pos⟩ ⟨"x\" y=\"z\">\n  <b", pos⟩, .flag ⟨"", pos⟩]⟩
    [.data ⟨"a\\nb", pos⟩, .data ⟨"a\nb\"", pos⟩]

theorem outline_imitation_eq :
    (imitation (.real ⟨"a.html", 1, 2, 1, 1⟩)).PlainNames ∧ (imitation .nowhere).PlainNames ∧
      (imitation (.real ⟨"a.html", 1, 2, 1, 1⟩)).Undotted ∧ (imitation .nowhere).Undotted ∧
      (imitation (.real ⟨"a.html", 1, 2, 1, 1⟩)).outline = (imitation .nowhere).outline := by
  have hplain : ∀ pos, (imitation pos).PlainNames := by
    intro pos
    simp [PlainNames, imitation, labels, preorder, forestPreorder, Label.PlainNames,
      Outline.TagChar, Outline.NameChar, Attribute.name]
  have hundotted : ∀ pos, (imitation pos).Undotted := by
    intro pos
    simp [Undotted, imitation, labels, preorder, forestPreorder, Label.Undotted]
  have hiff := outline_eq_iff_shown_eq (hplain (.real ⟨"a.html", 1, 2, 1, 1⟩)) (hplain .nowhere)
  exact ⟨hplain _, hplain _, hundotted _, hundotted _, (hiff.2 (hundotted _) (hundotted _)).2 rfl⟩

end Tree

end Hypertext
