import Mathlib.Algebra.GroupWithZero.Nat
import Mathlib.Tactic.SplitIfs
import Hypertext.Proofs.OutlineReading

/-!
# The lines of an outline

An outline has one entry for each node and ends every entry with a line break. Text does not add to
these, since a line break in it is shown as `\n`. The values of attributes do. They are quoted too,
but a line break in a value is written as it stands, so the entry goes on in the next line.

Hence an outline whose names have no line breaks has **as many line breaks as the tree has nodes,
and those of the values that are written out** (`Outline.count_break_lines`). There is one line for
each node exactly if no such value has a line break.
-/

namespace Hypertext

/-- The value of an attribute that is not a bare name. -/
def Attribute.explicit? : Attribute → Option Leaf
  | .flag _ => none
  | .pair _ value => some value

/-- The number of line breaks in a text. -/
def Leaf.breaks (x : Leaf) : Nat :=
  x.value.toList.count '\n'

namespace Tree

mutual

/-- The number of nodes, elements and character data alike. -/
def nodeCount : Tree → Nat
  | .element _ _ children => 1 + forestNodeCount children
  | .data _ => 1

/-- The number of nodes of several trees. -/
def forestNodeCount : List Tree → Nat
  | [] => 0
  | t :: ts => nodeCount t + forestNodeCount ts

end

mutual

/-- The preorder lists every node once. -/
theorem length_preorder (depth : Nat) : ∀ t : Tree, (t.preorder depth).length = t.nodeCount
  | .element tag attrs children => by
    rw [preorder, List.length_cons, length_forestPreorder (depth + 1) children, nodeCount,
      Nat.add_comm]
  | .data text => rfl

theorem length_forestPreorder (depth : Nat) :
    ∀ ts : List Tree, (forestPreorder depth ts).length = forestNodeCount ts
  | [] => rfl
  | t :: ts => by
    rw [forestPreorder, List.length_append, length_preorder depth t,
      length_forestPreorder depth ts, forestNodeCount]

end

/-- The names of a node have no line breaks. -/
def Label.UnbrokenNames : Label → Prop
  | .element tag attrs => '\n' ∉ tag.name.value.toList ∧
      ∀ a ∈ attrs.toList, '\n' ∉ a.name.value.toList
  | .data _ => True

/-- The values that are written out at a node. -/
def Label.explicitValues : Label → List Leaf
  | .element _ attrs => attrs.toList.filterMap Attribute.explicit?
  | .data _ => []

/-- Neither tags nor names of attributes have line breaks. -/
def UnbrokenNames (t : Tree) : Prop :=
  ∀ n ∈ t.labels, n.UnbrokenNames

/-- The values that are written out in a tree. -/
def explicitValues (t : Tree) : List Leaf :=
  t.labels.flatMap Label.explicitValues

end Tree

namespace Outline

open Hypertext.Tree

/-! ### Line breaks in quoted strings -/

/-- Escaping a character of a value neither adds nor removes a line break. -/
theorem count_break_escapeChar (c : Char) : (escapeChar c).count '\n' = [c].count '\n' := by
  rw [escapeChar]
  split_ifs with hs hq
  · rw [hs]
    rfl
  · rw [hq]
    rfl
  · rfl

/-- A value keeps its line breaks. -/
theorem count_break_escape (s : List Char) : (escape s).count '\n' = s.count '\n' := by
  rw [escape_eq_flatMap]
  induction s with
  | nil => rfl
  | cons c s ih =>
    rw [List.flatMap_cons, List.count_append, count_break_escapeChar, ih, ← List.count_append,
      List.singleton_append]

/-- No character of text is shown as a line break. -/
theorem break_notMem_visibleChar (c : Char) : '\n' ∉ visibleChar c := by
  rw [visibleChar, escapeChar]
  split_ifs with hn hb hs hq
  · decide
  · decide
  · decide
  · decide
  · rw [List.mem_singleton]
    exact fun hc ↦ hn hc.symm

/-- Text is shown without line breaks. -/
theorem count_break_visible (s : List Char) : (visible s).count '\n' = 0 := by
  rw [visible_eq_flatMap, List.count_eq_zero, List.mem_flatMap]
  rintro ⟨c, -, hc⟩
  exact break_notMem_visibleChar c hc

/-- Quotes add no line break. -/
theorem count_break_quoted (inside : List Char) :
    (quoted inside).count '\n' = inside.count '\n' := by
  simp [quoted]

/-! ### Line breaks in an entry -/

/-- Of an attribute, only a value that is written out may break the line. -/
theorem count_break_attributeChars {a : Attribute} (ha : '\n' ∉ a.name.value.toList) :
    (attributeChars a).count '\n' = (a.explicit?.toList.map Leaf.breaks).sum := by
  have hname : a.name.value.toList.count '\n' = 0 := List.count_eq_zero.2 ha
  cases a with
  | flag n => simpa [attributeChars, Attribute.explicit?, Attribute.name] using hname
  | pair n v =>
    have hname' : n.value.toList.count '\n' = 0 := hname
    simp [attributeChars, Attribute.explicit?, Leaf.breaks, count_break_quoted, count_break_escape,
      hname']

/-- If no name has a line break, those of attributes are in the values that are written out. -/
theorem count_break_attributes {as : List Attribute}
    (has : ∀ a ∈ as, '\n' ∉ a.name.value.toList) :
    (as.flatMap attributeChars).count '\n' =
      ((as.filterMap Attribute.explicit?).map Leaf.breaks).sum := by
  induction as with
  | nil => rfl
  | cons a as ih =>
    have hfirst := count_break_attributeChars (has a List.mem_cons_self)
    have hrest := ih fun b hb ↦ has b (List.mem_cons_of_mem _ hb)
    rw [List.flatMap_cons, List.count_append, hfirst, hrest]
    cases a <;> simp [Attribute.explicit?, List.filterMap_cons]

/-- **A line** has one line break at its end, and those of the values that are written out. -/
theorem count_break_lineChars {p : Nat × Label} (hp : p.2.UnbrokenNames) :
    (lineChars p).count '\n' = 1 + (p.2.explicitValues.map Leaf.breaks).sum := by
  have hheader : p.2.header.count '\n' = (p.2.explicitValues.map Leaf.breaks).sum := by
    obtain ⟨depth, n⟩ := p
    cases n with
    | element tag attrs =>
      have htag : tag.name.value.toList.count '\n' = 0 := List.count_eq_zero.2 hp.1
      simp [Label.header, Label.explicitValues, elementChars, htag, count_break_attributes hp.2]
    | data text =>
      simp [Label.header, Label.explicitValues, dataChars, count_break_quoted, count_break_visible]
  have hindent : (List.replicate (2 * p.1) ' ').count '\n' = 0 := by
    simp [List.count_eq_zero, List.mem_replicate]
  rw [lineChars, List.count_append, List.count_append, hindent, hheader, List.count_singleton_self]
  omega

/-- **Several lines** have one line break each, and those of the values that are written out. -/
theorem count_break_lines {l : List (Nat × Label)} (hl : ∀ p ∈ l, p.2.UnbrokenNames) :
    (l.flatMap lineChars).count '\n' =
      l.length + ((l.flatMap fun p ↦ p.2.explicitValues).map Leaf.breaks).sum := by
  induction l with
  | nil => rfl
  | cons p l ih =>
    have hfirst := count_break_lineChars (hl p List.mem_cons_self)
    have hrest := ih fun q hq ↦ hl q (List.mem_cons_of_mem _ hq)
    rw [List.flatMap_cons, List.count_append, hfirst, hrest, List.flatMap_cons, List.map_append,
      List.sum_append, List.length_cons]
    omega

end Outline

namespace Tree

/-- **The line breaks of an outline** are one for each node and those of the values that are written
out, if no name has any. So there is one line for each node exactly if no value that is written out
has a line break. -/
theorem count_break_outline {t : Tree} (ht : t.UnbrokenNames) :
    t.outline.toList.count '\n' = t.nodeCount + (t.explicitValues.map Leaf.breaks).sum ∧
      (t.outline.toList.count '\n' = t.nodeCount ↔
        ∀ v ∈ t.explicitValues, '\n' ∉ v.value.toList) := by
  have hcount : t.outline.toList.count '\n' =
      t.nodeCount + (t.explicitValues.map Leaf.breaks).sum := by
    rw [Outline.toList_outline,
      Outline.count_break_lines fun p hp ↦ ht p.2 (List.mem_map_of_mem hp),
      length_preorder, explicitValues, labels, List.flatMap_map]
  refine ⟨hcount, ?_⟩
  have hzero : (t.explicitValues.map Leaf.breaks).sum = 0 ↔
      ∀ v ∈ t.explicitValues, '\n' ∉ v.value.toList := by
    rw [List.sum_eq_zero_iff_forall_eq_nat, List.forall_mem_map]
    simp only [Leaf.breaks, List.count_eq_zero]
  rw [hcount, ← hzero]
  omega

/-- An element with a value that is written out and one that is not, and a text in it. -/
def titled (title text : String) : Tree :=
  .element ⟨.fake "p" "1"⟩
    ⟨[.pair (.fake "title" "2") (.fake title "3"), .flag (.fake "hidden" "4")]⟩
    [.data (.fake text "5")]

theorem unbrokenNames_titled (title text : String) : (titled title text).UnbrokenNames := by
  simp [UnbrokenNames, titled, labels, preorder, forestPreorder, Label.UnbrokenNames,
    Attribute.name, Located.fake]

/-- Line breaks in the text leave one line for each node. -/
theorem count_break_outline_titled :
    (titled "x" "u\n\nv").UnbrokenNames ∧
      (titled "x" "u\n\nv").outline.toList.count '\n' = (titled "x" "u\n\nv").nodeCount := by
  have hnames := unbrokenNames_titled "x" "u\n\nv"
  refine ⟨hnames, (count_break_outline hnames).2.2 ?_⟩
  simp [titled, explicitValues, labels, preorder, forestPreorder, Label.explicitValues,
    Attribute.explicit?, Located.fake]

/-- A line break in a value that is written out adds a line: three lines for two nodes. -/
theorem count_break_outline_titled_ne :
    (titled "x\ny" "u").UnbrokenNames ∧
      (titled "x\ny" "u").outline = "<p title=\"x\ny\" hidden>\n  \"u\"\n" ∧
      (titled "x\ny" "u").outline.toList.count '\n' = 3 ∧ (titled "x\ny" "u").nodeCount = 2 := by
  refine ⟨unbrokenNames_titled _ _, ?_, ?_, rfl⟩
  · decide +kernel
  · decide +kernel

end Tree

end Hypertext
