import Mathlib.Data.List.Basic
import Hypertext.Markup.Tree
import Hypertext.Proofs.FirstOccurrence

/-!
# Drafts

A draft is markup as it was written: names in any letter case, attributes repeated, each leaf with
the position at which it was read. A tree is built from it by the operations of this library, which
fold names to lowercase, drop repeated attributes and write a bare name for a value. None of them
moves a leaf: **what a tree has for leaves are the leaves of the draft**, in the same order and at
the same positions, without those of the attributes that were dropped (`Draft.Built.mentions_eq`).

So positions can be trusted. If the draft was read off a source, then the source has at the position
of each leaf of the tree the text of that leaf, up to letter case where the leaf is a name.

Leaves are listed with the role that they have (`Role`), since the role decides whether the text is
kept as written.
-/

namespace Hypertext

/-- Markup as written. -/
inductive Draft where
  /-- An element: its name, its attributes and its content. -/
  | element (tag : Leaf) (attrs : List Attribute) (children : List Draft)
  /-- Character data. -/
  | data (text : Leaf)

namespace Draft

mutual

/-- Builds the tree of a draft: the attributes, the content, and then the element. -/
def build : Draft → Build Tree
  | .element tag attrs children => do
    let as ← Attributes.collect (attrs.map Attribute.normalize)
    let ts ← buildForest children
    Tree.buildElement tag as ts
  | .data text => return .data text

/-- Builds the trees of several drafts. -/
def buildForest : List Draft → Build (List Tree)
  | [] => return []
  | d :: ds => return (← build d) :: (← buildForest ds)

end

mutual

/-- `Built d t`: the tree has been built from the draft, however its attribute lists have come about
and whatever had been warned of before each element. -/
inductive Built : Draft → Tree → Prop where
  | element {written : List Attribute} {as : Attributes} {ds : List Draft} {ts : List Tree}
    (tag : Leaf) (log : Log) : Attributes.Made written as → BuiltForest ds ts →
      Built (.element tag written ds) ((Tree.buildElement tag as ts).run log).1
  | data (text : Leaf) : Built (.data text) (.data text)

/-- The trees have been built from the drafts, one from each. -/
inductive BuiltForest : List Draft → List Tree → Prop where
  | nil : BuiltForest [] []
  | cons {d : Draft} {t : Tree} {ds : List Draft} {ts : List Tree} :
    Built d t → BuiltForest ds ts → BuiltForest (d :: ds) (t :: ts)

end

mutual

/-- What building a draft gives is built from it. -/
theorem built_build : ∀ (d : Draft) (log : Log), d.Built (d.build.run log).1
  | .element tag attrs children, log =>
    .element tag _ (.collect attrs log) (builtForest_buildForest children _)
  | .data text, _ => .data text

theorem builtForest_buildForest :
    ∀ (ds : List Draft) (log : Log), BuiltForest ds ((buildForest ds).run log).1
  | [], _ => .nil
  | d :: ds, log => .cons (built_build d log) (builtForest_buildForest ds _)

end

end Draft

/-! ### Leaves in their roles -/

/-- What a leaf is there for. -/
inductive Role where
  /-- The name of an element. -/
  | tag
  /-- The name of an attribute with a value. -/
  | name
  /-- A bare name, which is the name and the value of its attribute. -/
  | bare
  /-- A value. -/
  | value
  /-- Character data. -/
  | text
  deriving DecidableEq

/-- Whether the text of a leaf is kept as written. Otherwise it is kept in lowercase. -/
def Role.isVerbatim : Role → Bool
  | .tag | .name | .bare => false
  | .value | .text => true

/-- A leaf of a tree in its role. -/
structure Mention where
  /-- The role. -/
  role : Role
  /-- The leaf. -/
  leaf : Leaf
  deriving DecidableEq

/-- The leaves of an attribute: name, then value. -/
def Attribute.mentions : Attribute → List Mention
  | .flag n => [⟨.bare, n⟩, ⟨.bare, n⟩]
  | .pair n v => [⟨.name, n⟩, ⟨.value, v⟩]

/-- The leaves of attributes are those that are mentioned. -/
theorem Attributes.leaves_eq_map_mentions (as : Attributes) :
    as.leaves = (as.toList.flatMap Attribute.mentions).map Mention.leaf := by
  rw [Attributes.leaves, List.map_flatMap]
  congr 1
  funext a
  cases a <;> rfl

namespace Tree

mutual

/-- The leaves of a tree, depth first. -/
def mentions : Tree → List Mention
  | .element tag attrs children =>
    ⟨.tag, tag.name⟩ :: attrs.toList.flatMap Attribute.mentions ++ forestMentions children
  | .data text => [⟨.text, text⟩]

/-- The leaves of several trees. -/
def forestMentions : List Tree → List Mention
  | [] => []
  | t :: ts => mentions t ++ forestMentions ts

end

mutual

/-- These are all leaves of the tree. -/
theorem leaves_eq_map_mentions : ∀ t : Tree, t.leaves = t.mentions.map Mention.leaf
  | .element tag attrs children => by
    simp [leaves, mentions, attrs.leaves_eq_map_mentions, forestLeaves_eq_map_mentions children]
  | .data text => rfl

theorem forestLeaves_eq_map_mentions :
    ∀ ts : List Tree, forestLeaves ts = (forestMentions ts).map Mention.leaf
  | [] => rfl
  | t :: ts => by
    rw [forestLeaves, forestMentions, List.map_append, leaves_eq_map_mentions t,
      forestLeaves_eq_map_mentions ts]

end

end Tree

/-! ### What becomes of the leaves of a draft -/

/-- A leaf of a draft in its role. -/
structure Given where
  /-- The role. -/
  role : Role
  /-- The leaf. -/
  leaf : Leaf
  /-- Whether it belongs to an attribute whose name has been given before at the same element. -/
  repeated : Bool

/-- What is kept of a leaf: a text as written or in lowercase, at the position as written. A bare
name is kept twice, as the name and as the value. -/
def Given.kept (g : Given) : List Mention :=
  match g.role with
  | .tag => [⟨.tag, g.leaf.map Ascii.lower⟩]
  | .name => [⟨.name, g.leaf.map Ascii.lower⟩]
  | .bare => [⟨.bare, g.leaf.map Ascii.lower⟩, ⟨.bare, g.leaf.map Ascii.lower⟩]
  | .value => [⟨.value, g.leaf⟩]
  | .text => [⟨.text, g.leaf⟩]

/-- The leaves of an attribute as written. -/
def Attribute.given (repeated : Bool) : Attribute → List Given
  | .flag n => [⟨.bare, n, repeated⟩]
  | .pair n v => [⟨.name, n, repeated⟩, ⟨.value, v, repeated⟩]

/-- The leaves of the attributes of an element as written. -/
def Attributes.given (written : List Attribute) : List Given :=
  written.zipIdx.flatMap fun p ↦
    p.1.given (p.1.key ∈ (written.take p.2).map Attribute.key)

namespace Draft

mutual

/-- The leaves of a draft in the order in which they were written. -/
def given : Draft → List Given
  | .element tag attrs children =>
    ⟨.tag, tag, false⟩ :: Attributes.given attrs ++ forestGiven children
  | .data text => [⟨.text, text, false⟩]

/-- The leaves of several drafts. -/
def forestGiven : List Draft → List Given
  | [] => []
  | d :: ds => given d ++ forestGiven ds

end

end Draft

/-- What is kept of the given leaves: nothing of repeated attributes, and of each other leaf what
its role asks for. -/
def keptLeaves (given : List Given) : List Mention :=
  (given.filter fun g ↦ !g.repeated).flatMap Given.kept

/-- What is kept of two parts is kept of each of them. -/
theorem keptLeaves_append (given more : List Given) :
    keptLeaves (given ++ more) = keptLeaves given ++ keptLeaves more := by
  rw [keptLeaves, List.filter_append, List.flatMap_append]
  rfl

/-- Of an attribute both leaves are kept, or none. -/
theorem Attribute.keptLeaves_given (repeated : Bool) (a : Attribute) :
    keptLeaves (a.given repeated) = if repeated then [] else a.normalize.mentions := by
  cases repeated <;> cases a <;> rfl

/-- A further attribute counts as repeated if its name has been written. -/
theorem Attributes.given_concat (written : List Attribute) (a : Attribute) :
    Attributes.given (written ++ [a]) =
      Attributes.given written ++ a.given (a.key ∈ written.map Attribute.key) := by
  rw [Attributes.given, List.zipIdx_append, List.flatMap_append]
  congr 1
  · refine List.flatMap_congr fun p hp ↦ ?_
    rw [take_append_of_mem_zipIdx [a] hp]
  · simp

/-- What is kept of the attributes of an element are the leaves of the attributes that its list
stores. -/
theorem Attributes.keptLeaves_given (written : List Attribute) :
    keptLeaves (Attributes.given written) =
      (firsts (written.map Attribute.normalize)).flatMap Attribute.mentions := by
  induction written using List.reverseRecOn with
  | nil => rfl
  | append_singleton written a ih =>
    rw [given_concat, keptLeaves_append, ih, Attribute.keptLeaves_given, List.map_append,
      List.map_singleton, firsts_concat, List.flatMap_append,
      map_key_map Attribute.key_normalize, Attribute.key_normalize]
    by_cases h : a.key ∈ written.map Attribute.key <;> simp [h]

/-! ### The leaves of the tree -/

namespace Draft

mutual

/-- **The leaves of a tree are those of its draft**, without those of repeated attributes. -/
theorem Built.mentions_eq : ∀ {d : Draft} {t : Tree}, d.Built t → t.mentions = keptLeaves d.given
  | _, _, @Built.element written as ds ts tag log hmade hforest => by
    have hgiven : keptLeaves (Draft.element tag written ds).given =
        ⟨.tag, tag.map Ascii.lower⟩ ::
          (keptLeaves (Attributes.given written) ++ keptLeaves (forestGiven ds)) := by
      rw [← keptLeaves_append]
      rfl
    rw [Tree.run_buildElement, hgiven, Tree.mentions, hmade.toList_eq_firsts,
      Attributes.keptLeaves_given, hforest.forestMentions_eq]
    rfl
  | _, _, .data text => rfl

theorem BuiltForest.forestMentions_eq : ∀ {ds : List Draft} {ts : List Tree},
    BuiltForest ds ts → Tree.forestMentions ts = keptLeaves (forestGiven ds)
  | _, _, .nil => rfl
  | _, _, .cons htree hforest => by
    rw [Tree.forestMentions, forestGiven, keptLeaves_append, htree.mentions_eq,
      hforest.forestMentions_eq]

end

end Draft

/-! ### Positions in a source -/

/-- A leaf that was read at a location has the text that the source has there. -/
def Leaf.StandsIn (source : String) (x : Leaf) : Prop :=
  ∀ l ∈ x.pos.location, l.slice? source = some x.value

/-- The same of a leaf in its role, up to letter case if the text is not kept as written. -/
def Mention.StandsIn (source : String) (m : Mention) : Prop :=
  ∀ l ∈ m.leaf.pos.location, ∃ s, l.slice? source = some s ∧
    if m.role.isVerbatim then s = m.leaf.value else Ascii.agree s m.leaf.value = true

instance (source : String) (x : Leaf) : Decidable (x.StandsIn source) :=
  inferInstanceAs (Decidable (∀ l ∈ x.pos.location, l.slice? source = some x.value))

/-- What is kept of a leaf has its role, and its text as written or in lowercase. -/
theorem Given.role_eq_and_leaf_eq_of_mem_kept {g : Given} {m : Mention} (hm : m ∈ g.kept) :
    m.role = g.role ∧
      m.leaf = if g.role.isVerbatim then g.leaf else g.leaf.map Ascii.lower := by
  obtain ⟨role, leaf, repeated⟩ := g
  cases role with
  | bare =>
    -- the only role in which a leaf is kept twice
    have hm : m = ⟨.bare, leaf.map Ascii.lower⟩ := by simpa [kept] using hm
    rw [hm]
    exact ⟨rfl, rfl⟩
  | _ =>
    obtain rfl := List.mem_singleton.1 hm
    exact ⟨rfl, rfl⟩

/-- What is kept of a leaf stands in the source if the leaf does. -/
theorem Given.standsIn_of_mem_kept {source : String} {g : Given} (hg : g.leaf.StandsIn source)
    {m : Mention} (hm : m ∈ g.kept) : m.StandsIn source := by
  obtain ⟨hrole, hleaf⟩ := Given.role_eq_and_leaf_eq_of_mem_kept hm
  intro l hl
  rw [hleaf] at hl
  rw [hrole, hleaf]
  cases hverbatim : g.role.isVerbatim with
  | true =>
    rw [hverbatim, if_pos rfl] at hl
    exact ⟨g.leaf.value, hg l hl, rfl⟩
  | false =>
    rw [hverbatim, if_neg Bool.false_ne_true, Located.pos_map] at hl
    have hlower : Ascii.agree g.leaf.value (Ascii.lower g.leaf.value) = true :=
      Ascii.agree_iff.2 (Ascii.lower_lower g.leaf.value).symm
    exact ⟨g.leaf.value, hg l hl, hlower⟩

/-- What is kept stands in the source, if everything given does. -/
theorem standsIn_of_mem_keptLeaves {source : String} {given : List Given}
    (h : ∀ g ∈ given, g.leaf.StandsIn source) : ∀ m ∈ keptLeaves given, m.StandsIn source := by
  intro m hm
  obtain ⟨g, hg, hmg⟩ := List.mem_flatMap.1 hm
  exact Given.standsIn_of_mem_kept (h g (List.mem_filter.1 hg).1) hmg

namespace Draft

/-- **Positions are not lost.** From every draft a tree can be built. The leaves of every such tree
are the leaves of the draft, without those of repeated attributes, each at its own position; names
are in lowercase, a bare name is there twice, and values and text are as written. If the draft was
read off a source, so was every leaf of the tree, up to letter case where it is a name. -/
theorem built_keeps_leaves (d : Draft) :
    (∀ log : Log, d.Built (d.build.run log).1) ∧
      ∀ t : Tree, d.Built t →
        t.mentions = (d.given.filter fun g ↦ !g.repeated).flatMap Given.kept ∧
          t.leaves = t.mentions.map Mention.leaf ∧
          ∀ source : String, (∀ g ∈ d.given, g.leaf.StandsIn source) →
            ∀ m ∈ t.mentions, m.StandsIn source := by
  refine ⟨d.built_build, fun t ht ↦ ?_⟩
  have hmentions := ht.mentions_eq
  refine ⟨hmentions, t.leaves_eq_map_mentions, fun source hsource ↦ ?_⟩
  rw [hmentions]
  exact standsIn_of_mem_keptLeaves hsource

/-- A source with a repeated attribute, a bare name and letters outside ASCII. -/
def greetingSource : String :=
  "<P Class=\"X\" CLASS=y HIDDEN>hÄ</P>"

/-- A leaf on the first line of that source. -/
def greetingLeaf (text : String) (offset : UInt64) : Leaf :=
  ⟨text, .real ⟨"a.html", 1, offset + 1, offset, .ofNat text.utf8ByteSize⟩⟩

/-- What is written there, and an element that was made up. -/
def greeting : Draft :=
  .element (greetingLeaf "P" 1)
    [.pair (greetingLeaf "Class" 3) (greetingLeaf "X" 10),
      .pair (greetingLeaf "CLASS" 13) (greetingLeaf "y" 19), .flag (greetingLeaf "HIDDEN" 21)]
    [.data (greetingLeaf "hÄ" 28), .element (.fake "WBR" "inserted") [] []]

theorem greeting_keeps_leaves :
    (∀ g ∈ greeting.given, g.leaf.StandsIn greetingSource) ∧
      (greeting.build.run .empty).1.leaves =
        [greetingLeaf "p" 1, greetingLeaf "class" 3, greetingLeaf "X" 10,
          greetingLeaf "hidden" 21, greetingLeaf "hidden" 21, greetingLeaf "hÄ" 28,
          .fake "wbr" "inserted"] ∧
      ∀ m ∈ (greeting.build.run .empty).1.mentions, m.StandsIn greetingSource := by
  have hsource : ∀ g ∈ greeting.given, g.leaf.StandsIn greetingSource := by decide +kernel
  obtain ⟨hbuilt, hall⟩ := greeting.built_keeps_leaves
  obtain ⟨hmentions, hleaves, hstands⟩ := hall _ (hbuilt .empty)
  refine ⟨hsource, ?_, hstands greetingSource hsource⟩
  rw [hleaves, hmentions]
  decide +kernel

end Draft

end Hypertext
