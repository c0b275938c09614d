import Hypertext.Grammar.Node

/-!
# Induction over nodes

Nodes and sequences of nodes are built from each other, so what is proved of one has to be proved
of the other with it. `Node.Hereditary P Q` lists what that takes, one field for each way to build
a node or a sequence, and `Node.Hereditary.node` and `Node.Hereditary.content` conclude.

A table without a caption and a table with one are two cases here: the caption is a node, and the
second case says of it what is said of every other part.
-/

namespace Hypertext

/-- `P` passes from the parts of a node to the node, and `Q` from those of a sequence to the
sequence. -/
structure Node.Hereditary (P : ∀ {c : Category}, Node c → Prop)
    (Q : ∀ {c : Category}, Content c → Prop) : Prop where
  plain (text : Leaf) : P (.plain text)
  lift {c d : Category} (via : Inclusion c d) (n : Node c) : P n → P (.lift via n)
  void {c : Category} (kind : Void c) (as : Attributes) : P (.void kind as)
  verbatim {c : Category} (kind : Verbatim c) (as : Attributes) (text : Leaf) :
    P (.verbatim kind as text)
  element {c d : Category} (kind : Container c d) (as : Attributes) (content : Content d) :
    Q content → P (.element kind as content)
  list (kind : ListKind) (as : Attributes) (first : Node .item) (rest : Content .item) :
    P first → Q rest → P (.list kind as first rest)
  definitions (as : Attributes) (entries : NonEmpty (Hole .dl)) : P (.definitions as entries)
  form (as : Attributes) (controls : List (Hole .form)) : P (.form as controls)
  map (as : Attributes) (areas : List (Hole .area)) : P (.map as areas)
  media (kind : Media) (as : Attributes) (params : List (Hole .param)) (alternate : Content .text) :
    Q alternate → P (.media kind as params alternate)
  heading (level : HeadingLevel) (as : Attributes) (content : Content .text) :
    Q content → P (.heading level as content)
  paragraph (as : Attributes) (content : Content .text) : Q content → P (.paragraph as content)
  table (as : Attributes) (colgroups : List (Hole .colgroup)) (rows : List (Hole .table)) :
    P (.table as none colgroups rows)
  captionedTable (as : Attributes) (caption : Node .caption) (colgroups : List (Hole .colgroup))
    (rows : List (Hole .table)) : P caption → P (.table as (some caption) colgroups rows)
  caption (as : Attributes) (content : Content .text) : Q content → P (.caption as content)
  item (as : Attributes) (flow : Content .flow) : Q flow → P (.item as flow)
  frames (as : Attributes) (content : Content .frame) : Q content → P (.frames as content)
  nil {c : Category} : Q (.nil : Content c)
  cons {c : Category} (x : Node c) (xs : Content c) : P x → Q xs → Q (.cons x xs)

namespace Node.Hereditary

variable {P : ∀ {c : Category}, Node c → Prop} {Q : ∀ {c : Category}, Content c → Prop}

mutual

/-- What passes from parts to nodes holds of every node. -/
theorem node (h : Hereditary P Q) {c : Category} : ∀ n : Node c, P n
  | .plain text => h.plain text
  | .lift via n => h.lift via n (h.node n)
  | .void kind as => h.void kind as
  | .verbatim kind as text => h.verbatim kind as text
  | .element kind as content => h.element kind as content (h.content content)
  | .list kind as first rest => h.list kind as first rest (h.node first) (h.content rest)
  | .definitions as entries => h.definitions as entries
  | .form as controls => h.form as controls
  | .map as areas => h.map as areas
  | .media kind as params alternate => h.media kind as params alternate (h.content alternate)
  | .heading level as content => h.heading level as content (h.content content)
  | .paragraph as content => h.paragraph as content (h.content content)
  | .table as none colgroups rows => h.table as colgroups rows
  | .table as (some caption) colgroups rows =>
    h.captionedTable as caption colgroups rows (h.node caption)
  | .caption as content => h.caption as content (h.content content)
  | .item as flow => h.item as flow (h.content flow)
  | .frames as content => h.frames as content (h.content content)
termination_by structural n => n

/-- What passes from parts to sequences holds of every sequence. -/
theorem content (h : Hereditary P Q) {c : Category} : ∀ xs : Content c, Q xs
  | .nil => h.nil
  | .cons x xs => h.cons x xs (h.node x) (h.content xs)
termination_by structural xs => xs

end

end Node.Hereditary

end Hypertext
