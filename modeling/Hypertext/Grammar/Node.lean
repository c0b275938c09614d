import Hypertext.Grammar.Hole
import Hypertext.Grammar.HeadingLevel
import Hypertext.Grammar.Vocabulary
import Hypertext.Markup.Attributes
import Hypertext.NonEmpty

/-!
# Nodes

The nodes of the document grammar. The category of a node is part of its type, so a node in a
place where it may not stand cannot be written down: `Node .block` is a block, `Content .flow` is
a sequence of blocks and texts.

Elements are grouped by the form of their content. A list has at least one item, which its type
says by setting the first item apart.
-/

namespace Hypertext

mutual

/-- A node of a category. -/
inductive Node : Category → Type where
  /-- Character data. -/
  | plain (text : Leaf) : Node .text
  /-- A node of a category that is part of this one. -/
  | lift {c d : Category} (via : Inclusion c d) (node : Node c) : Node d
  /-- An element that holds nothing. -/
  | void {c : Category} (kind : Void c) (attrs : Attributes) : Node c
  /-- An element that holds text as it stands. -/
  | verbatim {c : Category} (kind : Verbatim c) (attrs : Attributes) (text : Leaf) : Node c
  /-- An element that holds a sequence of nodes. -/
  | element {c d : Category} (kind : Container c d) (attrs : Attributes) (content : Content d) :
      Node c
  /-- A list. -/
  | list (kind : ListKind) (attrs : Attributes) (first : Node .item) (rest : Content .item) :
      Node .block
  /-- A definition list. -/
  | definitions (attrs : Attributes) (entries : NonEmpty (Hole .dl)) : Node .block
  /-- A form. -/
  | form (attrs : Attributes) (controls : List (Hole .form)) : Node .block
  /-- An image map. -/
  | map (attrs : Attributes) (areas : List (Hole .area)) : Node .body
  /-- Embedded media, with the text to show in their place. -/
  | media (kind : Media) (attrs : Attributes) (params : List (Hole .param))
      (alternate : Content .text) : Node .text
  /-- A heading. -/
  | heading (level : HeadingLevel) (attrs : Attributes) (content : Content .text) : Node .heading
  /-- A paragraph of an address. -/
  | paragraph (attrs : Attributes) (content : Content .text) : Node .address
  /-- A table. -/
  | table (attrs : Attributes) (caption : Option (Node .caption))
      (colgroups : List (Hole .colgroup)) (rows : List (Hole .table)) : Node .table
  /-- The caption of a table. -/
  | caption (attrs : Attributes) (content : Content .text) : Node .caption
  /-- An item of a list. -/
  | item (attrs : Attributes) (flow : Content .flow) : Node .item
  /-- A set of frames. -/
  | frames (attrs : Attributes) (content : Content .frame) : Node .frames

/-- A sequence of nodes of a category. -/
inductive Content : Category → Type where
  /-- No nodes. -/
  | nil {c : Category} : Content c
  /-- A node and those after it. -/
  | cons {c : Category} (first : Node c) (rest : Content c) : Content c

end

namespace Content

variable {c : Category}

instance : Inhabited (Content c) :=
  ⟨.nil⟩

instance : EmptyCollection (Content c) where
  emptyCollection := .nil

/-- The nodes in order. -/
def toList : Content c → List (Node c)
  | .nil => []
  | .cons x xs => x :: toList xs

/-- The sequence of the given nodes. -/
def ofList : List (Node c) → Content c
  | [] => .nil
  | x :: xs => .cons x (ofList xs)

/-- A sequence made from a list has its items. -/
@[simp]
theorem toList_ofList (l : List (Node c)) : (ofList l).toList = l := by
  induction l with
  | nil => rfl
  | cons x xs ih => simp [ofList, toList, ih]

/-- A sequence is made from its items again. -/
@[simp]
theorem ofList_toList : ∀ xs : Content c, ofList xs.toList = xs
  | .nil => rfl
  | .cons x xs => by rw [toList, ofList, ofList_toList xs]

/-- The number of nodes. -/
def length (xs : Content c) : Nat :=
  xs.toList.length

/-- Whether there are no nodes. -/
def isEmpty (xs : Content c) : Bool :=
  xs.toList.isEmpty

end Content

namespace Node

/-- A list of the given items, with the sequence split at its first. -/
def ofItems (kind : ListKind) (attrs : Attributes) (items : NonEmpty (Node .item)) :
    Node .block :=
  .list kind attrs items.head (.ofList items.tail)

/-- The tag name of the element at a node. Character data has none, and neither have the parts
that belong to the element around them: list items, captions and the paragraphs of an address. -/
def tagName? {c : Category} : Node c → Option String
  | .plain _ => none
  | .lift _ n => tagName? n
  | .void kind _ => kind.tagName
  | .verbatim kind _ _ => kind.tagName
  | .element kind _ _ => kind.tagName
  | .list kind _ _ _ => kind.tagName
  | .definitions _ _ => "dl"
  | .form _ _ => "form"
  | .map _ _ => "map"
  | .media kind _ _ _ => kind.tagName
  | .heading level _ _ => level.name
  | .paragraph _ _ => none
  | .table _ _ _ _ => "table"
  | .caption _ _ => none
  | .item _ _ => none
  | .frames _ _ => "frameset"

/-- The attributes of the element at a node. Character data has none. -/
def attrs {c : Category} : Node c → Attributes
  | .plain _ => ∅
  | .lift _ n => attrs n
  | .void _ as => as
  | .verbatim _ as _ => as
  | .element _ as _ => as
  | .list _ as _ _ => as
  | .definitions as _ => as
  | .form as _ => as
  | .map as _ => as
  | .media _ as _ _ => as
  | .heading _ as _ => as
  | .paragraph as _ => as
  | .table as _ _ _ => as
  | .caption as _ => as
  | .item as _ => as
  | .frames as _ => as

/-- The running text directly inside an element that holds running text. -/
def texts {c : Category} : Node c → List (Node .text)
  | .lift _ n => texts n
  | @element _ d _ _ content => if h : d = .text then (h ▸ content).toList else []
  | .heading _ _ content => content.toList
  | .paragraph _ content => content.toList
  | .caption _ content => content.toList
  | _ => []

end Node

end Hypertext
