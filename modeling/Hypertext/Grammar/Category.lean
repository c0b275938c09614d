/-!
# Categories

The document grammar sorts nodes into categories: what may stand in running text, in a block, in a
list item, and so on. A node's category says where it may stand, and the content of an element is
a sequence of nodes of one category.
-/

namespace Hypertext

/-- What kind of place a node may stand in. -/
inductive Category where
  /-- Running text. -/
  | text
  /-- Markup of the appearance of text. -/
  | physical
  /-- Markup of the meaning of text. -/
  | semantic
  /-- What an anchor may hold. -/
  | anchor
  /-- A heading. -/
  | heading
  /-- What an address may hold. -/
  | address
  /-- A block. -/
  | block
  /-- A table. -/
  | table
  /-- The caption of a table. -/
  | caption
  /-- Blocks and text, mixed. -/
  | flow
  /-- An item of a list. -/
  | item
  /-- What a body may hold. -/
  | body
  /-- What a head may hold. -/
  | head
  /-- A set of frames. -/
  | frames
  /-- What a set of frames may hold. -/
  | frame
  deriving DecidableEq

end Hypertext
