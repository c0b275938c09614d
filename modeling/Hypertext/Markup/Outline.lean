import Hypertext.Markup.Tree

/-!
# Outlines

A tree for a reader: one entry per node, indented by two blanks per level, the children after
their parent. An element shows its tag and its attributes, character data is shown between quotes.

Quoted strings escape the quote and the backslash. In character data a line break is shown as `\n`
and a blank as a raised dot (U+00B7), so that blanks at the ends can be seen.
-/

namespace Hypertext

namespace Outline

/-- Replaces every occurrence of a character. -/
def replaceChar (c : Char) (replacement : List Char) (s : List Char) : List Char :=
  s.flatMap fun x ↦ if x = c then replacement else [x]

/-- The inside of a quoted string: backslashes are escaped first, then quotes. -/
def escape (s : List Char) : List Char :=
  replaceChar '"' ['\\', '"'] (replaceChar '\\' ['\\', '\\'] s)

/-- The inside of a quoted text, with line breaks and blanks made visible. -/
def visible (s : List Char) : List Char :=
  replaceChar ' ' ['\u00b7'] (replaceChar '\n' ['\\', 'n'] (escape s))

/-- A string between quotes. -/
def quoted (inside : List Char) : List Char :=
  '"' :: inside ++ ['"']

/-- An attribute after a blank: its name and, unless it is a bare name, its quoted value. -/
def attributeChars : Attribute → List Char
  | .flag name => ' ' :: name.value.toList
  | .pair name value => ' ' :: name.value.toList ++ '=' :: quoted (escape value.value.toList)

/-- An element's own entry. -/
def elementChars (tag : Tag) (attrs : Attributes) : List Char :=
  '<' :: tag.name.value.toList ++ attrs.toList.flatMap attributeChars ++ ['>']

/-- The entry of character data. -/
def dataChars (text : Leaf) : List Char :=
  quoted (visible text.value.toList)

/-- An entry on its line. -/
def entry (depth : Nat) (header : List Char) : String :=
  String.ofList (List.replicate (2 * depth) ' ' ++ header ++ ['\n'])

mutual

/-- Appends the outline of a tree at a depth to what has been written. -/
def write (depth : Nat) (out : String) : Tree → String
  | .element tag attrs children =>
    writeForest (depth + 1) (out ++ entry depth (elementChars tag attrs)) children
  | .data text => out ++ entry depth (dataChars text)

/-- Appends the outlines of several trees. -/
def writeForest (depth : Nat) (out : String) : List Tree → String
  | [] => out
  | t :: ts => writeForest depth (write depth out t) ts

end

end Outline

/-- The outline of a tree. -/
def Tree.outline (t : Tree) : String :=
  Outline.write 0 "" t

end Hypertext
