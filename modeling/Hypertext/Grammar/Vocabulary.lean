import Hypertext.Grammar.Category

/-!
# Vocabulary

The elements of the grammar, sorted by category and by what they hold: nothing (`Void`), text that
is not looked into (`Verbatim`), or a sequence of nodes (`Container`). Lists (`ListKind`) and
embedded media (`Media`) have content of their own form. `Inclusion` says which categories are
part of which others.

Each element has a tag name, under which it is known in markup, and a key, under which it is
serialized. Within a category an element is found by its key (`ofKey?`).
-/

namespace Hypertext

/-- `Inclusion c d`: a node of category `c` may stand where category `d` is asked for. -/
inductive Inclusion : Category → Category → Type where
  | physicalText : Inclusion .physical .text
  | semanticText : Inclusion .semantic .text
  | headingAnchor : Inclusion .heading .anchor
  | textAnchor : Inclusion .text .anchor
  | textAddress : Inclusion .text .address
  | tableBlock : Inclusion .table .block
  | blockFlow : Inclusion .block .flow
  | textFlow : Inclusion .text .flow
  | headingBody : Inclusion .heading .body
  | blockBody : Inclusion .block .body
  | textBody : Inclusion .text .body
  | framesFrame : Inclusion .frames .frame
  deriving DecidableEq

namespace Inclusion

/-- The key of an included node, named for its own category. -/
def key {c d : Category} : Inclusion c d → String
  | .physicalText => "Physical"
  | .semanticText => "Semantic"
  | .headingAnchor => "Heading"
  | .textAnchor => "Text"
  | .textAddress => "Text"
  | .tableBlock => "Table"
  | .blockFlow => "Block"
  | .textFlow => "Text"
  | .headingBody => "Heading"
  | .blockBody => "Block"
  | .textBody => "Text"
  | .framesFrame => "Frameset"

/-- The categories included in a category. -/
def all : (d : Category) → List ((c : Category) × Inclusion c d)
  | .text => [⟨_, .physicalText⟩, ⟨_, .semanticText⟩]
  | .anchor => [⟨_, .headingAnchor⟩, ⟨_, .textAnchor⟩]
  | .address => [⟨_, .textAddress⟩]
  | .block => [⟨_, .tableBlock⟩]
  | .flow => [⟨_, .blockFlow⟩, ⟨_, .textFlow⟩]
  | .body => [⟨_, .headingBody⟩, ⟨_, .blockBody⟩, ⟨_, .textBody⟩]
  | .frame => [⟨_, .framesFrame⟩]
  | _ => []

/-- The category included under a key. -/
def ofKey? (d : Category) (key : String) : Option ((c : Category) × Inclusion c d) :=
  (all d).find? fun i ↦ i.2.key == key

end Inclusion

/-- `Void c`: an element of category `c` that holds nothing. -/
inductive Void : Category → Type where
  | br : Void .text
  | img : Void .text
  | embed : Void .text
  | spacer : Void .text
  | wbr : Void .text
  | hr : Void .body
  | bgsound : Void .body
  | basefont : Void .block
  | isindex : Void .block
  | frame : Void .frame
  | metadata : Void .head
  | link : Void .head
  | base : Void .head
  | headIsindex : Void .head
  | nextid : Void .head
  deriving DecidableEq

namespace Void

/-- The name of the element in markup. -/
def tagName {c : Category} : Void c → String
  | .br => "br"
  | .img => "img"
  | .embed => "embed"
  | .spacer => "spacer"
  | .wbr => "wbr"
  | .hr => "hr"
  | .bgsound => "bgsound"
  | .basefont => "basefont"
  | .isindex => "isindex"
  | .frame => "frame"
  | .metadata => "meta"
  | .link => "link"
  | .base => "base"
  | .headIsindex => "isindex"
  | .nextid => "nextid"

/-- The key of the element in serialized form. -/
def key {c : Category} : Void c → String
  | .br => "Br"
  | .img => "Img"
  | .embed => "Embed"
  | .spacer => "Spacer"
  | .wbr => "Wbr"
  | .hr => "Hr"
  | .bgsound => "Bgsound"
  | .basefont => "Basefont"
  | .isindex => "Isindex"
  | .frame => "Frame"
  | .metadata => "Meta"
  | .link => "Link"
  | .base => "Base"
  | .headIsindex => "Isindex"
  | .nextid => "Nextid"

/-- The elements of a category. -/
def all : (c : Category) → List (Void c)
  | .text => [.br, .img, .embed, .spacer, .wbr]
  | .body => [.hr, .bgsound]
  | .block => [.basefont, .isindex]
  | .frame => [.frame]
  | .head => [.metadata, .link, .base, .headIsindex, .nextid]
  | _ => []

/-- The element of a category with a key. -/
def ofKey? (c : Category) (key : String) : Option (Void c) :=
  (all c).find? fun e ↦ e.key == key

end Void

/-- `Verbatim c`: an element of category `c` that holds text as it stands. -/
inductive Verbatim : Category → Type where
  | listing : Verbatim .block
  | xmp : Verbatim .block
  | title : Verbatim .head
  | style : Verbatim .head
  deriving DecidableEq

namespace Verbatim

/-- The name of the element in markup. -/
def tagName {c : Category} : Verbatim c → String
  | .listing => "listing"
  | .xmp => "xmp"
  | .title => "title"
  | .style => "style"

/-- The key of the element in serialized form. -/
def key {c : Category} : Verbatim c → String
  | .listing => "Listing"
  | .xmp => "Xmp"
  | .title => "Title"
  | .style => "Style"

/-- The elements of a category. -/
def all : (c : Category) → List (Verbatim c)
  | .block => [.listing, .xmp]
  | .head => [.title, .style]
  | _ => []

/-- The element of a category with a key. -/
def ofKey? (c : Category) (key : String) : Option (Verbatim c) :=
  (all c).find? fun e ↦ e.key == key

end Verbatim

/-- `Container c d`: an element of category `c` that holds nodes of category `d`. -/
inductive Container : Category → Category → Type where
  | b : Container .physical .text
  | i : Container .physical .text
  | tt : Container .physical .text
  | big : Container .physical .text
  | small : Container .physical .text
  | blink : Container .physical .text
  | s : Container .physical .text
  | u : Container .physical .text
  | font : Container .physical .text
  | sub : Container .physical .text
  | sup : Container .physical .text
  | span : Container .physical .text
  | bdo : Container .physical .text
  | strike : Container .physical .text
  | em : Container .semantic .text
  | strong : Container .semantic .text
  | abbr : Container .semantic .text
  | acronym : Container .semantic .text
  | cite : Container .semantic .text
  | code : Container .semantic .text
  | dfn : Container .semantic .text
  | kbd : Container .semantic .text
  | q : Container .semantic .text
  | var : Container .semantic .text
  | anchor : Container .text .anchor
  | iframe : Container .text .flow
  | noscript : Container .text .body
  | ilayer : Container .text .body
  | blockquote : Container .block .body
  | center : Container .block .body
  | div : Container .block .body
  | multicol : Container .block .body
  | pre : Container .block .text
  | p : Container .block .text
  | nobr : Container .block .text
  | marquee : Container .body .text
  | layer : Container .body .body
  | del : Container .body .flow
  | ins : Container .body .flow
  | address : Container .body .address
  | noframes : Container .frame .body
  deriving DecidableEq

namespace Container

/-- The name of the element in markup. -/
def tagName {c d : Category} : Container c d → String
  | .b => "b"
  | .i => "i"
  | .tt => "tt"
  | .big => "big"
  | .small => "small"
  | .blink => "blink"
  | .s => "s"
  | .u => "u"
  | .font => "font"
  | .sub => "sub"
  | .sup => "sup"
  | .span => "span"
  | .bdo => "bdo"
  | .strike => "strike"
  | .em => "em"
  | .strong => "strong"
  | .abbr => "abbr"
  | .acronym => "acronym"
  | .cite => "cite"
  | .code => "code"
  | .dfn => "dfn"
  | .kbd => "kbd"
  | .q => "q"
  | .var => "var"
  | .anchor => "a"
  | .iframe => "iframe"
  | .noscript => "noscript"
  | .ilayer => "ilayer"
  | .blockquote => "blockquote"
  | .center => "center"
  | .div => "div"
  | .multicol => "multicol"
  | .pre => "pre"
  | .p => "p"
  | .nobr => "nobr"
  | .marquee => "marquee"
  | .layer => "layer"
  | .del => "del"
  | .ins => "ins"
  | .address => "address"
  | .noframes => "noframes"

/-- The key of the element in serialized form. -/
def key {c d : Category} : Container c d → String
  | .b => "B"
  | .i => "I"
  | .tt => "Tt"
  | .big => "Big"
  | .small => "Small"
  | .blink => "Blink"
  | .s => "S"
  | .u => "U"
  | .font => "Font"
  | .sub => "Sub"
  | .sup => "Sup"
  | .span => "Span"
  | .bdo => "Bdo"
  | .strike => "Strike"
  | .em => "Em"
  | .strong => "Strong"
  | .abbr => "Abbr"
  | .acronym => "Acronym"
  | .cite => "Cite"
  | .code => "Code"
  | .dfn => "Dfn"
  | .kbd => "Kbd"
  | .q => "Q"
  | .var => "Var"
  | .anchor => "Anchor"
  | .iframe => "Iframe"
  | .noscript => "Noscript"
  | .ilayer => "Ilayer"
  | .blockquote => "Blockquote"
  | .center => "Center"
  | .div => "Div"
  | .multicol => "Multicol"
  | .pre => "Pre"
  | .p => "P"
  | .nobr => "Nobr"
  | .marquee => "Marquee"
  | .layer => "Layer"
  | .del => "Del"
  | .ins => "Ins"
  | .address => "Address"
  | .noframes => "Noframes"

/-- The elements of a category. -/
def all : (c : Category) → List ((d : Category) × Container c d)
  | .physical => [⟨_, .b⟩, ⟨_, .i⟩, ⟨_, .tt⟩, ⟨_, .big⟩, ⟨_, .small⟩, ⟨_, .blink⟩, ⟨_, .s⟩,
      ⟨_, .u⟩, ⟨_, .font⟩, ⟨_, .sub⟩, ⟨_, .sup⟩, ⟨_, .span⟩, ⟨_, .bdo⟩, ⟨_, .strike⟩]
  | .semantic => [⟨_, .em⟩, ⟨_, .strong⟩, ⟨_, .abbr⟩, ⟨_, .acronym⟩, ⟨_, .cite⟩, ⟨_, .code⟩,
      ⟨_, .dfn⟩, ⟨_, .kbd⟩, ⟨_, .q⟩, ⟨_, .var⟩]
  | .text => [⟨_, .anchor⟩, ⟨_, .iframe⟩, ⟨_, .noscript⟩, ⟨_, .ilayer⟩]
  | .block => [⟨_, .blockquote⟩, ⟨_, .center⟩, ⟨_, .div⟩, ⟨_, .multicol⟩, ⟨_, .pre⟩, ⟨_, .p⟩,
      ⟨_, .nobr⟩]
  | .body => [⟨_, .marquee⟩, ⟨_, .layer⟩, ⟨_, .del⟩, ⟨_, .ins⟩, ⟨_, .address⟩]
  | .frame => [⟨_, .noframes⟩]
  | _ => []

/-- The element of a category with a key. -/
def ofKey? (c : Category) (key : String) : Option ((d : Category) × Container c d) :=
  (all c).find? fun e ↦ e.2.key == key

end Container

/-- A list of items, of which there has to be one. -/
inductive ListKind where
  | menu
  | dir
  | ol
  | ul
  deriving DecidableEq

namespace ListKind

/-- The name of the element in markup. -/
def tagName : ListKind → String
  | .menu => "menu"
  | .dir => "dir"
  | .ol => "ol"
  | .ul => "ul"

/-- The key of the element in serialized form. -/
def key : ListKind → String
  | .menu => "Menu"
  | .dir => "Dir"
  | .ol => "Ol"
  | .ul => "Ul"

/-- All elements of the kind. -/
def all : List ListKind :=
  [.menu, .dir, .ol, .ul]

/-- The element with a key. -/
def ofKey? (key : String) : Option ListKind :=
  all.find? fun e ↦ e.key == key

end ListKind

/-- Embedded media, with parameters and a text to show in their place. -/
inductive Media where
  | applet
  | object
  deriving DecidableEq

namespace Media

/-- The name of the element in markup. -/
def tagName : Media → String
  | .applet => "applet"
  | .object => "object"

/-- The key of the element in serialized form. -/
def key : Media → String
  | .applet => "Applet"
  | .object => "Object"

/-- All elements of the kind. -/
def all : List Media :=
  [.applet, .object]

/-- The element with a key. -/
def ofKey? (key : String) : Option Media :=
  all.find? fun e ↦ e.key == key

end Media

end Hypertext
