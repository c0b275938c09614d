import Hypertext.Grammar.Node

/-!
# Serialized nodes

A node of a category with several forms is a record with one field, the key of its form; a form
with several parts is a sequence of them, the attributes first. Headings, tables, captions, items
and sets of frames have only one form and are records of their parts. A hole is `null`, and so is
a caption that is not there.
-/

namespace Hypertext

/-- The serialized form of several holes. -/
def Hole.listJson {kind : Unmodeled} (holes : List (Hole kind)) : Json :=
  .arr (holes.map Hole.toJson)

mutual

/-- The serialized form of a node. -/
def Node.toJson {c : Category} : Node c → Json
  | .plain text => .variant "Plain" text.toJson
  | .lift via n => .variant via.key n.toJson
  | .void kind as => .variant kind.key as.toJson
  | .verbatim kind as text => .variant kind.key (.arr [as.toJson, text.toJson])
  | .element kind as content => .variant kind.key (.arr [as.toJson, .arr content.toJsons])
  | .list kind as first rest =>
    .variant kind.key (.arr [as.toJson, .arr (first.toJson :: rest.toJsons)])
  | .definitions as entries =>
    .variant "Dl" (.arr [as.toJson, entries.toJson Hole.toJson])
  | .form as controls => .variant "Form" (.arr [as.toJson, Hole.listJson controls])
  | .map as areas => .variant "Map" (.arr [as.toJson, Hole.listJson areas])
  | .media kind as params alternate =>
    .variant kind.key (.arr [as.toJson, Hole.listJson params, .arr alternate.toJsons])
  | .heading level as content =>
    .obj [("level", level.toJson), ("attrs", as.toJson), ("content", .arr content.toJsons)]
  | .paragraph as content => .variant "P" (.arr [as.toJson, .arr content.toJsons])
  | .table as none colgroups rows =>
    .obj [("attrs", as.toJson), ("caption", .null), ("colgroups", Hole.listJson colgroups),
      ("content", Hole.listJson rows)]
  | .table as (some caption) colgroups rows =>
    .obj [("attrs", as.toJson), ("caption", caption.toJson),
      ("colgroups", Hole.listJson colgroups), ("content", Hole.listJson rows)]
  | .caption as content => .obj [("attrs", as.toJson), ("content", .arr content.toJsons)]
  | .item as flow => .obj [("attrs", as.toJson), ("flow", .arr flow.toJsons)]
  | .frames as content => .obj [("attrs", as.toJson), ("content", .arr content.toJsons)]
termination_by structural n => n

/-- The serialized forms of the nodes of a sequence. -/
def Content.toJsons {c : Category} : Content c → List Json
  | .nil => []
  | .cons x xs => x.toJson :: xs.toJsons
termination_by structural xs => xs

end

/-- The serialized form of a sequence. -/
def Content.toJson {c : Category} (xs : Content c) : Json :=
  .arr xs.toJsons

end Hypertext
