import Mathlib.Data.List.Nodup
import Hypertext.Grammar.Document
import Hypertext.Proofs.Kinds

/-!
# What a tag name tells

The elements of the grammar have tag names, and they have keys under which they are serialized. The
two come from tables of their own. They agree: the tag name of a node can be **read off** its
serialized form, without a table of elements (`Json.readTag?`). One goes down through the keys that
only say to which category a node belongs, and the key after them is the tag name up to letter
case. Character data has no tag name, a heading has its level's and an anchor has `a`.

The converse is that a tag name tells **which element** a node of a body is, and in which categories
it is found. `Node.route` is the way down to the element, with the level if it is a heading. Ways
are enumerated category by category (`Route.upTo`), which takes as many rounds as inclusions follow
on each other (`Inclusion.rank_lt`). Every node's way is among them (`Node.route_mem_upTo`), and in
a body no two ways lead to the same tag name (`Route.nodup_tagNames`).
-/

namespace Hypertext

/-! ### Reading a tag name -/

namespace Json

/-- The keys that only say to which category a node belongs. -/
def wrapperKeys : List String :=
  ["Block", "Text", "Physical", "Semantic"]

/-- The innermost variant of a serialized node: its key, and what stands under it. -/
def innermost? : Json → Option (String × Json)
  | .obj [(key, payload)] =>
    if key ∈ wrapperKeys then innermost? payload else some (key, payload)
  | _ => none
termination_by structural j => j

/-- The text in a field of a record. -/
def textField? (name : String) : Json → Option String
  | .obj fields =>
    match fields.lookup name with
    | some (.str text) => some text
    | _ => none
  | _ => none

/-- The name of the element with a key. -/
def nameOfKey (key : String) : String :=
  if key = "Anchor" then "a" else Ascii.lower key

/-- The tag name that an innermost variant stands for, if it stands for any. -/
def nameOfVariant? (key : String) (payload : Json) : Option (Option String) :=
  if key = "Plain" then some none
  else if key = "Heading" then (payload.textField? "level").map fun level ↦ some (Ascii.lower level)
  else some (some (nameOfKey key))

/-- The tag name read off a serialized node. Where there is nothing to be read, there is no answer;
for character data the answer is that there is none. -/
def readTag? (j : Json) : Option (Option String) :=
  j.innermost?.bind fun v ↦ nameOfVariant? v.1 v.2

/-- Keys that only say to which category a node belongs are passed. -/
theorem readTag?_wrapper {key : String} (hkey : key ∈ wrapperKeys) (payload : Json) :
    (variant key payload).readTag? = payload.readTag? := by
  rw [readTag?, variant, innermost?, if_pos hkey]
  rfl

/-- An element is named by its key. -/
def Names (key name : String) : Prop :=
  key ∉ "Plain" :: "Heading" :: wrapperKeys ∧ nameOfKey key = name

instance (key name : String) : Decidable (Names key name) :=
  inferInstanceAs (Decidable (_ ∧ _))

/-- An element that is named by its key is read by it, whatever stands under the key. -/
theorem Names.readTag? {key name : String} (h : Names key name) (payload : Json) :
    (variant key payload).readTag? = some (some name) := by
  obtain ⟨hkey, hname⟩ := h
  rw [List.mem_cons, List.mem_cons, not_or, not_or] at hkey
  rw [Json.readTag?, variant, innermost?, if_neg hkey.2.2, Option.bind_some, nameOfVariant?,
    if_neg hkey.1, if_neg hkey.2.1, hname]

/-- Where no key on the way and no exception stands, the tag name is the key in lowercase. -/
theorem readTag?_of_key? {j : Json} {key : String} (hj : j.key? = some key)
    (hkey : key ∉ "Anchor" :: "Plain" :: "Heading" :: wrapperKeys) :
    j.readTag? = some (some (Ascii.lower key)) := by
  rw [List.mem_cons, not_or] at hkey
  have hnames : Names key (Ascii.lower key) := ⟨hkey.2, if_neg hkey.1⟩
  unfold Json.key? at hj
  split at hj
  · obtain rfl := Option.some.inj hj
    exact hnames.readTag? _
  · cases hj

end Json

open Json

/-! ### The two tables -/

theorem Void.names {c : Category} (kind : Void c) : Names kind.key kind.tagName := by
  cases kind <;> decide

theorem Verbatim.names {c : Category} (kind : Verbatim c) : Names kind.key kind.tagName := by
  cases kind <;> decide

theorem Container.names {c d : Category} (kind : Container c d) : Names kind.key kind.tagName := by
  cases kind <;> decide

theorem ListKind.names (kind : ListKind) : Names kind.key kind.tagName := by
  cases kind <;> decide

theorem Media.names (kind : Media) : Names kind.key kind.tagName := by
  cases kind <;> decide

/-- A level's key in lowercase is the tag name of its headings. -/
theorem HeadingLevel.lower_key (level : HeadingLevel) : Ascii.lower level.key = level.name := by
  cases level <;> rfl

/-- The categories whose nodes are serialized under keys of their elements. -/
def Category.Keyed : Category → Prop
  | .text | .physical | .semantic | .anchor | .block | .flow | .body | .head | .frame => True
  | .heading | .address | .table | .caption | .item | .frames => False

/-- A heading is read by its level. -/
theorem Node.readTag?_heading (n : Node .heading) :
    (variant "Heading" n.toJson).readTag? = some n.tagName? := by
  have hkind : SameKind n (.heading .h1 ∅ ∅) :=
    sameKind_of_kind_eq (List.mem_singleton.1 n.kind.mem_all)
  cases hkind with
  | heading level _ as _ content _ =>
    have hread : (variant "Heading" (Node.heading level as content).toJson).readTag? =
        some (some (Ascii.lower level.key)) := rfl
    rw [hread, level.lower_key]
    rfl

theorem Node.tagName?_eq_table (n : Node .table) : n.tagName? = some "table" := by
  have hkind : SameKind n (.table ∅ none [] []) :=
    sameKind_of_kind_eq (List.mem_singleton.1 n.kind.mem_all)
  cases hkind
  rfl

theorem Node.tagName?_eq_frameset (n : Node .frames) : n.tagName? = some "frameset" := by
  have hkind : SameKind n (.frames ∅ ∅) :=
    sameKind_of_kind_eq (List.mem_singleton.1 n.kind.mem_all)
  cases hkind
  rfl

/-- An included node is read by what it is, or its key is the name of the one element that it can
be. -/
theorem Node.readTag?_toJson_lift {c d : Category} (via : Inclusion c d) (n : Node c)
    (hn : c.Keyed → n.toJson.readTag? = some n.tagName?) (hd : d.Keyed) :
    (Node.lift via n).toJson.readTag? = some n.tagName? := by
  rw [Node.toJson]
  cases via with
  | textAddress => exact hd.elim
  | headingAnchor => exact n.readTag?_heading
  | headingBody => exact n.readTag?_heading
  | tableBlock =>
    rw [n.tagName?_eq_table]
    exact (by decide : Names "Table" "table").readTag? _
  | framesFrame =>
    rw [n.tagName?_eq_frameset]
    exact (by decide : Names "Frameset" "frameset").readTag? _
  | _ =>
    rw [readTag?_wrapper (by decide)]
    exact hn trivial

/-- **The tag name of a node is read off its serialized form.** -/
theorem Node.readTag?_toJson {c : Category} :
    ∀ n : Node c, c.Keyed → n.toJson.readTag? = some n.tagName?
  | .plain _, _ => rfl
  | .lift via n, hd => readTag?_toJson_lift via n (readTag?_toJson n) hd
  | .void kind _, _ => kind.names.readTag? _
  | .verbatim kind _ _, _ => kind.names.readTag? _
  | .element kind _ _, _ => kind.names.readTag? _
  | .list kind _ _ _, _ => kind.names.readTag? _
  | .definitions _ _, _ => (by decide : Names "Dl" "dl").readTag? _
  | .form _ _, _ => (by decide : Names "Form" "form").readTag? _
  | .map _ _, _ => (by decide : Names "Map" "map").readTag? _
  | .media kind _ _ _, _ => kind.names.readTag? _
  | .heading _ _ _, hc => hc.elim
  | .paragraph _ _, hc => hc.elim
  | .table _ _ _ _, hc => hc.elim
  | .caption _ _, hc => hc.elim
  | .item _ _, hc => hc.elim
  | .frames _ _, hc => hc.elim
termination_by structural n => n

/-! ### Ways to an element -/

/-- The way to an element from a category: into a category that is part of it and on from there, or
to an element of its own. -/
inductive Route : Category → Type where
  /-- On through an inclusion. -/
  | inside {c d : Category} (via : Inclusion c d) (rest : Route c) : Route d
  /-- To a heading of a level. -/
  | heading (level : HeadingLevel) : Route .heading
  /-- To a kind of nodes. -/
  | here {c : Category} (kind : NodeKind c) : Route c

/-- The way to the element at a node, or to its character data. -/
def Node.route {c : Category} : Node c → Route c
  | .lift via n => .inside via n.route
  | .heading level _ _ => .heading level
  | n => .here n.kind

/-- The tag name of nodes of a kind. Of headings and included nodes the kind does not tell. -/
def NodeKind.tagName? {c : Category} : NodeKind c → Option String
  | .void kind => kind.tagName
  | .verbatim kind => kind.tagName
  | .element kind => kind.tagName
  | .list kind => kind.tagName
  | .media kind => kind.tagName
  | .definitions => "dl"
  | .form => "form"
  | .map => "map"
  | .table => "table"
  | .frames => "frameset"
  | .plain | .lift _ | .heading | .paragraph | .caption | .item => none

namespace Route

/-- The tag name at the end of a way. -/
def tagName? {c : Category} : Route c → Option String
  | .inside _ rest => rest.tagName?
  | .heading level => level.name
  | .here kind => kind.tagName?

/-- The ways that start with a kind, given those of each category. -/
def starting (ways : (c : Category) → List (Route c)) {d : Category} :
    NodeKind d → List (Route d)
  | @NodeKind.lift c _ via => (ways c).map (.inside via)
  | .heading => HeadingLevel.all.map .heading
  | kind => [.here kind]

/-- The ways with fewer inclusions than some number. -/
def upTo : Nat → (c : Category) → List (Route c)
  | 0, _ => []
  | k + 1, c => (NodeKind.all c).flatMap (starting (upTo k))

end Route

/-- How many inclusions may follow on each other from a category on. -/
def Category.rank : Category → Nat
  | .anchor | .address | .flow | .body => 2
  | .text | .block | .frame => 1
  | .physical | .semantic | .heading | .table | .caption | .item | .head | .frames => 0

/-- Inclusions lead upwards, so only finitely many follow on each other. -/
theorem Inclusion.rank_lt {c d : Category} (via : Inclusion c d) : c.rank < d.rank := by
  cases via <;> decide

/-- The way down to an element ends at its tag name. -/
theorem Node.tagName?_route {c : Category} : ∀ n : Node c, n.route.tagName? = n.tagName?
  | .lift _ n => n.tagName?_route
  | .heading _ _ _ => rfl
  | .plain _ | .void _ _ | .verbatim _ _ _ | .element _ _ _ | .list _ _ _ _ | .definitions _ _
  | .form _ _ | .map _ _ | .media _ _ _ _ | .paragraph _ _ | .table _ _ _ _ | .caption _ _
  | .item _ _ | .frames _ _ => rfl
termination_by structural n => n

/-- **Every way is found** in as many rounds as inclusions may follow on each other, and one
more. -/
theorem Node.route_mem_upTo {c : Category} (n : Node c) {k : Nat} (hk : c.rank < k) :
    n.route ∈ Route.upTo k c := by
  induction k generalizing c with
  | zero => omega
  | succ k ih =>
    rw [Route.upTo, List.mem_flatMap]
    refine ⟨n.kind, n.kind.mem_all, ?_⟩
    cases n with
    -- an inclusion lowers the rank, so one round less is enough for what follows it
    | lift via m =>
      have hvia := via.rank_lt
      exact List.mem_map_of_mem (ih m (by omega))
    | heading level as content =>
      refine List.mem_map_of_mem ?_
      cases level <;> decide
    | _ => exact List.mem_singleton_self _

/-- No two ways in a body lead to the same tag name. -/
theorem Route.nodup_tagNames : ((upTo 3 .body).map tagName?).Nodup := by
  decide +kernel

/-- In a body, nodes of one tag name are the same element, found in the same way. -/
theorem Node.tagName?_eq_iff_route_eq {m n : Node .body} :
    m.tagName? = n.tagName? ↔ m.route = n.route := by
  rw [← tagName?_route m, ← tagName?_route n]
  constructor
  · intro h
    exact List.inj_on_of_nodup_map Route.nodup_tagNames (m.route_mem_upTo (by decide))
      (n.route_mem_upTo (by decide)) h
  · exact congrArg Route.tagName?

/-! ### Names and elements -/

/-- In a body, only character data has no tag name. -/
theorem Node.tagName?_eq_none_iff {n : Node .body} :
    n.tagName? = none ↔ ∃ text, n = .lift .textBody (.plain text) := by
  constructor
  · intro h
    have hroute : n.route = .inside .textBody (.here .plain) :=
      (tagName?_eq_iff_route_eq (n := .lift .textBody (.plain default))).1 h
    cases n with
    | lift via m =>
      cases via with
      | textBody =>
        have hrest : m.route = .here .plain := by simpa [Node.route] using hroute
        cases m with
        | plain text => exact ⟨text, rfl⟩
        | _ => cases hrest
      | _ => cases hroute
    | _ => cases hroute
  · rintro ⟨text, rfl⟩
    rfl

/-- Where all elements have plain keys, the tag name is the key in lowercase. -/
theorem Node.exists_key_of_forall {c : Category} (hc : c.Keyed)
    (hkeys : ∀ f ∈ NodeKind.all c,
      ∃ key ∈ f.key?, key ∉ "Anchor" :: "Plain" :: "Heading" :: wrapperKeys) (n : Node c) :
    ∃ key, n.toJson.key? = some key ∧ n.tagName? = some (Ascii.lower key) := by
  obtain ⟨key, hkey, hplain⟩ := hkeys n.kind n.kind.mem_all
  have hjson : n.toJson.key? = some key := n.key?_toJson.trans hkey
  refine ⟨key, hjson, ?_⟩
  have hread := n.readTag?_toJson hc
  rw [readTag?_of_key? hjson hplain] at hread
  exact (Option.some.inj hread).symm

theorem Page.exists_key (p : Page) :
    ∃ key, p.toJson.key? = some key ∧ p.tagName = Ascii.lower key := by
  cases p with
  | body _ => exact ⟨"Body", rfl, rfl⟩
  | frameset _ => exact ⟨"Frameset", rfl, rfl⟩

/-- **Tag names and serialized forms name the same element.** The tag name of a node of a body is
the one read off its serialized form, and that of a node of a head or of a set of frames, or of what
follows a head, is its key in lowercase. In a body, nodes have the same tag name exactly if the same
way leads to them, down to the level of a heading, and none exactly if they are character data. -/
theorem Node.tagName?_names_element :
    (∀ n : Node .body, n.toJson.readTag? = some n.tagName?) ∧
    (∀ n : Node .head, ∃ key, n.toJson.key? = some key ∧ n.tagName? = some (Ascii.lower key)) ∧
    (∀ n : Node .frame, ∃ key, n.toJson.key? = some key ∧ n.tagName? = some (Ascii.lower key)) ∧
    (∀ p : Page, ∃ key, p.toJson.key? = some key ∧ p.tagName = Ascii.lower key) ∧
    (∀ m n : Node .body, m.tagName? = n.tagName? ↔ m.route = n.route) ∧
    ∀ n : Node .body, n.tagName? = none ↔ ∃ text, n = .lift .textBody (.plain text) :=
  ⟨fun n ↦ n.readTag?_toJson trivial, Node.exists_key_of_forall trivial (by decide),
    Node.exists_key_of_forall trivial (by decide), Page.exists_key,
    fun _ _ ↦ Node.tagName?_eq_iff_route_eq, fun _ ↦ Node.tagName?_eq_none_iff⟩

end Hypertext
