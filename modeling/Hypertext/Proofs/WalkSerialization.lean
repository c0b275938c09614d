import Hypertext.Grammar.Document
import Hypertext.Proofs.Induction

/-!
# Walks and serialized documents

A walk and a serialized document are two ways through the same document. The walk asks every node
for its attributes and goes on to its content; the serialized form has the parts of a node one
after the other under their keys. Both meet **the same leaves and the same holes in the same
order**.

What a reader of a serialized value meets is said without documents (`Json.findings`): records of a
value and a position, and elements of sequences that are `null`. A `null` has nothing in it, but the
nearest key around it tells which kind of content is missing (`Unmodeled.ofKey?`). A missing
caption, hint or anchor is the value of a field, so it is not taken for a hole.

The proof is one induction over nodes, `Node.hereditary_findings_toJson`; leaves, attributes and
holes come first.
-/

namespace Hypertext

/-! ### What there is to find in a serialized value -/

/-- The kind of content that is missing where a key holds a sequence of `null`s. -/
def Unmodeled.ofKey? (key : String) : Option Unmodeled :=
  if key = "Form" then some .form
  else if key = "content" then some .table
  else if key = "colgroups" then some .colgroup
  else if key = "Dl" then some .dl
  else if key = "Map" then some .area
  else if key = "Applet" ∨ key = "Object" then some .param
  else none

namespace Json

/-- What a reader of a serialized value may meet. -/
inductive Finding where
  /-- A record of a value and a position. -/
  | located (record : Json)
  /-- An element of a sequence that is `null`, with the kind that the key around it tells. -/
  | gap (kind : Option Unmodeled)

/-- The record, if one was met. -/
def Finding.record? : Finding → Option Json
  | .located record => some record
  | .gap _ => none

/-- The kind of the `null`, if one was met. -/
def Finding.gap? : Finding → Option (Option Unmodeled)
  | .located _ => none
  | .gap kind => some kind

/-- What an element of a sequence is by itself: a finding if it is `null`. -/
def asElement (key : String) : Json → List Finding
  | .null => [.gap (Unmodeled.ofKey? key)]
  | _ => []

/-- What a record is by itself: a finding if its fields are a value and a position. -/
def asRecord (fields : List (String × Json)) : List Finding :=
  if fields.map Prod.fst = ["value", "pos"] then [.located (.obj fields)] else []

mutual

/-- What a reader meets from left to right in a value under a key. -/
def findings (key : String) : Json → List Finding
  | .null | .num _ | .str _ => []
  | .arr items => itemFindings key items
  | .obj fields => asRecord fields ++ fieldFindings fields

/-- What a reader meets in the elements of a sequence. -/
def itemFindings (key : String) : List Json → List Finding
  | [] => []
  | item :: items => item.asElement key ++ findings key item ++ itemFindings key items

/-- What a reader meets in the fields of a record. -/
def fieldFindings : List (String × Json) → List Finding
  | [] => []
  | (key, value) :: fields => findings key value ++ fieldFindings fields

end

/-- The records of a value and a position in a serialized value, from left to right. -/
def locatedRecords (j : Json) : List Json :=
  (j.findings "").filterMap Finding.record?

/-- The elements of sequences that are `null`, from left to right. -/
def gaps (j : Json) : List (Option Unmodeled) :=
  (j.findings "").filterMap Finding.gap?

end Json

open Json

/-- The leaf that a walk meets. -/
def Event.leaf? : Event → Option Leaf
  | .leaf text => some text
  | _ => none

/-- The kind of the hole that a walk meets. -/
def Event.hole? : Event → Option Unmodeled
  | .hole kind => some kind
  | _ => none

/-- What an event is in a serialized document. A tag is a key there and nothing to find. -/
def Event.finding? : Event → Option Finding
  | .tag _ => none
  | .leaf text => some (.located text.toJson)
  | .hole kind => some (.gap (some kind))

/-! ### Leaves, attributes and holes -/

/-- What stands under a variant's key is found under that key. -/
@[simp]
theorem Json.findings_variant (k key : String) (payload : Json) :
    (variant k payload).findings key = payload.findings k := by
  simp [variant, findings, fieldFindings, asRecord]

@[simp]
theorem Location.findings_toJson (l : Location) (key : String) : l.toJson.findings key = [] := by
  simp [toJson, word, findings, fieldFindings, asRecord]

theorem Json.findings_option {f : α → Json} (hf : ∀ a key, (f a).findings key = [])
    (x : Option α) (key : String) : (Json.option f x).findings key = [] := by
  cases x with
  | none => rfl
  | some a => exact hf a key

/-- There is nothing to find in a position. -/
@[simp]
theorem Position.findings_toJson (p : Position) (key : String) : p.toJson.findings key = [] := by
  have hhint : ∀ (h : Option String) (k : String), (Json.option Json.str h).findings k = [] :=
    Json.findings_option fun _ _ ↦ rfl
  have hanchor : ∀ (a : Option Location) (k : String),
      (Json.option Location.toJson a).findings k = [] :=
    Json.findings_option Location.findings_toJson
  cases p <;> simp [toJson, variant, findings, fieldFindings, asRecord, hhint, hanchor]

/-- A leaf is one finding. -/
@[simp]
theorem Leaf.findings_toJson (x : Leaf) (key : String) :
    x.toJson.findings key = [.located x.toJson] := by
  simp [toJson, Located.toJson, findings, fieldFindings, asRecord]

/-- In an attribute its two leaves are found, the name first. -/
theorem Attribute.findings_toJson (a : Attribute) (key : String) :
    a.toJson.findings key = a.leaves.map fun x ↦ .located x.toJson := by
  simp [toJson, findings, fieldFindings, asRecord, leaves]

/-- In an attribute list the leaves are found that a walk meets. -/
theorem Attributes.findings_toJson (as : Attributes) (key : String) :
    as.toJson.findings key = as.events.filterMap Event.finding? := by
  have hevents : as.events.filterMap Event.finding? =
      as.leaves.map fun x ↦ .located x.toJson := by
    rw [events, List.filterMap_map]
    exact congrFun List.filterMap_eq_map as.leaves
  rw [hevents, toJson, findings, leaves]
  induction as.toList with
  | nil => rfl
  | cons a rest ih =>
    rw [List.map_cons, itemFindings, ih, Attribute.findings_toJson]
    simp [asElement, Attribute.toJson]

/-- Holes are found as many times as they are met, under a key of their kind. -/
theorem Hole.findings_listJson {kind : Unmodeled} {key : String}
    (hkey : Unmodeled.ofKey? key = some kind) (holes : List (Hole kind)) :
    (Hole.listJson holes).findings key = (Hole.events holes).filterMap Event.finding? := by
  rw [listJson, findings, events]
  induction holes with
  | nil => rfl
  | cons hole holes ih =>
    rw [List.map_cons, List.map_cons, itemFindings, ih]
    simp [toJson, asElement, findings, hkey, Event.finding?]

theorem Media.ofKey?_key_eq_param (kind : Media) : Unmodeled.ofKey? kind.key = some .param := by
  cases kind <;> rfl

@[simp]
theorem HeadingLevel.findings_toJson (level : HeadingLevel) (key : String) :
    level.toJson.findings key = [] :=
  rfl

/-- A value that is no `null` is not a hole. -/
theorem Json.asElement_eq_nil {j : Json} (h : j ≠ .null) (key : String) : j.asElement key = [] := by
  cases j <;> first | rfl | exact absurd rfl h

@[simp]
theorem Json.asElement_arr (items : List Json) (key : String) :
    (Json.arr items).asElement key = [] :=
  rfl

@[simp]
theorem Leaf.asElement_toJson (x : Leaf) (key : String) : x.toJson.asElement key = [] :=
  rfl

@[simp]
theorem Attributes.asElement_toJson (as : Attributes) (key : String) :
    as.toJson.asElement key = [] :=
  rfl

@[simp]
theorem Hole.asElement_listJson {kind : Unmodeled} (holes : List (Hole kind)) (key : String) :
    (Hole.listJson holes).asElement key = [] :=
  rfl

theorem NonEmpty.toJson_eq_listJson {kind : Unmodeled} (holes : NonEmpty (Hole kind)) :
    holes.toJson Hole.toJson = Hole.listJson holes.toList :=
  rfl

/-! ### Nodes -/

/-- A node is never serialized as `null`, so it is not taken for a hole. -/
theorem Node.toJson_ne_null {c : Category} (n : Node c) : n.toJson ≠ .null := by
  cases n with
  | table as caption colgroups rows => cases caption <;> simp [toJson]
  | _ => simp [toJson, variant]

/-- A node's tag is no finding, so it starts with those of its attributes. -/
theorem Node.filterMap_opening {c : Category} (n : Node c) :
    n.opening.filterMap Event.finding? = n.attrs.events.filterMap Event.finding? := by
  rw [opening, List.filterMap_append]
  cases n.tagName? <;> rfl

/-- **What is found in a serialized node is what a walk meets in it**, if this holds of all nodes in
it. -/
theorem Node.hereditary_findings_toJson :
    Node.Hereditary
      (fun n ↦ ∀ key, n.toJson.findings key = n.events.filterMap Event.finding?)
      (fun xs ↦ ∀ key, itemFindings key xs.toJsons = xs.events.filterMap Event.finding?) := by
  constructor
  case nil =>
    intro c key
    rfl
  case cons =>
    intro c x xs hx hxs key
    rw [Content.toJsons, itemFindings, asElement_eq_nil x.toJson_ne_null, hx, hxs, Content.events,
      List.filterMap_append, List.nil_append]
  -- the items of a list are serialized as one sequence, the first of them set apart in the node
  case list =>
    intro kind as first rest hfirst hrest key
    simp [Node.toJson, Node.events, Node.attrs, findings, itemFindings, hfirst, hrest,
      asElement_eq_nil first.toJson_ne_null, Attributes.findings_toJson, Node.filterMap_opening]
  case media =>
    intro kind as params alternate halternate key
    simp [Node.toJson, Node.events, Node.attrs, findings, itemFindings, halternate,
      Hole.findings_listJson kind.ofKey?_key_eq_param, Attributes.findings_toJson,
      Node.filterMap_opening]
  -- every other node has its attributes first and one part after the other
  all_goals
    intros
    simp [Node.toJson, Node.events, Node.attrs, findings, fieldFindings, itemFindings, asRecord,
      Unmodeled.ofKey?, Hole.findings_listJson, NonEmpty.toJson_eq_listJson,
      Attributes.findings_toJson, Node.filterMap_opening, Event.finding?, *]

/-- What is found in a serialized node is what a walk meets in it. -/
theorem Node.findings_toJson {c : Category} (n : Node c) (key : String) :
    n.toJson.findings key = n.events.filterMap Event.finding? :=
  Node.hereditary_findings_toJson.node n key

theorem Content.findings_toJson {c : Category} (xs : Content c) (key : String) :
    xs.toJson.findings key = xs.events.filterMap Event.finding? :=
  Node.hereditary_findings_toJson.content xs key

/-! ### Styles through their parts -/

theorem Content.events_ofList {c : Category} (l : List (Node c)) :
    (ofList l).events = l.flatMap Node.events := by
  induction l with
  | nil => rfl
  | cons x l ih => rw [ofList, events, ih, List.flatMap_cons]

/-- An element of running text is walked through its parts, its attributes and its texts. -/
theorem Node.events_element_eq_parts {c : Category} (kind : Container c .text) (as : Attributes)
    (content : Content .text) :
    (Node.element kind as content).events = (Node.element kind as content).opening ++
      (Node.element kind as content).texts.flatMap Node.events := by
  have hcontent : content.events = content.toList.flatMap Node.events := by
    rw [← Content.events_ofList, Content.ofList_toList]
  rw [Node.events, hcontent]
  rfl

/-- A style of either sort is walked through its parts. -/
theorem Node.events_style_eq_parts {c : Category} (hc : c = .physical ∨ c = .semantic)
    (n : Node c) : n.events = n.opening ++ n.texts.flatMap Node.events := by
  rcases hc with rfl | rfl
  all_goals
    cases n with
    | lift via _ => cases via
    | void kind _ => cases kind
    | verbatim kind _ _ => cases kind
    | element kind as content => cases kind <;> exact events_element_eq_parts _ as content

/-! ### Documents -/

/-- What is found in a serialized page is what a walk meets in it. -/
theorem Page.findings_toJson (p : Page) (key : String) :
    p.toJson.findings key = p.events.filterMap Event.finding? := by
  cases p with
  | body b =>
    have htag : (Page.body b).events.filterMap Event.finding? =
        b.events.filterMap Event.finding? := rfl
    rw [htag]
    simp [toJson, Body.toJson, Body.events, findings, fieldFindings, asRecord,
      Attributes.findings_toJson, Content.findings_toJson]
  | frameset f => simp [toJson, events, Node.findings_toJson]

/-- A walk meets what there is to find in the serialized document. -/
theorem Document.findings_toJson (d : Document) (key : String) :
    d.toJson.findings key = d.events.filterMap Event.finding? := by
  simp [toJson, events, Head.toJson, Head.events, findings, fieldFindings, asRecord,
    Attributes.findings_toJson, Content.findings_toJson, Page.findings_toJson]

/-- **Walks and serialized documents meet the same.** The leaves of a walk are the records of a
value and a position in the serialized document, and its holes are the elements of sequences that
are `null`, each under a key of its kind, in the same order and also among each other. Reading the
attributes and the texts of a style as its parts is no other walk. -/
theorem Document.walk_meets_serialized (d : Document) :
    (d.events.filterMap Event.leaf?).map Leaf.toJson = d.toJson.locatedRecords ∧
      (d.events.filterMap Event.hole?).map some = d.toJson.gaps ∧
      d.events.filterMap Event.finding? = d.toJson.findings "" ∧
      (∀ n : Node .physical, n.events = n.opening ++ n.texts.flatMap Node.events) ∧
      ∀ n : Node .semantic, n.events = n.opening ++ n.texts.flatMap Node.events := by
  have hfound := d.findings_toJson ""
  refine ⟨?_, ?_, hfound.symm, Node.events_style_eq_parts (.inl rfl),
    Node.events_style_eq_parts (.inr rfl)⟩
  · rw [locatedRecords, hfound, List.map_filterMap, List.filterMap_filterMap]
    congr 1
    funext e
    cases e <;> rfl
  · rw [gaps, hfound, List.map_filterMap, List.filterMap_filterMap]
    congr 1
    funext e
    cases e <;> rfl

end Hypertext
