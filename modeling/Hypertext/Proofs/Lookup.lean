import Hypertext.Markup.Tree
import Hypertext.Proofs.FirstOccurrence

/-!
# What lookups answer

An attribute list looks a name up in what it has stored, with names in lowercase and repeated
attributes gone. The answer can be told from the attributes **as they were written**, repeated ones
included: it is the value of the first of them whose name agrees with the one asked for
(`Attributes.firstValue?`).

Two facts carry this. A test that looks only at the name under which an attribute is known finds the
same attribute before and after repeated ones are dropped (`find?_firsts`), and whether a name
agrees with another does not change when it is put into lowercase (`Ascii.agree_lower`). That a
later attribute changes no answer but that for its own name follows from the rule itself.
-/

namespace Hypertext

/-- A name in lowercase agrees with what the name agrees with. -/
theorem Ascii.agree_lower (s t : String) : Ascii.agree (Ascii.lower s) t = Ascii.agree s t := by
  rw [Bool.eq_iff_iff, Ascii.agree_iff, Ascii.agree_iff, Ascii.lower_lower]

namespace Attributes

/-! ### Searching first occurrences -/

/-- **Dropping repeated attributes does not change what is found**, as long as attributes known
under one name are all found or all not found. -/
theorem find?_firsts {p : Attribute → Bool} (hp : ∀ a b : Attribute, a.key = b.key → p a = p b)
    (given : List Attribute) : (firsts given).find? p = given.find? p := by
  induction given using List.reverseRecOn with
  | nil => rfl
  | append_singleton given a ih =>
    rw [firsts_concat, List.find?_append, List.find?_append, ih]
    split
    · next hold =>
      -- the dropped attribute is not the one found: its name was there before
      obtain ⟨b, hb, hkey⟩ := List.mem_map.1 hold
      cases hfound : given.find? p with
      | some c => rfl
      | none =>
        have hpa : ¬p a = true := by
          rw [← hp b a hkey]
          exact List.find?_eq_none.1 hfound b hb
        rw [List.find?_nil, List.find?_cons_of_neg hpa, List.find?_nil]
    · rfl

/-! ### The answer in terms of what was written -/

/-- The value of the first of the attributes, as they were written, whose name agrees with the one
asked for. A bare name has itself for a value, in lowercase. -/
def firstValue? (written : List Attribute) (name : String) : Option Leaf :=
  (written.find? fun a ↦ Ascii.agree a.name.value name).map fun a ↦ a.normalize.value

/-- A first value is found exactly if the name was written. -/
theorem isSome_firstValue? (written : List Attribute) (name : String) :
    (firstValue? written name).isSome = true ↔
      ∃ a ∈ written, Ascii.agree a.name.value name = true := by
  rw [firstValue?, Option.isSome_map, List.find?_isSome]

/-- One more attribute at the end answers only for its own name, and only if none did before. -/
theorem firstValue?_concat {written : List Attribute} {a : Attribute} {name : String}
    (h : (firstValue? written name).isSome = true ∨ Ascii.agree a.name.value name = false) :
    firstValue? (written ++ [a]) name = firstValue? written name := by
  rw [firstValue?, List.find?_append]
  rcases h with hfound | hother
  · rw [firstValue?, Option.isSome_map] at hfound
    obtain ⟨b, hb⟩ := Option.isSome_iff_exists.1 hfound
    rw [firstValue?, hb]
    rfl
  · have hnone : [a].find? (fun b ↦ Ascii.agree b.name.value name) = none := by simp [hother]
    rw [hnone, Option.or_none, firstValue?]

/-- A lookup answers with the first value written. -/
theorem Made.get?_eq_firstValue? {written : List Attribute} {as : Attributes}
    (h : Made written as) (name : String) : as.get? name = firstValue? written name := by
  have hkey : ∀ a b : Attribute, a.key = b.key →
      Ascii.agree a.name.value name = Ascii.agree b.name.value name := by
    intro a b hab
    rw [Bool.eq_iff_iff, Ascii.agree_iff, Ascii.agree_iff]
    exact ⟨fun ha ↦ hab.symm.trans ha, fun hb ↦ hab.trans hb⟩
  have htest : (fun a : Attribute ↦ Ascii.agree a.name.value name) ∘ Attribute.normalize =
      fun a ↦ Ascii.agree a.name.value name := by
    funext a
    rw [Function.comp_apply, Attribute.name_normalize, Located.value_map, Ascii.agree_lower]
  rw [get?, h.toList_eq_firsts, find?_firsts hkey, List.find?_map, htest, Option.map_map]
  rfl

/-- A name is taken exactly if it was written. -/
theorem Made.contains_iff {written : List Attribute} {as : Attributes} (h : Made written as)
    (name : String) :
    as.contains name = true ↔ ∃ a ∈ written, Ascii.agree a.name.value name = true := by
  rw [contains, h.get?_eq_firstValue?, isSome_firstValue?]

/-- **Lookups answer with the first value written.** However a list has come about from the
attributes written, it answers for every name with the value, at its position, of the first of them
whose name agrees, and with nothing if there is none. An element with that list answers so for its
identifier. One more attribute changes no answer for a name that was there and none for a name that
does not agree with its own. -/
theorem made_answers_first_written {written : List Attribute} {as : Attributes}
    (h : Made written as) :
    (∀ name : String, as.get? name =
        (written.find? fun a ↦ Ascii.agree a.name.value name).map fun a ↦ a.normalize.value) ∧
      (∀ name : String,
        as.contains name = true ↔ ∃ a ∈ written, Ascii.agree a.name.value name = true) ∧
      (∀ e : Element, e.attrs = as → e.id? =
        (written.find? fun a ↦ Ascii.agree a.name.value "id").map fun a ↦ a.normalize.value) ∧
      ∀ (a : Attribute) (log : Log) (name : String),
        as.contains name = true ∨ Ascii.agree a.name.value name = false →
          ((as.push a.normalize).run log).1.get? name = as.get? name := by
  refine ⟨h.get?_eq_firstValue?, h.contains_iff, ?_, ?_⟩
  · intro e he
    rw [Element.id?, he]
    exact h.get?_eq_firstValue? "id"
  · intro a log name hname
    have hpush : Made (written ++ [a]) ((as.push a.normalize).run log).1 := .push a log h
    rw [contains, h.get?_eq_firstValue?] at hname
    rw [hpush.get?_eq_firstValue?, h.get?_eq_firstValue?, firstValue?_concat hname]

/-- Asked in other letter case, the list of repeated names answers with what was written first, and
goes on to do so. -/
theorem repeatedList_answers_first_written :
    Made (repeated ++ [.flag (.fake "claSS" "10")]) repeatedList ∧
      repeatedList.get? "cLASS" = some (.fake "x" "2") ∧
      repeatedList.get? "Hidden" = some (.fake "hidden" "3") ∧
      repeatedList.get? "Ö" = none ∧
      ((repeatedList.push (Attribute.flag (.fake "ID" "11")).normalize).run .empty).1.get? "Ä" =
        some (.fake "Ä" "8") := by
  have hmade : Made (repeated ++ [.flag (.fake "claSS" "10")]) repeatedList :=
    .push _ _ (.collect _ _)
  obtain ⟨hget, -, -, hpush⟩ := made_answers_first_written hmade
  have hother : Ascii.agree "ID" "Ä" = false := by decide +kernel
  refine ⟨hmade, ?_, ?_, ?_, ?_⟩
  · rw [hget]
    decide +kernel
  · rw [hget]
    decide +kernel
  · rw [hget]
    decide +kernel
  · rw [hpush (.flag (.fake "ID" "11")) .empty "Ä" (.inr hother), hget]
    decide +kernel

end Attributes

end Hypertext
