import Mathlib.Data.List.Induction
import Hypertext.Markup.Attributes

/-!
# First occurrences

Of several attributes of one name an attribute list keeps the first. Which ones that are is said
here without a history: an attribute is kept exactly if its name, in lowercase, stands at **no
earlier index** of the sequence in which the attributes were given (`firsts`).

The list itself only ever looks at what it has kept. That this is enough rests on
`mem_keys_firsts`: every name given has been kept once. From it follows the step lemma
`toList_insert_of_eq_firsts`, and from that, for every way in which a list can come about
(`Attributes.Made`), that what it stores are the first occurrences.
-/

namespace Hypertext

/-! ### Names in lowercase -/

/-- The name under which an attribute is known. -/
def Attribute.key (a : Attribute) : String :=
  Ascii.lower a.name.value

/-- An attribute is known under the same name before and after it is put into lowercase. -/
theorem Attribute.key_normalize (a : Attribute) : a.normalize.key = a.key := by
  rw [key, name_normalize, Located.value_map, Ascii.lower_lower, key]

/-- Names agree exactly if the attributes are known under the same name. -/
theorem Attribute.agree_iff_key_eq {a b : Attribute} :
    Ascii.agree a.name.value b.name.value = true ↔ a.key = b.key :=
  Ascii.agree_iff

namespace Attributes

/-- A name is taken exactly if an attribute is known under it. -/
theorem contains_iff_mem_keys (as : Attributes) (name : String) :
    as.contains name = true ↔ Ascii.lower name ∈ as.toList.map Attribute.key := by
  simp only [contains, get?, Option.isSome_map, List.find?_isSome, Ascii.agree_iff, List.mem_map,
    Attribute.key]

/-! ### The attributes whose name has not occurred before -/

/-- What stands before an item of a list does not change when the list grows at its end. -/
theorem take_append_of_mem_zipIdx {l : List Attribute} (more : List Attribute)
    {p : Attribute × Nat} (hp : p ∈ l.zipIdx) : (l ++ more).take p.2 = l.take p.2 := by
  have hlt : p.2 < 0 + l.length := (List.mem_zipIdx (show (p.1, p.2) ∈ _ from hp)).2.1
  exact List.take_append_of_le_length (by omega)

/-- Of a list that grows at its end, those items are selected that were selected before, and the new
one if it passes. Whether an item passes may depend on what stands before it. -/
theorem select_concat (p : List Attribute → Attribute → Bool) (given : List Attribute)
    (a : Attribute) :
    ((given ++ [a]).zipIdx.filter fun q ↦ p ((given ++ [a]).take q.2) q.1).map Prod.fst =
      (given.zipIdx.filter fun q ↦ p (given.take q.2) q.1).map Prod.fst ++
        if p given a then [a] else [] := by
  have hfilter : given.zipIdx.filter (fun q ↦ p ((given ++ [a]).take q.2) q.1) =
      given.zipIdx.filter fun q ↦ p (given.take q.2) q.1 := by
    refine List.filter_congr fun q hq ↦ ?_
    rw [take_append_of_mem_zipIdx [a] hq]
  rw [List.zipIdx_append, List.filter_append, List.map_append, hfilter]
  congr 1
  by_cases h : p given a = true <;> simp [h]

/-- The attributes whose name, in lowercase, stands at no earlier index. -/
def firsts (given : List Attribute) : List Attribute :=
  (given.zipIdx.filter fun p ↦ p.1.key ∉ (given.take p.2).map Attribute.key).map Prod.fst

@[simp]
theorem firsts_nil : firsts [] = [] :=
  rfl

/-- A further attribute is a first occurrence exactly if its name is new. -/
theorem firsts_concat (given : List Attribute) (a : Attribute) :
    firsts (given ++ [a]) =
      firsts given ++ if a.key ∈ given.map Attribute.key then [] else [a] := by
  refine (select_concat (fun before b ↦ b.key ∉ before.map Attribute.key) given a).trans ?_
  rw [firsts]
  by_cases h : a.key ∈ given.map Attribute.key <;> simp [h]

/-- First occurrences stand in the order in which they were given. -/
theorem firsts_sublist (given : List Attribute) : (firsts given).Sublist given := by
  have hsub : (firsts given).Sublist (given.zipIdx.map Prod.fst) :=
    List.filter_sublist.map Prod.fst
  rwa [List.zipIdx_map_fst] at hsub

/-- **Every name given is kept once.** -/
theorem mem_keys_firsts (given : List Attribute) (k : String) :
    k ∈ (firsts given).map Attribute.key ↔ k ∈ given.map Attribute.key := by
  induction given using List.reverseRecOn with
  | nil => rfl
  | append_singleton given a ih =>
    rw [firsts_concat, List.map_append, List.mem_append, ih, List.map_append, List.mem_append]
    split
    · next h =>
      constructor
      · rintro (hk | hk)
        · exact .inl hk
        · cases hk
      · rintro (hk | hk)
        · exact .inl hk
        · rw [List.map_singleton, List.mem_singleton] at hk
          exact .inl (hk ▸ h)
    · rfl

/-- No name is kept twice. -/
theorem pairwise_key_ne_firsts (given : List Attribute) :
    (firsts given).Pairwise fun a b ↦ a.key ≠ b.key := by
  induction given using List.reverseRecOn with
  | nil => exact .nil
  | append_singleton given a ih =>
    rw [firsts_concat]
    split
    · rwa [List.append_nil]
    · next h =>
      refine List.pairwise_append.2 ⟨ih, List.pairwise_singleton _ _, ?_⟩
      intro b hb c hc heq
      rw [List.mem_singleton] at hc
      subst hc
      exact h ((mem_keys_firsts given _).1 (heq ▸ List.mem_map_of_mem hb))

theorem map_key_map {f : Attribute → Attribute} (hf : ∀ a, (f a).key = a.key)
    (given : List Attribute) :
    (given.map f).map Attribute.key = given.map Attribute.key := by
  rw [List.map_map]
  exact List.map_congr_left fun a _ ↦ hf a

/-- What is kept stays what is kept when attributes are changed and their names are not. -/
theorem firsts_map {f : Attribute → Attribute} (hf : ∀ a, (f a).key = a.key)
    (given : List Attribute) :
    firsts (given.map f) = (firsts given).map f := by
  induction given using List.reverseRecOn with
  | nil => rfl
  | append_singleton given a ih =>
    rw [List.map_append, List.map_singleton, firsts_concat, ih, hf, map_key_map hf,
      firsts_concat, List.map_append]
    split <;> rfl

/-! ### Lists that are made one attribute after the other -/

/-- **One step.** A list that stores the first occurrences goes on doing so when an attribute is
added. -/
theorem toList_insert_of_eq_firsts {as : Attributes} {given : List Attribute} (a : Attribute)
    (h : as.toList = firsts given) : (as.insert a).toList = firsts (given ++ [a]) := by
  have htaken : as.contains a.name.value = true ↔ a.key ∈ given.map Attribute.key := by
    rw [contains_iff_mem_keys, h]
    exact mem_keys_firsts given a.key
  rw [firsts_concat, insert]
  by_cases hkey : a.key ∈ given.map Attribute.key
  · rw [if_pos (htaken.2 hkey), if_pos hkey, List.append_nil, h]
  · rw [if_neg (fun hc ↦ hkey (htaken.1 hc)), if_neg hkey, h]

/-- Pushing several attributes is pushing the first and then the others. -/
theorem run_pushAll_cons (as : Attributes) (a : Attribute) (more : List Attribute) (log : Log) :
    (as.pushAll (a :: more)).run log =
      ((as.insert a).pushAll more).run ((as.push a).run log).2 := by
  rw [pushAll, List.foldlM_cons, StateT.run_bind, run_push]
  rfl

/-- **A run.** So does every list to which attributes are added one after the other. -/
theorem toList_pushAll_of_eq_firsts {as : Attributes} {given : List Attribute}
    (more : List Attribute) (log : Log) (h : as.toList = firsts given) :
    ((as.pushAll more).run log).1.toList = firsts (given ++ more) := by
  induction more generalizing as given log with
  | nil =>
    rw [List.append_nil]
    exact h
  | cons a more ih =>
    rw [run_pushAll_cons, ih _ (toList_insert_of_eq_firsts a h), List.append_assoc]
    rfl

/-- What is collected are the first occurrences. -/
theorem toList_collect (given : List Attribute) (log : Log) :
    ((collect given).run log).1.toList = firsts given :=
  toList_pushAll_of_eq_firsts given log firsts_nil.symm

/-- `Made written as`: the list has come about from attributes written in this order. They were
added one after the other, to an empty list or to one that was collected from the first of them;
in between the log may have changed in any way. -/
inductive Made : List Attribute → Attributes → Prop where
  | empty : Made [] ∅
  | collect (written : List Attribute) (log : Log) :
    Made written ((collect (written.map Attribute.normalize)).run log).1
  | ofPairs (pairs : List (Leaf × Leaf)) (log : Log) :
    Made (pairs.map fun p ↦ .pair p.1 p.2) ((ofPairs pairs).run log).1
  | push {written : List Attribute} {as : Attributes} (a : Attribute) (log : Log) :
    Made written as → Made (written ++ [a]) ((as.push a.normalize).run log).1

/-- **However a list has come about**, it stores the first occurrences. -/
theorem Made.toList_eq_firsts {written : List Attribute} {as : Attributes}
    (h : Made written as) : as.toList = firsts (written.map Attribute.normalize) := by
  induction h with
  | empty => rfl
  | collect written log => exact toList_collect _ log
  | ofPairs pairs log =>
    rw [List.map_map]
    exact toList_collect _ log
  | push a log _ ih =>
    rw [run_push, List.map_append]
    exact toList_insert_of_eq_firsts _ ih

/-- **An attribute list stores the first occurrences**, in order and as they were given, however it
has come about. So its names have no uppercase letter, and no two of them agree. -/
theorem made_stores_firsts {written : List Attribute} {as : Attributes} (h : Made written as) :
    as.toList = firsts (written.map Attribute.normalize) ∧
      (∀ a ∈ as.toList, ∀ c ∈ a.name.value.toList, c.isUpper = false) ∧
      as.toList.Pairwise fun a b ↦ Ascii.agree a.name.value b.name.value = false := by
  have hfirsts := h.toList_eq_firsts
  refine ⟨hfirsts, ?_, ?_⟩
  · intro a ha c hc
    rw [hfirsts] at ha
    obtain ⟨b, -, rfl⟩ := List.mem_map.1 ((firsts_sublist _).subset ha)
    rw [Attribute.name_normalize] at hc
    exact Ascii.isUpper_of_mem_lower hc
  · rw [hfirsts]
    refine (pairwise_key_ne_firsts _).imp fun hne ↦ ?_
    rw [Bool.eq_false_iff]
    exact fun hagree ↦ hne (Attribute.agree_iff_key_eq.1 hagree)

/-- Names repeated in other letter case, in both spellings, and a pair that only an accented letter
tells apart. -/
def repeated : List Attribute :=
  [.pair (.fake "Class" "1") (.fake "x" "2"), .flag (.fake "HIDDEN" "3"),
    .pair (.fake "CLASS" "4") (.fake "y" "5"), .pair (.fake "hidden" "6") (.fake "z" "7"),
    .flag (.fake "Ä" "8"), .flag (.fake "ä" "9")]

/-- The repeated names collected, and one of them added once more. -/
def repeatedList : Attributes :=
  ((((collect (repeated.map Attribute.normalize)).run .empty).1.push
    (Attribute.flag (.fake "claSS" "10")).normalize).run .empty).1

theorem repeatedList_stores_firsts :
    Made (repeated ++ [.flag (.fake "claSS" "10")]) repeatedList ∧
      repeatedList.toList = [.pair (.fake "class" "1") (.fake "x" "2"),
        .flag (.fake "hidden" "3"), .flag (.fake "Ä" "8"), .flag (.fake "ä" "9")] := by
  have hmade : Made (repeated ++ [.flag (.fake "claSS" "10")]) repeatedList :=
    .push _ _ (.collect _ _)
  refine ⟨hmade, ?_⟩
  rw [(made_stores_firsts hmade).1]
  decide +kernel

end Attributes

end Hypertext
