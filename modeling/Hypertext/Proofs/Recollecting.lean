import Hypertext.Proofs.Noninterference

/-!
# Collecting early and late

Attributes may be collected as they come, or list by list, and the lists then put together. It makes
no difference. What is kept of a sequence in two parts is what is kept of the first part, followed
by what is kept of the second part under a name that is new (`Attributes.firsts_append`), and
whether a name is new can be told from the attributes kept as well as from those given.

A list that has come about by collecting has no name twice. So nothing is dropped when it is
collected again (`Attributes.raises_collect_of_pairwise`), while every one of its attributes is
dropped when it is pushed onto the list itself.
-/

namespace Hypertext.Attributes

/-! ### First occurrences part by part -/

/-- **First occurrences of a sequence in two parts.** -/
theorem firsts_append (xs ys : List Attribute) :
    firsts (xs ++ ys) =
      firsts xs ++ (firsts ys).filter fun b ↦ b.key ∉ xs.map Attribute.key := by
  induction ys using List.reverseRecOn with
  | nil => simp
  | append_singleton ys y ih =>
    -- a further attribute is new if neither part has its name
    have hnew : y.key ∈ (xs ++ ys).map Attribute.key ↔
        y.key ∈ xs.map Attribute.key ∨ y.key ∈ ys.map Attribute.key := by
      rw [List.map_append, List.mem_append]
    rw [← List.append_assoc, firsts_concat, ih, firsts_concat, List.filter_append,
      List.append_assoc, if_congr hnew rfl rfl]
    congr 2
    by_cases hys : y.key ∈ ys.map Attribute.key
    · rw [if_pos (.inr hys), if_pos hys, List.filter_nil]
    · by_cases hxs : y.key ∈ xs.map Attribute.key
      · rw [if_pos (.inl hxs), if_neg hys, List.filter_cons_of_neg (by simpa using hxs),
          List.filter_nil]
      · rw [if_neg (not_or.2 ⟨hxs, hys⟩), if_neg hys, List.filter_cons_of_pos (by simpa using hxs),
          List.filter_nil]

/-- A list without a repeated name grows by a name that is new. -/
theorem pairwise_key_ne_concat {given : List Attribute} {a : Attribute}
    (h : (given ++ [a]).Pairwise fun b c ↦ b.key ≠ c.key) :
    (given.Pairwise fun b c ↦ b.key ≠ c.key) ∧ a.key ∉ given.map Attribute.key := by
  obtain ⟨hgiven, -, hnew⟩ := List.pairwise_append.1 h
  refine ⟨hgiven, fun hold ↦ ?_⟩
  obtain ⟨b, hb, hkey⟩ := List.mem_map.1 hold
  exact hnew b hb a (List.mem_singleton_self a) hkey

/-- If no name is repeated, every occurrence is the first. -/
theorem firsts_eq_self {given : List Attribute}
    (h : given.Pairwise fun a b ↦ a.key ≠ b.key) : firsts given = given := by
  induction given using List.reverseRecOn with
  | nil => rfl
  | append_singleton given a ih =>
    obtain ⟨hgiven, hnew⟩ := pairwise_key_ne_concat h
    rw [firsts_concat, ih hgiven, if_neg hnew]

/-- If no name is repeated, nothing is said. -/
theorem droppedMessages_eq_nil {given : List Attribute}
    (h : given.Pairwise fun a b ↦ a.key ≠ b.key) : droppedMessages given = [] := by
  induction given using List.reverseRecOn with
  | nil => rfl
  | append_singleton given a ih =>
    obtain ⟨hgiven, hnew⟩ := pairwise_key_ne_concat h
    rw [droppedMessages_concat, ih hgiven, if_neg hnew, List.append_nil]

/-- **First occurrences of first occurrences** are those of the whole. -/
theorem firsts_firsts_append (xs ys : List Attribute) :
    firsts (firsts xs ++ firsts ys) = firsts (xs ++ ys) := by
  rw [firsts_append, firsts_append, firsts_eq_self (pairwise_key_ne_firsts xs),
    firsts_eq_self (pairwise_key_ne_firsts ys)]
  simp only [mem_keys_firsts]

/-! ### Lists that are collected again -/

/-- If no name is repeated, everything is kept and nothing is warned of. -/
theorem raises_collect_of_pairwise {given : List Attribute}
    (h : given.Pairwise fun a b ↦ a.key ≠ b.key) : Raises (collect given) ⟨given⟩ [] := by
  have hcollect := raises_collect given
  rwa [firsts_eq_self h, droppedMessages_eq_nil h] at hcollect

/-- A list stays what it is when attributes are pushed whose names are taken. -/
theorem pushAll_eq_self {as : Attributes} {more : List Attribute}
    (h : ∀ a ∈ more, as.contains a.name.value = true) (log : Log) :
    ((as.pushAll more).run log).1 = as := by
  induction more generalizing log with
  | nil => rfl
  | cons a more ih =>
    have hdropped : as.insert a = as :=
      (as.insert_eq_self_iff a).2 (h a List.mem_cons_self)
    rw [run_pushAll_cons, hdropped, ih fun b hb ↦ h b (List.mem_cons_of_mem _ hb)]

/-- The names of a list are taken in it. -/
theorem contains_of_mem {as : Attributes} {a : Attribute} (ha : a ∈ as.toList) :
    as.contains a.name.value = true :=
  (as.contains_iff_mem_keys a.name.value).2 (List.mem_map_of_mem ha)

/-- **Collecting early or late makes no difference.** Two lists that were collected and are then
collected together give what is collected from all their attributes: the first list, followed by
those attributes of the second whose name the first does not have. A list that has come about in any
way is collected to itself, without a warning, and stays itself when its attributes are pushed onto
it. -/
theorem collect_early_or_late :
    (∀ (xs ys : List Attribute) (log₁ log₂ log₃ log₄ : Log),
        let as := ((collect xs).run log₁).1
        let bs := ((collect ys).run log₂).1
        ((collect (as.toList ++ bs.toList)).run log₃).1 = ((collect (xs ++ ys)).run log₄).1 ∧
          ((collect (xs ++ ys)).run log₄).1.toList = as.toList ++
            bs.toList.filter fun b ↦ b.key ∉ as.toList.map Attribute.key) ∧
      (∀ (written : List Attribute) (as : Attributes), Made written as →
        ∀ log : Log, (collect as.toList).run log = (as, log)) ∧
      ∀ (as : Attributes) (log : Log), ((as.pushAll as.toList).run log).1 = as := by
  refine ⟨?_, ?_, ?_⟩
  · intro xs ys log₁ log₂ log₃ log₄ as bs
    have has : as.toList = firsts xs := toList_collect xs log₁
    have hbs : bs.toList = firsts ys := toList_collect ys log₂
    refine ⟨?_, ?_⟩
    · rw [raises_collect, raises_collect, has, hbs, firsts_firsts_append]
    · rw [toList_collect, firsts_append, has, hbs]
      simp only [mem_keys_firsts]
  · intro written as hmade log
    have hpairwise : as.toList.Pairwise fun a b ↦ a.key ≠ b.key := by
      rw [hmade.toList_eq_firsts]
      exact pairwise_key_ne_firsts _
    exact raises_collect_of_pairwise hpairwise log
  · intro as log
    exact pushAll_eq_self (fun a ↦ contains_of_mem) log

/-- Attributes of which one has a name of the repeated ones, in other letter case. -/
def further : List Attribute :=
  [.pair (.fake "ID" "10") (.fake "u" "11"), .flag (.fake "claSS" "12"),
    .pair (.fake "id" "13") (.fake "v" "14")]

/-- Collected apart and then together, of both lists the first occurrences remain, and these are
collected to themselves. -/
theorem further_collect_early_or_late :
    ∃ as bs : Attributes,
      as = ((collect (repeated.map Attribute.normalize)).run .empty).1 ∧
      bs = ((collect (further.map Attribute.normalize)).run .empty).1 ∧
      ((collect (as.toList ++ bs.toList)).run .empty).1.toList =
        [.pair (.fake "class" "1") (.fake "x" "2"), .flag (.fake "hidden" "3"),
          .flag (.fake "Ä" "8"), .flag (.fake "ä" "9"), .pair (.fake "id" "10") (.fake "u" "11")] ∧
      (collect bs.toList).run .empty = (bs, .empty) := by
  obtain ⟨htogether, hagain, -⟩ := collect_early_or_late
  refine ⟨_, _, rfl, rfl, ?_, hagain _ _ (.collect further .empty) .empty⟩
  rw [(htogether _ _ .empty .empty .empty .empty).1]
  decide +kernel

end Hypertext.Attributes
