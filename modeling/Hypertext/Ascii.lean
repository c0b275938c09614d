/-!
# ASCII letter case

Names in markup are compared and stored without regard to the case of the letters `A` to `Z`.
Every other character, accented letters included, is left alone, so case folding changes neither
the number of characters nor the number of bytes of a text.

Folding (`lower`) and comparison (`agree`) are defined apart; `agree_iff` says that they draw the
same distinctions.
-/

namespace Hypertext.Ascii

/-- The text with `A` to `Z` replaced by `a` to `z`. -/
def lower (s : String) : String :=
  String.ofList (s.toList.map Char.toLower)

/-- The text with `a` to `z` replaced by `A` to `Z`. -/
def upper (s : String) : String :=
  String.ofList (s.toList.map Char.toUpper)

@[simp]
theorem toList_lower (s : String) : (lower s).toList = s.toList.map Char.toLower := by
  simp [lower]

/-- Character by character equality, up to the case of `A` to `Z`. -/
def agreeChars : List Char → List Char → Bool
  | [], [] => true
  | c :: cs, d :: ds => c.toLower == d.toLower && agreeChars cs ds
  | _, _ => false

/-- Two texts agree if they differ at most in the case of `A` to `Z`. -/
def agree (s t : String) : Bool :=
  agreeChars s.toList t.toList

/-- Texts agree exactly if they fold to the same characters. -/
theorem agreeChars_iff {cs ds : List Char} :
    agreeChars cs ds = true ↔ cs.map Char.toLower = ds.map Char.toLower := by
  induction cs generalizing ds with
  | nil => cases ds <;> simp [agreeChars]
  | cons c cs ih => cases ds <;> simp [agreeChars, ih]

/-- **Agreement is equality after folding.** -/
theorem agree_iff {s t : String} : agree s t = true ↔ lower s = lower t := by
  rw [agree, agreeChars_iff, ← String.toList_inj, toList_lower, toList_lower]

/-- Folding leaves none of `A` to `Z`. -/
theorem isUpper_of_mem_lower {s : String} {c : Char} (h : c ∈ (lower s).toList) :
    c.isUpper = false := by
  rw [toList_lower] at h
  obtain ⟨d, -, rfl⟩ := List.mem_map.1 h
  refine decide_eq_false fun hupper ↦ ?_
  by_cases hd : d.val ≥ 'A'.val ∧ d.val ≤ 'Z'.val
  · have hval : d.toLower.val = d.val + 32 := by
      rw [show d.toLower = _ from dif_pos hd]
      rfl
    rw [hval] at hupper
    grind
  · rw [show d.toLower = d from dif_neg hd] at hupper
    exact hd hupper

/-- Every other character is left alone. -/
theorem toLower_of_not_isUpper {c : Char} (h : c.isUpper = false) : c.toLower = c :=
  dif_neg (of_decide_eq_false h)

/-- **Folding once is enough.** -/
theorem lower_lower (s : String) : lower (lower s) = lower s := by
  rw [← String.toList_inj, toList_lower]
  refine (List.map_congr_left fun c hc ↦ ?_).trans (List.map_id _)
  exact toLower_of_not_isUpper (isUpper_of_mem_lower hc)

end Hypertext.Ascii
