import Mathlib.Data.List.Basic
import Hypertext.Source.Position

/-!
# What a displayed position tells

A location is displayed as its file, its line and its column, with colons between them. The file
stands first and as it is: it may hold colons, digits and brackets of its own. So nothing can be
read off a displayed location from the left. It is read **from the right**, where numbers stand. A
number has no colon, so the last colon is the one before the column, and the last one of the rest
is the one before the line (`Location.display_eq_display_iff`).

A position that was made up is displayed in brackets. Whatever its hint and its anchor are, it ends
with a bracket and not with a digit.
-/

namespace Hypertext

/-- What stands after the last mark, and what stands before it. -/
theorem append_cons_inj_of_notMem_right {c : Char} {xs ys r s : List Char} (hr : c ∉ r)
    (hs : c ∉ s) (h : xs ++ c :: r = ys ++ c :: s) : xs = ys ∧ r = s := by
  -- a mark in between would be a mark after the last one
  rcases List.append_eq_append_iff.1 h with ⟨m, rfl, hm⟩ | ⟨m, rfl, hm⟩
  · cases m with
    | nil => exact ⟨(List.append_nil _).symm, (List.cons.inj hm).2⟩
    | cons d m =>
      have hlast : r = m ++ c :: s := (List.cons.inj hm).2
      exact absurd (hlast ▸ List.mem_append_right m List.mem_cons_self) hr
  · cases m with
    | nil => exact ⟨List.append_nil _, (List.cons.inj hm).2.symm⟩
    | cons d m =>
      have hlast : s = m ++ c :: r := (List.cons.inj hm).2
      exact absurd (hlast ▸ List.mem_append_right m List.mem_cons_self) hs

/-- Numbers are displayed with digits. -/
theorem isDigit_of_mem_repr {n : Nat} {c : Char} (hc : c ∈ n.repr.toList) : c.isDigit = true := by
  rw [Nat.toList_repr] at hc
  exact Nat.isDigit_of_mem_toDigits (by decide) (by decide) hc

/-- A displayed number has no colon, so the next colon ends it. -/
theorem colon_notMem_repr (n : Nat) : ':' ∉ n.repr.toList := by
  intro hc
  exact absurd (isDigit_of_mem_repr hc) (by decide)

/-- A displayed word is known from its digits. -/
theorem toNat_repr_injective : Function.Injective fun w : UInt64 ↦ w.toNat.repr.toList := by
  intro v w h
  have hdigits : Nat.toDigits 10 v.toNat = Nat.toDigits 10 w.toNat := by
    simpa only [Nat.toList_repr] using h
  rw [← UInt64.toNat_inj, ← @Nat.ofDigitChars_ten_toDigits v.toNat, hdigits,
    Nat.ofDigitChars_ten_toDigits]

namespace Location

/-- A location is displayed as file, line and column with colons between them. -/
theorem toList_display (l : Location) :
    l.display.toList =
      l.file.toList ++ ':' :: l.line.toNat.repr.toList ++ ':' :: l.column.toNat.repr.toList := by
  simp [display]

/-- **A displayed location tells** its file, its line and its column, and nothing else. -/
theorem display_eq_display_iff {l k : Location} :
    l.display = k.display ↔ l.file = k.file ∧ l.line = k.line ∧ l.column = k.column := by
  constructor
  · intro h
    have htext := congrArg String.toList h
    rw [toList_display, toList_display] at htext
    obtain ⟨hrest, hcolumn⟩ := append_cons_inj_of_notMem_right (colon_notMem_repr _)
      (colon_notMem_repr _) htext
    obtain ⟨hfile, hline⟩ := append_cons_inj_of_notMem_right (colon_notMem_repr _)
      (colon_notMem_repr _) hrest
    exact ⟨String.toList_inj.1 hfile, toNat_repr_injective hline, toNat_repr_injective hcolumn⟩
  · rintro ⟨hfile, hline, hcolumn⟩
    rw [display, display, hfile, hline, hcolumn]

/-- A displayed location ends with a digit. -/
theorem isDigit_of_mem_getLast?_display {l : Location} {c : Char}
    (hc : c ∈ l.display.toList.getLast?) : c.isDigit = true := by
  have hne : l.column.toNat.repr.toList ≠ [] := by
    rw [Nat.toList_repr]
    exact Nat.toDigits_ne_nil
  rw [toList_display, List.getLast?_append_of_ne_nil _ (List.cons_ne_nil _ _),
    List.getLast?_cons_of_ne_nil hne] at hc
  exact isDigit_of_mem_repr (List.mem_of_mem_getLast? hc)

end Location

namespace Position

/-- The display of a position that was made up ends with a bracket. -/
theorem getLast?_display_fake (hint : Option String) (anchor : Option Location) :
    (fake hint anchor).display.toList.getLast? = some '>' := by
  unfold display
  rw [String.toList_append]
  exact List.getLast?_concat

/-- **Displays are faithful to real positions.** Two locations are displayed alike exactly if they
have the same file, line and column, whatever the file is called. And no real position is displayed
like one that was made up, whatever its hint and its anchor are. -/
theorem display_faithful :
    (∀ l k : Location,
      l.display = k.display ↔ l.file = k.file ∧ l.line = k.line ∧ l.column = k.column) ∧
    ∀ (l : Location) (hint : Option String) (anchor : Option Location),
      (real l).display ≠ (fake hint anchor).display := by
  refine ⟨fun l k ↦ Location.display_eq_display_iff, fun l hint anchor h ↦ ?_⟩
  have hlast : '>' ∈ l.display.toList.getLast? := by
    rw [← display_real, h, getLast?_display_fake]
    exact rfl
  exact absurd (Location.isDigit_of_mem_getLast?_display hlast) (by decide)

-- Among positions that were made up there is no such law: a hint can look like an anchor.
example : (fake (some "x near a:1:2") none).display =
    (fake (some "x") (some ⟨"a", 1, 2, 0, 0⟩)).display := by
  decide +kernel

end Position

end Hypertext
