import Mathlib.Data.Set.Defs
import Hypertext.Proofs.LogRuns

/-!
# Warnings of several components

The log knows a warning by one text, in which the component and the message are joined by `] `. That
text does not always tell where the component ends. Two warnings have the same key if they are the
same, or if the component of one is that of the other, followed by the mark and by more
(`Log.key_eq_key_iff`). Then the log takes one of them for the other.

So a log keeps the warnings of its components apart **exactly if no component continues another one
in this way** (`Log.keepsApart_iff`). Components that do not contain the mark are kept apart.
-/

namespace Hypertext

/-! ### Which warnings have the same key -/

namespace Log

/-- The characters of a key. -/
theorem toList_key (c m : String) :
    (key c m).toList = '[' :: (c.toList ++ ']' :: ' ' :: m.toList) := by
  simp [key]

/-- The two characters of the mark do not overlap with themselves. -/
theorem mark_append_cases {d m m' : List Char} (h : ']' :: ' ' :: m = d ++ ']' :: ' ' :: m') :
    (d = [] ∧ m = m') ∨ ∃ s, d = ']' :: ' ' :: s ∧ m = s ++ ']' :: ' ' :: m' := by
  match d with
  | [] => exact .inl ⟨rfl, by simpa using h⟩
  | [x] => simp at h
  | x :: y :: s =>
    obtain ⟨rfl, rfl, hm⟩ : ']' = x ∧ ' ' = y ∧ m = s ++ ']' :: ' ' :: m' := by simpa using h
    exact .inr ⟨s, rfl, hm⟩

/-- What follows a component in a longer one starts with the mark. -/
theorem continues_of_toList_eq {c m c' m' : String} {d : List Char}
    (hc : c'.toList = c.toList ++ d)
    (hm : ']' :: ' ' :: m.toList = d ++ ']' :: ' ' :: m'.toList) :
    (c = c' ∧ m = m') ∨ ∃ s, c' = c ++ "] " ++ s ∧ m = s ++ "] " ++ m' := by
  rcases mark_append_cases hm with ⟨rfl, htext⟩ | ⟨s, rfl, htext⟩
  · rw [List.append_nil] at hc
    exact .inl ⟨(String.toList_inj.1 hc).symm, String.toList_inj.1 htext⟩
  · refine .inr ⟨String.ofList s, String.toList_inj.1 ?_, String.toList_inj.1 ?_⟩
    · simp [hc]
    · simp [htext]

/-- **Warnings have the same key** exactly if they are the same, or if the component of one
continues that of the other with the mark and takes up a part of its message. -/
theorem key_eq_key_iff {c m c' m' : String} :
    key c m = key c' m' ↔ (c = c' ∧ m = m') ∨
      (∃ s, c' = c ++ "] " ++ s ∧ m = s ++ "] " ++ m') ∨
      ∃ s, c = c' ++ "] " ++ s ∧ m' = s ++ "] " ++ m := by
  constructor
  · intro h
    have htext := congrArg String.toList h
    rw [toList_key, toList_key] at htext
    rcases List.append_eq_append_iff.1 (List.cons.inj htext).2 with ⟨d, hc, hm⟩ | ⟨d, hc, hm⟩
    · exact (continues_of_toList_eq hc hm).imp_right .inl
    · rcases continues_of_toList_eq hc hm with ⟨rfl, rfl⟩ | hs
      · exact .inl ⟨rfl, rfl⟩
      · exact .inr (.inr hs)
  · rintro (⟨rfl, rfl⟩ | ⟨s, rfl, rfl⟩ | ⟨s, rfl, rfl⟩)
    · rfl
    · simp [key, String.append_assoc]
    · simp [key, String.append_assoc]

/-! ### Components that do not continue each other -/

open Notice

/-- The keys of components that do not continue each other tell the component and the message. -/
theorem keysTell_of_not_continued {S : Set String} (hS : ∀ c ∈ S, ∀ s, c ++ "] " ++ s ∉ S) :
    KeysTell S := by
  intro c hc c' hc' m m' h
  rcases key_eq_key_iff.1 h with ⟨rfl, rfl⟩ | ⟨s, rfl, -⟩ | ⟨s, rfl, -⟩
  · rfl
  · exact absurd hc' (hS c hc s)
  · exact absurd hc (hS c' hc' s)

/-- The log keeps the warnings of some components apart. As long as no other component warns, it
goes by the very component and the very message. -/
structure KeepsApart (S : Set String) : Prop where
  /-- Asked after any run, it tells whether the component has warned with the message since the log
  was last cleared. -/
  answer : ∀ (log : Log) (notices : List Notice), log.seen = [] →
    (∀ w ∈ warnings notices, w.1 ∈ S) → ∀ c ∈ S, ∀ m : String,
      ((Hypertext.hasWarned c m).run (log.after notices)).1 = true ↔ (c, m) ∈ sinceClear notices
  /-- Between two clearings, one line is printed for each component and message with which it
  warns. -/
  lines : ∀ (log : Log) (before stretch : List Notice), log.seen = [] →
    (∀ w ∈ warnings (before ++ stretch), w.1 ∈ S) →
    (before = [] ∨ before.getLast? = some .clear) → .clear ∉ stretch →
      (log.after (before ++ stretch)).printed = (log.after before).printed ++
        (warnings stretch).eraseDups.map
          fun w ↦ "\x1b[33m[Wombat " ++ w.1 ++ "] ⚠ " ++ w.2 ++ "\x1b[0m\n"

/-- **The log keeps components apart exactly if none of them continues another one** with the mark
that stands between component and message. -/
theorem keepsApart_iff (S : Set String) :
    KeepsApart S ↔ ∀ c ∈ S, ∀ s, c ++ "] " ++ s ∉ S := by
  constructor
  · intro hapart c hc s hcont
    -- the longer component warns, and the log answers for the shorter one
    have hraised : sinceClear [.raise (c ++ "] " ++ s) ""] = [(c ++ "] " ++ s, "")] :=
      sinceClear_concat_raise [] _ _
    have huses : ∀ w ∈ warnings [.raise (c ++ "] " ++ s) ""], w.1 ∈ S := by
      simpa [warnings, warning?] using hcont
    have hkey : key c (s ++ "] ") = key (c ++ "] " ++ s) "" :=
      key_eq_key_iff.2 (.inr (.inl ⟨s, rfl, by simp⟩))
    have hseen :
        (Log.after .empty [.raise (c ++ "] " ++ s) ""]).hasWarned c (s ++ "] ") = true := by
      rw [hasWarned_after_iff rfl, hraised]
      exact ⟨_, List.mem_singleton_self _, hkey⟩
    have hmem := (hapart.answer .empty _ rfl huses c hc (s ++ "] ")).1 hseen
    rw [hraised, List.mem_singleton] at hmem
    have hmessage := congrArg String.length (Prod.mk.inj hmem).2
    simp at hmessage
  · intro hS
    have htell := keysTell_of_not_continued hS
    refine ⟨fun log notices hlog huses c hc m ↦ hasWarned_after_iff_mem htell huses hlog hc m, ?_⟩
    intro log before stretch hlog huses hbefore hclear
    have hseen := seen_after_eq_nil hlog (sinceClear_eq_nil hbefore)
    have huses' : ∀ w ∈ warnings stretch, w.1 ∈ S := by
      intro w hw
      refine huses w ?_
      rw [warnings_append]
      exact List.mem_append_right _ hw
    rw [after_append, printed_after_of_seen_eq_nil htell huses' hseen hclear]
    rfl

/-- Components without the mark are kept apart. -/
theorem keepsApart_of_no_mark : KeepsApart {c | ¬[']', ' '] <:+: c.toList} := by
  rw [keepsApart_iff]
  intro c _ s hcont
  exact hcont ⟨c.toList, s.toList, by simp⟩

/-- A component that continues another one with the mark: the log says of the other that it has
warned, and when it does, prints nothing. -/
theorem not_keepsApart_univ :
    ((Hypertext.hasWarned "A" "B] C").run (Log.empty.after [.raise "A] B" "C"])).1 = true ∧
      ("A", "B] C") ∉ sinceClear [.raise "A] B" "C"] ∧
      (Log.empty.after [.raise "A] B" "C", .raise "A" "B] C"]).printed =
        ["\x1b[33m[Wombat A] B] ⚠ C\x1b[0m\n"] ∧
      ¬KeepsApart Set.univ := by
  have hanswer :
      ((Hypertext.hasWarned "A" "B] C").run (Log.empty.after [.raise "A] B" "C"])).1 = true := by
    decide +kernel
  have hraised : ("A", "B] C") ∉ sinceClear [.raise "A] B" "C"] := by decide +kernel
  refine ⟨hanswer, hraised, by decide +kernel, fun hapart ↦ hraised ?_⟩
  exact (hapart.answer .empty _ rfl (fun _ _ ↦ trivial) "A" trivial _).1 hanswer

end Log

end Hypertext
