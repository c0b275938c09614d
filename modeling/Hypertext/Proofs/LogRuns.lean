import Mathlib.Data.List.DropRight
import Mathlib.Data.List.Induction
import Mathlib.Data.Set.Defs
import Mathlib.Logic.Function.Defs
import Hypertext.Warning

/-!
# The log over a run

Whoever warns, the log is told two things only: that a warning is raised, and that it is to forget
what it has seen. A run of the log is a list of such notices (`Log.after`), and what it does to the
log is said here once. What has been seen afterwards are the keys of the warnings raised since the
last clearing, and what had been seen before if there was none (`Log.mem_seen_after`). What is
printed are the warnings whose key had not been seen, each at its first occurrence
(`Log.printed_after`).

The second law counts warnings and not keys, so it holds for components whose keys **tell** the
component and the message (`Log.KeysTell`). The keys of a single component do.

Sessions and programs that warn in passing tell the log a list of notices. That this is all they do
to it is shown with them, and the laws of a run are then theirs.
-/

namespace Hypertext

/-! ### Lists without repetitions -/

section EraseDups

variable {α β : Type} [BEq α] [LawfulBEq α] [BEq β] [LawfulBEq β]

/-- A further item is kept exactly if it is new. -/
theorem eraseDups_concat (xs : List α) (x : α) :
    (xs ++ [x]).eraseDups = xs.eraseDups ++ if x ∈ xs then [] else [x] := by
  rw [List.eraseDups_append]
  by_cases h : x ∈ xs <;> simp [List.removeAll, h, List.eraseDups_cons]

/-- Items that are renamed apart repeat themselves where they did before. -/
theorem eraseDups_map {f : α → β} (hf : Function.Injective f) (xs : List α) :
    (xs.map f).eraseDups = xs.eraseDups.map f := by
  induction xs using List.reverseRecOn with
  | nil => rfl
  | append_singleton xs x ih =>
    have hmem : f x ∈ xs.map f ↔ x ∈ xs := List.mem_map_of_injective hf
    rw [List.map_append, List.map_singleton, eraseDups_concat, eraseDups_concat, ih,
      List.map_append, if_congr hmem rfl rfl]
    split <;> rfl

end EraseDups

/-! ### Notices -/

/-- What may be told to the log. -/
inductive Notice where
  /-- Raises a warning. -/
  | raise (component message : String)
  /-- Forgets which warnings have been seen. -/
  | clear
  deriving DecidableEq

namespace Notice

/-- Tells the log. -/
def send : Notice → Build Unit
  | .raise c m => warnOnce c m
  | .clear => clearWarnings

/-- The component and the message of a warning. -/
def warning? : Notice → Option (String × String)
  | .raise c m => some (c, m)
  | .clear => none

/-- The warnings raised, in order and as often as they are. -/
def warnings (notices : List Notice) : List (String × String) :=
  notices.filterMap warning?

/-- The warnings raised since the log was last cleared. -/
def sinceClear (notices : List Notice) : List (String × String) :=
  warnings (notices.rtakeWhile (· ≠ .clear))

theorem warnings_append (notices more : List Notice) :
    warnings (notices ++ more) = warnings notices ++ warnings more :=
  List.filterMap_append

/-- A warning counts from when it is raised on. -/
theorem sinceClear_concat_raise (notices : List Notice) (c m : String) :
    sinceClear (notices ++ [.raise c m]) = sinceClear notices ++ [(c, m)] := by
  rw [sinceClear, List.rtakeWhile_concat_pos _ _ _ (by simp), warnings_append]
  rfl

/-- After a clearing no warning counts. -/
theorem sinceClear_concat_clear (notices : List Notice) :
    sinceClear (notices ++ [.clear]) = [] := by
  rw [sinceClear, List.rtakeWhile_concat_neg _ _ _ (by simp)]
  rfl

/-- If the log is not cleared, all warnings raised count. -/
theorem sinceClear_eq_warnings {notices : List Notice} (h : .clear ∉ notices) :
    sinceClear notices = warnings notices := by
  rw [sinceClear, List.rtakeWhile_eq_self_iff.2]
  intro n hn
  simp only [decide_eq_true_eq]
  exact fun hclear ↦ h (hclear ▸ hn)

/-- What counts has been raised. -/
theorem sinceClear_subset (notices : List Notice) : sinceClear notices ⊆ warnings notices :=
  (List.rtakeWhile_suffix _ _).sublist.filterMap _ |>.subset

/-- At the start and after each clearing no warning counts. -/
theorem sinceClear_eq_nil {before : List Notice}
    (h : before = [] ∨ before.getLast? = some .clear) : sinceClear before = [] := by
  rcases h with rfl | hlast
  · rfl
  · obtain ⟨earlier, rfl⟩ := List.getLast?_eq_some_iff.1 hlast
    exact sinceClear_concat_clear earlier

/-- A component that only warns: nothing is cleared, and all its messages are raised. -/
theorem warnings_map_raise (c : String) (ms : List String) :
    warnings (ms.map (.raise c)) = ms.map (c, ·) := by
  rw [warnings, List.filterMap_map]
  exact List.filterMap_eq_map_iff_forall_eq_some.2 fun _ _ ↦ rfl

theorem clear_notMem_map_raise (c : String) (ms : List String) :
    .clear ∉ ms.map (Notice.raise c) := by
  simp

end Notice

/-! ### Runs -/

namespace Log

open Notice

/-- The log after it has been told several things. -/
def after (log : Log) (notices : List Notice) : Log :=
  notices.foldl (fun log n ↦ (n.send.run log).2) log

@[simp]
theorem after_nil (log : Log) : log.after [] = log :=
  rfl

@[simp]
theorem after_raise (log : Log) (c m : String) : log.after [.raise c m] = log.warnOnce c m :=
  rfl

@[simp]
theorem after_clear (log : Log) : log.after [.clear] = log.clear :=
  rfl

theorem after_append (log : Log) (notices more : List Notice) :
    log.after (notices ++ more) = (log.after notices).after more :=
  List.foldl_append

/-- One more warning is raised in the log that the run has left. -/
theorem after_concat_raise (log : Log) (notices : List Notice) (c m : String) :
    log.after (notices ++ [.raise c m]) = (log.after notices).warnOnce c m := by
  rw [after_append, after_raise]

theorem after_concat_clear (log : Log) (notices : List Notice) :
    log.after (notices ++ [.clear]) = (log.after notices).clear := by
  rw [after_append, after_clear]

/-- **What has been seen after a run** are the keys raised since the last clearing, and without a
clearing those seen before as well. -/
theorem mem_seen_after (log : Log) (notices : List Notice) (k : String) :
    k ∈ (log.after notices).seen ↔
      (.clear ∉ notices ∧ k ∈ log.seen) ∨ ∃ w ∈ sinceClear notices, k = key w.1 w.2 := by
  induction notices using List.reverseRecOn with
  | nil => simp [sinceClear, warnings]
  | append_singleton notices n ih =>
    cases n with
    | raise c m =>
      rw [after_concat_raise, mem_seen_warnOnce, ih, sinceClear_concat_raise]
      simp [or_and_right, exists_or, or_assoc]
    | clear => simp [after_concat_clear, sinceClear_concat_clear]

/-- Nothing has been seen after a clearing, as long as nothing is raised. -/
theorem seen_after_eq_nil {log : Log} (hlog : log.seen = []) {notices : List Notice}
    (h : sinceClear notices = []) : (log.after notices).seen = [] := by
  rw [List.eq_nil_iff_forall_not_mem]
  intro k hk
  simp [mem_seen_after, hlog, h] at hk

/-- **The log goes by keys.** From a cleared log on, a warning has been seen exactly if one of its
key was raised since the last clearing. -/
theorem hasWarned_after_iff {log : Log} (hlog : log.seen = []) (notices : List Notice)
    (c m : String) :
    (log.after notices).hasWarned c m = true ↔
      ∃ w ∈ sinceClear notices, key c m = key w.1 w.2 := by
  rw [hasWarned_iff, mem_seen_after, hlog]
  simp

/-! ### Components whose keys tell their warnings -/

/-- Messages of one component have keys of their own. -/
theorem key_inj {c m m' : String} : key c m = key c m' ↔ m = m' :=
  String.append_right_inj _

/-- The keys of some components tell the component and the message. -/
def KeysTell (S : Set String) : Prop :=
  ∀ c ∈ S, ∀ c' ∈ S, ∀ m m' : String, key c m = key c' m' → (c, m) = (c', m')

/-- The keys of a single component tell its messages. -/
theorem keysTell_singleton (c : String) : KeysTell {c} := by
  rintro _ rfl _ rfl m m' h
  rw [key_inj.1 h]

section KeysTell

variable {S : Set String} (hS : KeysTell S) {log : Log} {notices : List Notice}
  (huses : ∀ w ∈ warnings notices, w.1 ∈ S)
include hS huses

/-- Such components are asked about by the very component and the very message. -/
theorem exists_key_eq_iff {ws : List (String × String)} (hws : ws ⊆ warnings notices) {c : String}
    (hc : c ∈ S) (m : String) : (∃ w ∈ ws, key c m = key w.1 w.2) ↔ (c, m) ∈ ws := by
  constructor
  · rintro ⟨w, hw, hkey⟩
    have heq : (c, m) = w := hS c hc w.1 (huses w (hws hw)) m w.2 hkey
    exact heq ▸ hw
  · exact fun hmem ↦ ⟨(c, m), hmem, rfl⟩

/-- For such components the log goes by the very component and the very message. -/
theorem hasWarned_after_iff_mem (hlog : log.seen = []) {c : String} (hc : c ∈ S) (m : String) :
    (log.after notices).hasWarned c m = true ↔ (c, m) ∈ sinceClear notices := by
  rw [hasWarned_after_iff hlog, exists_key_eq_iff hS huses (sinceClear_subset notices) hc]

/-- **What is printed in a run** without a clearing are the warnings whose key had not been seen,
each once and in the order in which they are first raised. -/
theorem printed_after (hclear : .clear ∉ notices) :
    (log.after notices).printed = log.printed ++
      ((warnings notices).filter fun w ↦ key w.1 w.2 ∉ log.seen).eraseDups.map
        fun w ↦ line w.1 w.2 := by
  induction notices using List.reverseRecOn with
  | nil => exact (List.append_nil _).symm
  | append_singleton notices n ih =>
    rw [List.mem_append, not_or] at hclear
    cases n with
    | clear => exact absurd (List.mem_singleton_self _) hclear.2
    | raise c m =>
      have hconcat : warnings (notices ++ [.raise c m]) = warnings notices ++ [(c, m)] :=
        warnings_append _ _
      rw [hconcat] at huses ⊢
      have hbefore : ∀ w ∈ warnings notices, w.1 ∈ S := fun w hw ↦
        huses w (List.mem_append_left _ hw)
      have hc : c ∈ S := huses (c, m) (List.mem_append_right _ (List.mem_singleton_self _))
      -- the warning has been seen if the log knew its key, or if it was raised in the run
      have hold : (log.after notices).hasWarned c m = true ↔
          key c m ∈ log.seen ∨ (c, m) ∈ warnings notices := by
        rw [hasWarned_iff, mem_seen_after, sinceClear_eq_warnings hclear.1,
          exists_key_eq_iff hS hbefore (List.Subset.refl _) hc, and_iff_right hclear.1]
      rw [after_concat_raise, printed_warnOnce, ih hbefore hclear.1, List.filter_append,
        List.append_assoc]
      congr 1
      by_cases hseen : key c m ∈ log.seen
      · simp [hold, hseen]
      · have hmem : (c, m) ∈ (warnings notices).filter (fun w ↦ key w.1 w.2 ∉ log.seen) ↔
            (c, m) ∈ warnings notices := by
          simp [hseen]
        have hone : [(c, m)].filter (fun w ↦ key w.1 w.2 ∉ log.seen) = [(c, m)] := by
          simp [hseen]
        rw [hone, eraseDups_concat, List.map_append, if_congr hmem rfl rfl]
        by_cases h : (c, m) ∈ warnings notices <;> simp [hold, hseen, h]

/-- From a cleared log on, each warning is printed once. -/
theorem printed_after_of_seen_eq_nil (hlog : log.seen = []) (hclear : .clear ∉ notices) :
    (log.after notices).printed =
      log.printed ++ (warnings notices).eraseDups.map fun w ↦ line w.1 w.2 := by
  rw [printed_after hS huses hclear, hlog]
  simp

end KeysTell

/-! ### A single component -/

section SingleComponent

variable {log : Log} {notices : List Notice} {c : String} {ms : List String}
  (hms : warnings notices = ms.map (c, ·))
include hms

theorem fst_mem_of_mem_warnings : ∀ w ∈ warnings notices, w.1 ∈ ({c} : Set String) := by
  rw [hms, List.forall_mem_map]
  exact fun _ _ ↦ rfl

/-- If one component alone warns, the log goes by its messages. -/
theorem hasWarned_after_of_component (hlog : log.seen = []) (m : String) :
    (log.after notices).hasWarned c m = true ↔ (c, m) ∈ sinceClear notices :=
  hasWarned_after_iff_mem (keysTell_singleton c) (fst_mem_of_mem_warnings hms) hlog rfl m

/-- If one component alone warns, and the log is not cleared, what is printed are the messages that
had not been seen, each once. -/
theorem printed_after_of_component (hclear : .clear ∉ notices) :
    (log.after notices).printed = log.printed ++
      (ms.filter fun m ↦ key c m ∉ log.seen).eraseDups.map (line c) := by
  have hpair : Function.Injective (Prod.mk c : String → String × String) :=
    fun _ _ h ↦ (Prod.mk.inj h).2
  rw [printed_after (keysTell_singleton c) (fst_mem_of_mem_warnings hms) hclear, hms,
    List.filter_map, eraseDups_map hpair, List.map_map]
  rfl

end SingleComponent

end Log

end Hypertext
