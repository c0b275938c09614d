/-!
# Warnings

A warning is raised by a component with a message and is printed at its first sighting only. The
log keeps the keys of the warnings seen since it was last cleared and the lines printed so far.
Actions that may warn run in `Build`, which threads the log; nothing that they compute depends on
it.
-/

namespace Hypertext

/-- The warnings seen, and what was printed about them. -/
structure Log where
  /-- The keys of the warnings seen since the last clearing. -/
  seen : List String
  /-- The lines printed, oldest first. -/
  printed : List String
  deriving DecidableEq, Inhabited

namespace Log

/-- Nothing seen, nothing printed. -/
def empty : Log :=
  ⟨[], []⟩

/-- What identifies a warning: component and message, joined. -/
def key (component message : String) : String :=
  "[" ++ component ++ "] " ++ message

/-- The line printed for a warning, in yellow. -/
def line (component message : String) : String :=
  "\x1b[33m[Wombat " ++ component ++ "] ⚠ " ++ message ++ "\x1b[0m\n"

/-- Whether a warning has been seen since the last clearing. -/
def hasWarned (log : Log) (component message : String) : Bool :=
  log.seen.contains (key component message)

/-- Prints and records a warning at its first sighting. -/
def warnOnce (log : Log) (component message : String) : Log :=
  if log.hasWarned component message then log
  else ⟨log.seen ++ [key component message], log.printed ++ [line component message]⟩

/-- The log goes by keys. -/
theorem hasWarned_iff {log : Log} {c m : String} :
    log.hasWarned c m = true ↔ key c m ∈ log.seen :=
  List.contains_iff_mem

/-- Raising a warning makes its key seen, and no other. -/
theorem mem_seen_warnOnce (log : Log) (c m k : String) :
    k ∈ (log.warnOnce c m).seen ↔ k ∈ log.seen ∨ k = key c m := by
  unfold warnOnce
  split
  · next h =>
    refine ⟨.inl, ?_⟩
    rintro (hk | rfl)
    · exact hk
    · exact hasWarned_iff.1 h
  · rw [List.mem_append, List.mem_singleton]

/-- A warning is printed exactly if it has not been seen. -/
theorem printed_warnOnce (log : Log) (c m : String) :
    (log.warnOnce c m).printed =
      log.printed ++ if log.hasWarned c m then [] else [line c m] := by
  unfold warnOnce
  split
  · rw [List.append_nil]
  · rfl

/-- Forgets which warnings have been seen. -/
def clear (log : Log) : Log :=
  { log with seen := [] }

@[simp]
theorem seen_clear (log : Log) : log.clear.seen = [] :=
  rfl

end Log

/-- An action that may warn. -/
abbrev Build := StateM Log

/-- Raises a warning. -/
def warnOnce (component message : String) : Build Unit :=
  modify fun log ↦ log.warnOnce component message

/-- Asks whether a warning has been seen since the last clearing. -/
def hasWarned (component message : String) : Build Bool := do
  return (← get).hasWarned component message

/-- Forgets which warnings have been seen. -/
def clearWarnings : Build Unit :=
  modify Log.clear

end Hypertext
