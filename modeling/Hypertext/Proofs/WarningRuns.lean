import Mathlib.Data.List.Induction
import Mathlib.Logic.Function.Basic
import Hypertext.Markup.Tree
import Hypertext.Proofs.LogRuns

/-!
# Warnings over a run

All attribute lists and elements of a document warn into one log, and the log keeps only what was
warned of, not who did. Still it says **exactly** what happened since it was last cleared: a
message has been seen if and only if some action gave cause to it, and it was printed once, by the
first action that did.

A run is a sequence of actions in a session (`Session.run`). An action tells the log at most one
thing: what it gives cause to (`Session.cause?`), or to forget everything. `Session.log_step` says
so once for all actions, so the log of a run is that of the notices given in it
(`Session.log_run`), and the laws of the log are laws of the session.
-/

namespace Hypertext

/-- The line of a warning of the markup. -/
theorem Log.line_dom :
    Log.line "DOM" = fun m ↦ "\x1b[33m[Wombat DOM] ⚠ " ++ m ++ "\x1b[0m\n" :=
  rfl

/-- An attribute is dropped exactly if its name is taken. -/
theorem Attributes.insert_eq_self_iff (as : Attributes) (a : Attribute) :
    as.insert a = as ↔ as.contains a.name.value = true := by
  unfold insert
  split
  · next h => exact ⟨fun _ ↦ h, fun _ ↦ rfl⟩
  · next h =>
    refine ⟨fun heq ↦ ?_, fun hc ↦ absurd hc h⟩
    have hlength := congrArg (List.length ∘ toList) heq
    simp at hlength

/-! ### Sessions -/

/-- Attribute lists that are being filled, any number of them, and the log that they share. -/
structure Session (ι : Type) where
  /-- The lists. -/
  lists : ι → Attributes
  /-- The log. -/
  log : Log

/-- What may be done in a session. -/
inductive Action (ι : Type) where
  /-- Adds an attribute, as written, to a list. -/
  | push (list : ι) (written : Attribute)
  /-- Makes a tag. -/
  | tag (name : Leaf)
  /-- Makes an element. -/
  | element (name : Leaf) (attrs : Attributes) (children : List Tree)
  /-- Makes the tree of an element. -/
  | tree (name : Leaf) (attrs : Attributes) (children : List Tree)
  /-- Asks whether a warning has been seen. -/
  | ask (component message : String)
  /-- Forgets which warnings have been seen. -/
  | clear

namespace Session

variable {ι : Type} [DecidableEq ι]

/-- The session after an action. -/
def step (s : Session ι) : Action ι → Session ι
  | .push i a =>
    let (as, log) := ((s.lists i).push a.normalize).run s.log
    ⟨Function.update s.lists i as, log⟩
  | .tag name => { s with log := ((Tag.ofName name).run s.log).2 }
  | .element name as ts => { s with log := ((Element.build name as ts).run s.log).2 }
  | .tree name as ts => { s with log := ((Tree.buildElement name as ts).run s.log).2 }
  | .ask component message => { s with log := ((hasWarned component message).run s.log).2 }
  | .clear => { s with log := (clearWarnings.run s.log).2 }

/-- The session after a run. -/
def run (s : Session ι) (acts : List (Action ι)) : Session ι :=
  acts.foldl step s

/-- The message that an action gives cause to: an attribute is dropped, so that the list stays what
it was, or a tag has no name. -/
def cause? (s : Session ι) : Action ι → Option String
  | .push i a =>
    if (((s.lists i).push a.normalize).run s.log).1 = s.lists i then
      some ("duplicate attribute '" ++ Ascii.lower a.name.value ++ "' dropped")
    else none
  | .tag name | .element name _ _ | .tree name _ _ =>
    if name.value = "" then some "element with empty tag name" else none
  | .ask _ _ | .clear => none

/-- The messages that the actions of a run give cause to, in order and as often as they do. -/
def causes (s : Session ι) : List (Action ι) → List String
  | [] => []
  | act :: acts => (s.cause? act).toList ++ (s.step act).causes acts

/-- Some action gave cause to the message, and the log has not been cleared since. -/
def Caused (s : Session ι) (acts : List (Action ι)) (m : String) : Prop :=
  ∃ before act after, acts = before ++ act :: after ∧ Action.clear ∉ after ∧
    (s.run before).cause? act = some m

@[simp]
theorem run_nil (s : Session ι) : s.run [] = s :=
  rfl

theorem run_append (s : Session ι) (acts more : List (Action ι)) :
    s.run (acts ++ more) = (s.run acts).run more :=
  List.foldl_append

/-- One more action is taken in the session that the run has left. -/
theorem run_concat (s : Session ι) (acts : List (Action ι)) (act : Action ι) :
    s.run (acts ++ [act]) = (s.run acts).step act :=
  s.run_append acts [act]

/-! ### What the log is told -/

/-- What an action tells the log. -/
def notice? (s : Session ι) : Action ι → Option Notice
  | .clear => some .clear
  | act => (s.cause? act).map (.raise "DOM")

/-- What the actions of a run tell the log. -/
def notices (s : Session ι) : List (Action ι) → List Notice
  | [] => []
  | act :: acts => (s.notice? act).toList ++ (s.step act).notices acts

omit [DecidableEq ι] in
/-- An action that does not clear the log tells it what it gives cause to. -/
theorem notice?_of_ne_clear (s : Session ι) {act : Action ι} (hact : act ≠ .clear) :
    s.notice? act = (s.cause? act).map (.raise "DOM") := by
  cases act with
  | clear => exact absurd rfl hact
  | _ => rfl

/-- **What an action does to the log** is what it tells it. -/
theorem log_step (s : Session ι) (act : Action ι) :
    (s.step act).log = s.log.after (s.notice? act).toList := by
  -- a tag is made in three ways, and each of them warns as the tag alone
  have htag : ∀ name : Leaf, ((Tag.ofName name).run s.log).2 =
      s.log.after (s.notice? (.tag name)).toList := by
    intro name
    rw [Tag.run_ofName]
    by_cases h : name.value = ""
    · simp [notice?, cause?, h, Attributes.component, Tag.emptyMessage]
    · simp [notice?, cause?, h]
  cases act with
  | push i a =>
    have hname : a.normalize.name.value = Ascii.lower a.name.value := by simp
    simp only [step, notice?, cause?, Attributes.run_push, Attributes.insert_eq_self_iff, hname]
    split <;> rfl
  | tag name => exact htag name
  | element name as ts =>
    rw [step, Element.run_build]
    exact htag name
  | tree name as ts =>
    rw [step, Tree.run_buildElement]
    exact htag name
  | ask component message => rfl
  | clear => rfl

/-- **The log of a run** is the log after all that it was told. -/
theorem log_run (s : Session ι) (acts : List (Action ι)) :
    (s.run acts).log = s.log.after (s.notices acts) := by
  induction acts generalizing s with
  | nil => rfl
  | cons act acts ih =>
    rw [notices, Log.after_append, ← log_step]
    exact ih (s.step act)

/-- One more action tells the log one thing more. -/
theorem notices_concat (s : Session ι) (acts : List (Action ι)) (act : Action ι) :
    s.notices (acts ++ [act]) = s.notices acts ++ ((s.run acts).notice? act).toList := by
  induction acts generalizing s with
  | nil => simp [notices]
  | cons b acts ih => rw [List.cons_append, notices, ih, notices, List.append_assoc]; rfl

/-- The log is cleared by clearing it, and in no other way. -/
theorem clear_notMem_notices (s : Session ι) {acts : List (Action ι)} (hacts : .clear ∉ acts) :
    .clear ∉ s.notices acts := by
  induction acts generalizing s with
  | nil => exact List.not_mem_nil
  | cons act acts ih =>
    rw [List.mem_cons, not_or] at hacts
    rw [notices, notice?_of_ne_clear s (Ne.symm hacts.1), List.mem_append, not_or]
    exact ⟨by simp, ih _ hacts.2⟩

/-- The warnings raised are the messages that are given cause to. -/
theorem warnings_notices (s : Session ι) (acts : List (Action ι)) :
    Notice.warnings (s.notices acts) = (s.causes acts).map ("DOM", ·) := by
  induction acts generalizing s with
  | nil => rfl
  | cons act acts ih =>
    have hact : Notice.warnings (s.notice? act).toList = (s.cause? act).toList.map ("DOM", ·) := by
      by_cases hclear : act = .clear
      · rw [hclear]
        rfl
      · rw [notice?_of_ne_clear s hclear]
        cases s.cause? act <;> rfl
    rw [notices, Notice.warnings_append, hact, ih, causes, List.map_append]

/-! ### What has been given cause to -/

theorem not_caused_nil (s : Session ι) (m : String) : ¬s.Caused [] m := by
  rintro ⟨before, act, after, hsplit, -⟩
  simp at hsplit

/-- What has been caused after one more action. -/
theorem caused_concat (s : Session ι) (acts : List (Action ι)) (act : Action ι) (m : String) :
    s.Caused (acts ++ [act]) m ↔
      (act ≠ .clear ∧ s.Caused acts m) ∨ (s.run acts).cause? act = some m := by
  constructor
  · rintro ⟨before, b, after, hsplit, hclear, hcause⟩
    rcases List.eq_nil_or_concat after with rfl | ⟨rest, last, rfl⟩
    · obtain ⟨rfl, hb⟩ := List.append_inj' hsplit rfl
      obtain rfl := List.singleton_inj.1 hb
      exact .inr hcause
    · rw [List.concat_eq_append] at hsplit hclear
      rw [← List.cons_append, ← List.append_assoc] at hsplit
      obtain ⟨hacts, hlast⟩ := List.append_inj' hsplit rfl
      obtain rfl := List.singleton_inj.1 hlast
      rw [List.mem_append, not_or] at hclear
      exact .inl ⟨fun h ↦ hclear.2 (by rw [h]; exact List.mem_singleton_self _),
        before, b, rest, hacts, hclear.1, hcause⟩
  · rintro (⟨hact, before, b, after, rfl, hclear, hcause⟩ | hcause)
    · refine ⟨before, b, after ++ [act], by simp, ?_, hcause⟩
      rw [List.mem_append, not_or, List.mem_singleton]
      exact ⟨hclear, fun h ↦ hact h.symm⟩
    · exact ⟨acts, act, [], rfl, List.not_mem_nil, hcause⟩

/-- What has been given cause to are the warnings raised since the last clearing. -/
theorem mem_sinceClear_notices_iff (s : Session ι) (acts : List (Action ι)) (m : String) :
    ("DOM", m) ∈ Notice.sinceClear (s.notices acts) ↔ s.Caused acts m := by
  induction acts using List.reverseRecOn with
  | nil => exact iff_of_false List.not_mem_nil (not_caused_nil s m)
  | append_singleton acts act ih =>
    rw [notices_concat, caused_concat, ← ih]
    by_cases hact : act = .clear
    · subst hact
      show _ ∈ Notice.sinceClear (s.notices acts ++ [.clear]) ↔ _
      simp [Notice.sinceClear_concat_clear, cause?]
    · rw [notice?_of_ne_clear _ hact]
      cases (s.run acts).cause? act with
      | none => simp [hact]
      | some m' =>
        show _ ∈ Notice.sinceClear (s.notices acts ++ [.raise "DOM" m']) ↔ _
        simp [Notice.sinceClear_concat_raise, hact, eq_comm]

/-- If the log is not cleared, everything that was given cause to counts. -/
theorem mem_causes_iff (s : Session ι) {acts : List (Action ι)} (hacts : .clear ∉ acts)
    (m : String) : m ∈ s.causes acts ↔ s.Caused acts m := by
  rw [← mem_sinceClear_notices_iff,
    Notice.sinceClear_eq_warnings (s.clear_notMem_notices hacts), warnings_notices]
  simp

/-! ### Runs -/

/-- **The log says what happened.** From a cleared log on, a message has been seen exactly if it was
given cause to since the last clearing. -/
theorem hasWarned_run_iff {s : Session ι} (hs : s.log.seen = []) (acts : List (Action ι))
    (m : String) : (s.run acts).log.hasWarned "DOM" m = true ↔ s.Caused acts m := by
  rw [log_run, Log.hasWarned_after_of_component (s.warnings_notices acts) hs,
    mem_sinceClear_notices_iff]

/-- An action prints at most one line: that of what it gives cause to, if it had not been warned
of. -/
theorem printed_step (s : Session ι) (act : Action ι) :
    (s.step act).log.printed = s.log.printed ++
      (s.cause? act).elim [] fun m ↦
        if s.log.hasWarned "DOM" m then [] else [Log.line "DOM" m] := by
  rw [log_step]
  by_cases hact : act = .clear
  · subst hact
    exact (List.append_nil _).symm
  · rw [notice?_of_ne_clear s hact]
    cases s.cause? act with
    | none => exact (List.append_nil _).symm
    | some m => exact s.log.printed_warnOnce "DOM" m

/-- The first action of a run that gives cause to a message prints its line. -/
theorem printed_run_concat_of_not_caused {s : Session ι} (hs : s.log.seen = [])
    {acts : List (Action ι)} {act : Action ι} {m : String}
    (hcause : (s.run acts).cause? act = some m) (hnew : ¬s.Caused acts m) :
    (s.run (acts ++ [act])).log.printed =
      (s.run acts).log.printed ++ [Log.line "DOM" m] := by
  rw [run_concat, printed_step, hcause, Option.elim_some,
    if_neg fun h ↦ hnew ((hasWarned_run_iff hs acts m).1 h)]

/-- An action of a run that gives no new cause prints nothing. -/
theorem printed_run_concat_of_caused {s : Session ι} (hs : s.log.seen = [])
    {acts : List (Action ι)} {act : Action ι}
    (hold : ∀ m, (s.run acts).cause? act = some m → s.Caused acts m) :
    (s.run (acts ++ [act])).log.printed = (s.run acts).log.printed := by
  rw [run_concat, printed_step]
  cases hcause : (s.run acts).cause? act with
  | none => exact List.append_nil _
  | some m =>
    rw [Option.elim_some, if_pos ((hasWarned_run_iff hs acts m).2 (hold m hcause)),
      List.append_nil]

/-- **A stretch prints each message once**, in the order in which they were first given cause to. -/
theorem printed_run_of_not_mem {s : Session ι} (hs : s.log.seen = []) {acts : List (Action ι)}
    (hacts : .clear ∉ acts) :
    (s.run acts).log.printed =
      s.log.printed ++ (s.causes acts).eraseDups.map (Log.line "DOM") := by
  rw [log_run, Log.printed_after_of_component (s.warnings_notices acts)
    (s.clear_notMem_notices hacts), hs]
  simp

/-- At the start and after each clearing nothing has been seen. -/
theorem seen_run_eq_nil {s : Session ι} (hs : s.log.seen = []) {before : List (Action ι)}
    (hbefore : before = [] ∨ before.getLast? = some .clear) : (s.run before).log.seen = [] := by
  rw [log_run]
  refine Log.seen_after_eq_nil hs (Notice.sinceClear_eq_nil ?_)
  rcases hbefore with rfl | hlast
  · exact .inl rfl
  · obtain ⟨earlier, rfl⟩ := List.getLast?_eq_some_iff.1 hlast
    rw [notices_concat]
    exact .inr List.getLast?_concat

/-! ### The exact record -/

/-- Warnings are an exact record of a session: of what its actions give cause to, of when they first
do, and of nothing else. -/
structure WarnsExactly (s : Session ι) : Prop where
  /-- Asked after any run, the log tells what was given cause to since it was last cleared. -/
  answer : ∀ (acts : List (Action ι)) (m : String),
    ((hasWarned "DOM" m).run (s.run acts).log).1 = true ↔ s.Caused acts m
  /-- The first action that gives cause to a message prints it. -/
  first : ∀ (acts : List (Action ι)) (act : Action ι) (m : String),
    (s.run acts).cause? act = some m → ¬s.Caused acts m →
      (s.run (acts ++ [act])).log.printed =
        (s.run acts).log.printed ++ ["\x1b[33m[Wombat DOM] ⚠ " ++ m ++ "\x1b[0m\n"]
  /-- No other action prints anything. -/
  quiet : ∀ (acts : List (Action ι)) (act : Action ι),
    (∀ m, (s.run acts).cause? act = some m → s.Caused acts m) →
      (s.run (acts ++ [act])).log.printed = (s.run acts).log.printed
  /-- Between two clearings one line is printed for each message, in the order of the first
  causes. -/
  stretch : ∀ before acts : List (Action ι), (before = [] ∨ before.getLast? = some .clear) →
    .clear ∉ acts →
      (∀ m, m ∈ (s.run before).causes acts ↔ s.Caused (before ++ acts) m) ∧
        (s.run (before ++ acts)).log.printed = (s.run before).log.printed ++
          ((s.run before).causes acts).eraseDups.map
            fun m ↦ "\x1b[33m[Wombat DOM] ⚠ " ++ m ++ "\x1b[0m\n"

/-- **Warnings are exact over whole runs**, from a cleared log on. -/
theorem warnsExactly_of_seen_eq_nil {s : Session ι} (hs : s.log.seen = []) :
    s.WarnsExactly where
  answer := hasWarned_run_iff hs
  first acts act m hcause hnew := by
    rw [printed_run_concat_of_not_caused hs hcause hnew, Log.line_dom]
  quiet _ _ := printed_run_concat_of_caused hs
  stretch before acts hbefore hacts := by
    have hseen := seen_run_eq_nil hs hbefore
    refine ⟨fun m ↦ ?_, ?_⟩
    · rw [mem_causes_iff _ hacts, ← hasWarned_run_iff hseen, ← hasWarned_run_iff hs, run_append]
    · rw [run_append, printed_run_of_not_mem hseen hacts, Log.line_dom]

/-- Two empty lists. -/
def twoLists : Session Bool :=
  ⟨fun _ ↦ ∅, .empty⟩

/-- The same name in two lists and twice in each of them, an element without a name, and a
clearing. -/
def twoListsRun : List (Action Bool) :=
  [.push false (.flag (.fake "ID" "1")), .push true (.flag (.fake "id" "2")),
    .tree (.fake "" "3") ∅ [], .push true (.pair (.fake "Id" "4") (.fake "x" "5")),
    .ask "DOM" "element with empty tag name", .push false (.flag (.fake "iD" "6")), .clear]

/-- Both lists drop the name, which is printed once, and after the clearing the other message is
printed again. -/
theorem twoLists_warnsExactly :
    twoLists.log.seen = [] ∧
      (twoLists.run (twoListsRun ++ [.tag (.fake "" "7")])).log.printed =
        ["\x1b[33m[Wombat DOM] ⚠ element with empty tag name\x1b[0m\n",
          "\x1b[33m[Wombat DOM] ⚠ duplicate attribute 'id' dropped\x1b[0m\n",
          "\x1b[33m[Wombat DOM] ⚠ element with empty tag name\x1b[0m\n"] ∧
      ¬twoLists.Caused twoListsRun "duplicate attribute 'id' dropped" := by
  have hexact := warnsExactly_of_seen_eq_nil (s := twoLists) rfl
  refine ⟨rfl, ?_, ?_⟩
  · rw [(hexact.stretch twoListsRun [.tag (.fake "" "7")] (.inr rfl) (by simp)).2]
    decide +kernel
  · rw [← hexact.answer]
    decide +kernel

end Session

end Hypertext
