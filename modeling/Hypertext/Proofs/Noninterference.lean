import Hypertext.Markup.Outline
import Hypertext.Proofs.FirstOccurrence
import Hypertext.Proofs.WarningRuns

/-!
# Warnings do not interfere

Lists, tags and trees are made by actions that read and write the log of warnings, and the log is
shared by everyone. Still **nothing that is made depends on it**. Each action of the library gives
a value and raises a list of messages, and both can be told without a log (`Raises`); the log only
decides which of the messages are printed. Actions compose accordingly (`Raises.bind`), and asking
the log, `hasWarned`, is the one action that is not of this form.

A program (`Program`) makes calls of the library and goes on as their values say. Others may warn
and clear the log between its calls, whatever they like: the values stay the same
(`Program.values_run`). Left alone, a program adds to the log what its calls raise, and prints of it
what had not been seen before (`Program.raises_strip`, `Log.printed_warnAll`): raising messages is a
run of the log, so this is a law of such runs.
-/

namespace Hypertext

/-! ### Several warnings -/

namespace Log

/-- The log after the markup has raised several messages. -/
def warnAll (log : Log) (messages : List String) : Log :=
  messages.foldl (fun log m ↦ log.warnOnce Attributes.component m) log

/-- Messages can be raised part by part. -/
theorem warnAll_append (log : Log) (ms ns : List String) :
    log.warnAll (ms ++ ns) = (log.warnAll ms).warnAll ns :=
  List.foldl_append

/-- To raise several messages is to run the log on them. -/
theorem warnAll_eq_after (log : Log) (ms : List String) :
    log.warnAll ms = log.after (ms.map (.raise Attributes.component)) := by
  rw [after, List.foldl_map]
  rfl

/-- The messages that the log has not seen, each at its first occurrence. -/
def fresh (log : Log) (messages : List String) : List String :=
  (messages.filter fun m ↦ key Attributes.component m ∉ log.seen).eraseDups

/-- Everything raised has been seen. -/
theorem mem_seen_warnAll (log : Log) (ms : List String) (k : String) :
    k ∈ (log.warnAll ms).seen ↔ k ∈ log.seen ∨ ∃ m ∈ ms, k = key Attributes.component m := by
  have hclear := Notice.clear_notMem_map_raise Attributes.component ms
  rw [warnAll_eq_after, mem_seen_after, and_iff_right hclear,
    Notice.sinceClear_eq_warnings hclear, Notice.warnings_map_raise]
  simp

/-- **What is printed of several messages** are those that the log had not seen, each once. -/
theorem printed_warnAll (log : Log) (ms : List String) :
    (log.warnAll ms).printed =
      log.printed ++ (log.fresh ms).map (line Attributes.component) := by
  rw [warnAll_eq_after, printed_after_of_component (Notice.warnings_map_raise _ ms)
    (Notice.clear_notMem_map_raise _ ms), fresh]

end Log

/-! ### Actions whose value does not depend on the log -/

/-- `Raises x v ms`: from every log, the action gives the value `v` and raises the messages `ms`. -/
def Raises (x : Build α) (v : α) (ms : List String) : Prop :=
  ∀ log : Log, x.run log = (v, log.warnAll ms)

/-- What leaves the log alone raises nothing. -/
theorem Raises.pure (v : α) : Raises (pure v : Build α) v [] :=
  fun _ ↦ rfl

/-- **One action after another** raises what both of them raise. -/
theorem Raises.bind {x : Build α} {f : α → Build β} {v : α} {w : β} {ms ns : List String}
    (hx : Raises x v ms) (hf : Raises (f v) w ns) : Raises (x >>= f) w (ms ++ ns) := by
  intro log
  rw [StateT.run_bind, hx]
  show (f v).run (log.warnAll ms) = _
  rw [hf, Log.warnAll_append]

namespace Attributes

/-- **Pushing an attribute** raises a message exactly if its name is taken. -/
theorem raises_push (as : Attributes) (a : Attribute) :
    Raises (as.push a) (as.insert a)
      (if as.contains a.name.value then [duplicateMessage a.name.value] else []) := by
  intro log
  rw [run_push]
  split <;> rfl

/-- The attributes whose name, in lowercase, stands at an earlier index. -/
def dropped (given : List Attribute) : List Attribute :=
  (given.zipIdx.filter fun p ↦ p.1.key ∈ (given.take p.2).map Attribute.key).map Prod.fst

/-- A further attribute is dropped exactly if its name was given before. -/
theorem dropped_concat (given : List Attribute) (a : Attribute) :
    dropped (given ++ [a]) =
      dropped given ++ if a.key ∈ given.map Attribute.key then [a] else [] := by
  refine (select_concat (fun before b ↦ b.key ∈ before.map Attribute.key) given a).trans ?_
  rw [dropped]
  simp only [decide_eq_true_eq]

/-- What is said of the attributes dropped. -/
def droppedMessages (given : List Attribute) : List String :=
  (dropped given).map fun a ↦ "duplicate attribute '" ++ a.name.value ++ "' dropped"

theorem droppedMessages_concat (given : List Attribute) (a : Attribute) :
    droppedMessages (given ++ [a]) = droppedMessages given ++
      if a.key ∈ given.map Attribute.key then [duplicateMessage a.name.value] else [] := by
  rw [droppedMessages, dropped_concat, List.map_append]
  split <;> rfl

/-- To collect one more attribute is to push it. -/
theorem collect_concat (given : List Attribute) (a : Attribute) :
    collect (given ++ [a]) = collect given >>= fun as ↦ as.push a := by
  rw [collect, pushAll, List.foldlM_append]
  simp only [List.foldlM_cons, List.foldlM_nil, bind_pure]
  rfl

/-- **A list that is collected** stores the first occurrences and warns of all others. -/
theorem raises_collect (given : List Attribute) :
    Raises (collect given) ⟨firsts given⟩ (droppedMessages given) := by
  induction given using List.reverseRecOn with
  | nil => exact Raises.pure _
  | append_singleton given a ih =>
    have hpush := raises_push ⟨firsts given⟩ a
    have hvalue : insert ⟨firsts given⟩ a = ⟨firsts (given ++ [a])⟩ :=
      congrArg Attributes.mk (@toList_insert_of_eq_firsts ⟨firsts given⟩ given a rfl)
    -- the list knows every name given from what it has stored
    have htaken : contains ⟨firsts given⟩ a.name.value = true ↔ a.key ∈ given.map Attribute.key :=
      (contains_iff_mem_keys _ _).trans (mem_keys_firsts given _)
    rw [hvalue, if_congr htaken rfl rfl] at hpush
    rw [collect_concat, droppedMessages_concat]
    exact ih.bind hpush

end Attributes

/-- **Making a tag** raises a message exactly if it has no name. -/
theorem Tag.raises_ofName (name : Leaf) :
    Raises (Tag.ofName name) ⟨name.map Ascii.lower⟩
      (if name.value.isEmpty then [Tag.emptyMessage] else []) := by
  intro log
  rw [run_ofName]
  split <;> rfl

/-- Making an element raises what making its tag does. -/
theorem Tree.raises_buildElement (name : Leaf) (attrs : Attributes) (children : List Tree) :
    Raises (buildElement name attrs children) (.element ⟨name.map Ascii.lower⟩ attrs children)
      (if name.value.isEmpty then [Tag.emptyMessage] else []) := by
  intro log
  rw [run_buildElement, Tag.raises_ofName]

/-! ### Programs -/

/-- What a call may give back. -/
inductive Reply where
  /-- An attribute. -/
  | attr
  /-- An attribute list. -/
  | attrs
  /-- The value that a lookup has found. -/
  | found
  /-- The answer to a question. -/
  | answer
  /-- A number of attributes. -/
  | count
  /-- A tag. -/
  | tag
  /-- A tree. -/
  | tree
  /-- An outline. -/
  | text

/-- The values that calls give back. -/
def Reply.Value : Reply → Type
  | .attr => Attribute
  | .attrs => Attributes
  | .found => Option Leaf
  | .answer => Bool
  | .count => Nat
  | .tag => Tag
  | .tree => Tree
  | .text => String

/-- The calls of a program. -/
inductive Call : Reply → Type where
  /-- Makes an attribute, a bare name or a name with a value, as written. -/
  | attr (written : Attribute) : Call .attr
  /-- Adds an attribute to a list. -/
  | push (as : Attributes) (a : Attribute) : Call .attrs
  /-- Collects attributes. -/
  | collect (given : List Attribute) : Call .attrs
  /-- Collects attributes that are written as names with values. -/
  | ofPairs (pairs : List (Leaf × Leaf)) : Call .attrs
  /-- Looks a name up. -/
  | get? (as : Attributes) (name : String) : Call .found
  /-- Asks whether there is an attribute of a name. -/
  | contains (as : Attributes) (name : String) : Call .answer
  /-- Asks for the number of attributes. -/
  | size (as : Attributes) : Call .count
  /-- Makes a tag. -/
  | tag (name : Leaf) : Call .tag
  /-- Makes an element. -/
  | element (name : Leaf) (attrs : Attributes) (children : List Tree) : Call .tree
  /-- Makes character data. -/
  | data (text : Leaf) : Call .tree
  /-- Prints a tree. -/
  | outline (t : Tree) : Call .text

namespace Call

/-- Makes a call. -/
def perform : {reply : Reply} → Call reply → Build reply.Value
  | _, .attr written => pure (f := Build) written.normalize
  | _, .push as a => as.push a
  | _, .collect given => Attributes.collect given
  | _, .ofPairs pairs => Attributes.ofPairs pairs
  | _, .get? as name => pure (f := Build) (as.get? name)
  | _, .contains as name => pure (f := Build) (as.contains name)
  | _, .size as => pure (f := Build) as.size
  | _, .tag name => Tag.ofName name
  | _, .element name attrs children => Tree.buildElement name attrs children
  | _, .data text => pure (f := Build) (Tree.data text)
  | _, .outline t => pure (f := Build) t.outline

/-- What a call gives back, told without a log. -/
def value : {reply : Reply} → Call reply → reply.Value
  | _, .attr written => written.normalize
  | _, .push as a => as.insert a
  | _, .collect given => Attributes.mk (Attributes.firsts given)
  | _, .ofPairs pairs =>
    Attributes.mk (Attributes.firsts (pairs.map fun p ↦ (Attribute.pair p.1 p.2).normalize))
  | _, .get? as name => as.get? name
  | _, .contains as name => as.contains name
  | _, .size as => as.size
  | _, .tag name => Tag.mk (name.map Ascii.lower)
  | _, .element name attrs children => Tree.element ⟨name.map Ascii.lower⟩ attrs children
  | _, .data text => Tree.data text
  | _, .outline t => t.outline

/-- The messages that a call raises, told without a log: for each attribute whose name is taken, and
for each element without a name. -/
def messages : {reply : Reply} → Call reply → List String
  | _, .push as a =>
    if as.contains a.name.value then ["duplicate attribute '" ++ a.name.value ++ "' dropped"]
    else []
  | _, .collect given => Attributes.droppedMessages given
  | _, .ofPairs pairs =>
    Attributes.droppedMessages (pairs.map fun p ↦ (Attribute.pair p.1 p.2).normalize)
  | _, .tag name | _, .element name _ _ =>
    if name.value.isEmpty then ["element with empty tag name"] else []
  | _, .attr _ | _, .get? _ _ | _, .contains _ _ | _, .size _ | _, .data _
  | _, .outline _ => []

/-- **A call gives its value and raises its messages** from every log. -/
theorem raises {reply : Reply} (c : Call reply) : Raises c.perform c.value c.messages := by
  cases c with
  | push as a => exact as.raises_push a
  | collect given => exact Attributes.raises_collect given
  | ofPairs pairs => exact Attributes.raises_collect _
  | tag name => exact Tag.raises_ofName name
  | element name attrs children => exact Tree.raises_buildElement name attrs children
  | attr | get? | contains | size | data | outline => exact Raises.pure _

end Call

/-- A program: calls, each with what to do about its value, and between them warnings and clearings
of the log. -/
inductive Program where
  /-- The end. -/
  | done
  /-- A call, and how to go on. -/
  | call {reply : Reply} (c : Call reply) (next : reply.Value → Program)
  /-- A warning that has nothing to do with the calls. -/
  | warn (component message : String) (next : Program)
  /-- A clearing of the log. -/
  | clear (next : Program)

namespace Program

/-- Runs a program and lists the values that its calls give. -/
def run : Program → Build (List (Sigma Reply.Value))
  | .done => return []
  | .call c next => do
    let v ← c.perform
    let vs ← (next v).run
    return ⟨_, v⟩ :: vs
  | .warn component message next => do
    warnOnce component message
    next.run
  | .clear next => do
    clearWarnings
    next.run

/-- The program with its calls alone. -/
def strip : Program → Program
  | .done => .done
  | .call c next => .call c fun v ↦ (next v).strip
  | .warn _ _ next | .clear next => next.strip

/-- The values that the calls give, told without a log. -/
def values : Program → List (Sigma Reply.Value)
  | .done => []
  | .call c next => ⟨_, c.value⟩ :: (next c.value).values
  | .warn _ _ next | .clear next => next.values

/-- The messages that the calls raise, in order and as often as they do. -/
def raised : Program → List String
  | .done => []
  | .call c next => c.messages ++ (next c.value).raised
  | .warn _ _ next | .clear next => next.raised

/-- Warnings and clearings between the calls do not change what the calls give. -/
theorem values_strip (p : Program) : p.strip.values = p.values := by
  induction p with
  | done => rfl
  | call c next ih => rw [strip, values, values, ih]
  | warn _ _ next ih | clear next ih => exact ih

/-- **The values of a run do not depend on the log**, nor on what is warned of and cleared between
the calls. -/
theorem values_run (p : Program) (log : Log) : (p.run.run log).1 = p.values := by
  induction p generalizing log with
  | done => rfl
  | call c next ih =>
    rw [run, StateT.run_bind, c.raises]
    exact congrArg (List.cons ⟨_, c.value⟩) (ih c.value (log.warnAll c.messages))
  | warn component message next ih => exact ih (log.warnOnce component message)
  | clear next ih => exact ih log.clear

/-- Left alone, a program raises what its calls raise. -/
theorem raises_strip (p : Program) : Raises p.strip.run p.values p.raised := by
  induction p with
  | done => exact Raises.pure _
  | call c next ih =>
    have hlast : Raises (pure (⟨_, c.value⟩ :: (next c.value).values)) _ [] := Raises.pure _
    have hnext := (ih c.value).bind (f := fun vs ↦ pure (⟨_, c.value⟩ :: vs)) hlast
    rw [List.append_nil] at hnext
    exact c.raises.bind hnext
  | warn _ _ next ih | clear next ih => exact ih

/-- **Warnings do not interfere.** Two runs of a program give the same values, from whatever logs
they start and whatever is warned of and cleared between the calls in either of them. A run without
interruptions adds the keys of the messages raised to what has been seen, and prints the first
occurrences of those whose key had not been seen. -/
theorem run_unaffected_by_warnings :
    (∀ p q : Program, p.strip = q.strip →
        ∀ log log' : Log, (p.run.run log).1 = (q.run.run log').1) ∧
      ∀ (p : Program) (log : Log),
        (∀ k : String, k ∈ (p.strip.run.run log).2.seen ↔
          k ∈ log.seen ∨ ∃ m ∈ p.raised, k = "[DOM] " ++ m) ∧
        (p.strip.run.run log).2.printed = log.printed ++
          (p.raised.filter fun m ↦ "[DOM] " ++ m ∉ log.seen).eraseDups.map
            fun m ↦ "\x1b[33m[Wombat DOM] ⚠ " ++ m ++ "\x1b[0m\n" := by
  refine ⟨?_, ?_⟩
  · intro p q hpq log log'
    rw [values_run, values_run, ← values_strip p, hpq, values_strip]
  · intro p log
    rw [p.raises_strip log]
    exact ⟨log.mem_seen_warnAll p.raised, log.printed_warnAll p.raised⟩

/-- Collects a name and its repetition and prints an element without a name, with something done
before and after the list is collected. -/
def collecting (before after : Program → Program) : Program :=
  .call (.attr (.pair (.fake "Class" "1") (.fake "x" "2"))) fun a ↦
  .call (.attr (.flag (.fake "CLASS" "3"))) fun b ↦
  before <| .call (.collect [a, b]) fun as ↦
  after <| .call (.element (.fake "" "4") as []) fun t ↦
  .call (.outline t) fun _ ↦ .done

/-- The program interrupted: someone else warns of the very attribute that is then dropped, and
clears the log before the element is made. -/
def interrupted : Program :=
  collecting (.warn "DOM" "duplicate attribute 'class' dropped") .clear

theorem interrupted_unaffected_by_warnings :
    interrupted.strip = (collecting id id).strip ∧
      (interrupted.run.run .empty).1 =
        ((collecting id id).run.run ⟨["[DOM] element with empty tag name"], []⟩).1 ∧
      ((collecting id id).strip.run.run ⟨["[DOM] element with empty tag name"], []⟩).2.printed =
        ["\x1b[33m[Wombat DOM] ⚠ duplicate attribute 'class' dropped\x1b[0m\n"] := by
  obtain ⟨hvalues, hlog⟩ := run_unaffected_by_warnings
  have hstrip : interrupted.strip = (collecting id id).strip := rfl
  refine ⟨hstrip, hvalues _ _ hstrip _ _, ?_⟩
  rw [(hlog _ _).2]
  decide +kernel

end Program

end Hypertext
