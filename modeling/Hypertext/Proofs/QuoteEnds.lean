import Hypertext.Proofs.Quoting

/-!
# Where quoted strings end

A quoted string ends at the first quote that no backslash takes up, and a backslash takes up the
character after it unless it is taken up itself. This is said here **place by place**, for any text
and without a reader: `Taken` looks back from a place, and `closing?` is the least place of a quote
that is free. So the number of backslashes before a quote decides, however long their run is.

The reader `takeQuoted`, which goes through the text once, stops at that place on every text
(`map_snd_takeQuoted`). Hence the places at which written strings end are those that it finds, and
undoing the escapes of what stands before them gives the strings back. `unescape` refuses what is
not an escape of its table, so reading back also says that no other escape is ever written.
-/

namespace Hypertext.Outline

/-! ### The closing quote -/

/-- The character at a place is taken up by a backslash right before it that is not taken up. -/
def Taken (text : List Char) : Nat → Prop
  | 0 => False
  | i + 1 => text[i]? = some '\\' ∧ ¬Taken text i

instance decidableTaken (text : List Char) : DecidablePred (Taken text)
  | 0 => inferInstanceAs (Decidable False)
  | i + 1 =>
    have := decidableTaken text i
    inferInstanceAs (Decidable (text[i]? = some '\\' ∧ ¬Taken text i))

/-- A quote that is not taken up. -/
def FreeQuote (text : List Char) (i : Nat) : Prop :=
  text[i]? = some '"' ∧ ¬Taken text i

instance (text : List Char) : DecidablePred (FreeQuote text) :=
  fun i ↦ inferInstanceAs (Decidable (text[i]? = some '"' ∧ ¬Taken text i))

/-- The place of the first quote that is not taken up. -/
def closing? (text : List Char) : Option Nat :=
  (List.range text.length).find? fun i ↦ FreeQuote text i

/-- What is taken up depends only on what stands before. -/
theorem taken_append_of_le {p : List Char} (q : List Char) {i : Nat} (hi : i ≤ p.length) :
    Taken (p ++ q) i ↔ Taken p i := by
  induction i with
  | zero => rfl
  | succ i ih => rw [Taken, Taken, ih (by omega), List.getElem?_append_left (by omega)]

/-- After a stretch that takes up nothing behind it, counting starts anew. -/
theorem taken_append {p : List Char} (hp : ¬Taken p p.length) (q : List Char) (i : Nat) :
    Taken (p ++ q) (p.length + i) ↔ Taken q i := by
  induction i with
  | zero => exact iff_of_false (fun h ↦ hp ((taken_append_of_le q (by omega)).1 h)) id
  | succ i ih =>
    rw [← Nat.add_assoc, Taken, Taken, ih, List.getElem?_append_right (by omega),
      Nat.add_sub_cancel_left]

/-- Whether a quote is free depends only on what stands before it. -/
theorem freeQuote_append_of_lt {p : List Char} (q : List Char) {i : Nat} (hi : i < p.length) :
    FreeQuote (p ++ q) i ↔ FreeQuote p i := by
  rw [FreeQuote, FreeQuote, List.getElem?_append_left hi, taken_append_of_le q (Nat.le_of_lt hi)]

theorem freeQuote_append {p : List Char} (hp : ¬Taken p p.length) (q : List Char) (i : Nat) :
    FreeQuote (p ++ q) (p.length + i) ↔ FreeQuote q i := by
  rw [FreeQuote, FreeQuote, taken_append hp, List.getElem?_append_right (by omega),
    Nat.add_sub_cancel_left]

/-- A stretch of text that is passed over: it has no free quote and takes up nothing behind it. -/
structure PassedOver (p : List Char) : Prop where
  not_freeQuote : ∀ i < p.length, ¬FreeQuote p i
  not_taken : ¬Taken p p.length

/-- The closing quote stands behind what is passed over. -/
theorem PassedOver.closing?_append {p : List Char} (hp : PassedOver p) (q : List Char) :
    closing? (p ++ q) = (closing? q).map (p.length + ·) := by
  have hbefore : (List.range p.length).find? (fun i ↦ decide (FreeQuote (p ++ q) i)) = none := by
    rw [List.find?_eq_none]
    intro i hi
    rw [decide_eq_true_iff, freeQuote_append_of_lt q (List.mem_range.1 hi)]
    exact hp.not_freeQuote i (List.mem_range.1 hi)
  have hbehind : (fun i ↦ decide (FreeQuote (p ++ q) i)) ∘ (p.length + ·) =
      fun i ↦ decide (FreeQuote q i) := by
    funext i
    exact decide_eq_decide.2 (freeQuote_append hp.not_taken q i)
  rw [closing?, List.length_append, List.range_add, List.find?_append, hbefore, Option.none_or,
    List.find?_map, hbehind, closing?]

/-- What comes after the closing quote is the same without a stretch that is passed over. -/
theorem PassedOver.drop_closing?_append {p : List Char} (hp : PassedOver p) (q : List Char) :
    (closing? (p ++ q)).map (fun i ↦ (p ++ q).drop (i + 1)) =
      (closing? q).map fun i ↦ q.drop (i + 1) := by
  rw [hp.closing?_append, Option.map_map]
  congr 1
  funext i
  rw [Function.comp_apply, Nat.add_assoc, List.drop_length_add_append]

/-- An escaped character, also an escaped quote or backslash. -/
theorem passedOver_escaped (c : Char) : PassedOver ['\\', c] := by
  refine ⟨fun i hi h ↦ ?_, fun h ↦ h.2 ⟨rfl, id⟩⟩
  match i, hi with
  | 0, _ => simp [FreeQuote] at h
  | 1, _ => exact h.2 ⟨rfl, id⟩

/-- A character that is neither a quote nor a backslash is passed over. -/
theorem passedOver_singleton {c : Char} (hq : c ≠ '"') (hs : c ≠ '\\') : PassedOver [c] := by
  refine ⟨fun i hi h ↦ ?_, fun h ↦ hs (by simpa using h.1)⟩
  match i, hi with
  | 0, _ => exact hq (by simpa using h.1)

/-- A quote at the front closes. -/
theorem closing?_quote (cs : List Char) : closing? ('"' :: cs) = some 0 := by
  simp [closing?, List.range_succ_eq_map, FreeQuote, Taken]

/-- **The reader stops at the closing quote** of any text, and finds nothing if there is none. -/
theorem map_snd_takeQuoted (undo : Char → Char) (text : List Char) :
    (takeQuoted undo text).map Prod.snd = (closing? text).map fun i ↦ text.drop (i + 1) := by
  fun_induction takeQuoted undo text with
  | case1 => rfl
  | case2 cs => rw [closing?_quote]; rfl
  | case3 c cs ih =>
    rw [Option.map_map]
    exact ih.trans ((passedOver_escaped c).drop_closing?_append cs).symm
  | case4 c cs hq hs ih =>
    rw [Option.map_map]
    cases cs with
    | nil =>
      -- the last character may be a backslash, which has nothing to take up
      have hnone : closing? [c] = none := by
        rw [closing?, List.find?_eq_none]
        simpa [FreeQuote] using fun h ↦ absurd h hq
      rw [hnone]
      rfl
    | cons d cs =>
      have hc : PassedOver [c] := passedOver_singleton hq fun h ↦ hs d cs h rfl
      exact ih.trans (hc.drop_closing?_append (d :: cs)).symm

/-! ### Undoing escapes -/

/-- The characters that a backslash may stand before in a value. -/
def valueEscape? (c : Char) : Option Char :=
  if c = '\\' ∨ c = '"' then some c else none

/-- In shown text, a backslash may also stand before the letter of a line break. -/
def textEscape? (c : Char) : Option Char :=
  if c = 'n' then some '\n' else valueEscape? c

/-- Undoes the escapes of a table. There is no answer if any other character follows a backslash,
or none does. -/
def unescape (meaning? : Char → Option Char) : List Char → Option (List Char)
  | [] => some []
  | ['\\'] => none
  | '\\' :: c :: cs => (meaning? c).bind fun d ↦ (unescape meaning? cs).map (d :: ·)
  | c :: cs => (unescape meaning? cs).map (c :: ·)

/-- Undoing is the inverse of a substitution as soon as it undoes each character's spelling. -/
theorem unescape_flatMap {meaning? : Char → Option Char} {spell : Char → List Char}
    {kept : Char → Char} (hspell : ∀ c r, unescape meaning? (spell c ++ r) =
      (unescape meaning? r).map (kept c :: ·)) (s : List Char) :
    unescape meaning? (s.flatMap spell) = some (s.map kept) := by
  induction s with
  | nil => rfl
  | cons c s ih => rw [List.flatMap_cons, hspell, ih]; rfl

/-- A character of a value is undone to itself. -/
theorem unescape_escapeChar (c : Char) (r : List Char) :
    unescape valueEscape? (escapeChar c ++ r) = (unescape valueEscape? r).map (c :: ·) := by
  by_cases hs : c = '\\'
  · simp [escapeChar, unescape, valueEscape?, hs]
  by_cases hq : c = '"'
  · simp [escapeChar, unescape, valueEscape?, hq]
  · simp [escapeChar, unescape, hs, hq]

/-- A character of shown text is undone to itself, or to a dot if it is a blank. -/
theorem unescape_visibleChar (c : Char) (r : List Char) :
    unescape textEscape? (visibleChar c ++ r) = (unescape textEscape? r).map (dot c :: ·) := by
  by_cases hn : c = '\n'
  · simp [visibleChar, unescape, textEscape?, dot, hn]
  by_cases hb : c = ' '
  · simp [visibleChar, unescape, dot, hb]
  by_cases hs : c = '\\'
  · simp [visibleChar, escapeChar, unescape, textEscape?, valueEscape?, dot, hs]
  by_cases hq : c = '"'
  · simp [visibleChar, escapeChar, unescape, textEscape?, valueEscape?, dot, hq]
  · simp [visibleChar, escapeChar, unescape, dot, hn, hb, hs, hq]

theorem unescape_escape (s : List Char) : unescape valueEscape? (escape s) = some s := by
  rw [escape_eq_flatMap, unescape_flatMap unescape_escapeChar, List.map_id']

theorem unescape_visible (s : List Char) :
    unescape textEscape? (visible s) = some (s.map dot) := by
  rw [visible_eq_flatMap, unescape_flatMap unescape_visibleChar]

/-! ### Reading in two steps -/

/-- Reads up to the closing quote and undoes the escapes of what stands before it. The rest is what
comes after the quote. -/
def readQuoted (meaning? : Char → Option Char) (text : List Char) :
    Option (List Char × List Char) := do
  let i ← closing? text
  return (← unescape meaning? (text.take i), text.drop (i + 1))

/-- The closing quote of a text is known from what the reader leaves of it. -/
theorem closing?_of_takeQuoted {undo : Char → Char} {inside s r : List Char}
    (h : takeQuoted undo (inside ++ '"' :: r) = some (s, r)) :
    closing? (inside ++ '"' :: r) = some inside.length := by
  have hrest : (closing? (inside ++ '"' :: r)).map
      (fun i ↦ (inside ++ '"' :: r).drop (i + 1)) = some r := by
    rw [← map_snd_takeQuoted undo, h]
    rfl
  obtain ⟨i, hi, hdrop⟩ := Option.map_eq_some_iff.1 hrest
  have hlt : i < (inside ++ '"' :: r).length := List.mem_range.1 (List.mem_of_find?_eq_some hi)
  have hlength := congrArg List.length hdrop
  rw [List.length_drop] at hlength
  rw [List.length_append, List.length_cons] at hlt hlength
  have hplace : i = inside.length := by omega
  rw [hi, hplace]

/-- What stands before the closing quote is undone, and what stands behind it is left. -/
theorem readQuoted_of_closing? {meaning? : Char → Option Char} {inside s r : List Char}
    (hclosing : closing? (inside ++ '"' :: r) = some inside.length)
    (hinside : unescape meaning? inside = some s) :
    readQuoted meaning? (inside ++ '"' :: r) = some (s, r) := by
  simp [readQuoted, hclosing, hinside]

/-- **Quoted strings delimit themselves.** Whatever follows the quote that is added to a written
string, this quote is the first one that no backslash takes up. Reading up to it leaves what
follows. Undoing escapes gives back a value as it was, and shown text with its blanks dotted. For
each of the two, the replacements one after the other are one substitution, character by
character. -/
theorem quoted_delimits_itself (s r : List Char) :
    (closing? (escape s ++ '"' :: r) = some (escape s).length ∧
      readQuoted valueEscape? (escape s ++ '"' :: r) = some (s, r)) ∧
    (closing? (visible s ++ '"' :: r) = some (visible s).length ∧
      readQuoted textEscape? (visible s ++ '"' :: r) = some (s.map dot, r)) ∧
    escape s = s.flatMap escapeChar ∧ visible s = s.flatMap visibleChar := by
  have hvalue := closing?_of_takeQuoted (takeQuoted_escape s r)
  have htext := closing?_of_takeQuoted (takeQuoted_visible s r)
  exact ⟨⟨hvalue, readQuoted_of_closing? hvalue (unescape_escape s)⟩,
    ⟨htext, readQuoted_of_closing? htext (unescape_visible s)⟩,
    escape_eq_flatMap s, visible_eq_flatMap s⟩

/-- A backslash before the letter of a line break is told from a line break. -/
example : visible ['\\', 'n', '\n', '"'] = ['\\', '\\', 'n', '\\', 'n', '\\', '"'] ∧
    readQuoted textEscape? ['\\', '\\', 'n', '\\', 'n', '\\', '"', '"', 'n'] =
      some (['\\', 'n', '\n', '"'], ['n']) := by
  decide

end Hypertext.Outline
