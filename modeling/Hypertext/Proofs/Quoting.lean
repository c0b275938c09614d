import Hypertext.Markup.Outline

/-!
# Reading quoted strings

Outlines write strings between quotes. What stands between them is produced by replacing one
character after the other throughout the string, so a later replacement might rewrite what an
earlier one has put there. It does not: each chain of replacements is **one** substitution,
character by character (`escape_eq_flatMap`, `visible_eq_flatMap`).

A quoted string can therefore be read off the front of any text. The reader `takeQuoted` takes a
backslash together with the character after it and stops at the first quote that is left. It stops
at the quote that was added, whatever follows (`takeQuoted_escape`, `takeQuoted_visible`), and
what it has read is the string, or for shown text the string with its blanks dotted.
-/

namespace Hypertext.Outline

/-! ### Replacement chains as substitutions -/

/-- What is written for a character of an attribute's value. -/
def escapeChar (c : Char) : List Char :=
  if c = '\\' then ['\\', '\\'] else if c = '"' then ['\\', '"'] else [c]

/-- What is written for a character of shown text. -/
def visibleChar (c : Char) : List Char :=
  if c = '\n' then ['\\', 'n'] else if c = ' ' then ['·'] else escapeChar c

/-- A blank as outlines show it. -/
def dot (c : Char) : Char :=
  if c = ' ' then '·' else c

/-- A text with its blanks dotted. -/
def dotted (s : String) : String :=
  String.ofList (s.toList.map dot)

@[simp]
theorem toList_dotted (s : String) : (dotted s).toList = s.toList.map dot := by
  simp [dotted]

/-- **Escaping is one substitution**, since escaping quotes leaves the backslashes alone. -/
theorem escape_eq_flatMap (s : List Char) : escape s = s.flatMap escapeChar := by
  rw [escape, replaceChar, replaceChar, List.flatMap_assoc]
  congr 1
  funext c
  by_cases h : c = '\\'
  · simp [escapeChar, h]
  · by_cases h' : c = '"' <;> simp [escapeChar, h, h']

/-- **Showing is one substitution**, although it takes four replacements. -/
theorem visible_eq_flatMap (s : List Char) : visible s = s.flatMap visibleChar := by
  rw [visible, escape_eq_flatMap, replaceChar, replaceChar, List.flatMap_assoc,
    List.flatMap_assoc]
  congr 1
  funext c
  by_cases hn : c = '\n'
  · simp [visibleChar, escapeChar, hn]
  by_cases hb : c = ' '
  · simp [visibleChar, escapeChar, hb]
  by_cases hs : c = '\\'
  · simp [visibleChar, escapeChar, hs]
  by_cases hq : c = '"' <;> simp [visibleChar, escapeChar, hn, hb, hs, hq]

/-- Dotting the blanks of a text does not change how it is shown. -/
theorem visible_map_dot (s : List Char) : visible (s.map dot) = visible s := by
  rw [visible_eq_flatMap, visible_eq_flatMap, List.flatMap_map]
  congr 1
  funext c
  by_cases h : c = ' ' <;> simp [dot, visibleChar, escapeChar, h]

/-! ### The reader -/

/-- Reads up to the first quote that no backslash takes up: what stands before it, each escaped
character replaced by what it stands for, and what comes after it. -/
def takeQuoted (undo : Char → Char) : List Char → Option (List Char × List Char)
  | [] => none
  | '"' :: cs => some ([], cs)
  | '\\' :: c :: cs => (takeQuoted undo cs).map fun p ↦ (undo c :: p.1, p.2)
  | c :: cs => (takeQuoted undo cs).map fun p ↦ (c :: p.1, p.2)

/-- What an escaped character of shown text stands for. -/
def undoVisible (c : Char) : Char :=
  if c = 'n' then '\n' else c

/-- **Reading is the inverse of a substitution** as soon as it reads each character's spelling
back, whatever comes after it. -/
theorem takeQuoted_flatMap {undo : Char → Char} {spell : Char → List Char} {kept : Char → Char}
    (hspell : ∀ c r, takeQuoted undo (spell c ++ r) =
      (takeQuoted undo r).map fun p ↦ (kept c :: p.1, p.2)) (s r : List Char) :
    takeQuoted undo (s.flatMap spell ++ '"' :: r) = some (s.map kept, r) := by
  induction s with
  | nil => rfl
  | cons c s ih => rw [List.flatMap_cons, List.append_assoc, hspell, ih]; rfl

/-- The spelling of a character of a value is read back, whatever follows. -/
theorem takeQuoted_escapeChar (c : Char) (r : List Char) :
    takeQuoted id (escapeChar c ++ r) = (takeQuoted id r).map fun p ↦ (c :: p.1, p.2) := by
  by_cases hs : c = '\\'
  · simp [escapeChar, takeQuoted, hs]
  by_cases hq : c = '"'
  · simp [escapeChar, takeQuoted, hq]
  · simp [escapeChar, takeQuoted, hs, hq]

/-- The spelling of a character of shown text is read back, whatever follows. -/
theorem takeQuoted_visibleChar (c : Char) (r : List Char) :
    takeQuoted undoVisible (visibleChar c ++ r) =
      (takeQuoted undoVisible r).map fun p ↦ (dot c :: p.1, p.2) := by
  by_cases hn : c = '\n'
  · simp [visibleChar, takeQuoted, undoVisible, dot, hn]
  by_cases hb : c = ' '
  · simp [visibleChar, takeQuoted, dot, hb]
  by_cases hs : c = '\\'
  · simp [visibleChar, escapeChar, takeQuoted, undoVisible, dot, hs]
  by_cases hq : c = '"'
  · simp [visibleChar, escapeChar, takeQuoted, undoVisible, dot, hq]
  · simp [visibleChar, escapeChar, takeQuoted, dot, hn, hb, hs, hq]

/-- A quoted value is read back as it is. -/
theorem takeQuoted_escape (s r : List Char) :
    takeQuoted id (escape s ++ '"' :: r) = some (s, r) := by
  rw [escape_eq_flatMap, takeQuoted_flatMap takeQuoted_escapeChar, List.map_id']

/-- Quoted text is read back with its blanks dotted. -/
theorem takeQuoted_visible (s r : List Char) :
    takeQuoted undoVisible (visible s ++ '"' :: r) = some (s.map dot, r) := by
  rw [visible_eq_flatMap, takeQuoted_flatMap takeQuoted_visibleChar]

/-! ### Quoted strings at the front of a text -/

theorem quoted_append (inside r : List Char) :
    quoted inside ++ r = '"' :: (inside ++ '"' :: r) := by
  simp [quoted]

/-- A quoted value ends where it ends, whatever follows. -/
theorem quoted_escape_append_inj {s t r r' : List Char}
    (h : quoted (escape s) ++ r = quoted (escape t) ++ r') : s = t ∧ r = r' := by
  rw [quoted_append, quoted_append] at h
  have hread := congrArg (takeQuoted id) (List.cons.inj h).2
  rw [takeQuoted_escape, takeQuoted_escape] at hread
  exact Prod.mk.inj (Option.some.inj hread)

/-- Quoted text ends where it ends, whatever follows. -/
theorem quoted_visible_append_inj {s t r r' : List Char}
    (h : quoted (visible s) ++ r = quoted (visible t) ++ r') :
    s.map dot = t.map dot ∧ r = r' := by
  rw [quoted_append, quoted_append] at h
  have hread := congrArg (takeQuoted undoVisible) (List.cons.inj h).2
  rw [takeQuoted_visible, takeQuoted_visible] at hread
  exact Prod.mk.inj (Option.some.inj hread)

end Hypertext.Outline
