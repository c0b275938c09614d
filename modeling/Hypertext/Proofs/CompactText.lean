import Mathlib.Tactic.SplitIfs
import Hypertext.Json.Compact
import Hypertext.Proofs.OutlineReading
import Hypertext.Proofs.Serialization

/-!
# What compact text tells

The compact text of a serialized value determines the value: no two values have the same text
(`Json.compact_injective`). No condition on its strings and numbers is needed for this. A string may
hold quotes, brackets and commas, since it ends at the first quote that is not part of a character's
spelling, and numbers may stand next to each other, since a comma or a bracket always comes between
them.

The induction is over the value and needs the statement with more text behind it: a value **ends
where it ends** (`Json.EndsItself`), if what follows starts with a comma or a closing bracket. The
first character tells what kind of value it is (`Json.exists_chars_eq_cons`), so only values of one
kind have to be compared.

For trees this says that their compact text loses what their serialized form loses, the spelling of
attributes, and nothing else.
-/

namespace Hypertext

namespace Json

/-- What holds of a value if it holds of its parts holds of every value. -/
theorem induction {motive : Json → Prop} (null : motive .null) (num : ∀ n, motive (.num n))
    (str : ∀ s, motive (.str s)) (arr : ∀ items, (∀ x ∈ items, motive x) → motive (.arr items))
    (obj : ∀ fields, (∀ f ∈ fields, motive f.2) → motive (.obj fields)) (j : Json) : motive j :=
  @Json.rec motive (fun items ↦ ∀ x ∈ items, motive x) (fun fields ↦ ∀ f ∈ fields, motive f.2)
    (fun f ↦ motive f.2) null num str arr obj (List.forall_mem_nil _)
    (fun _ _ hx hxs ↦ List.forall_mem_cons.2 ⟨hx, hxs⟩) (List.forall_mem_nil _)
    (fun _ _ hf hfs ↦ List.forall_mem_cons.2 ⟨hf, hfs⟩) (fun _ _ hx ↦ hx) j

/-! ### Where a text ends -/

/-- What follows a value inside another one: a comma or a closing bracket. -/
def Delimited (r : List Char) : Prop :=
  ∃ c r', r = c :: r' ∧ (c = ',' ∨ c = ']' ∨ c = '}')

/-- The text of `x` ends where it ends: it is not the text of anything else, nor a part of it. -/
def EndsItself (text : α → List Char) (x : α) : Prop :=
  ∀ (y : α) (r s : List Char), Delimited r → Delimited s → text x ++ r = text y ++ s →
    x = y ∧ r = s

/-! ### Strings -/

/-- The value of a hexadecimal digit. -/
def hexValue (c : Char) : Nat :=
  ['0', '1', '2', '3', '4', '5', '6', '7', '8', '9', 'a', 'b', 'c', 'd', 'e', 'f'].idxOf c

/-- Hexadecimal digits are read back. -/
theorem hexValue_digitChar : ∀ n < 16, hexValue (Nat.digitChar n) = n := by
  decide

/-- The character that a letter after a backslash stands for. -/
def unescape (c : Char) : Char :=
  if c = 'b' then '\x08' else if c = 't' then '\t' else if c = 'n' then '\n'
  else if c = 'f' then '\x0c' else if c = 'r' then '\r' else c

/-- Reads one character of a quoted string off the front of a text. There is none to be read at the
quote that ends the string. -/
def takeChar : List Char → Option (Char × List Char)
  | '\\' :: 'u' :: '0' :: '0' :: h :: l :: r =>
    some (Char.ofNat (16 * hexValue h + hexValue l), r)
  | '\\' :: c :: r => some (unescape c, r)
  | '"' :: _ => none
  | c :: r => some (c, r)
  | [] => none

/-- The spelling of a character is read back, whatever follows. -/
theorem takeChar_escapeChar (c : Char) (r : List Char) :
    takeChar (escapeChar c ++ r) = some (c, r) := by
  unfold escapeChar
  split_ifs with hquote hslash hb ht hn hf hr hcontrol
  · rw [hquote]; rfl
  · rw [hslash]; rfl
  · rw [hb]; rfl
  · rw [ht]; rfl
  · rw [hn]; rfl
  · rw [hf]; rfl
  · rw [hr]; rfl
  · have hhigh := hexValue_digitChar (c.toNat / 16) (by omega)
    have hlow := hexValue_digitChar (c.toNat % 16) (by omega)
    have hchar : Char.ofNat (16 * (c.toNat / 16) + c.toNat % 16) = c := by
      rw [Nat.div_add_mod, Char.ofNat_toNat]
    simp only [List.cons_append, List.nil_append, takeChar, hhigh, hlow, hchar]
  · simp [takeChar, hslash]

/-- The inside of a quoted string ends at its quote. -/
theorem flatMap_escapeChar_append_inj {s t r r' : List Char}
    (h : s.flatMap escapeChar ++ '"' :: r = t.flatMap escapeChar ++ '"' :: r') :
    s = t ∧ r = r' := by
  have hread := congrArg takeChar h
  induction s generalizing t with
  | nil =>
    cases t with
    | nil => exact ⟨rfl, (List.cons.inj h).2⟩
    | cons d t =>
      rw [List.flatMap_cons, List.append_assoc, takeChar_escapeChar] at hread
      cases hread
  | cons c s ih =>
    rw [List.flatMap_cons, List.append_assoc, takeChar_escapeChar] at hread
    cases t with
    | nil => cases hread
    | cons d t =>
      rw [List.flatMap_cons, List.append_assoc, takeChar_escapeChar] at hread
      obtain ⟨rfl, hrest⟩ := Prod.mk.inj (Option.some.inj hread)
      obtain ⟨rfl, hend⟩ := ih hrest (congrArg takeChar hrest)
      exact ⟨rfl, hend⟩

/-- A quoted string ends where it ends. -/
theorem quote_append_inj {s t : String} {r r' : List Char} (h : quote s ++ r = quote t ++ r') :
    s = t ∧ r = r' := by
  simp only [quote, List.cons_append, List.append_assoc, List.nil_append] at h
  obtain ⟨htext, hend⟩ := flatMap_escapeChar_append_inj (List.cons.inj h).2
  exact ⟨String.toList_inj.1 htext, hend⟩

/-! ### Numbers -/

/-- The characters of a number. -/
def NumberChar (c : Char) : Prop :=
  c = '-' ∨ c.isDigit = true

/-- Numbers are written with digits and a minus sign. -/
theorem numberChar_of_mem_decimal {n : Int} {c : Char} (hc : c ∈ decimal n) : NumberChar c := by
  have hdigit : ∀ m : Nat, c ∈ Nat.toDigits 10 m → c.isDigit = true := fun m hm ↦
    Nat.isDigit_of_mem_toDigits (by decide) (by decide) hm
  cases n with
  | ofNat m => exact .inr (hdigit m hc)
  | negSucc m =>
    rcases List.mem_cons.1 hc with hminus | hc
    · exact .inl hminus
    · exact .inr (hdigit _ hc)

/-- A number is known from its digits. -/
theorem toDigits_injective : Function.Injective (Nat.toDigits 10) := by
  intro m n h
  rw [← @Nat.ofDigitChars_ten_toDigits m, h, Nat.ofDigitChars_ten_toDigits]

/-- An integer is known from its decimal form. -/
theorem decimal_injective : Function.Injective decimal := by
  -- a minus sign is no digit
  have hminus : ∀ (m : Nat) (ds : List Char), Nat.toDigits 10 m ≠ '-' :: ds := by
    intro m ds h
    have hmem : '-' ∈ Nat.toDigits 10 m := by rw [h]; exact List.mem_cons_self
    have hdigit := Nat.isDigit_of_mem_toDigits (by decide) (by decide) hmem
    exact absurd hdigit (by decide)
  intro m n h
  cases m with
  | ofNat m =>
    cases n with
    | ofNat n => rw [toDigits_injective h]
    | negSucc n => exact absurd h (hminus _ _)
  | negSucc m =>
    cases n with
    | ofNat n => exact absurd h.symm (hminus _ _)
    | negSucc n =>
      have hsucc := toDigits_injective (List.cons.inj h).2
      rw [Nat.succ.inj hsucc]

theorem decimal_ne_nil (n : Int) : decimal n ≠ [] := by
  cases n with
  | ofNat m => exact Nat.toDigits_ne_nil
  | negSucc m => exact List.cons_ne_nil _ _

/-- A number does not go on behind its end. -/
theorem not_numberChar_of_delimited {r : List Char} (hr : Delimited r) :
    ∃ c r', r = c :: r' ∧ ¬NumberChar c := by
  obtain ⟨c, r', rfl, hc⟩ := hr
  refine ⟨c, r', rfl, ?_⟩
  rcases hc with rfl | rfl | rfl <;> unfold NumberChar <;> decide

/-- A number ends where it ends. -/
theorem decimal_append_inj {m n : Int} {r s : List Char} (hr : Delimited r) (hs : Delimited s)
    (h : decimal m ++ r = decimal n ++ s) : m = n ∧ r = s := by
  obtain ⟨c, r', rfl, hc⟩ := not_numberChar_of_delimited hr
  obtain ⟨d, s', rfl, hd⟩ := not_numberChar_of_delimited hs
  obtain ⟨hdigits, rfl, rfl⟩ := Outline.append_cons_inj_of_forall
    (fun _ ↦ numberChar_of_mem_decimal) (fun _ ↦ numberChar_of_mem_decimal) hc hd h
  exact ⟨decimal_injective hdigits, rfl⟩

/-! ### Sequences -/

/-- Texts with commas between them. -/
def separated (text : α → List Char) : List α → List Char
  | [] => []
  | x :: xs => text x ++ xs.flatMap fun y ↦ ',' :: text y

section Separated

variable {text : α → List Char} {close : Char} {r s : List Char}

/-- What follows an item starts with a comma or the closing bracket. -/
theorem delimited_flatMap_append (hclose : close = ']' ∨ close = '}') (xs : List α) :
    Delimited (xs.flatMap (fun y ↦ ',' :: text y) ++ close :: r) := by
  cases xs with
  | nil => exact ⟨close, r, rfl, .inr hclose⟩
  | cons x xs => exact ⟨',', _, rfl, .inl rfl⟩

/-- Further texts, each after a comma, end at the closing bracket. -/
theorem flatMap_append_inj (hclose : close = ']' ∨ close = '}') {xs ys : List α}
    (hxs : ∀ x ∈ xs, EndsItself text x)
    (h : xs.flatMap (fun y ↦ ',' :: text y) ++ close :: r =
      ys.flatMap (fun y ↦ ',' :: text y) ++ close :: s) : xs = ys ∧ r = s := by
  have hcomma : close ≠ ',' := by rcases hclose with rfl | rfl <;> decide
  induction xs generalizing ys with
  | nil =>
    cases ys with
    | nil => exact ⟨rfl, (List.cons.inj h).2⟩
    | cons y ys => exact absurd (List.cons.inj h).1 hcomma
  | cons x xs ih =>
    cases ys with
    | nil => exact absurd (List.cons.inj h).1.symm hcomma
    | cons y ys =>
      simp only [List.flatMap_cons, List.cons_append, List.append_assoc] at h
      obtain ⟨rfl, hrest⟩ := hxs x List.mem_cons_self y _ _ (delimited_flatMap_append hclose xs)
        (delimited_flatMap_append hclose ys) (List.cons.inj h).2
      obtain ⟨rfl, hend⟩ := ih (fun z hz ↦ hxs z (List.mem_cons_of_mem _ hz)) hrest
      exact ⟨rfl, hend⟩

/-- **A sequence ends at its closing bracket** and can be read off text by text, if its texts end
where they end and none of them starts with the bracket. -/
theorem separated_append_inj (hclose : close = ']' ∨ close = '}')
    (hstart : ∀ (x : α) (t u : List Char), text x ++ t ≠ close :: u) {xs ys : List α}
    (hxs : ∀ x ∈ xs, EndsItself text x)
    (h : separated text xs ++ close :: r = separated text ys ++ close :: s) :
    xs = ys ∧ r = s := by
  cases xs with
  | nil =>
    cases ys with
    | nil => exact ⟨rfl, (List.cons.inj h).2⟩
    | cons y ys =>
      rw [separated, separated, List.append_assoc] at h
      exact absurd h.symm (hstart y _ _)
  | cons x xs =>
    rw [separated, List.append_assoc] at h
    cases ys with
    | nil => exact absurd h (hstart x _ _)
    | cons y ys =>
      rw [separated, List.append_assoc] at h
      obtain ⟨rfl, hrest⟩ := hxs x List.mem_cons_self y _ _ (delimited_flatMap_append hclose xs)
        (delimited_flatMap_append hclose ys) h
      obtain ⟨rfl, hend⟩ := flatMap_append_inj hclose
        (fun z hz ↦ hxs z (List.mem_cons_of_mem _ hz)) hrest
      exact ⟨rfl, hend⟩

end Separated

/-- The items of a sequence are written with commas between them. -/
theorem itemChars_eq_separated : ∀ items : List Json, itemChars items = separated chars items
  | [] => rfl
  | [x] => by rw [itemChars, separated, List.flatMap_nil, List.append_nil]
  | x :: y :: rest => by
    rw [itemChars, itemChars_eq_separated (y :: rest)]
    rfl

/-- The text of a field. -/
def fieldText (f : String × Json) : List Char :=
  quote f.1 ++ ':' :: chars f.2

/-- So are the fields of a record. -/
theorem fieldChars_eq_separated :
    ∀ fields : List (String × Json), fieldChars fields = separated fieldText fields
  | [] => rfl
  | [(k, x)] => by
    rw [fieldChars, separated, List.flatMap_nil, List.append_nil]
    rfl
  | (k, x) :: f :: rest => by
    rw [fieldChars, fieldChars_eq_separated (f :: rest)]
    rfl

/-- A field is its quoted name, a colon and its value. -/
theorem fieldText_append (f : String × Json) (r : List Char) :
    fieldText f ++ r = quote f.1 ++ ':' :: (chars f.2 ++ r) := by
  rw [fieldText, List.append_assoc, List.cons_append]

/-- A field ends where its value ends. -/
theorem endsItself_fieldText {f : String × Json} (hf : EndsItself chars f.2) :
    EndsItself fieldText f := by
  intro g r s hr hs h
  rw [fieldText_append, fieldText_append] at h
  obtain ⟨hkey, hrest⟩ := quote_append_inj h
  obtain ⟨hvalue, hend⟩ := hf g.2 r s hr hs (List.cons.inj hrest).2
  exact ⟨Prod.ext hkey hvalue, hend⟩

/-! ### Values -/

/-- The kinds of serialized values. -/
inductive Shape where
  /-- Absence. -/
  | null
  /-- An integer. -/
  | num
  /-- A text. -/
  | str
  /-- A sequence. -/
  | arr
  /-- A record. -/
  | obj

/-- The kind of a value. -/
def shape : Json → Shape
  | .null => .null
  | .num _ => .num
  | .str _ => .str
  | .arr _ => .arr
  | .obj _ => .obj

/-- The kind of the values whose text starts with a character. -/
def Shape.ofChar? (c : Char) : Option Shape :=
  if c = 'n' then some .null
  else if c = '"' then some .str
  else if c = '[' then some .arr
  else if c = '{' then some .obj
  else if c = '-' ∨ c.isDigit then some .num
  else none

theorem Shape.ofChar?_of_numberChar {c : Char} (hc : NumberChar c) : ofChar? c = some .num := by
  have hne : c ≠ 'n' ∧ c ≠ '"' ∧ c ≠ '[' ∧ c ≠ '{' := by
    refine ⟨?_, ?_, ?_, ?_⟩ <;> rintro rfl <;> revert hc <;> unfold NumberChar <;> decide
  rw [ofChar?, if_neg hne.1, if_neg hne.2.1, if_neg hne.2.2.1, if_neg hne.2.2.2]
  exact if_pos hc

/-- **The first character tells the kind of a value.** -/
theorem exists_chars_eq_cons (j : Json) :
    ∃ c cs, j.chars = c :: cs ∧ Shape.ofChar? c = some j.shape := by
  cases j with
  | num n =>
    obtain ⟨c, cs, hcs⟩ := List.exists_cons_of_ne_nil (decimal_ne_nil n)
    have hc : NumberChar c := numberChar_of_mem_decimal (by rw [hcs]; exact List.mem_cons_self)
    exact ⟨c, cs, hcs, Shape.ofChar?_of_numberChar hc⟩
  | _ => exact ⟨_, _, rfl, rfl⟩

/-- Values whose texts go on to be the same are of one shape. -/
theorem shape_eq_of_append_eq {j k : Json} {r s : List Char} (h : j.chars ++ r = k.chars ++ s) :
    j.shape = k.shape := by
  obtain ⟨c, cs, hcs, hc⟩ := exists_chars_eq_cons j
  obtain ⟨d, ds, hds, hd⟩ := exists_chars_eq_cons k
  rw [hcs, hds] at h
  rw [(List.cons.inj h).1, hd] at hc
  exact (Option.some.inj hc).symm

/-- No value starts with a closing bracket. -/
theorem chars_append_ne {close : Char} (hclose : close = ']' ∨ close = '}') (j : Json)
    (t u : List Char) : j.chars ++ t ≠ close :: u := by
  intro h
  obtain ⟨c, cs, hcs, hc⟩ := exists_chars_eq_cons j
  rw [hcs] at h
  obtain ⟨rfl, -⟩ := List.cons.inj h
  rcases hclose with rfl | rfl <;> cases hc

theorem chars_arr_append (items : List Json) (r : List Char) :
    chars (.arr items) ++ r = '[' :: (separated chars items ++ ']' :: r) := by
  rw [chars, itemChars_eq_separated]
  simp

theorem chars_obj_append (fields : List (String × Json)) (r : List Char) :
    chars (.obj fields) ++ r = '{' :: (separated fieldText fields ++ '}' :: r) := by
  rw [chars, fieldChars_eq_separated]
  simp

/-- **A value ends where it ends**, if a comma or a closing bracket follows. -/
theorem endsItself_chars (j : Json) : EndsItself chars j := by
  induction j using Json.induction with
  | null =>
    intro k r s hr hs h
    have hshape := shape_eq_of_append_eq h
    cases k with
    | null => exact ⟨rfl, List.append_cancel_left h⟩
    | _ => cases hshape
  | num m =>
    intro k r s hr hs h
    have hshape := shape_eq_of_append_eq h
    cases k with
    | num n =>
      obtain ⟨rfl, hend⟩ := decimal_append_inj hr hs h
      exact ⟨rfl, hend⟩
    | _ => cases hshape
  | str x =>
    intro k r s hr hs h
    have hshape := shape_eq_of_append_eq h
    cases k with
    | str y =>
      obtain ⟨rfl, hend⟩ := quote_append_inj h
      exact ⟨rfl, hend⟩
    | _ => cases hshape
  | arr xs ih =>
    intro k r s hr hs h
    have hshape := shape_eq_of_append_eq h
    cases k with
    | arr ys =>
      rw [chars_arr_append, chars_arr_append] at h
      have hclose : ']' = ']' ∨ ']' = '}' := .inl rfl
      obtain ⟨rfl, hend⟩ := separated_append_inj hclose (chars_append_ne hclose) ih
        (List.cons.inj h).2
      exact ⟨rfl, hend⟩
    | _ => cases hshape
  | obj fs ih =>
    intro k r s hr hs h
    have hshape := shape_eq_of_append_eq h
    cases k with
    | obj gs =>
      rw [chars_obj_append, chars_obj_append] at h
      have hstart : ∀ (f : String × Json) (t u : List Char), fieldText f ++ t ≠ '}' :: u := by
        intro f t u hquote
        exact absurd (List.cons.inj hquote).1 (by decide)
      obtain ⟨rfl, hend⟩ := separated_append_inj (.inr rfl) hstart
        (fun f hf ↦ endsItself_fieldText (ih f hf)) (List.cons.inj h).2
      exact ⟨rfl, hend⟩
    | _ => cases hshape

/-- **The compact text determines the value.** -/
theorem compact_injective : Function.Injective compact := by
  intro j k h
  have hchars : j.chars = k.chars := by
    simpa [compact] using congrArg String.toList h
  have hcomma : Delimited [','] := ⟨',', [], rfl, .inl rfl⟩
  exact (endsItself_chars j k _ _ hcomma hcomma (congrArg (· ++ [',']) hchars)).1

end Json

/-! ### Trees -/

namespace Tree

/-- The tree with the values of all attributes written out. -/
def spellOut (t : Tree) : Tree :=
  t.relabel .spelledOut

mutual

/-- Trees are serialized alike exactly if they are the same, bare names spelled out. -/
theorem toJson_eq_iff_relabel :
    ∀ t u : Tree, t.toJson = u.toJson ↔ t.relabel .spelledOut = u.relabel .spelledOut
  | .element s as ts, .element t bs us => by
    simp [toJson, relabel, Json.variant, Tag.toJson, Leaf.toJson_inj, Attributes.toJson_eq_iff,
      forestJson_eq_iff_relabelForest ts us, Relabeling.spelledOut]
  | .data x, .data y => by
    simp [toJson, relabel, Json.variant, Leaf.toJson_inj, Relabeling.spelledOut]
  | .element _ _ _, .data _ => by simp [toJson, relabel, Json.variant]
  | .data _, .element _ _ _ => by simp [toJson, relabel, Json.variant]

theorem forestJson_eq_iff_relabelForest :
    ∀ ts us : List Tree, forestJson ts = forestJson us ↔
      relabelForest .spelledOut ts = relabelForest .spelledOut us
  | [], [] => by simp [forestJson]
  | t :: ts, u :: us => by
    rw [forestJson, forestJson, relabelForest, relabelForest, List.cons.injEq, List.cons.injEq,
      toJson_eq_iff_relabel t u, forestJson_eq_iff_relabelForest ts us]
  | [], _ :: _ => by simp [forestJson, relabelForest]
  | _ :: _, [] => by simp [forestJson, relabelForest]

end

/-- **The compact text of a tree loses nothing but the spelling of attributes.** Two trees have the
same text exactly if they are the same in shape, texts and positions once the values of all
attributes are written out. -/
theorem compact_toJson_eq_iff_spellOut_eq (t u : Tree) :
    t.toJson.compact = u.toJson.compact ↔ t.spellOut = u.spellOut :=
  Json.compact_injective.eq_iff.trans (toJson_eq_iff_relabel t u)

end Tree

end Hypertext
