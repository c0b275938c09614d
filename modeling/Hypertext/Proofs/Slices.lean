import Mathlib.Algebra.Group.Nat.Defs
import Mathlib.Data.List.Chain
import Hypertext.Source.Location

/-!
# What a span cuts out of its source

A span says where it starts and how many bytes it covers. Its end is bounded by the largest word,
so the end of a span that would run past it is **wrong**, and cutting from the start to such an end
might give too short a piece. It gives none: a source has fewer bytes than the largest word, so an
end that was cut off lies outside of every source.

A piece is cut out character by character. What this comes to in bytes is said once, in
`sliceBytes?_eq_some_iff`: the source is what stands before the piece, the piece, and what stands
after it, with the bytes counted. Everything else follows from there. A piece is cut out exactly
between two boundaries of characters (`exists_sliceBytes?_eq_some_iff`), it has the bytes of the
source there (`toByteArray_of_sliceBytes?`), and pieces that meet make one piece
(`sliceBytes?_append`), so that spans without gaps cut a source into pieces that make it up again.
-/

namespace Hypertext

/-! ### Cutting by bytes -/

/-- The bytes of a text are those of its first character and of the others. -/
theorem utf8ByteSize_ofList_cons (c : Char) (cs : List Char) :
    (String.ofList (c :: cs)).utf8ByteSize = c.utf8Size + (String.ofList cs).utf8ByteSize := by
  rw [String.ofList_cons, String.utf8ByteSize_append, String.utf8ByteSize_singleton]

/-- Taking bytes finds the characters at the front that have this many bytes. -/
theorem takeBytes?_eq_some_iff {n : Nat} {cs p : List Char} :
    takeBytes? n cs = some p ↔ p <+: cs ∧ (String.ofList p).utf8ByteSize = n := by
  fun_induction takeBytes? n cs generalizing p with
  | case1 cs =>
    rw [String.utf8ByteSize_eq_zero_iff, String.ofList_eq_empty_iff, Option.some.injEq]
    constructor
    · rintro rfl
      exact ⟨List.nil_prefix, rfl⟩
    · exact fun h ↦ h.2.symm
  | case2 n =>
    rw [List.prefix_nil]
    constructor
    · intro h
      cases h
    · rintro ⟨rfl, hsize⟩
      cases hsize
  | case3 n c cs hc ih =>
    cases p with
    | nil => simp
    | cons d p =>
      have hsize : c.utf8Size + (String.ofList p).utf8ByteSize = n + 1 ↔
          (String.ofList p).utf8ByteSize = n + 1 - c.utf8Size := by omega
      rw [Option.map_eq_some_iff, List.cons_prefix_cons, utf8ByteSize_ofList_cons]
      constructor
      · rintro ⟨q, hq, hcons⟩
        obtain ⟨rfl, rfl⟩ := List.cons.inj hcons
        obtain ⟨hfront, hq'⟩ := ih.1 hq
        exact ⟨⟨rfl, hfront⟩, hsize.2 hq'⟩
      · rintro ⟨⟨rfl, hfront⟩, hp⟩
        exact ⟨p, ih.2 ⟨hfront, hsize.1 hp⟩, rfl⟩
  -- the first character has more bytes than are asked for
  | case4 n c cs hc =>
    constructor
    · intro h
      cases h
    · rintro ⟨hfront, hsize⟩
      cases p with
      | nil => cases hsize
      | cons d p =>
        obtain ⟨rfl, -⟩ := List.cons_prefix_cons.1 hfront
        rw [utf8ByteSize_ofList_cons] at hsize
        omega

/-- What is dropped is what would be taken. -/
theorem dropBytes?_eq_map_takeBytes? (n : Nat) (cs : List Char) :
    dropBytes? n cs = (takeBytes? n cs).map fun p ↦ cs.drop p.length := by
  fun_induction takeBytes? n cs with
  | case1 cs => simp [dropBytes?]
  | case2 n => simp [dropBytes?]
  | case3 n c cs hc ih => simp [dropBytes?, hc, ih, Function.comp_def]
  | case4 n c cs hc => simp [dropBytes?, hc]

/-- Dropping bytes leaves what stands behind characters that have this many bytes. -/
theorem dropBytes?_eq_some_iff {n : Nat} {cs r : List Char} :
    dropBytes? n cs = some r ↔ ∃ p, cs = p ++ r ∧ (String.ofList p).utf8ByteSize = n := by
  rw [dropBytes?_eq_map_takeBytes?, Option.map_eq_some_iff]
  refine exists_congr fun p ↦ ?_
  rw [takeBytes?_eq_some_iff]
  constructor
  · rintro ⟨⟨⟨r', rfl⟩, hsize⟩, rfl⟩
    rw [List.drop_left]
    exact ⟨rfl, hsize⟩
  · rintro ⟨rfl, hsize⟩
    exact ⟨⟨List.prefix_append p r, hsize⟩, List.drop_left⟩

/-- **A piece is cut out** from one place to another exactly if the source is some text up to the
first place, the piece up to the second, and more text. -/
theorem sliceBytes?_eq_some_iff {source part : String} {start stop : Nat} :
    sliceBytes? source start stop = some part ↔
      ∃ before after, source = before ++ part ++ after ∧ before.utf8ByteSize = start ∧
        start + part.utf8ByteSize = stop := by
  unfold sliceBytes?
  constructor
  · intro h
    split at h
    case isFalse => cases h
    case isTrue hle =>
      obtain ⟨p, hbind, rfl⟩ := Option.map_eq_some_iff.1 h
      obtain ⟨r, hr, hp⟩ := Option.bind_eq_some_iff.1 hbind
      obtain ⟨b, hb, hstart⟩ := dropBytes?_eq_some_iff.1 hr
      obtain ⟨⟨a, rfl⟩, hsize⟩ := takeBytes?_eq_some_iff.1 hp
      refine ⟨String.ofList b, String.ofList a, ?_, hstart, by omega⟩
      rw [← String.ofList_append, ← String.ofList_append, List.append_assoc, ← hb,
        String.ofList_toList]
  · rintro ⟨before, after, rfl, rfl, rfl⟩
    have hdrop : dropBytes? before.utf8ByteSize (before ++ part ++ after).toList =
        some (part.toList ++ after.toList) :=
      dropBytes?_eq_some_iff.2 ⟨before.toList, by simp, by rw [String.ofList_toList]⟩
    have htake : takeBytes? part.utf8ByteSize (part.toList ++ after.toList) = some part.toList :=
      takeBytes?_eq_some_iff.2 ⟨List.prefix_append _ _, by rw [String.ofList_toList]⟩
    rw [if_pos (Nat.le_add_right _ _), Nat.add_sub_cancel_left, hdrop, Option.bind_some, htake,
      Option.map_some, String.ofList_toList]

/-! ### Boundaries and bytes -/

/-- A boundary of a source is its end, or a place where a character starts. -/
def IsBoundary (source : String) (n : Nat) : Prop :=
  n = source.utf8ByteSize ∨
    ∃ h : n < source.utf8ByteSize, (source.getUTF8Byte ⟨n⟩ h).IsUTF8FirstByte

/-- Boundaries are the valid positions of the source. -/
theorem isBoundary_iff_isValid {source : String} {n : Nat} :
    IsBoundary source n ↔ (String.Pos.Raw.mk n).IsValid source := by
  rw [String.Pos.Raw.isValid_iff_isUTF8FirstByte, String.Pos.Raw.ext_iff]
  exact Iff.rfl

/-- The boundaries are where the source can be taken apart. -/
theorem isBoundary_iff_exists_append {source : String} {n : Nat} :
    IsBoundary source n ↔
      ∃ before after, source = before ++ after ∧ before.utf8ByteSize = n := by
  rw [isBoundary_iff_isValid, String.Pos.Raw.isValid_iff_exists_append]
  refine exists_congr fun before ↦ exists_congr fun after ↦ and_congr_right fun _ ↦ ?_
  rw [String.Pos.Raw.ext_iff]
  exact eq_comm

theorem IsBoundary.le {source : String} {n : Nat} (h : IsBoundary source n) :
    n ≤ source.utf8ByteSize := by
  rcases h with rfl | ⟨h, -⟩
  · exact Nat.le_refl _
  · exact Nat.le_of_lt h

/-- Of two ways to take a text apart, the one with the shorter front goes further. -/
theorem exists_eq_append_of_utf8ByteSize_le {a b c d : String} (h : a ++ b = c ++ d)
    (hle : a.utf8ByteSize ≤ c.utf8ByteSize) : ∃ m, c = a ++ m := by
  have hchars : a.toList ++ b.toList = c.toList ++ d.toList := by
    simpa using congrArg String.toList h
  rcases List.append_eq_append_iff.1 hchars with ⟨m, hc, -⟩ | ⟨m, ha, -⟩
  · exact ⟨String.ofList m, String.toList_inj.1 (by simpa using hc)⟩
  · -- the front is not shorter, so it is the same
    obtain rfl : a = c ++ String.ofList m := String.toList_inj.1 (by simpa using ha)
    rw [String.utf8ByteSize_append] at hle
    have hm : String.ofList m = "" := String.utf8ByteSize_eq_zero_iff.1 (by omega)
    exact ⟨"", by rw [hm, String.append_empty, String.append_empty]⟩

/-- Of two ways to take a text apart, the fronts are the same if they have as many bytes. -/
theorem eq_of_append_eq_append {a b c d : String} (h : a ++ b = c ++ d)
    (hsize : a.utf8ByteSize = c.utf8ByteSize) : a = c := by
  obtain ⟨m, rfl⟩ := exists_eq_append_of_utf8ByteSize_le h (Nat.le_of_eq hsize)
  rw [String.utf8ByteSize_append] at hsize
  have hm : m = "" := String.utf8ByteSize_eq_zero_iff.1 (by omega)
  rw [hm, String.append_empty]

/-- **Pieces lie between boundaries**, and between any two boundaries there is a piece. -/
theorem exists_sliceBytes?_eq_some_iff {source : String} {start stop : Nat} :
    (∃ part, sliceBytes? source start stop = some part) ↔
      start ≤ stop ∧ IsBoundary source start ∧ IsBoundary source stop := by
  simp only [sliceBytes?_eq_some_iff, isBoundary_iff_exists_append]
  constructor
  · rintro ⟨part, before, after, rfl, rfl, rfl⟩
    refine ⟨Nat.le_add_right _ _, ⟨before, part ++ after, ?_, rfl⟩, before ++ part, after, rfl, ?_⟩
    · rw [String.append_assoc]
    · rw [String.utf8ByteSize_append]
  · rintro ⟨hle, ⟨before, rest, hsource, rfl⟩, front, after, hsource', rfl⟩
    obtain ⟨part, rfl⟩ := exists_eq_append_of_utf8ByteSize_le (hsource.symm.trans hsource') hle
    exact ⟨part, before, after, hsource', rfl, String.utf8ByteSize_append.symm⟩

/-- A piece has the bytes of the source between its places. -/
theorem toByteArray_of_sliceBytes? {source part : String} {start stop : Nat}
    (h : sliceBytes? source start stop = some part) :
    part.toByteArray = source.toByteArray.extract start stop := by
  obtain ⟨before, after, rfl, rfl, rfl⟩ := sliceBytes?_eq_some_iff.1 h
  rw [String.append_assoc, String.toByteArray_append, String.toByteArray_append,
    ← String.size_toByteArray, ← String.size_toByteArray]
  have hskip := @ByteArray.extract_append_size_add before.toByteArray
    (part.toByteArray ++ after.toByteArray) 0 part.toByteArray.size
  rw [Nat.add_zero] at hskip
  rw [hskip, ByteArray.extract_append_eq_left rfl]

/-- Two pieces that meet make one. -/
theorem sliceBytes?_append {source p q : String} {start mid stop : Nat}
    (hp : sliceBytes? source start mid = some p) (hq : sliceBytes? source mid stop = some q) :
    sliceBytes? source start stop = some (p ++ q) := by
  rw [sliceBytes?_eq_some_iff] at hp hq ⊢
  obtain ⟨before, rest, rfl, rfl, rfl⟩ := hp
  obtain ⟨front, after, hsource, hfront, rfl⟩ := hq
  -- what stands before the second piece ends where the first piece ends
  have hmeet : before ++ p = front := by
    rw [@String.append_assoc front] at hsource
    refine eq_of_append_eq_append hsource ?_
    rw [String.utf8ByteSize_append, hfront]
  refine ⟨before, after, ?_, rfl, ?_⟩
  · rw [hsource, ← hmeet, @String.append_assoc before]
  · rw [String.utf8ByteSize_append, Nat.add_assoc]

theorem sliceBytes?_zero_utf8ByteSize (source : String) :
    sliceBytes? source 0 source.utf8ByteSize = some source :=
  sliceBytes?_eq_some_iff.2 ⟨"", "", by simp, rfl, Nat.zero_add _⟩

/-! ### Spans -/

namespace Location

variable {source : String}

/-- The end of a span is right, or it was cut off. Then it lies outside of the source, and so does
the right one. -/
theorem toNat_endOffset_cases (hsource : source.utf8ByteSize < 2 ^ 63) (l : Location) :
    l.endOffset.toNat = l.offset.toNat + l.length.toNat ∨
      (source.utf8ByteSize < l.endOffset.toNat ∧
        source.utf8ByteSize < l.offset.toNat + l.length.toNat) := by
  have hword : UInt64.size = 2 ^ 64 := rfl
  rw [toNat_endOffset]
  omega

/-- A span cuts a piece out exactly if it starts and ends at boundaries. -/
theorem exists_slice?_eq_some_iff (l : Location) :
    (∃ part, l.slice? source = some part) ↔
      IsBoundary source l.offset.toNat ∧ IsBoundary source l.endOffset.toNat := by
  have hle : l.offset.toNat ≤ l.endOffset.toNat := UInt64.le_iff_toNat_le.1 l.offset_le_endOffset
  show (∃ part, sliceBytes? source l.offset.toNat l.endOffset.toNat = some part) ↔ _
  rw [exists_sliceBytes?_eq_some_iff]
  exact and_iff_right hle

/-- A span cuts a piece out exactly if the bytes it covers are bytes of the source and whole
characters. -/
theorem isSome_slice?_iff (hsource : source.utf8ByteSize < 2 ^ 63) (l : Location) :
    (l.slice? source).isSome ↔
      l.offset.toNat + l.length.toNat ≤ source.utf8ByteSize ∧
        IsBoundary source l.offset.toNat ∧
        IsBoundary source (l.offset.toNat + l.length.toNat) := by
  rw [Option.isSome_iff_exists, exists_slice?_eq_some_iff]
  rcases l.toNat_endOffset_cases hsource with hend | ⟨hend, hright⟩
  · rw [hend]
    exact ⟨fun h ↦ ⟨h.2.le, h⟩, fun h ↦ h.2⟩
  · exact ⟨fun h ↦ absurd h.2.le (Nat.not_le.2 hend), fun h ↦ absurd h.1 (Nat.not_le.2 hright)⟩

/-- What a span cuts out are the bytes it covers. -/
theorem toByteArray_of_slice? (hsource : source.utf8ByteSize < 2 ^ 63) {l : Location}
    {part : String} (h : l.slice? source = some part) :
    part.toByteArray =
      source.toByteArray.extract l.offset.toNat (l.offset.toNat + l.length.toNat) := by
  have hbytes := toByteArray_of_sliceBytes? h
  rcases l.toNat_endOffset_cases hsource with hend | ⟨hend, -⟩
  · rw [← hend]
    exact hbytes
  · have hboundary := (l.exists_slice?_eq_some_iff.1 ⟨part, h⟩).2
    exact absurd hboundary.le (Nat.not_le.2 hend)

/-! ### Spans without gaps -/

/-- Spans that cover a source from its start to its end, each starting where the one before it
ends. -/
structure Tiles (source : String) (spans : List Location) : Prop where
  /-- The first span starts at the start of the source. -/
  start : spans.head?.map offset = some 0
  /-- Each further span starts at the end of the one before it. -/
  next : spans.IsChain fun k l ↦ l.offset = k.endOffset
  /-- The last span ends at the end of the source. -/
  stop : spans.getLast?.map (fun l ↦ l.endOffset.toNat) = some source.utf8ByteSize
  /-- All spans start at boundaries. -/
  boundary : ∀ l ∈ spans, IsBoundary source l.offset.toNat

/-- **Spans without gaps** up to the end of the source cut out pieces that make up the source from
their start on. -/
theorem exists_mapM_slice?_eq_some {l : Location} {spans : List Location}
    (hnext : (l :: spans).IsChain fun k l ↦ l.offset = k.endOffset)
    (hstop : (l :: spans).getLast?.map (fun l ↦ l.endOffset.toNat) = some source.utf8ByteSize)
    (hboundary : ∀ k ∈ l :: spans, IsBoundary source k.offset.toNat) :
    ∃ parts, (l :: spans).mapM (slice? · source) = some parts ∧
      sliceBytes? source l.offset.toNat source.utf8ByteSize = some (String.join parts) := by
  have hstart := hboundary l List.mem_cons_self
  induction spans generalizing l with
  | nil =>
    have hend : l.endOffset.toNat = source.utf8ByteSize := Option.some.inj hstop
    have hend' : IsBoundary source l.endOffset.toNat := .inl hend
    obtain ⟨part, hpart⟩ := l.exists_slice?_eq_some_iff.2 ⟨hstart, hend'⟩
    refine ⟨[part], by simp [hpart], ?_⟩
    rw [← hend, String.join_cons, String.join_nil, String.append_empty]
    exact hpart
  | cons k spans ih =>
    obtain ⟨hmeet, hrest⟩ := List.isChain_cons_cons.1 hnext
    have hboundary' : ∀ j ∈ k :: spans, IsBoundary source j.offset.toNat := fun j hj ↦
      hboundary j (List.mem_cons_of_mem l hj)
    have hmid : IsBoundary source k.offset.toNat := hboundary' k List.mem_cons_self
    obtain ⟨part, hpart⟩ := l.exists_slice?_eq_some_iff.2 ⟨hstart, hmeet ▸ hmid⟩
    rw [List.getLast?_cons_cons] at hstop
    obtain ⟨parts, hparts, hjoin⟩ := ih hrest hstop hboundary' hmid
    refine ⟨part :: parts, by rw [List.mapM_cons, hpart, hparts]; rfl, ?_⟩
    rw [String.join_cons]
    refine sliceBytes?_append ?_ hjoin
    rw [hmeet]
    exact hpart

/-- **Spans slice exactly.** A span never ends before it starts. It cuts a piece out of a source
exactly if the bytes it covers, counted without a bound, are bytes of the source and start and end
at boundaries of characters, and the piece is these bytes. The pieces of spans that cover a source
without gaps make up the source. -/
theorem slices_exactly (hsource : source.utf8ByteSize < 2 ^ 63) :
    (∀ l : Location, l.range.1 ≤ l.range.2 ∧
      ((l.slice? source).isSome ↔
        l.offset.toNat + l.length.toNat ≤ source.utf8ByteSize ∧
          IsBoundary source l.offset.toNat ∧
          IsBoundary source (l.offset.toNat + l.length.toNat)) ∧
      ∀ part ∈ l.slice? source,
        part.toByteArray =
          source.toByteArray.extract l.offset.toNat (l.offset.toNat + l.length.toNat) ∧
        part.utf8ByteSize = l.length.toNat) ∧
    ∀ spans, Tiles source spans →
      (spans.mapM (slice? · source)).map String.join = some source := by
  refine ⟨fun l ↦ ⟨l.offset_le_endOffset, l.isSome_slice?_iff hsource, fun part hpart ↦ ?_⟩, ?_⟩
  · have hbytes := toByteArray_of_slice? hsource hpart
    have hinside := ((l.isSome_slice?_iff hsource).1 (Option.isSome_of_mem hpart)).1
    refine ⟨hbytes, ?_⟩
    rw [← String.size_toByteArray, hbytes, ByteArray.size_extract, String.size_toByteArray]
    omega
  · intro spans htiles
    cases spans with
    | nil => cases htiles.start
    | cons l spans =>
      obtain ⟨parts, hparts, hjoin⟩ :=
        exists_mapM_slice?_eq_some htiles.next htiles.stop htiles.boundary
      have hzero : l.offset = 0 := Option.some.inj htiles.start
      rw [hzero] at hjoin
      have hwhole := hjoin.symm.trans (sliceBytes?_zero_utf8ByteSize source)
      rw [hparts, Option.map_some]
      exact hwhole

/-- Four spans for a text with a character of two bytes and one of three. One span is empty. -/
def tokens : List Location :=
  [⟨"a.html", 1, 1, 0, 1⟩, ⟨"a.html", 1, 2, 1, 2⟩, ⟨"a.html", 1, 3, 3, 0⟩, ⟨"a.html", 1, 3, 3, 4⟩]

/-- The spans make up the text, and a span whose end was cut off gives no piece of it. -/
theorem tokens_slice_exactly :
    Tiles "aé€b" tokens ∧ (tokens.mapM (slice? · "aé€b")).map String.join = some "aé€b" ∧
      ((⟨"a.html", 1, 3, 3, 18446744073709551615⟩ : Location).slice? "aé€b").isSome = false := by
  have hexact := @slices_exactly "aé€b" (by decide)
  have htiles : Tiles "aé€b" tokens := by
    refine ⟨rfl, by decide, rfl, ?_⟩
    simp only [isBoundary_iff_isValid]
    decide +kernel
  refine ⟨htiles, hexact.2 tokens htiles, ?_⟩
  rw [← Bool.not_eq_true, (hexact.1 _).2.1]
  exact fun h ↦ absurd h.1 (by decide)

end Location

end Hypertext
