import Hypertext.HashInput
import Hypertext.Json.Basic

/-!
# Locations

A location is a span of a source file: where it starts, as a line and a column for the reader and
as a byte offset for the machine, and how many bytes it covers. All four numbers are 64-bit words.

The end of a span is computed with a bound: a span that would run past the largest word ends
there. `slice?` cuts the span out of a source text. It refuses a span that leaves the source or
that starts or ends inside a character.
-/

namespace Hypertext

/-- A span of a source file. -/
structure Location where
  /-- The name of the file. -/
  file : String
  /-- The line on which the span starts. -/
  line : UInt64
  /-- The column at which the span starts. -/
  column : UInt64
  /-- The byte offset at which the span starts. -/
  offset : UInt64
  /-- The number of bytes covered. -/
  length : UInt64
  deriving DecidableEq, Inhabited

namespace Location

/-- The byte offset just after the span, at most the largest word. -/
def endOffset (l : Location) : UInt64 :=
  UInt64.ofNat (min (l.offset.toNat + l.length.toNat) (UInt64.size - 1))

/-- A span ends behind its length, at the largest word at most. -/
theorem toNat_endOffset (l : Location) :
    l.endOffset.toNat = min (l.offset.toNat + l.length.toNat) (UInt64.size - 1) := by
  rw [endOffset, UInt64.toNat_ofNat', Nat.mod_eq_of_lt]
  have : (0 : Nat) < UInt64.size := by decide
  show min _ _ < UInt64.size
  omega

/-- A span never ends before it starts. -/
theorem offset_le_endOffset (l : Location) : l.offset ≤ l.endOffset := by
  rw [UInt64.le_iff_toNat_le, toNat_endOffset]
  have := l.offset.toNat_lt_size
  omega

/-- The byte offsets that the span covers, the end excluded. -/
def range (l : Location) : UInt64 × UInt64 :=
  (l.offset, l.endOffset)

/-- Whether the span covers nothing. -/
def isEmpty (l : Location) : Bool :=
  l.range.2 ≤ l.range.1

/-- The location for a reader: file, line and column. -/
def display (l : Location) : String :=
  l.file ++ ":" ++ l.line.toNat.repr ++ ":" ++ l.column.toNat.repr

instance : HashInput Location where
  hashInput l := hashInput l.file ++ hashInput l.line ++ hashInput l.column
    ++ hashInput l.offset ++ hashInput l.length

/-- The serialized form. -/
def toJson (l : Location) : Json :=
  .obj [("file", .str l.file), ("line", .word l.line), ("column", .word l.column),
    ("offset", .word l.offset), ("length", .word l.length)]

end Location

/-! ### Cutting by bytes -/

/-- Drops the first `n` bytes, if they are whole characters. -/
def dropBytes? : Nat → List Char → Option (List Char)
  | 0, cs => some cs
  | _ + 1, [] => none
  | n + 1, c :: cs => if c.utf8Size ≤ n + 1 then dropBytes? (n + 1 - c.utf8Size) cs else none

/-- Takes the first `n` bytes, if they are whole characters. -/
def takeBytes? : Nat → List Char → Option (List Char)
  | 0, _ => some []
  | _ + 1, [] => none
  | n + 1, c :: cs =>
    if c.utf8Size ≤ n + 1 then (takeBytes? (n + 1 - c.utf8Size) cs).map (c :: ·) else none

/-- The bytes from `start` to `stop` of a text, if they are whole characters of it. -/
def sliceBytes? (source : String) (start stop : Nat) : Option String :=
  if start ≤ stop then
    ((dropBytes? start source.toList).bind (takeBytes? (stop - start))).map String.ofList
  else none

/-- The part of the source that the span covers. -/
def Location.slice? (l : Location) (source : String) : Option String :=
  sliceBytes? source l.range.1.toNat l.range.2.toNat

end Hypertext
