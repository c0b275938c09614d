import Hypertext.Json.Basic

/-!
# Compact text

The text of a serialized value without any blank: fields in their order, integers in decimal,
strings between quotes. Inside a string the quote, the backslash and the characters below U+0020
are escaped, with a letter where the format has one and as four lowercase hexadecimal digits
otherwise; every other character stands for itself.
-/

namespace Hypertext.Json

/-- The spelling of one character inside a quoted string. -/
def escapeChar (c : Char) : List Char :=
  if c = '"' then ['\\', '"']
  else if c = '\\' then ['\\', '\\']
  else if c = '\x08' then ['\\', 'b']
  else if c = '\t' then ['\\', 't']
  else if c = '\n' then ['\\', 'n']
  else if c = '\x0c' then ['\\', 'f']
  else if c = '\r' then ['\\', 'r']
  else if c.toNat < 32 then
    ['\\', 'u', '0', '0', Nat.digitChar (c.toNat / 16), Nat.digitChar (c.toNat % 16)]
  else [c]

/-- A text between quotes. -/
def quote (s : String) : List Char :=
  '"' :: s.toList.flatMap escapeChar ++ ['"']

/-- An integer in decimal, with a minus sign if it is negative. -/
def decimal : Int → List Char
  | .ofNat n => Nat.toDigits 10 n
  | .negSucc n => '-' :: Nat.toDigits 10 (n + 1)

mutual

/-- The characters of the compact text. -/
def chars : Json → List Char
  | .null => ['n', 'u', 'l', 'l']
  | .num n => decimal n
  | .str s => quote s
  | .arr items => '[' :: itemChars items ++ [']']
  | .obj fields => '{' :: fieldChars fields ++ ['}']

/-- Items, separated by commas. -/
def itemChars : List Json → List Char
  | [] => []
  | [x] => chars x
  | x :: y :: rest => chars x ++ ',' :: itemChars (y :: rest)

/-- Fields, separated by commas. -/
def fieldChars : List (String × Json) → List Char
  | [] => []
  | [(k, x)] => quote k ++ ':' :: chars x
  | (k, x) :: y :: rest => quote k ++ ':' :: chars x ++ ',' :: fieldChars (y :: rest)

end

/-- The compact text of a value. -/
def compact (j : Json) : String :=
  String.ofList j.chars

end Hypertext.Json
