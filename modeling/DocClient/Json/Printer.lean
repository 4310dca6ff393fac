/-
# Compact JSON text

A value is written without white space, the members of an object in their order. In a string the quote, the backslash
and the controls are escaped, five of the controls by a letter and the others as `\u00` with two hex digits; every
other character stands for itself.
-/

import DocClient.Json.Basic
import DocClient.Number.Shortest

namespace DocClient
namespace Json

/-- How one character is written inside a string. -/
def escapedChar (c : Char) : List Char :=
  if c = '"' then ['\\', '"']
  else if c = '\\' then ['\\', '\\']
  else if c = '\x08' then ['\\', 'b']
  else if c = '\x0c' then ['\\', 'f']
  else if c = '\n' then ['\\', 'n']
  else if c = '\r' then ['\\', 'r']
  else if c = '\t' then ['\\', 't']
  else if c.toNat < 0x20 then
    ['\\', 'u', '0', '0', Nat.digitChar (c.toNat / 16), Nat.digitChar (c.toNat % 16)]
  else [c]

/-- A string between quotes. -/
def stringText (s : String) : List Char := '"' :: s.toList.flatMap escapedChar ++ ['"']

/-- The decimal text of an integer. -/
def intText (n : Int) : List Char :=
  if n < 0 then '-' :: Double.digitsOf n.natAbs else Double.digitsOf n.natAbs

/-- The text of a number. -/
def numberText : Number → List Char
  | .int n => intText n
  | .float x => x.text

mutual

/-- The compact text of a value. -/
def text : Json → List Char
  | .null => "null".toList
  | .bool b => if b then "true".toList else "false".toList
  | .num n => numberText n
  | .str s => stringText s
  | .arr [] => ['[', ']']
  | .arr (v :: rest) => '[' :: text v ++ itemsText rest
  | .obj [] => ['\x7b', '\x7d']
  | .obj ((k, v) :: rest) => '\x7b' :: stringText k ++ ':' :: text v ++ membersText rest

/-- The items after the first, with the closing bracket. -/
def itemsText : List Json → List Char
  | [] => [']']
  | v :: rest => ',' :: text v ++ itemsText rest

/-- The members after the first, with the closing brace. -/
def membersText : List (String × Json) → List Char
  | [] => ['\x7d']
  | (k, v) :: rest => ',' :: stringText k ++ ':' :: text v ++ membersText rest

end

/-- The compact text of a value, as a string. -/
def compact (v : Json) : String := String.ofList v.text

end Json
end DocClient
