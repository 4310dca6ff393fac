/-
# Percent-encoded text

A text goes into a URL as the bytes of its UTF-8 form. Some bytes stand for themselves, as the ASCII character of that
number; any other is written as `%` and two capital hex digits.

| where | bytes that stand for themselves |
| --- | --- |
| a path segment | letters, digits, `-`, `_`, `.`, `~` |
| a name or value of a query | letters, digits, `*`, `-`, `.`, `_`; a space is a `+` |
-/

import DocClient.Text.Utf8

namespace DocClient
namespace Percent

/-- A hex digit; capital beyond nine. -/
def hexDigit (n : Nat) : Char := if n < 10 then Char.ofNat (0x30 + n) else Char.ofNat (0x37 + n)

/-- The value of a hex digit. -/
def hexValue? (c : Char) : Option Nat :=
  let n := c.toNat
  if 0x30 ≤ n ∧ n ≤ 0x39 then some (n - 0x30)
  else if 0x41 ≤ n ∧ n ≤ 0x46 then some (n - 0x37)
  else if 0x61 ≤ n ∧ n ≤ 0x66 then some (n - 0x57)
  else none

/-- A byte is an ASCII letter or digit. -/
def isAlphanumeric (b : UInt8) : Bool :=
  let n := b.toNat
  (0x30 ≤ n && n ≤ 0x39) || (0x41 ≤ n && n ≤ 0x5a) || (0x61 ≤ n && n ≤ 0x7a)

/-- A byte as `%` and two hex digits. -/
def escape (b : UInt8) : List Char := ['%', hexDigit (b.toNat / 16), hexDigit (b.toNat % 16)]

/-- A byte that may stand for itself. -/
def byteText (plain : UInt8 → Bool) (b : UInt8) : List Char :=
  if plain b then [Char.ofNat b.toNat] else escape b

/-- Bytes of which some stand for themselves. -/
def encode (plain : UInt8 → Bool) (bytes : List UInt8) : List Char := bytes.flatMap (byteText plain)

/-- The bytes of a text with its escapes undone; a `%` without two hex digits stands for itself. -/
def decode : List Char → List UInt8
  | [] => []
  | [c] => Text.encodeChar c
  | [c, d] => Text.encodeChar c ++ Text.encodeChar d
  | c :: d :: e :: rest =>
    if c = '%' then
      match hexValue? d, hexValue? e with
      | some high, some low => (high * 16 + low).toUInt8 :: decode rest
      | _, _ => Text.encodeChar c ++ decode (d :: e :: rest)
    else Text.encodeChar c ++ decode (d :: e :: rest)

/-- The bytes that stand for themselves in a path segment. -/
def isUnreserved (b : UInt8) : Bool :=
  isAlphanumeric b || b == 0x2d || b == 0x5f || b == 0x2e || b == 0x7e

/-- A text as a path segment. -/
def segment (s : String) : List Char := encode isUnreserved (Text.encode s.toList)

/-- The bytes that stand for themselves in a query. -/
def isFormPlain (b : UInt8) : Bool :=
  isAlphanumeric b || b == 0x2a || b == 0x2d || b == 0x2e || b == 0x5f

/-- A byte of a name or value of a query. -/
def formByte (b : UInt8) : List Char := if b == 0x20 then ['+'] else byteText isFormPlain b

/-- A name or value of a query. -/
def formText (s : String) : List Char := (Text.encode s.toList).flatMap formByte

/-- A name or value of a query, read back. -/
def formDecode (cs : List Char) : List Char :=
  Text.decodeReplacing (decode (cs.map fun c => if c = '+' then ' ' else c))

/-- One pair of a query. -/
def pairText (p : String × String) : List Char := formText p.1 ++ '=' :: formText p.2

/-- The pairs of a query. -/
def query (pairs : List (String × String)) : List Char := ['&'].intercalate (pairs.map pairText)

/-- The pairs of a query, read back: empty pairs are passed over, and a pair without `=` has an empty value. -/
def queryDecode (cs : List Char) : List (List Char × List Char) :=
  ((cs.splitOn '&').filter fun part => !part.isEmpty).map fun part =>
    (formDecode (part.takeWhile (· != '=')), formDecode ((part.dropWhile (· != '=')).drop 1))

example : String.ofList (segment "a b/é~") = "a%20b%2F%C3%A9~" := by decide +kernel

example : String.ofList (query [("rev", "1-a b"), ("k", "é&*")]) = "rev=1-a+b&k=%C3%A9%26*" := by decide +kernel

example : queryDecode (query [("k=&", "+ %"), ("", "")]) = [("k=&".toList, "+ %".toList), ([], [])] := by
  decide +kernel

end Percent
end DocClient
