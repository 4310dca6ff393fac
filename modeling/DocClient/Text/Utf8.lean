/-
# UTF-8 as a machine over bytes

Between characters nothing is owed; after a lead byte so many continuation bytes are owed, and the next byte has
a least and a greatest value. The bounds shut out overlong forms, surrogates and numbers past the last code point:

| lead byte | owed | next byte |
| --- | ---: | --- |
| `c2` to `df` | 1 | `80` to `bf` |
| `e0` | 2 | `a0` to `bf` |
| `e1` to `ec`, `ee`, `ef` | 2 | `80` to `bf` |
| `ed` | 2 | `80` to `9f` |
| `f0` | 3 | `90` to `bf` |
| `f1` to `f3` | 3 | `80` to `bf` |
| `f4` | 3 | `80` to `8f` |

The bytes fall into pieces: a character each, or the longest run that starts one and cannot go on. Strict decoding
refuses a text with a piece of the second sort, replacing decoding puts U+FFFD for each.
-/

namespace DocClient
namespace Text

/-- A character part way through: the number its bytes have given so far, the continuation bytes owed, and the least
and greatest value of the next one. -/
structure Partial where
  value : Nat
  owed : Nat
  least : Nat
  greatest : Nat
deriving DecidableEq, Repr

/-- What a byte starts, between characters: a whole character, a character part way through, or nothing. -/
inductive Lead where
  | whole (c : Char)
  | part (p : Partial)
  | stray
deriving Repr

/-- The table of lead bytes. -/
def Lead.ofByte (b : UInt8) : Lead :=
  let n := b.toNat
  if n < 0x80 then .whole (Char.ofNat n)
  else if n < 0xc2 then .stray
  else if n < 0xe0 then .part ⟨n - 0xc0, 1, 0x80, 0xbf⟩
  else if n = 0xe0 then .part ⟨0, 2, 0xa0, 0xbf⟩
  else if n = 0xed then .part ⟨0xd, 2, 0x80, 0x9f⟩
  else if n < 0xf0 then .part ⟨n - 0xe0, 2, 0x80, 0xbf⟩
  else if n = 0xf0 then .part ⟨0, 3, 0x90, 0xbf⟩
  else if n < 0xf4 then .part ⟨n - 0xf0, 3, 0x80, 0xbf⟩
  else if n = 0xf4 then .part ⟨4, 3, 0x80, 0x8f⟩
  else .stray

/-- The pieces of a byte string, given the character part way through before it: a character, or `none` for a run
that is not one. A byte that does not go on with the character part way through is looked at again on its own. -/
def pieces : Option Partial → List UInt8 → List (Option Char)
  | none, [] => []
  | some _, [] => [none]
  | none, b :: bs =>
    match Lead.ofByte b with
    | .whole c => some c :: pieces none bs
    | .part p => pieces (some p) bs
    | .stray => none :: pieces none bs
  | some p, b :: bs =>
    if p.least ≤ b.toNat ∧ b.toNat ≤ p.greatest then
      let value := p.value * 64 + (b.toNat - 0x80)
      if p.owed ≤ 1 then some (Char.ofNat value) :: pieces none bs
      else pieces (some ⟨value, p.owed - 1, 0x80, 0xbf⟩) bs
    else
      match Lead.ofByte b with
      | .whole c => none :: some c :: pieces none bs
      | .part q => none :: pieces (some q) bs
      | .stray => none :: none :: pieces none bs

/-- Strict decoding: the characters of a byte string all of whose pieces are characters. -/
def decode? (bytes : List UInt8) : Option (List Char) := (pieces none bytes).mapM id

/-- Replacing decoding: U+FFFD stands for each piece that is no character. -/
def decodeReplacing (bytes : List UInt8) : List Char :=
  (pieces none bytes).map fun piece => piece.getD '\ufffd'

/-- The bytes of a character. -/
def encodeChar (c : Char) : List UInt8 :=
  let n := c.toNat
  if n < 0x80 then [n.toUInt8]
  else if n < 0x800 then [(0xc0 + n / 64).toUInt8, (0x80 + n % 64).toUInt8]
  else if n < 0x10000 then
    [(0xe0 + n / 4096).toUInt8, (0x80 + n / 64 % 64).toUInt8, (0x80 + n % 64).toUInt8]
  else
    [(0xf0 + n / 262144).toUInt8, (0x80 + n / 4096 % 64).toUInt8, (0x80 + n / 64 % 64).toUInt8,
      (0x80 + n % 64).toUInt8]

/-- The bytes of a text. -/
def encode (cs : List Char) : List UInt8 := cs.flatMap encodeChar

example : decode? [0x61, 0xc3, 0xa9, 0xf0, 0x9f, 0x98, 0x80] = some ['a', 'é', '😀'] := by decide

example : decodeReplacing [0xe2, 0x82, 0x41, 0xff] = ['\ufffd', 'A', '\ufffd'] := by decide

example : decode? (encode ['a', 'é', '€', '😀']) = some ['a', 'é', '€', '😀'] := by decide

end Text
end DocClient
