/-
# JSON numerals, one character at a time

A numeral is read into a significand and an exponent of ten. The significand takes digits as long as it fits in 64
bits; once a digit does not fit, the digits of the whole part from there on only count towards the exponent, and those
of the fraction are passed over. A numeral without fraction and exponent is an integer where it fits in 64 bits, signed
or unsigned; `-0` and all others are binary64 numbers.
-/

import DocClient.Json.Basic

namespace DocClient

/-- The greatest significand. -/
def maxSignificand : Nat := 0xFFFFFFFFFFFFFFFF

/-- A numeral part way through. -/
inductive Numeral where
  /-- After the sign; a digit is due. -/
  | minus
  /-- A leading zero, after which no digit may come. -/
  | zero (negative : Bool)
  /-- Digits of the whole part; `extra` of them did not fit. -/
  | whole (negative : Bool) (significand extra : Nat)
  /-- After the point; a digit is due. -/
  | point (negative : Bool) (significand : Nat) (exponent : Int)
  /-- Digits of the fraction; once `full`, further ones are passed over. -/
  | fraction (negative : Bool) (significand : Nat) (exponent : Int) (full : Bool)
  /-- After the exponent mark; a sign or a digit is due. -/
  | mark (negative : Bool) (significand : Nat) (exponent : Int)
  /-- After the sign of the exponent; a digit is due. -/
  | signed (negative : Bool) (significand : Nat) (exponent : Int) (down : Bool)
  /-- Digits of the exponent. -/
  | power (negative : Bool) (significand : Nat) (exponent : Int) (down : Bool) (size : Nat)
deriving DecidableEq, Repr

namespace Numeral

/-- The value of a decimal digit. -/
def digit? (c : Char) : Option Nat := if c.isDigit then some (c.toNat - '0'.toNat) else none

/-- The numeral that a character starts. -/
def start? (c : Char) : Option Numeral :=
  if c = '-' then some .minus
  else if c = '0' then some (.zero false)
  else (digit? c).map fun d => .whole false d 0

/-- A character is one of the two exponent marks. -/
def isMark (c : Char) : Bool := c = 'e' || c = 'E'

/-- The numeral after one more character; `none` when the character cannot go on with it. -/
def step? (n : Numeral) (c : Char) : Option Numeral :=
  match n with
  | .minus =>
    (digit? c).map fun d => if d = 0 then .zero true else .whole true d 0
  | .zero s =>
    if c = '.' then some (.point s 0 0) else if isMark c then some (.mark s 0 0) else none
  | .whole s m extra =>
    match digit? c with
    | some d => some (if extra = 0 ∧ m * 10 + d ≤ maxSignificand then .whole s (m * 10 + d) 0 else .whole s m (extra + 1))
    | none => if c = '.' then some (.point s m extra) else if isMark c then some (.mark s m extra) else none
  | .point s m e =>
    (digit? c).map fun d =>
      if m * 10 + d ≤ maxSignificand then .fraction s (m * 10 + d) (e - 1) false else .fraction s m e true
  | .fraction s m e full =>
    match digit? c with
    | some d =>
      some (if !full ∧ m * 10 + d ≤ maxSignificand then .fraction s (m * 10 + d) (e - 1) false
        else .fraction s m e true)
    | none => if isMark c then some (.mark s m e) else none
  | .mark s m e =>
    if c = '+' then some (.signed s m e false)
    else if c = '-' then some (.signed s m e true)
    else (digit? c).map fun d => .power s m e false d
  | .signed s m e down => (digit? c).map fun d => .power s m e down d
  | .power s m e down size => (digit? c).map fun d => .power s m e down (size * 10 + d)

/-- No digit is due: the numeral may end here. -/
def complete : Numeral → Bool
  | .zero _ | .whole .. | .fraction .. | .power .. => true
  | _ => false

/-- No numeral has a digit after a leading zero. -/
def refuses (n : Numeral) (c : Char) : Bool :=
  match n with
  | .zero _ => c.isDigit
  | _ => false

/-- A binary64 number in place of an integer. -/
def floating (negative : Bool) (significand : Nat) (exponent : Int) : Option Number :=
  (Double.ofDecimal? negative significand exponent).map .float

/-- The number that a numeral stands for; `none` where it is out of range. -/
def value? : Numeral → Option Number
  | .zero negative => if negative then some (.float (.zero true)) else some (.int 0)
  | .whole negative m extra =>
    if extra ≠ 0 then floating negative m extra
    else if negative then if m ≤ 0x8000000000000000 then some (.int (-m)) else floating true m 0
    else some (.int m)
  | .fraction negative m e _ => floating negative m e
  | .power negative m e down size => floating negative m (if down then e - size else e + size)
  | _ => none

end Numeral
end DocClient
