/-
# Binary64 numbers as exact integers

A finite binary64 number is `± mantissa · 2^exponent` with `mantissa < 2^53` and `-1074 ≤ exponent ≤ 971`; its
mantissa is at least `2^52` unless the exponent is the least one. Rounding a quotient of naturals to the nearest such
number, ties to the even mantissa, is done in exact arithmetic, and the product and quotient of two numbers are the
exact ones rounded once.

A decimal `significand · 10^exponent` is read in two roundings: the significand, then its product with, or quotient
by, the rounded power of ten. Below `10^-308` it is first divided by `10^308`, in a rounding of its own.
-/

namespace DocClient

/-- A finite binary64 number: its sign, mantissa and exponent of two. -/
structure Double where
  negative : Bool
  mantissa : Nat
  exponent : Int
deriving DecidableEq, Repr

namespace Double

/-- The exponent of the numbers closest to zero. -/
def minExponent : Int := -1074

/-- The exponent of the numbers farthest from zero. -/
def maxExponent : Int := 971

/-- Zero, which has a sign of its own. -/
def zero (negative : Bool) : Double := ⟨negative, 0, minExponent⟩

/-- The integer nearest to `num / den`; a tie goes to the even one. -/
def roundDiv (num den : Nat) : Nat :=
  let q := num / den
  let r := num % den
  if 2 * r < den then q
  else if den < 2 * r then q + 1
  else if q % 2 = 0 then q else q + 1

/-- A quotient divided by a power of two, as a quotient of naturals. -/
def scaled (num den : Nat) (e : Int) : Nat × Nat :=
  if 0 ≤ e then (num, den * Nat.pow 2 e.toNat) else (num * Nat.pow 2 (-e).toNat, den)

/-- The exponent at which `num / den` has a mantissa of 53 bits, raised to the least one where it falls below it. -/
def exponentOf (num den : Nat) : Int :=
  let low : Int := (num.log2 : Int) - den.log2 - 53
  let (n, d) := scaled num den low
  max minExponent (if n < d * Nat.pow 2 53 then low else low + 1)

/-- The number nearest to `± num / den`; `none` where it would have to be infinite. -/
def nearest? (negative : Bool) (num den : Nat) : Option Double :=
  if num = 0 then some (zero negative)
  else
    let e := exponentOf num den
    let (n, d) := scaled num den e
    let m := roundDiv n d
    let (m, e) := if m = Nat.pow 2 53 then (Nat.pow 2 52, e + 1) else (m, e)
    if maxExponent < e then none else some ⟨negative, m, e⟩

/-- The size of a number as a quotient of naturals. -/
def ratio (x : Double) : Nat × Nat :=
  if 0 ≤ x.exponent then (x.mantissa * Nat.pow 2 x.exponent.toNat, 1) else (x.mantissa, Nat.pow 2 (-x.exponent).toNat)

/-- The product, rounded once. -/
def mul? (x y : Double) : Option Double :=
  let (a, b) := x.ratio
  let (c, d) := y.ratio
  nearest? (x.negative != y.negative) (a * c) (b * d)

/-- The quotient, rounded once. -/
def div? (x y : Double) : Option Double :=
  let (a, b) := x.ratio
  let (c, d) := y.ratio
  nearest? (x.negative != y.negative) (a * d) (b * c)

/-- The number nearest to `10^k`. -/
def tenTo? (k : Nat) : Option Double := nearest? false (Nat.pow 10 k) 1

/-- Reads `± significand · 10^exponent`; `none` where the result is out of range. -/
def ofDecimal? (negative : Bool) (significand : Nat) (exponent : Int) : Option Double :=
  if significand = 0 then some (zero negative)
  else if 308 < exponent then none
  else if exponent < -616 then some (zero negative)
  else do
    let digits ← nearest? negative significand 1
    if 0 ≤ exponent then digits.mul? (← tenTo? exponent.toNat)
    else if -308 ≤ exponent then digits.div? (← tenTo? (-exponent).toNat)
    else
      let small ← digits.div? (← tenTo? 308)
      small.div? (← tenTo? (-exponent - 308).toNat)

example : ofDecimal? false 15 (-1) = some ⟨false, 3 * Nat.pow 2 51, -52⟩ := by decide +kernel

example : ofDecimal? false 1 400 = none ∧ ofDecimal? true 5 (-700) = some (zero true) := by decide +kernel

end Double
end DocClient
