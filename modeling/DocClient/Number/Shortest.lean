/-
# The shortest decimal of a binary64 number

Every decimal between the midpoints to the two neighbours of a number reads back as that number, the midpoints
included when its mantissa is even. Of these the shortest is written, and of the shortest the nearest to the number.
On the grid of decimals with a given count of digits it is enough to look at the two that enclose the number: the
first count from 1 to 17 at which one of them is close enough gives the digits.

A number whose leading digit stands at `10^-5` to `10^15` is written positionally and keeps a fraction, be it `.0`;
any other with an exponent that has a sign and at least two digits.
-/

import DocClient.Number.Binary64

namespace DocClient
namespace Double

/-- The digits of a natural number. -/
def digitsOf (n : Nat) : List Char := Nat.toDigits 10 n

/-- A power of ten or of two as a quotient of naturals. -/
def powerRatio (base : Nat) (k : Int) : Nat × Nat :=
  if 0 ≤ k then (base.pow k.toNat, 1) else (1, base.pow (-k).toNat)

/-- The exponent of ten of the leading digit. -/
def leadingExponent (x : Double) : Int :=
  let (n, d) := x.ratio
  let high : Int := ((digitsOf n).length : Int) - (digitsOf d).length
  let (tn, td) := powerRatio 10 high
  if tn * d ≤ n * td then high else high - 1

/-- The decimal `c · 10^k` closest to a number, if it reads back as that number. All sizes are compared in quarters
of the last binary place: the number is `4 · mantissa` of them and its neighbours' midpoints lie two away, one below
where the gap to the lower neighbour is half as wide. -/
def closest? (x : Double) (k : Int) : Option Nat :=
  let (bn, bd) := powerRatio 2 (x.exponent - 2)
  let (tn, td) := powerRatio 10 k
  let unit := tn * bd
  let quarter := bn * td
  let value := 4 * x.mantissa * quarter
  let narrow := x.mantissa = Nat.pow 2 52 ∧ minExponent < x.exponent
  let low := (4 * x.mantissa - (if narrow then 1 else 2)) * quarter
  let high := (4 * x.mantissa + 2) * quarter
  let even := x.mantissa % 2 = 0
  let reads (c : Nat) : Bool :=
    if even then low ≤ c * unit && c * unit ≤ high else low < c * unit && c * unit < high
  let c := value / unit
  let below := value - c * unit
  let above := (c + 1) * unit - value
  match reads c, reads (c + 1) with
  | true, false => some c
  | false, true => some (c + 1)
  | false, false => none
  | true, true => some (if below < above ∨ (below = above ∧ c % 2 = 0) then c else c + 1)

/-- Takes trailing zeros off the digits of `c · 10^k`, at most `fuel` of them. -/
def dropZeros : Nat → Nat → Int → Nat × Int
  | 0, c, k => (c, k)
  | fuel + 1, c, k => if c % 10 = 0 then dropZeros fuel (c / 10) (k + 1) else (c, k)

/-- The shortest decimal `c · 10^k` that reads back as a number other than zero. -/
def shortest (x : Double) : Nat × Int :=
  let lead := x.leadingExponent
  let found := (List.range 17).findSome? fun (n : Nat) =>
    (x.closest? (lead - n)).map fun c => (c, lead - (n : Int))
  let (c, k) := found.getD (0, 0)
  dropZeros 18 c k

/-- An exponent with its sign and at least two digits. -/
def exponentText (e : Int) : List Char :=
  let digits := digitsOf e.natAbs
  (if e < 0 then '-' else '+') :: (if digits.length < 2 then '0' :: digits else digits)

/-- The text of `c · 10^k`. -/
def decimalText (c : Nat) (k : Int) : List Char :=
  let digits := digitsOf c
  let lead : Int := k + digits.length - 1
  if -5 ≤ lead ∧ lead ≤ 15 then
    if 0 ≤ k then digits ++ List.replicate k.toNat '0' ++ ['.', '0']
    else if 0 ≤ lead then digits.take (lead.toNat + 1) ++ '.' :: digits.drop (lead.toNat + 1)
    else ['0', '.'] ++ List.replicate (-lead - 1).toNat '0' ++ digits
  else
    match digits with
    | [] => []
    | [d] => d :: 'e' :: exponentText lead
    | d :: ds => d :: '.' :: ds ++ 'e' :: exponentText lead

/-- The text of a number. -/
def text (x : Double) : List Char :=
  let size := if x.mantissa = 0 then ['0', '.', '0'] else let (c, k) := x.shortest; decimalText c k
  if x.negative then '-' :: size else size

end Double
end DocClient
