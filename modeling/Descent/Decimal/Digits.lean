import Descent.Decimal.Binary

/-!
# Decimal digits of a binary magnitude

`Decimal` is a number `digits · 10^exponent`. Two ways lead to one from a magnitude `m · 2^q`:

* `shortest`: the fewest digits that lie in the interval of reals rounding to the magnitude, and of
  those with as few the nearest;
* `roundedAt k`: the nearest multiple of `10^k`, a half going to the even neighbour.

Both work on the exact fraction, so no digit is ever guessed.
-/

set_option autoImplicit false

namespace Descent

/-- The number `digits · 10 ^ exponent`. -/
structure Decimal where
  digits : Nat
  exponent : Int
deriving DecidableEq

namespace Decimal

/-- The decimal digits of a natural number, the leading one first. -/
def digitChars (n : Nat) : List Char := Nat.toDigits 10 n

/-- Drops trailing zeros, up to `fuel` of them: the same number with fewer digits. -/
def stripZeros : Nat → Decimal → Decimal
  | 0, d => d
  | fuel + 1, d =>
    if d.digits != 0 && d.digits % 10 == 0 then stripZeros fuel ⟨d.digits / 10, d.exponent + 1⟩
    else d

/-- The position of the leading digit: `10 ^ (d.position - 1) ≤ d < 10 ^ d.position`. -/
def position (d : Decimal) : Int := (digitChars d.digits).length + d.exponent

/-- The quotient of `num / den` rounded to the nearest natural number, a half to the even one. -/
def roundQuotient (num den : Nat) : Nat :=
  let floor := num / den
  let twice := 2 * (num % den)
  if twice < den then floor
  else if den < twice then floor + 1
  else floor + floor % 2

/-- `2 ^ q` and `10 ^ k` meet as a fraction: the numerator and denominator of `m · 2^q / 10^k`. -/
def scaled (m : Nat) (q k : Int) : Nat × Nat :=
  (m * Nat.pow 2 q.toNat * Nat.pow 10 (-k).toNat, Nat.pow 2 (-q).toNat * Nat.pow 10 k.toNat)

/-- The position of the leading digit of `m · 2^q` for `m ≠ 0`: how many digits stand before the
point, or minus the zeros that follow it. A negative `q` is first scaled by a power of ten that is
at least `2^(-q)`, so that the integer part is not zero. -/
def leadingPosition (m : Nat) (q : Int) : Int :=
  let lift := (-q).toNat * 302 / 1000 + 1
  let (num, den) := scaled m q (-lift)
  (digitChars (num / den)).length - lift

/-- The multiple of `10^k` nearest to the magnitude, a half going to the even multiple. -/
def roundedAt (v : Binary.Magnitude) (k : Int) : Decimal :=
  let (num, den) := scaled v.mantissa v.exponent k
  ⟨roundQuotient num den, k⟩

/-- Whether `d · 10^k` rounds to the magnitude: it lies between the midpoints to the two
neighbours, which count as inside when the mantissa is even. All is measured in quarters of the gap
above the magnitude. -/
def roundsTo (v : Binary.Magnitude) (k : Int) (d : Nat) : Bool :=
  let (unit, den) := scaled 1 (v.exponent - 2) k
  let below := 4 * v.mantissa - (if v.narrowBelow then 1 else 2)
  let above := 4 * v.mantissa + 2
  if v.mantissa % 2 == 0 then below * unit ≤ d * den && d * den ≤ above * unit
  else below * unit < d * den && d * den < above * unit

/-- The multiple of `10^k` that rounds to the magnitude and is nearest to it, if there is one; of
two as near the greater. Only the two neighbours of the magnitude can be it. -/
def onGrid (v : Binary.Magnitude) (k : Int) : Option Decimal :=
  let (num, den) := scaled v.mantissa v.exponent k
  let floor := num / den
  let upperNearer := den ≤ 2 * (num % den)
  match roundsTo v k floor, roundsTo v k (floor + 1) with
  | true, true => some ⟨if upperNearer then floor + 1 else floor, k⟩
  | true, false => some ⟨floor, k⟩
  | false, true => some ⟨floor + 1, k⟩
  | false, false => none

/-- Tries the grids `10^k`, `10^(k-1)`, … until one has a number that rounds to the magnitude. -/
def firstGrid (v : Binary.Magnitude) : Nat → Int → Decimal
  | 0, k => roundedAt v k
  | fuel + 1, k => (onGrid v k).getD (firstGrid v fuel (k - 1))

/-- The fewest digits that read back as the magnitude, and of those the nearest to it. Seventeen
digits always suffice for both formats. -/
def shortest (v : Binary.Magnitude) : Decimal :=
  if v.mantissa == 0 then ⟨0, 0⟩
  else stripZeros 400 (firstGrid v 20 (leadingPosition v.mantissa v.exponent - 1))

end Decimal

end Descent
