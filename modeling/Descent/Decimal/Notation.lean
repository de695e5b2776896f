import Descent.Decimal.Digits

/-!
# Decimal notations

The ways in which messages and reports write a floating-point number:

* `plain`: the shortest digits with all zeros written out and never an exponent (`0.0001`, `-0`);
* `scientific`: the shortest digits as `d.ddde-x`;
* `scientificTo n`: exactly `n` digits after the point of the scientific form;
* `fixedTo n`: exactly `n` digits after the point.

The last two round the exact binary value, a half going to the even neighbour. Infinities and NaN
are written `inf`, `-inf`, `NaN` in every notation.
-/

set_option autoImplicit false

namespace Descent

namespace Decimal

/-- The digits as text, with zeros in front until there are `width`. -/
def digitText (width n : Nat) : String :=
  let cs := digitChars n
  String.ofList (List.replicate (width - cs.length) '0' ++ cs)

def plainText (d : Decimal) : String :=
  let cs := digitChars d.digits
  let before := (cs.length + d.exponent).toNat
  if 0 ≤ d.exponent then String.ofList (cs ++ List.replicate d.exponent.toNat '0')
  else if before = 0 then
    "0." ++ String.ofList (List.replicate (-(cs.length + d.exponent)).toNat '0' ++ cs)
  else String.ofList (cs.take before) ++ "." ++ String.ofList (cs.drop before)

/-- One digit before the point, the others after it, then the exponent; no point without digits
after it. -/
def scientificText (d : Decimal) : String :=
  let exponent := "e" ++ toString (d.position - 1)
  match digitChars d.digits with
  | [] => "0e0"
  | [c] => String.singleton c ++ exponent
  | c :: cs => String.singleton c ++ "." ++ String.ofList cs ++ exponent

end Decimal

namespace Binary

/-- Writes a word: the sign, then the magnitude as `write` says. -/
def textWith (write : Magnitude → String) : Binary → String
  | .nan => "NaN"
  | .infinite negative => if negative then "-inf" else "inf"
  | .finite negative v => (if negative then "-" else "") ++ write v

/-- The shortest digits, never with an exponent. -/
def plain : Binary → String := textWith fun v => (Decimal.shortest v).plainText

def scientific : Binary → String := textWith fun v =>
  if v.mantissa == 0 then "0e0" else (Decimal.shortest v).scientificText

/-- Scientific notation with `places` digits after the point. Rounding may carry into a new leading
digit; then the digits are those of the next power of ten. -/
def scientificTo (places : Nat) : Binary → String := textWith fun v =>
  let zero := String.ofList (if places = 0 then [] else '.' :: List.replicate places '0')
  if v.mantissa == 0 then "0" ++ zero ++ "e0"
  else
    let d := Decimal.roundedAt v (Decimal.leadingPosition v.mantissa v.exponent - 1 - places)
    if d.digits == Nat.pow 10 (places + 1) then
      Decimal.scientificText ⟨d.digits / 10, d.exponent + 1⟩
    else d.scientificText

def fixedTo (places : Nat) : Binary → String := textWith fun v =>
  let n := (Decimal.roundedAt v (-places)).digits
  if places = 0 then Decimal.digitText 1 n
  else
    let unit := Nat.pow 10 places
    Decimal.digitText 1 (n / unit) ++ "." ++ Decimal.digitText places (n % unit)

end Binary

def padLeft (width : Nat) (s : String) : String :=
  String.ofList (List.replicate (width - s.length) ' ') ++ s

def padRight (width : Nat) (s : String) : String :=
  s ++ String.ofList (List.replicate (width - s.length) ' ')

end Descent
