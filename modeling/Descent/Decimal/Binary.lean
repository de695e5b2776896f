/-!
# Binary floating-point words

A floating-point word read as what it stands for: a sign and a number `m · 2^q` with a natural `m`,
an infinity, or no number at all. `Layout` gives the widths of the two fields, so that the double
and the single format are two values of it. Decimal texts are computed from this reading in exact
`Nat` arithmetic.
-/

set_option autoImplicit false

namespace Descent

/-- The widths of the two fields below the sign bit of a binary interchange format. -/
structure Binary.Layout where
  fractionBits : Nat
  exponentBits : Nat

def Binary.Layout.double : Binary.Layout := ⟨52, 11⟩

def Binary.Layout.single : Binary.Layout := ⟨23, 8⟩

/-- The magnitude `mantissa · 2 ^ exponent` of a finite word. `narrowBelow` tells that the next
smaller magnitude is only half as far away as the next greater one, which happens where the
exponent field steps up. -/
structure Binary.Magnitude where
  mantissa : Nat
  exponent : Int
  narrowBelow : Bool

/-- What a floating-point word stands for. -/
inductive Binary where
  | finite (negative : Bool) (magnitude : Binary.Magnitude)
  | infinite (negative : Bool)
  | nan

namespace Binary

/-- The reading of a word. An exponent field of all ones is an infinity (fraction zero) or not a
number; a zero field has no hidden bit and shares the exponent of field one. -/
def ofBits (layout : Layout) (bits : Nat) : Binary :=
  let hidden := Nat.pow 2 layout.fractionBits
  let fields := Nat.pow 2 layout.exponentBits
  let fraction := bits % hidden
  let field := bits / hidden % fields
  let negative := bits / hidden / fields % 2 == 1
  let lowest : Int := 2 - Nat.pow 2 (layout.exponentBits - 1) - layout.fractionBits
  if field + 1 == fields then
    if fraction == 0 then .infinite negative else .nan
  else if field == 0 then
    .finite negative ⟨fraction, lowest, false⟩
  else
    .finite negative ⟨hidden + fraction, lowest + field - 1, fraction == 0 && field != 1⟩

def ofFloat (x : Float) : Binary := ofBits .double x.toBits.toNat

def ofFloat32 (x : Float32) : Binary := ofBits .single x.toBits.toNat

end Binary

end Descent
