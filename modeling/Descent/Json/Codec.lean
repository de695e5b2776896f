import Descent.Json

/-!
# Codecs

A `Codec` reads the values of a type from JSON and writes them. The rules for structures are strict
about what they know and lenient about the rest: members with other names are passed over, a name of
theirs may come only once, and an array may stand for the object, with its fields in order.
-/

set_option autoImplicit false

namespace Descent

structure Codec (β : Type) where
  read : Json → Option β
  write : β → Json

namespace Codec

/-- The greatest number of 64 bits. -/
def wordMax : Nat := 0xffffffffffffffff

/-- Natural numbers below `2 ^ 64`, written without a sign, a point or an exponent. -/
def nat : Codec Nat where
  read
    | .number n => n.toNat?.filter fun v => v ≤ wordMax
    | _ => none
  write := .nat

/-- A numeral as a scalar: the nearest one, which has to be finite. Negative whole numbers below
`-2 ^ 63` whose digits still fit 64 bits are rounded to a double on the way. -/
def numeralScalar {α : Type} [Scalar α] (n : Numeral) : Option α :=
  let digits := n.decimal.digits
  let signedMin := 0x8000000000000000
  let a : α :=
    if n.isInteger && n.negative && signedMin < digits && digits ≤ wordMax then
      Scalar.ofFloat n.toFloat
    else n.nearest
  if Scalar.isFinite a then some a else none

def scalar {α : Type} [Scalar α] : Codec α where
  read
    | .number n => numeralScalar n
    | _ => none
  write a := .float (Scalar.toFloat a)

def text : Codec String where
  read
    | .string s => s
    | _ => none
  write := .str

/-- Values that may be absent: then the member is `null`. -/
def option {β : Type} (c : Codec β) : Codec (Option β) where
  read
    | .null => some none
    | json => (c.read json).map some
  write := .option c.write

def list {β : Type} (c : Codec β) : Codec (List β) where
  read
    | .array items => items.mapM c.read
    | _ => none
  write := .list c.write

/-- One of several values, each with a name: the name by itself, or an object that maps it to
`null`. -/
def choice {β : Type} (all : List β) (name : β → String) : Codec β where
  read
    | .string (some s) => all.find? fun b => name b == s
    | .object [(s, .null)] => all.find? fun b => name b == s
    | _ => none
  write b := .str (name b)

/-- The fields of a structure with the given names, as far as they are there. An array has to hold
all of them unless `partially` is set. -/
def fields (names : List String) (partially : Bool) : Json → Option (List (String × Json))
  | .object members =>
    let known := members.filter fun m => names.contains m.1
    if (known.map Prod.fst).Nodup then some known else none
  | .array items =>
    if items.length = names.length ∨ partially ∧ items.length < names.length then
      some (names.zip items)
    else none
  | _ => none

def required {β : Type} (c : Codec β) (fs : List (String × Json)) (name : String) : Option β :=
  (fs.lookup name).bind c.read

def optional {β : Type} (c : Codec β) (fs : List (String × Json)) (name : String) :
    Option (Option β) :=
  match fs.lookup name with
  | some json => c.option.read json
  | none => some none

/-- A field with a value of its own if it is not there. -/
def withDefault {β : Type} (c : Codec β) (fs : List (String × Json)) (name : String)
    (standard : β) : Option β :=
  match fs.lookup name with
  | some json => c.read json
  | none => some standard

end Codec

end Descent
