import Descent.Json

/-!
# Reading JSON

A strict reader: the grammar of the format and nothing else, with white space around values only.
Every function takes characters from the front and hands back the rest, or `none` where the text is
not JSON.
-/

set_option autoImplicit false

namespace Descent

namespace Json

/-- The white space between tokens. -/
def isBlank (c : Char) : Bool := c == ' ' || c == '\t' || c == '\n' || c == '\r'

def skipBlanks (cs : List Char) : List Char := cs.dropWhile isBlank

def readWord : List Char → List Char → Option (List Char)
  | [], cs => some cs
  | w :: word, c :: cs => if w == c then readWord word cs else none
  | _ :: _, [] => none

/-! ## Numbers -/

def digitsValue (ds : List Char) : Nat := ds.foldl (fun n d => n * 10 + (d.toNat - '0'.toNat)) 0

def readDigits (cs : List Char) : Option (List Char × List Char) :=
  let ds := cs.takeWhile Char.isDigit
  if ds.isEmpty then none else some (ds, cs.dropWhile Char.isDigit)

/-- Takes the digits before the point: a zero, or digits that do not start with one. -/
def readWhole : List Char → Option (List Char × List Char)
  | '0' :: cs => some (['0'], cs)
  | cs => readDigits cs

def readFraction : List Char → Option (Option (List Char) × List Char)
  | '.' :: cs => (readDigits cs).map fun p => (some p.1, p.2)
  | cs => some (none, cs)

def readSigned : List Char → Option (Int × List Char)
  | '-' :: cs => (readDigits cs).map fun p => (-(digitsValue p.1 : Int), p.2)
  | '+' :: cs => (readDigits cs).map fun p => ((digitsValue p.1 : Int), p.2)
  | cs => (readDigits cs).map fun p => ((digitsValue p.1 : Int), p.2)

def readExponent : List Char → Option (Option Int × List Char)
  | c :: cs =>
    if c == 'e' || c == 'E' then (readSigned cs).map fun p => (some p.1, p.2)
    else some (none, c :: cs)
  | [] => some (none, [])

def readNumber (cs : List Char) : Option (Json × List Char) := do
  let (negative, cs) := match cs with
    | '-' :: cs => (true, cs)
    | cs => (false, cs)
  let (whole, cs) ← readWhole cs
  let (fraction, cs) ← readFraction cs
  let (exponent, cs) ← readExponent cs
  let places := fraction.getD []
  let decimal : Decimal := ⟨digitsValue (whole ++ places), exponent.getD 0 - places.length⟩
  return (.number ⟨negative, decimal, fraction.isNone && exponent.isNone⟩, cs)

/-! ## Strings -/

def hexValue (c : Char) : Option Nat :=
  if c.isDigit then some (c.toNat - '0'.toNat)
  else if 'a' ≤ c ∧ c ≤ 'f' then some (c.toNat - 'a'.toNat + 10)
  else if 'A' ≤ c ∧ c ≤ 'F' then some (c.toNat - 'A'.toNat + 10)
  else none

def hexCode (a b c d : Char) : Option Nat := do
  return ((← hexValue a) * 16 + (← hexValue b)) * 256 + (← hexValue c) * 16 + (← hexValue d)

def escaped : Char → Option Char
  | '"' => some '"'
  | '\\' => some '\\'
  | '/' => some '/'
  | 'b' => some '\x08'
  | 'f' => some '\x0c'
  | 'n' => some '\n'
  | 'r' => some '\r'
  | 't' => some '\t'
  | _ => none

/-- The code units of a string up to its closing quote: a character by itself stands for its code,
an escape by number for one unit of 16 bits. -/
def readUnits : List Char → Option (List Nat × List Char)
  | [] => none
  | '"' :: cs => some ([], cs)
  | '\\' :: 'u' :: a :: b :: c :: d :: cs => do
    let code ← hexCode a b c d
    let (units, rest) ← readUnits cs
    return (code :: units, rest)
  | '\\' :: e :: cs => do
    let c ← escaped e
    let (units, rest) ← readUnits cs
    return (c.toNat :: units, rest)
  | c :: cs =>
    if c.toNat < 32 || c == '\\' then none
    else do
      let (units, rest) ← readUnits cs
      return (c.toNat :: units, rest)

/-- The characters of code units, two halves of a surrogate pair joined; `none` at half a pair. -/
def joinUnits : List Nat → Option (List Char)
  | [] => some []
  | u :: units =>
    if 0xD800 ≤ u ∧ u < 0xDC00 then
      match units with
      | low :: units =>
        if 0xDC00 ≤ low ∧ low < 0xE000 then do
          let c := Char.ofNat (0x10000 + (u - 0xD800) * 0x400 + (low - 0xDC00))
          return c :: (← joinUnits units)
        else none
      | [] => none
    else if 0xDC00 ≤ u ∧ u < 0xE000 then none
    else do return Char.ofNat u :: (← joinUnits units)

/-- Takes a string after its opening quote. -/
def readString (cs : List Char) : Option (Option String × List Char) := do
  let (units, rest) ← readUnits cs
  return ((joinUnits units).map String.ofList, rest)

/-! ## Values -/

/-- The object with the given members, each of which has to have a text for its name. -/
def ofMembers (members : List (Option String × Json)) : Json :=
  match members.mapM fun m => m.1.map fun name => (name, m.2) with
  | some members => object members
  | none => misnamed

mutual

def readValue : Nat → List Char → Option (Json × List Char)
  | 0, _ => none
  | fuel + 1, cs =>
    match skipBlanks cs with
    | 'n' :: cs => (readWord ['u', 'l', 'l'] cs).map fun rest => (null, rest)
    | 't' :: cs => (readWord ['r', 'u', 'e'] cs).map fun rest => (bool true, rest)
    | 'f' :: cs => (readWord ['a', 'l', 's', 'e'] cs).map fun rest => (bool false, rest)
    | '"' :: cs => (readString cs).map fun p => (string p.1, p.2)
    | '[' :: cs =>
      match skipBlanks cs with
      | ']' :: rest => some (array [], rest)
      | _ => (readItems fuel cs).map fun p => (array p.1, p.2)
    | '\x7b' :: cs =>
      match skipBlanks cs with
      | '\x7d' :: rest => some (object [], rest)
      | _ => (readMembers fuel cs).map fun p => (ofMembers p.1, p.2)
    | cs => readNumber cs

/-- Takes the items of an array, at least one, and its closing bracket. -/
def readItems : Nat → List Char → Option (List Json × List Char)
  | 0, _ => none
  | fuel + 1, cs => do
    let (item, rest) ← readValue fuel cs
    match skipBlanks rest with
    | ',' :: rest =>
      let (items, rest) ← readItems fuel rest
      return (item :: items, rest)
    | ']' :: rest => return ([item], rest)
    | _ => none

/-- Takes the members of an object, at least one, and its closing brace. -/
def readMembers : Nat → List Char → Option (List (Option String × Json) × List Char)
  | 0, _ => none
  | fuel + 1, cs =>
    match skipBlanks cs with
    | '"' :: cs => do
      let (name, rest) ← readString cs
      match skipBlanks rest with
      | ':' :: rest =>
        let (value, rest) ← readValue fuel rest
        match skipBlanks rest with
        | ',' :: rest =>
          let (members, rest) ← readMembers fuel rest
          return ((name, value) :: members, rest)
        | '\x7d' :: rest => return ([(name, value)], rest)
        | _ => none
      | _ => none
    | _ => none

end

/-- The value that a text stands for: one value, and white space around it. Each step of the reader
takes a character or goes one level deeper for one that it has taken, so twice the length is
enough. -/
def parse? (s : String) : Option Json := do
  let cs := s.toList
  let (value, rest) ← readValue (2 * cs.length + 2) cs
  if (skipBlanks rest).isEmpty then some value else none

end Json

end Descent
