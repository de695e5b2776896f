/-!
# Random numbers

A stream of words from a seed, by the ChaCha block function with twelve rounds. The key comes from
the seed by a linear congruential generator with permuted output. The same seed always gives the
same stream.
-/

set_option autoImplicit false

namespace Descent

namespace Random

abbrev Block := Vector UInt32 16

def rotateLeft (a : UInt32) (n : UInt32) : UInt32 := (a <<< n) ||| (a >>> (32 - n))

/-- Mixes four words of a block. -/
def quarterRound (s : Block) (a b c d : Fin 16) : Block :=
  let s := s.set a (s.get a + s.get b)
  let s := s.set d (rotateLeft (s.get d ^^^ s.get a) 16)
  let s := s.set c (s.get c + s.get d)
  let s := s.set b (rotateLeft (s.get b ^^^ s.get c) 12)
  let s := s.set a (s.get a + s.get b)
  let s := s.set d (rotateLeft (s.get d ^^^ s.get a) 8)
  let s := s.set c (s.get c + s.get d)
  s.set b (rotateLeft (s.get b ^^^ s.get c) 7)

/-- Mixes the columns, then the diagonals. -/
def doubleRound (s : Block) : Block :=
  let s := quarterRound s 0 4 8 12
  let s := quarterRound s 1 5 9 13
  let s := quarterRound s 2 6 10 14
  let s := quarterRound s 3 7 11 15
  let s := quarterRound s 0 5 10 15
  let s := quarterRound s 1 6 11 12
  let s := quarterRound s 2 7 8 13
  quarterRound s 3 4 9 14

/-- The state for a key and a block number: four constants, the key, the number with its low word
first, and no nonce. -/
def initialBlock (key : Vector UInt32 8) (number : UInt64) : Block :=
  (#v[0x61707865, 0x3320646e, 0x79622d32, 0x6b206574] : Vector UInt32 4) ++ key
    ++ (#v[number.toUInt32, (number >>> 32).toUInt32, 0, 0] : Vector UInt32 4)

/-- The output for a key and a block number: twelve rounds, added to the state they start from. -/
def outputBlock (key : Vector UInt32 8) (number : UInt64) : Block :=
  let start := initialBlock key number
  let mixed := doubleRound (doubleRound (doubleRound (doubleRound (doubleRound (doubleRound
    start)))))
  mixed.zipWith (fun a b => a + b) start

def keyState (state : UInt64) : UInt64 := state * 6364136223846793005 + 11634580027462260723

def keyWord (state : UInt64) : UInt32 :=
  let mixed := (((state >>> 18) ^^^ state) >>> 27).toUInt32
  rotateLeft mixed ((32 : UInt32) - (state >>> 59).toUInt32)

def keyStates : Nat → UInt64 → List UInt64
  | 0, _ => []
  | n + 1, state => keyState state :: keyStates n (keyState state)

def key (seed : UInt64) : Vector UInt32 8 :=
  let states := keyStates 8 seed
  Vector.ofFn fun i => keyWord (states.getD i 0)

/-- The `n`-th word of 64 bits of a stream: two words of a block, the low one first. -/
def word (key : Vector UInt32 8) (n : Nat) : UInt64 :=
  let words := (outputBlock key (UInt64.ofNat (n / 8))).toList
  let place := n % 8 * 2
  (words.getD place 0).toUInt64 ||| ((words.getD (place + 1) 0).toUInt64 <<< 32)

/-- A number in `[-1, 1)` from a word: its upper 52 bits as the fraction of a number in `[1, 2)`,
shifted and stretched. -/
def signedUnit (w : UInt64) : Float :=
  (Float.ofBits ((0x3ff0000000000000 : UInt64) ||| (w >>> 12)) - 1) * 2 + (-1)

def signedUnits (seed : UInt64) (n : Nat) : List Float :=
  let k := key seed
  (List.range n).map fun i => signedUnit (word k i)

end Random

end Descent
