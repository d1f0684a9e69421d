/-!
# Random numbers from a seed

A seed of 64 bits is spread over a key, and the key is run through a twelve-round stream cipher
with a block counter. Two words of the stream make one draw of 64 bits, the low word first; its
upper 53 bits are a fraction of the unit interval.

## Main definitions

* `spread`: the key of a seed
* `block`: sixteen words of the stream
* `draws`, `fractions`: the first draws of a seed, and their fractions as counts of `2 ^ (-53)`
-/

namespace ParseReplay.Random

/-- The sixteen words of a cipher state. -/
abbrev State := Vector UInt32 16

/-- The word `x` with its bits rotated to the left. -/
def rotateLeft (x k : UInt32) : UInt32 := (x <<< k) ||| (x >>> (32 - k))

/-- The quarter round on four words of a state. -/
def quarterRound (s : State) (a b c d : Fin 16) : State :=
  let s := s.set a (s[a] + s[b])
  let s := s.set d (rotateLeft (s[d] ^^^ s[a]) 16)
  let s := s.set c (s[c] + s[d])
  let s := s.set b (rotateLeft (s[b] ^^^ s[c]) 12)
  let s := s.set a (s[a] + s[b])
  let s := s.set d (rotateLeft (s[d] ^^^ s[a]) 8)
  let s := s.set c (s[c] + s[d])
  s.set b (rotateLeft (s[b] ^^^ s[c]) 7)

/-- A round on the columns and a round on the diagonals. -/
def doubleRound (s : State) : State :=
  let s := quarterRound s 0 4 8 12
  let s := quarterRound s 1 5 9 13
  let s := quarterRound s 2 6 10 14
  let s := quarterRound s 3 7 11 15
  let s := quarterRound s 0 5 10 15
  let s := quarterRound s 1 6 11 12
  let s := quarterRound s 2 7 8 13
  quarterRound s 3 4 9 14

/-- The initial state of a block: four constants, the key, the counter, and a zero stream. -/
def initial (key : Vector UInt32 8) (counter : UInt64) : State :=
  #v[0x61707865, 0x3320646e, 0x79622d32, 0x6b206574,
    key[0], key[1], key[2], key[3], key[4], key[5], key[6], key[7],
    counter.toUInt32, (counter >>> 32).toUInt32, 0, 0]

/-- Six double rounds, added to the state that they started from. -/
def block (key : Vector UInt32 8) (counter : UInt64) : State :=
  let s := initial key counter
  (Nat.repeat doubleRound 6 s).zipWith (· + ·) s

/-- The next state of the generator that spreads a seed. -/
def spreadNext (s : UInt64) : UInt64 := s * 6364136223846793005 + 11634580027462260723

/-- The output of the generator that spreads a seed: folded bits, rotated by the uppermost five. -/
def spreadOutput (s : UInt64) : UInt32 :=
  let x := (((s >>> 18) ^^^ s) >>> 27).toUInt32
  let r := (s >>> 59).toUInt32
  -- The mask makes a rotation by nothing shift by nothing both ways.
  (x >>> r) ||| (x <<< ((32 - r) &&& 31))

/-- The key of a seed. -/
def spread (seed : UInt64) : Vector UInt32 8 :=
  Vector.ofFn fun i => spreadOutput (Nat.repeat spreadNext (i.val + 1) seed)

/-- The draws of a block: eight pairs of words, the low word first. -/
def blockDraws (s : State) : List UInt64 :=
  (List.finRange 8).map fun i =>
    s[2 * i.val].toUInt64 ||| (s[2 * i.val + 1].toUInt64 <<< 32)

/-- The first `count` draws of a seed. -/
def draws (seed : UInt64) (count : Nat) : List UInt64 :=
  let key := spread seed
  ((List.range ((count + 7) / 8)).flatMap fun i => blockDraws (block key (.ofNat i))).take count

/-- The first `count` fractions of a seed, as counts of `2 ^ (-53)`. -/
def fractions (seed : UInt64) (count : Nat) : Array Nat :=
  ((draws seed count).map fun d : UInt64 => (d >>> 11).toNat).toArray

end ParseReplay.Random
