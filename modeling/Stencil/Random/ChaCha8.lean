import Stencil.Random.WordSource

/-!
# The ChaCha8 generator

ChaCha with eight rounds, as a generator of words. The key comes from a 64-bit seed, the block
counter starts at zero and the nonce is zero. The words of the blocks form one stream, and every
request takes its words from the front of it: a 64-bit word takes two, the low half first, and
bytes take as many as cover them, low byte first, so that what is left of the last word is lost.

* `Stencil.ChaCha8.ofSeed`: the generator of a seed;
* `Stencil.ChaCha8.block`: the block function;
* `Stencil.ChaCha8.next`: the stream of words.
-/

namespace Stencil

/-- A ChaCha8 generator: the words of the blocks so far that are still to be given out, and what
determines the blocks after them. -/
structure ChaCha8 where
  /-- The key. -/
  key : Vector UInt32 8
  /-- The number of the next block. -/
  counter : UInt64
  /-- The words of the current block that have not been given out. -/
  pending : List UInt32
deriving DecidableEq, Repr

namespace ChaCha8

/-! ### The key of a seed -/

/-- Turns the bits of a word to the right. -/
def rotateRight (w : UInt32) (places : UInt32) : UInt32 :=
  (w >>> places) ||| (w <<< (32 - places))

/-- Turns the bits of a word to the left. -/
def rotateLeft (w : UInt32) (places : UInt32) : UInt32 :=
  (w <<< places) ||| (w >>> (32 - places))

/-- The linear congruential step between the words of a key. -/
def advance (state : UInt64) : UInt64 :=
  state * 6364136223846793005 + 11634580027462260723

/-- The output of the congruential generator in a state: bits of the state folded together and
turned by an amount that its top bits give. -/
def permute (state : UInt64) : UInt32 :=
  rotateRight (((state >>> 18) ^^^ state) >>> 27).toUInt32 (state >>> 59).toUInt32

/-- The first `count` outputs of the congruential generator after a state. -/
def keyWords (state : UInt64) : (count : Nat) → List UInt32
  | 0 => []
  | count + 1 => permute (advance state) :: keyWords (advance state) count

/-- The generator of a seed, at the start of its stream. -/
def ofSeed (seed : UInt64) : ChaCha8 :=
  let words := keyWords seed 8
  ⟨Vector.ofFn fun i => words.getD i 0, 0, []⟩

/-! ### Blocks -/

/-- The working state of a block. -/
abbrev Grid := Vector UInt32 16

/-- Mixes four words of the state. -/
def quarterRound (s : Grid) (a b c d : Fin 16) : Grid :=
  let s := s.set a (s[a] + s[b])
  let s := s.set d (rotateLeft (s[d] ^^^ s[a]) 16)
  let s := s.set c (s[c] + s[d])
  let s := s.set b (rotateLeft (s[b] ^^^ s[c]) 12)
  let s := s.set a (s[a] + s[b])
  let s := s.set d (rotateLeft (s[d] ^^^ s[a]) 8)
  let s := s.set c (s[c] + s[d])
  s.set b (rotateLeft (s[b] ^^^ s[c]) 7)

/-- Two rounds: the columns, then the diagonals. -/
def doubleRound (s : Grid) : Grid :=
  let s := quarterRound s 0 4 8 12
  let s := quarterRound s 1 5 9 13
  let s := quarterRound s 2 6 10 14
  let s := quarterRound s 3 7 11 15
  let s := quarterRound s 0 5 10 15
  let s := quarterRound s 1 6 11 12
  let s := quarterRound s 2 7 8 13
  quarterRound s 3 4 9 14

/-- The state that a block starts from: four constants, the key, the counter with its low half
first, and two zeros. -/
def initialGrid (key : Vector UInt32 8) (counter : UInt64) : Grid :=
  #v[0x61707865, 0x3320646e, 0x79622d32, 0x6b206574,
    key[0], key[1], key[2], key[3], key[4], key[5], key[6], key[7],
    counter.toUInt32, (counter >>> 32).toUInt32, 0, 0]

/-- A block: eight rounds over the initial state, added to it. -/
def block (key : Vector UInt32 8) (counter : UInt64) : Grid :=
  let start := initialGrid key counter
  let mixed := doubleRound (doubleRound (doubleRound (doubleRound start)))
  Vector.zipWith (· + ·) mixed start

/-! ### The stream of words -/

/-- The next word of the stream. -/
def next : StateM ChaCha8 UInt32 := fun g =>
  match g.pending with
  | word :: rest => (word, { g with pending := rest })
  | [] =>
    let fresh := block g.key g.counter
    (fresh[0], { g with counter := g.counter + 1, pending := fresh.toList.tail })

instance : WordSource ChaCha8 where
  word32 := next
  word64 := do
    let low ← next
    let high ← next
    return low.toUInt64 ||| (high.toUInt64 <<< 32)
  bytes n := do
    let words ← drawMany next ((n + 3) / 4)
    return Vector.ofFn fun i => byteOfWords32 words i

end ChaCha8

end Stencil
