/-!
# Sources of random words

Everything random in the library is drawn from a source of words, passed from draw to draw. A
source answers three kinds of request: a 32-bit word, a 64-bit word and a number of bytes. Any
answers are allowed; what the library promises holds whatever words it is given.

* `Stencil.WordSource`: what a source can do;
* `Stencil.WordCycle`, `Stencil.WordSteps`: sources with plain rules, for reproducing a text from
  known words.
-/

namespace Stencil

/-- A source of random words. -/
class WordSource (γ : Type) where
  /-- Draws a word of 32 bits. -/
  word32 : StateM γ UInt32
  /-- Draws a word of 64 bits. -/
  word64 : StateM γ UInt64
  /-- Draws a number of bytes in one request. -/
  bytes : (n : Nat) → StateM γ (Vector UInt8 n)

/-- Draws a number of words one after the other. -/
def drawMany {γ α : Type} (draw : StateM γ α) : (count : Nat) → StateM γ (List α)
  | 0 => return []
  | count + 1 => do
    let first ← draw
    let more ← drawMany draw count
    return first :: more

/-! ### Bytes of words -/

/-- Byte number `i` of a list of 32-bit words, each with its low byte first. -/
def byteOfWords32 (words : List UInt32) (i : Nat) : UInt8 :=
  (words.getD (i / 4) 0 >>> UInt32.ofNat (8 * (i % 4))).toUInt8

/-- Byte number `i` of a list of 64-bit words, each with its low byte first. -/
def byteOfWords64 (words : List UInt64) (i : Nat) : UInt8 :=
  (words.getD (i / 8) 0 >>> UInt64.ofNat (8 * (i % 8))).toUInt8

/-! ### Sources of 64-bit words -/

/-- The source that a rule for 64-bit words gives: a 32-bit word is the low half of the next word,
and bytes are those of as many words as it takes, low byte first. -/
@[reducible] def WordSource.ofWord64 {γ : Type} (next : StateM γ UInt64) : WordSource γ where
  word32 := return (← next).toUInt32
  word64 := next
  bytes n := do
    let words ← drawMany next ((n + 7) / 8)
    return Vector.ofFn fun i => byteOfWords64 words i

/-- A list of words, given out over and over again. -/
structure WordCycle where
  /-- The words. -/
  words : List UInt64
  /-- How many words have been given out since the list was last begun. -/
  position : Nat
deriving DecidableEq, Repr

/-- The next word of the list; zero if the list is empty. -/
def WordCycle.next : StateM WordCycle UInt64 := fun cycle =>
  let after := cycle.position + 1
  (cycle.words.getD cycle.position 0,
    { cycle with position := if after < cycle.words.length then after else 0 })

instance : WordSource WordCycle := .ofWord64 WordCycle.next

/-- The words of an arithmetic progression, modulo `2 ^ 64`. -/
structure WordSteps where
  /-- The next word. -/
  current : UInt64
  /-- The distance to the word after it. -/
  increment : UInt64
deriving DecidableEq, Repr

/-- The next word of the progression. -/
def WordSteps.next : StateM WordSteps UInt64 := fun steps =>
  (steps.current, { steps with current := steps.current + steps.increment })

instance : WordSource WordSteps := .ofWord64 WordSteps.next

end Stencil
