import Stencil.Random.Uniform

/-!
# Shuffling

A list is shuffled from its front: the element at each position changes places with one at or
before it. The positions to swap with are drawn in chunks: one number below a product of
consecutive integers holds a position below each of them, and its digits in that mixed radix are
taken off one after the other. A chunk covers as many integers as keep the product below
`2 ^ 32`, whether or not the list is long enough to need them all.

* `Stencil.swapPartners`: the positions to swap with;
* `Stencil.shuffle`: the shuffled list.
-/

namespace Stencil

/-! ### Chunks of positions -/

/-- Multiplies a product of `count` consecutive integers by those from `next` on, as long as it
stays below `2 ^ 32`, and counts them. Each factor at least doubles the product, so 32 rounds are
enough. -/
def growBound : (rounds : Nat) → (product next count : Nat) → Nat × Nat
  | 0, product, _, count => (product, count)
  | rounds + 1, product, next, count =>
    if product * next < UInt32.size then growBound rounds (product * next) (next + 1) (count + 1)
    else (product, count)

/-- The longest product of consecutive integers from `m` on that stays below `2 ^ 32`, and the
number of its factors. -/
def chunkBound (m : Nat) : Nat × Nat := growBound 32 m (m + 1) 1

/-- What is left of a drawn number: its value and the number of positions still in it. -/
structure IndexChunk where
  /-- The value. -/
  value : Nat
  /-- The number of positions still to be taken. -/
  remaining : Nat
deriving DecidableEq, Repr

/-- The chunk before anything is drawn: it holds the one position there is for the first
element. -/
def IndexChunk.start : IndexChunk := ⟨0, 1⟩

/-- Takes a position below `m` off a chunk. The last position is all that is left. -/
def IndexChunk.take (chunk : IndexChunk) (m : Nat) : Nat × IndexChunk :=
  if chunk.remaining = 1 then (chunk.value, ⟨0, 0⟩)
  else (chunk.value % m, ⟨chunk.value / m, chunk.remaining - 1⟩)

/-! ### Shuffling -/

variable {γ α : Type} [WordSource γ]

/-- Fills a chunk that is used up, for positions below `m`. -/
def IndexChunk.refill (chunk : IndexChunk) (m : Nat) : StateM γ IndexChunk :=
  if chunk.remaining = 0 then do
    let (bound, count) := chunkBound m
    return ⟨← uniform bound, count⟩
  else return chunk

/-- Draws the positions with which those from `position` on change places. -/
def swapPartnersFrom (position : Nat) (chunk : IndexChunk) : (count : Nat) → StateM γ (List Nat)
  | 0 => return []
  | count + 1 => do
    let (partner, rest) := (← chunk.refill (position + 1)).take (position + 1)
    let more ← swapPartnersFrom (position + 1) rest count
    return partner :: more

/-- Draws, for each position of a list of the given length, the position to swap it with. -/
def swapPartners (length : Nat) : StateM γ (List Nat) := swapPartnersFrom 0 .start length

/-- Swaps two positions of a list, if it has both. -/
def swapAt (l : List α) (i j : Nat) : List α :=
  match l[i]?, l[j]? with
  | some a, some b => (l.set i b).set j a
  | _, _ => l

/-- Swaps each position from `position` on with its partner, in turn. -/
def applySwaps (l : List α) (position : Nat) : (partners : List Nat) → List α
  | [] => l
  | partner :: more => applySwaps (swapAt l position partner) (position + 1) more

/-- Shuffles a list. -/
def shuffle (l : List α) : StateM γ (List α) := do
  return applySwaps l 0 (← swapPartners l.length)

end Stencil
