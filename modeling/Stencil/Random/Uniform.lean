import Stencil.Random.WordSource

/-!
# Numbers below a bound

A number below `n` is drawn by multiplying a 32-bit word with `n` and keeping the high half of the
product. When the low half is so large that the discarded part could carry, a second word decides
about the carry.

* `Stencil.uniform`: the draw;
* `Stencil.drawIndices`: several draws below the same bound.
-/

namespace Stencil

variable {γ : Type} [WordSource γ]

/-- Draws a number below `n`, for a positive `n` below `2 ^ 32`. -/
def uniform (n : Nat) : StateM γ Nat := do
  let product := (← WordSource.word32).toNat * n
  let high := product / UInt32.size
  let low := product % UInt32.size
  if UInt32.size - n < low then
    let carry := (← WordSource.word32).toNat * n / UInt32.size
    return if UInt32.size ≤ low + carry then high + 1 else high
  else return high

/-- Draws `count` numbers below `n`. -/
def drawIndices (n count : Nat) : StateM γ (List Nat) := drawMany (uniform n) count

end Stencil
