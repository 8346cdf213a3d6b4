import Stencil.Random.ChaCha8

/-!
# A source of any kind

* `Stencil.AnyWords`: one of the sources of this library, for callers that choose at run time.
-/

namespace Stencil

/-- One of the sources of this library. -/
inductive AnyWords where
  /-- The generator of a seed. -/
  | chaCha8 (generator : ChaCha8)
  /-- Words of a list, over and over again. -/
  | cycle (words : WordCycle)
  /-- Words of an arithmetic progression. -/
  | steps (words : WordSteps)
deriving DecidableEq, Repr

namespace AnyWords

/-- Draws from whichever source it is. -/
def draw {α : Type} (request : {γ : Type} → [WordSource γ] → StateM γ α) : StateM AnyWords α
  | .chaCha8 generator => (request.run generator).map id .chaCha8
  | .cycle words => (request.run words).map id .cycle
  | .steps words => (request.run words).map id .steps

instance : WordSource AnyWords where
  word32 := draw WordSource.word32
  word64 := draw WordSource.word64
  bytes n := draw (WordSource.bytes n)

end AnyWords

end Stencil
