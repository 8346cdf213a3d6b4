import Stencil.Field.Fill

/-!
# Stock sources of values

Sources for fields of callers that need no code: a counter, a shifted clock, random numbers and
bytes, a constant.

* `Stencil.StockSource`: the sources;
* its instance of `Stencil.ValueSource`: what they produce.
-/

namespace Stencil

/-- A source of values that this library brings along. -/
inductive StockSource where
  /-- Counts up from a number, modulo `2 ^ 64`. -/
  | sequence (next : UInt64)
  /-- The time, shifted, modulo `2 ^ 64`. -/
  | clockOffset (offset : Int64)
  /-- A random word of 32 bits, as a number. -/
  | word32
  /-- A random word of 64 bits, as a number. -/
  | word64
  /-- So many random bytes, in digits of base sixteen. -/
  | bytes (count : Nat)
  /-- Always the same value. -/
  | constant (value : Json)

namespace StockSource

variable {γ : Type} [WordSource γ]

/-- Produces a value; only a counter changes by that. -/
def produce : StockSource → StateM (Context γ) (Json × StockSource)
  | sequence next => return (.number (.ofUInt64 next), sequence (next + 1))
  | clockOffset offset => return (.ofSeconds ((← Context.seconds) + offset), clockOffset offset)
  | word32 => do
    let word ← Context.draw WordSource.word32
    return (.number (.ofUInt64 word.toUInt64), word32)
  | word64 => return (.number (.ofUInt64 (← Context.draw WordSource.word64)), word64)
  | bytes count => do
    let drawn ← Context.draw (WordSource.bytes count)
    return (.string (String.ofList (hexText drawn.toList)), bytes count)
  | constant value => return (value, constant value)

end StockSource

instance : ValueSource StockSource := ⟨StockSource.produce⟩

end Stencil
