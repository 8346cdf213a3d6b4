/-!
# Binary floating-point numbers of 64 bits

A finite number of the format is `± m · 2 ^ k` with `m < 2 ^ 53` and `-1074 ≤ k ≤ 971`, where a
number that can be written so in several ways takes the smallest `k`. Arithmetic works on the exact
value, a ratio of natural numbers, and rounds once at the end: to the nearest number of the
format, and to the one with even `m` when two are equally near.

* `Stencil.Binary64`: the finite numbers;
* `Stencil.Binary64.ofRatio?`: rounding, which fails when the result is too large;
* `Stencil.Binary64.mul?`, `Stencil.Binary64.div?`: product and quotient.
-/

namespace Stencil

/-- The nearest natural number to `num / den`; of two the even one. -/
def roundDiv (num den : Nat) : Nat :=
  let quotient := num / den
  let twice := 2 * (num % den)
  if twice < den ∨ (twice = den ∧ quotient % 2 = 0) then quotient else quotient + 1

/-- A finite floating-point number of 64 bits: `significand * 2 ^ scale / 2 ^ 1074`, with a
sign. -/
structure Binary64 where
  /-- Whether the number has a minus sign; zero can have one as well. -/
  negative : Bool
  /-- The significand, below `2 ^ 53`. -/
  significand : Nat
  /-- The exponent of two, counted from the least one. -/
  scale : Nat
deriving DecidableEq, Repr

namespace Binary64

/-- The least significand of 53 bits. -/
def leastNormal : Nat := 4503599627370496

/-- The largest scale of a finite number. -/
def maxScale : Nat := 2045

/-- The denominator of the format: every finite number is a multiple of its reciprocal. -/
def denominator : Nat := Nat.pow 2 1074

/-- The magnitude of the number, as a multiple of `1 / denominator`. -/
def magnitude (x : Binary64) : Nat := x.significand * Nat.pow 2 x.scale

/-- The number nearest to `num / den`, unless it lies beyond the largest finite one. The scale is
the least at which the significand has no more than 53 bits. -/
def ofRatio? (negative : Bool) (num den : Nat) : Option Binary64 :=
  let scaled := num * denominator
  let scale := Nat.log2 (scaled / den) - 52
  let significand := roundDiv scaled (den * Nat.pow 2 scale)
  let rounded : Binary64 :=
    if significand = 2 * leastNormal then ⟨negative, leastNormal, scale + 1⟩
    else ⟨negative, significand, scale⟩
  if rounded.scale ≤ maxScale then some rounded else none

/-- The product, rounded. -/
def mul? (x y : Binary64) : Option Binary64 :=
  ofRatio? (x.negative != y.negative) (x.magnitude * y.magnitude) (denominator * denominator)

/-- The quotient, rounded, for a divisor that is not zero. -/
def div? (x y : Binary64) : Option Binary64 :=
  ofRatio? (x.negative != y.negative) x.magnitude y.magnitude

end Binary64

end Stencil
