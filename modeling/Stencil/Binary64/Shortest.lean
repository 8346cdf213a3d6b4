import Stencil.Binary64.Basic

/-!
# Shortest decimals of floating-point numbers

The shortest decimal of a number is the one with the fewest digits among those that round to it,
and of several such the nearest. Decimals with few digits are the points of a coarse grid, the
multiples of a high power of ten; so the search walks from coarse grids to fine ones and stops at
the first with a point in the interval of the reals that round to the number. If a grid has a
point there, one of the number's two neighbours on the grid is there too, so only these are
tried.

* `Stencil.Decimal`: an integer times a power of ten;
* `Stencil.Binary64.shortest`: the search.
-/

namespace Stencil

/-- The number `coefficient * 10 ^ exponent`. -/
structure Decimal where
  /-- The digits, read as a number. -/
  coefficient : Nat
  /-- The place of the last digit. -/
  exponent : Int
deriving DecidableEq, Repr

namespace Binary64

/-- Half the distance to the next number above, in quarters of the unit of `magnitude`. -/
def reachAbove (x : Binary64) : Nat := 2 * Nat.pow 2 x.scale

/-- Half the distance to the next number below, in quarters of the unit of `magnitude`: below a
power of two the numbers lie twice as close, except at the least scale. -/
def reachBelow (x : Binary64) : Nat :=
  if x.significand = leastNormal ∧ 0 < x.scale then Nat.pow 2 x.scale else 2 * Nat.pow 2 x.scale

/-- Whether `num / den`, in quarters of the unit of `magnitude`, rounds to the magnitude of the
number: the ends of the interval do so if the significand is even. -/
def absorbs (x : Binary64) (num den : Nat) : Bool :=
  let low := (4 * x.magnitude - x.reachBelow) * den
  let high := (4 * x.magnitude + x.reachAbove) * den
  if x.significand % 2 = 0 then low ≤ num && num ≤ high else low < num && num < high

/-- The multiple of `10 ^ exponent` that rounds to the magnitude of the number, the nearer one if
there are two neighbours that do, the even one if they are equally near. -/
def onGrid? (x : Binary64) (exponent : Int) : Option Nat :=
  let unit := 4 * Nat.pow 10 exponent.toNat * denominator
  let den := Nat.pow 10 (-exponent).toNat
  let target := 4 * x.magnitude * den
  let near := roundDiv target unit
  let below := target / unit
  let far := if near = below then below + 1 else below
  [near, far].find? fun candidate => x.absorbs (candidate * unit) den

/-- The exponent of the coarsest grid that is tried: no finite number reaches it. -/
def coarsest : Nat := 309

/-- The number of grids from the coarsest to one fine enough for every number. -/
def grids : Nat := 700

/-- The shortest decimal that rounds to the magnitude of a number other than zero. -/
def shortest (x : Binary64) : Decimal :=
  let attempt (step : Nat) : Option Decimal :=
    let exponent : Int := coarsest - step
    (x.onGrid? exponent).map (⟨·, exponent⟩)
  ((List.range grids).findSome? attempt).getD ⟨0, 0⟩

end Binary64

end Stencil
