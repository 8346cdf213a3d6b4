import Stencil.Json.Basic
import Stencil.Text.Digits

/-!
# Numerals

A numeral is a number as it is spelled: a sign, digits before the point, digits after it, and an
exponent of ten. Its value is an integer if it has neither point nor exponent and a 64-bit word
holds it. Otherwise it is a floating-point number, found in two roundings: the leading digits are
gathered into a 64-bit significand, as many as fit, and the significand is scaled by a power of
ten.

* `Stencil.Numeral`: the spelling;
* `Stencil.Numeral.value?`: the number, unless it is too large.
-/

namespace Stencil

/-- The spelling of a number. -/
structure Numeral where
  /-- Whether a minus sign leads. -/
  negative : Bool
  /-- The digits before the point. -/
  whole : List Char
  /-- The digits after the point; none if there is no point. -/
  fraction : Option (List Char)
  /-- The exponent, if there is one. -/
  exponent : Option Int
deriving DecidableEq, Repr

namespace Numeral

/-- Appends digits to a significand while 64 bits hold it; the result counts the digits that are
left. -/
def gather (significand : Nat) : List Char → Nat × Nat
  | [] => (significand, 0)
  | d :: rest =>
    let next := 10 * significand + digitValue d
    if next < UInt64.size then gather next rest else (significand, rest.length + 1)

/-- The significand and the exponent of ten of a numeral. Digits before the point that do not fit
count as zeros; of the digits after it, those that do not fit are ignored. -/
def decimal (n : Numeral) : Nat × Int :=
  let fraction := n.fraction.getD []
  let (whole, dropped) := gather 0 n.whole
  let (significand, ignored) := gather whole fraction
  let places := fraction.length - ignored
  (significand, dropped - places + n.exponent.getD 0)

/-- The largest exponent by which a number is scaled in one step. -/
def largestStep : Nat := 308

/-- A power of ten up to the largest step, rounded. -/
def powerOfTen (exponent : Nat) : Binary64 :=
  (Binary64.ofRatio? false (Nat.pow 10 exponent) 1).getD ⟨false, 0, 0⟩

/-- Divides by a power of ten in steps of at most `10 ^ largestStep`, rounding after each step. A
number that has become zero stays zero. -/
def divideByPower (x : Binary64) (exponent : Nat) : Option Binary64 :=
  if exponent ≤ largestStep then x.div? (powerOfTen exponent)
  else if x.significand = 0 then some x
  else do
    let smaller ← x.div? (powerOfTen largestStep)
    divideByPower smaller (exponent - largestStep)
termination_by exponent
decreasing_by simp only [largestStep] at *; omega

/-- The floating-point number `significand * 10 ^ exponent`, unless it is too large. -/
def scale? (negative : Bool) (significand : Nat) (exponent : Int) : Option Binary64 := do
  let x ← Binary64.ofRatio? negative significand 1
  if exponent < 0 then divideByPower x exponent.natAbs
  else if exponent ≤ largestStep then x.mul? (powerOfTen exponent.natAbs)
  else if x.significand = 0 then some x
  else none

/-- The integer that a numeral denotes if it has neither point nor exponent and a word holds it.
Zero with a minus sign is no integer. -/
def integer? (n : Numeral) : Option Number :=
  match n.fraction, n.exponent with
  | none, none =>
    let magnitude := digitsValue n.whole
    let value : Int := if n.negative then -magnitude else magnitude
    if n.negative ∧ magnitude = 0 then none
    else if fits : InWordRange value then some (.integer value fits)
    else none
  | _, _ => none

/-- The number that a numeral denotes, unless it is too large. -/
def value? (n : Numeral) : Option Number :=
  n.integer? <|> (scale? n.negative n.decimal.1 n.decimal.2).map .float

end Numeral

end Stencil
