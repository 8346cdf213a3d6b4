/-!
# Digits

Numbers as digits of base ten and sixteen, and back.

* `Stencil.decimalDigits`, `Stencil.digitsValue`: base ten, in both directions;
* `Stencil.hexDigits`, `Stencil.hexText`, `Stencil.hexDigitValue?`: base sixteen, in lower case when
  written and in either case when read.
-/

namespace Stencil

/-! ### Base ten -/

/-- The decimal digits of a natural number. -/
def decimalDigits (n : Nat) : List Char := Nat.toDigits 10 n

/-- The value of a decimal digit. -/
def digitValue (c : Char) : Nat := c.toNat - '0'.toNat

/-- The number that decimal digits denote. -/
def digitsValue (digits : List Char) : Nat := Nat.ofDigitChars 10 digits 0

/-- Reading the digits of a number gives the number back. -/
theorem digitsValue_decimalDigits (n : Nat) : digitsValue (decimalDigits n) = n :=
  Nat.ofDigitChars_toDigits (by decide) (by decide)

/-! ### Base sixteen -/

/-- The lower-case digit of base sixteen for the last four bits of a number. -/
def hexDigit (n : Nat) : Char := Nat.digitChar (n % 16)

/-- The digits of a natural number in base sixteen. -/
def hexDigits (n : Nat) : List Char := Nat.toDigits 16 n

/-- The two digits of a byte, the high one first. -/
def hexByte (b : UInt8) : List Char := [hexDigit (b.toNat / 16), hexDigit b.toNat]

/-- The digits of a list of bytes, in its order. -/
def hexText (bytes : List UInt8) : List Char := bytes.flatMap hexByte

/-- The value of a digit of base sixteen, in either case. -/
def hexDigitValue? (c : Char) : Option Nat :=
  if c.isDigit then some (digitValue c)
  else if 'a' ≤ c ∧ c ≤ 'f' then some (c.toNat - 'a'.toNat + 10)
  else if 'A' ≤ c ∧ c ≤ 'F' then some (c.toNat - 'A'.toNat + 10)
  else none

end Stencil
