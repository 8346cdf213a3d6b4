import Stencil.Pattern.Fault

/-!
# Patterns

A pattern is the shape of a random text: a fixed lead, a fixed trail, and between them so many
letters, digits and special characters in random order. The cap on their number is part of the
type, so whoever holds a pattern need not check it again.

* `Stencil.CharClass`: the classes of random characters;
* `Stencil.addHeld`: sums of counts;
* `Stencil.Pattern`: the type;
* `Stencil.Pattern.ofParts`: the one way to make a pattern from unchecked counts.
-/

namespace Stencil

/-! ### Classes of characters -/

/-- The classes of random characters. -/
inductive CharClass where
  /-- Letters of the Latin alphabet, in either case. -/
  | letter
  /-- Decimal digits. -/
  | digit
  /-- Signs that keyboards have. -/
  | special
deriving DecidableEq, Repr

/-- The characters of a class, in the order in which they are drawn from. -/
def CharClass.members : CharClass → String
  | .letter => "abcdefghijklmnopqrstuvwxyzABCDEFGHIJKLMNOPQRSTUVWXYZ"
  | .digit => "0123456789"
  | .special => "~!@#$%^&*()_+-=\x7b\x7d[]"

/-! ### Sums of counts -/

/-- The largest number that 64 bits hold; sums of counts are reported up to it. -/
def maxCount : Nat := UInt64.size - 1

/-- Adds counts of 64 bits, and stays at the largest number if the sum is larger. -/
def addHeld (a b : Nat) : Nat := min (a + b) maxCount

/-- It does not matter whether a sum is held at every step or once. -/
theorem addHeld_addHeld (a b c : Nat) : addHeld (addHeld a b) c = min (a + b + c) maxCount := by
  unfold addHeld
  omega

/-- A sum that is below the largest number is the exact sum. -/
theorem add_le_of_addHeld_le {a b c n : Nat} (hn : n < maxCount)
    (h : addHeld (addHeld a b) c ≤ n) : a + b + c ≤ n := by
  rw [addHeld_addHeld] at h
  omega

/-! ### Patterns -/

/-- The shape of a random text: `lead`, then a shuffled body of so many characters of each
class, then `trail`. -/
structure Pattern where
  /-- The fixed text before the body. -/
  lead : String
  /-- The fixed text after the body. -/
  trail : String
  /-- How many letters the body has. -/
  letters : Nat
  /-- How many digits the body has. -/
  digits : Nat
  /-- How many special characters the body has. -/
  specials : Nat
  /-- The body is within the cap. -/
  length_le : letters + digits + specials ≤ maxPatternLength
deriving DecidableEq, Repr

namespace Pattern

/-- A body of two letters is within the cap. -/
theorem two_letters_le : 2 + 0 + 0 ≤ maxPatternLength := by decide

/-- The number of characters of the body. -/
def length (p : Pattern) : Nat := p.letters + p.digits + p.specials

/-- The pattern of the given parts, if their counts are within the cap. A sum beyond 64 bits is
reported as the largest 64-bit number. -/
def ofParts (lead trail : String) (letters digits specials : Nat) :
    Except PatternFault Pattern :=
  let actual := addHeld (addHeld letters digits) specials
  if h : actual ≤ maxPatternLength then
    .ok ⟨lead, trail, letters, digits, specials, add_le_of_addHeld_le (by decide) h⟩
  else
    .error (.tooLong maxPatternLength actual)

end Pattern

end Stencil
