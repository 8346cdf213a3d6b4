import Stencil.Json.Basic
import Stencil.Pattern.Basic

/-!
# Patterns as JSON

* `Stencil.Pattern.toJson`: a pattern as an object, with its fixed parts before its counts.
-/

namespace Stencil

/-- The number of a count. A count of a pattern is at most `maxPatternLength`. -/
def countNumber (n : Nat) (h : n ≤ maxPatternLength) : Number :=
  .integer n ⟨by omega, by simp only [maxPatternLength] at h; omega⟩

/-- A pattern as an object. -/
def Pattern.toJson (p : Pattern) : Json :=
  have := p.length_le
  .object [
    ("prefix", .string p.lead),
    ("suffix", .string p.trail),
    ("letters", .number (countNumber p.letters (by omega))),
    ("digits", .number (countNumber p.digits (by omega))),
    ("specials", .number (countNumber p.specials (by omega)))]

end Stencil
