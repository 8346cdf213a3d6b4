import Stencil.Pattern.Basic
import Stencil.Random.Shuffle

/-!
# Random texts of a pattern

A text of a pattern has a body of so many letters, digits and special characters, drawn class by
class and then shuffled, so that a place in the body says nothing about the class.

* `Stencil.CharClass.draw`: draws characters of one class;
* `Stencil.drawBody`: draws a body;
* `Stencil.Pattern.sample`: draws a text.
-/

namespace Stencil

variable {γ : Type} [WordSource γ]

/-- Draws `count` characters of a class. Every index is below the number of its members, so the
blank is never taken. -/
def CharClass.draw (kind : CharClass) (count : Nat) : StateM γ (List Char) := do
  let members := kind.members.toList
  return (← drawIndices members.length count).map (members.getD · ' ')

/-- Draws a body with so many characters of each class, class by class, and shuffles it. -/
def drawBody (letters digits specials : Nat) : StateM γ (List Char) := do
  let first ← CharClass.letter.draw letters
  let second ← CharClass.digit.draw digits
  let third ← CharClass.special.draw specials
  shuffle (first ++ second ++ third)

namespace Pattern

/-- Draws the body of a text. -/
def sampleBody (p : Pattern) : StateM γ (List Char) := drawBody p.letters p.digits p.specials

/-- Draws a text of a pattern. -/
def sample (p : Pattern) : StateM γ String := do
  return p.lead ++ String.ofList (← p.sampleBody) ++ p.trail

end Pattern

end Stencil
