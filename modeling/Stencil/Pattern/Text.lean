import Stencil.Pattern.Basic
import Stencil.Pattern.Escape
import Stencil.Text.Digits

/-!
# The text of a pattern

A pattern is written `lead<letters/digits/specials>trail`, where missing counts are zero. A
bracket counts as *bare* when the character just before it is not a backslash. Of the bare
opening brackets a second cancels the first, a third opens anew, and so on; closing brackets work
in the same way, on their own. The body lies between the opening and the closing bracket that are
left standing.

* `Stencil.cut?`: the body and what stands before and after it;
* `Stencil.readCount`, `Stencil.readCounts`, `Stencil.readBody`: the counts of a body;
* `Stencil.Pattern.ofText`: the pattern that a text denotes;
* `Stencil.Pattern.text`: a text that denotes a pattern.
-/

namespace Stencil

/-! ### Locating the body -/

/-- The positions of the bare occurrences of `bracket` in a text whose first character stands at
`index`; `escaped` tells whether a backslash stands right before that character. -/
def barePositions (bracket : Char) (escaped : Bool) (index : Nat) : List Char → List Nat
  | [] => []
  | c :: rest =>
    let later := barePositions bracket (c == '\\') (index + 1) rest
    if c == bracket && !escaped then index :: later else later

/-- The position left standing when each position cancels the one standing before it. -/
def standing (positions : List Nat) : Option Nat :=
  positions.foldl (fun pending i => if pending.isSome then none else some i) none

/-- A text cut at the two brackets of its body. -/
structure Cut where
  /-- The text before the opening bracket. -/
  before : List Char
  /-- The text between the brackets. -/
  body : List Char
  /-- The text after the closing bracket. -/
  after : List Char
deriving DecidableEq, Repr

/-- Cuts a text at the brackets left standing, if both are and they are in order. -/
def cut? (text : List Char) : Option Cut :=
  match standing (barePositions '<' false 0 text), standing (barePositions '>' false 0 text) with
  | some start, some stop =>
    if start < stop then
      some ⟨text.take start, (text.take stop).drop (start + 1), text.drop (stop + 1)⟩
    else none
  | _, _ => none

/-! ### Reading the body -/

/-- The segments of a body: the runs between slashes, at least one. -/
def segments : List Char → List (List Char)
  | [] => [[]]
  | c :: rest =>
    if c = '/' then [] :: segments rest else (segments rest).modifyHead (c :: ·)

/-- Reads decimal digits on top of `value`, left to right. At each place a character that is no
digit is noticed before a number that grows past 64 bits. -/
def readDigits (value : Nat) : List Char → Except CountFault Nat
  | [] => .ok value
  | c :: rest =>
    if c.isDigit then
      let next := 10 * value + digitValue c
      if next ≤ maxCount then readDigits next rest else .error .overflow
    else .error .invalidDigit

/-- Reads a count: decimal digits, with at most one plus sign before them. -/
def readCount : List Char → Except CountFault Nat
  | [] => .error .empty
  | ['+'] => .error .invalidDigit
  | '+' :: digits => readDigits 0 digits
  | digits => readDigits 0 digits

/-- Reads a segment as a count and names the segment if it is none. -/
def readSegment (segment : List Char) : Except PatternFault Nat :=
  (readCount segment).mapError fun cause =>
    .invalidBody (.badSegment (String.ofList segment) cause)

/-- Reads the counts that a body lists. The number of segments is checked before any of them is
read, and the leftmost bad segment is the one reported. -/
def readCounts (body : List Char) : Except PatternFault (List Nat) :=
  let parts := segments body
  if maxSegments < parts.length then .error (.invalidBody (.tooManySegments parts.length))
  else parts.mapM readSegment

/-- Reads the counts of letters, digits and special characters. The cap is on their sum, and it is
checked already here. -/
def readBody (body : List Char) : Except PatternFault (Nat × Nat × Nat) :=
  match readCounts body with
  | .error fault => .error fault
  | .ok counts =>
    let actual := counts.foldl addHeld 0
    if maxPatternLength < actual then .error (.tooLong maxPatternLength actual)
    else .ok (counts.getD 0 0, counts.getD 1 0, counts.getD 2 0)

/-! ### Patterns as a whole -/

namespace Pattern

/-- The pattern that a text denotes. -/
def ofText (text : String) : Except PatternFault Pattern :=
  match cut? text.toList with
  | none => .error .notFound
  | some cut => do
    let (letters, digits, specials) ← readBody cut.body
    ofParts (String.ofList (unescape cut.before)) (String.ofList (unescape cut.after))
      letters digits specials

/-- The body of a pattern's text, with all three counts. -/
def bodyText (p : Pattern) : List Char :=
  decimalDigits p.letters ++ '/' :: decimalDigits p.digits ++ '/' :: decimalDigits p.specials

/-- A text for a pattern, which `ofText` reads back unless the lead ends in a backslash: that
backslash would take the opening bracket with it. -/
def text (p : Pattern) : String :=
  String.ofList (escape p.lead.toList ++ '<' :: p.bodyText ++ '>' :: escape p.trail.toList)

end Pattern

end Stencil
