/-!
# What can be wrong with a pattern

A pattern such as `ID-<4/2>` names the shape of a random text. This module lists the ways in
which a text fails to be one, each with what a reader needs to find the fault, and words them. A
keyword of a caller may report a fault of its own, in words and with numbers of its own.

* `Stencil.CountFault`: why a segment is not a count;
* `Stencil.BodyFault`: why the text between the brackets is not a list of counts;
* `Stencil.PatternFault`: why a text is not a pattern;
* `Stencil.PatternFault.message`: the wording of all of them.
-/

namespace Stencil

/-- The most characters that a pattern may generate between its lead and its trail. -/
def maxPatternLength : Nat := 64

/-- The most counts that a pattern may list. -/
def maxSegments : Nat := 3

/-- Why a text is not a count. -/
inductive CountFault where
  /-- There is nothing to read. -/
  | empty
  /-- A character stands where a digit is due. -/
  | invalidDigit
  /-- The count does not fit in 64 bits. -/
  | overflow
deriving DecidableEq, Repr

/-- The wording of a `CountFault`. -/
def CountFault.message : CountFault → String
  | .empty => "cannot parse integer from empty string"
  | .invalidDigit => "invalid digit found in string"
  | .overflow => "number too large to fit in target type"

/-- Why the text between the brackets of a pattern is not a list of counts. -/
inductive BodyFault where
  /-- More segments than there are character classes. -/
  | tooManySegments (found : Nat)
  /-- A segment that is not a count. -/
  | badSegment (segment : String) (cause : CountFault)
  /-- What a keyword of a caller says. -/
  | stated (reason : String)
deriving DecidableEq, Repr

/-- The wording of a `BodyFault`. -/
def BodyFault.message : BodyFault → String
  | .tooManySegments found => s!"expected at most {maxSegments} segments, found {found}"
  | .badSegment segment cause => s!"segment '{segment}': {cause.message}"
  | .stated reason => reason

/-- Why a text is not a pattern. -/
inductive PatternFault where
  /-- The brackets around a body cannot be located. -/
  | notFound
  /-- The body is located but does not list counts. -/
  | invalidBody (fault : BodyFault)
  /-- The counts add up to `actual`, which is more than `max`. -/
  | tooLong (max actual : Nat)
deriving DecidableEq, Repr

/-- The wording of a `PatternFault`. -/
def PatternFault.message : PatternFault → String
  | .notFound => "can't locate pattern"
  | .invalidBody fault => s!"invalid pattern body: {fault.message}"
  | .tooLong max actual => s!"max pattern len is {max}, actual: {actual}"

end Stencil
