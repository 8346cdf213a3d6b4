import Stencil.Field.Basic

/-!
# Options

* `Stencil.MarkerPlace`: where directives have their marker;
* `Stencil.Options`: how a template is read and its records are made.
-/

namespace Stencil

/-- Where the marker has to stand in a text for the text to be a directive. -/
inductive MarkerPlace where
  /-- At any position. -/
  | anywhere
  /-- At the start. -/
  | atStart
deriving DecidableEq, Repr

/-- How a template is read and its records are made. -/
structure Options where
  /-- The seed of the random words; if none, one is taken from the time. -/
  seed : Option UInt64
  /-- What the keyword for identifiers makes. -/
  uuidKind : UuidKind
  /-- Where directives have their marker. -/
  markerPlace : MarkerPlace
deriving DecidableEq, Repr

/-- The options where none are given. -/
def Options.default : Options := ⟨none, .random, .anywhere⟩

end Stencil
