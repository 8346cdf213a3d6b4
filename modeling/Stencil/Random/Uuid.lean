import Stencil.Random.WordSource
import Stencil.Text.Digits

/-!
# Random identifiers

A random identifier is sixteen drawn bytes of which six bits are set: the version, four, in the
seventh byte, and the variant, one zero after a one, in the ninth. It is written in lower-case
digits of base sixteen, in groups of four, two, two, two and six bytes.

* `Stencil.stampUuid`: sets the six bits;
* `Stencil.uuidText`: the written form;
* `Stencil.drawUuid`: draws an identifier and writes it.
-/

namespace Stencil

/-- Sets the bits for version and variant and leaves the other 122 as they are. -/
def stampUuid (bytes : Vector UInt8 16) : Vector UInt8 16 :=
  (bytes.set 6 (bytes[6] &&& 0x0f ||| 0x40)).set 8 (bytes[8] &&& 0x3f ||| 0x80)

/-- The groups of the written form: the first byte and the number of bytes of each. -/
def uuidGroups : List (Nat × Nat) := [(0, 4), (4, 2), (6, 2), (8, 2), (10, 6)]

/-- The written form of sixteen bytes. -/
def uuidText (bytes : Vector UInt8 16) : String :=
  let group (start count : Nat) := hexText ((bytes.toList.drop start).take count)
  String.ofList (['-'].intercalate (uuidGroups.map fun (start, count) => group start count))

/-- Draws a random identifier. -/
def drawUuid {γ : Type} [WordSource γ] : StateM γ String := do
  return uuidText (stampUuid (← WordSource.bytes 16))

end Stencil
