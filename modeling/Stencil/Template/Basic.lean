import Stencil.Json.Canonical
import Stencil.Json.Reader

/-!
# Templates

A template is an object of JSON. The order of its members does not matter, and of several members
of one name the last one counts.

* `Stencil.Template`: the type;
* `Stencil.Template.decode`: the template that a sequence of bytes spells.
-/

namespace Stencil

/-- A template: values by key. -/
abbrev Template := Table Json

/-- The template that a sequence of bytes spells. -/
def Template.decode (bytes : ByteArray) : Except ReadFault Template :=
  (Json.readObject (symbols bytes)).map fun members => .ofList (Json.canonicalMembers members)

end Stencil
