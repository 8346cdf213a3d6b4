import Stencil.Field.Basic
import Stencil.Template.Fault

/-!
# Keywords

A keyword is a directive with a meaning of its own: a maker, which makes a field from the name of
the entry and the directive. Binding a keyword anew replaces its maker.

* `Stencil.Maker`, `Stencil.Keywords`: makers, and makers by keyword;
* `Stencil.Keywords.builtin`: the keywords that every template has;
* `Stencil.Keywords.make?`: the field of a directive that is a keyword.
-/

namespace Stencil

/-- Makes a field, or fails, from the name of an entry and its directive. -/
abbrev Maker (σ : Type) := (name directive : String) → Except TemplateFault (Field σ)

/-- Makers by keyword. -/
abbrev Keywords (σ : Type) := Table (Maker σ)

namespace Keywords

variable {σ : Type}

/-- The keywords for the time and for identifiers. -/
def builtin (kind : UuidKind) : Keywords σ :=
  .ofList [
    ("timestamp", fun name _ => .ok ⟨name, .timestamp⟩),
    ("uuid", fun name _ => .ok ⟨name, .uuid kind⟩)]

/-- What the maker of a keyword makes, if the directive is a keyword. -/
def make? (keywords : Keywords σ) (name directive : String) :
    Option (Except TemplateFault (Field σ)) :=
  (keywords.get? directive).map fun maker => maker name directive

end Keywords

end Stencil
