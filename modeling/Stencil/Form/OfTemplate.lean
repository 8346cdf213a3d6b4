import Stencil.Event
import Stencil.Keyword.Basic
import Stencil.Pattern.Text
import Stencil.Template.Basic
import Stencil.Template.Directive

/-!
# The form of a template

Each entry of a template becomes a field: a text that is a directive becomes what its body says,
and any other value a fixed one. A body is looked up as a keyword first; otherwise an underscore
marks a reference to another entry, and what remains is a pattern. Once all entries are fields,
every reference has to lead to a field that is no reference itself.

Entries are taken in key order and the first that fails decides the fault; references are checked
only when no entry fails.

* `Stencil.Rules.fieldOfBody`, `Stencil.Rules.fieldOf`: the field of a directive, and of an entry;
* `Stencil.Form.badReference?`: the check of references;
* `Stencil.Form.ofTemplate`, `Stencil.Form.ofBytes`: the form, with the events on the way.
-/

namespace Stencil

/-- What decides how the entries of a template become fields. -/
structure Rules (σ : Type) where
  /-- The keywords. -/
  keywords : Keywords σ
  /-- Where directives have their marker. -/
  place : MarkerPlace

variable {σ : Type}

/-! ### Entries -/

/-- The character that marks a reference. -/
def referenceMark : Char := '_'

/-- The directive that refers to a field. -/
def referenceTo (target : String) : String := String.ofList [referenceMark] ++ target

/-- The field to which a body refers, if it has the form of a reference. -/
def referenceTarget? (body : String) : Option String :=
  match body.toList with
  | [] => none
  | c :: target => if c = referenceMark then some (String.ofList target) else none

/-- The field of a body that is neither a keyword nor a reference: a pattern. A body that cannot be
read because no brackets are found in it, and that has none of any kind, is no pattern gone wrong
but a keyword that there is not. -/
def fieldOfPattern (key body : String) : Except TemplateFault (Field σ) :=
  match Pattern.ofText body with
  | .ok shape => .ok ⟨key, .pattern shape⟩
  | .error cause =>
    if cause = .notFound ∧ ¬body.toList.any isBracket then
      .error (.unresolved key body .unknownKeyword)
    else .error (.invalidPattern body cause)

namespace Rules

/-- The field that the body of a directive stands for. -/
def fieldOfBody (rules : Rules σ) (template : Template) (key body : String) :
    Except TemplateFault (Field σ) :=
  match rules.keywords.make? key body with
  | some made => made
  | none =>
    match referenceTarget? body with
    | some target =>
      if template.contains target then .ok ⟨key, .reference target⟩
      else .error (.unresolved key body (.missingField target))
    | none => fieldOfPattern key body

/-- The field that a value stands for, whatever name a keyword gives it. -/
def fieldOfValue (rules : Rules σ) (template : Template) (key : String) (value : Json) :
    Except TemplateFault (Field σ) :=
  match rules.place.bodyOf? value with
  | none => .ok ⟨key, .static value⟩
  | some body => rules.fieldOfBody template key body

/-- The field of an entry, which has to be named after its key. -/
def fieldOf (rules : Rules σ) (template : Template) (key : String) (value : Json) :
    Except TemplateFault (Field σ) :=
  match rules.fieldOfValue template key value with
  | .error fault => .error fault
  | .ok field =>
    if field.name = key then .ok field
    else .error (.unresolved key value.textOrEmpty (.misnamedField field.name))

/-- The warning for an entry: there is one if its value is a directive whose marker does not stand
at the start. -/
def warnings (rules : Rules σ) (key : String) (value : Json) : List Event :=
  match rules.place.bodyOf? value with
  | none => []
  | some body =>
    let text := value.textOrEmpty
    if startsWithMarker text.toList then [] else [.strayMarker key text body]

/-- The field of an entry, with the events on the way. -/
def recognize (rules : Rules σ) (template : Template) (key : String) (value : Json) :
    ExceptT TemplateFault Logged (Field σ) :=
  match rules.fieldOf template key value with
  | .error fault => ⟨.error fault, rules.warnings key value⟩
  | .ok field =>
    ⟨.ok field, rules.warnings key value ++ [.fieldRecognized key field.content.kindName]⟩

end Rules

/-! ### Templates as a whole -/

namespace Form

/-- Adds the fields of entries to a form, entry by entry. -/
def addEntries (rules : Rules σ) (template : Template) :
    List (String × Json) → Form σ → ExceptT TemplateFault Logged (Form σ)
  | [], form => return form
  | (key, value) :: rest, form => do
    let field ← rules.recognize template key value
    addEntries rules template rest (form.add field)

/-- The fault of a reference, if it has one: the target is missing or refers to another field. -/
def referenceFault? (template : Template) (form : Form σ) (name target : String) :
    Option TemplateFault :=
  if !template.contains target then
    some (.unresolved name (referenceTo target) (.missingField target))
  else if (form.get? target).any Content.isReference then
    some (.unresolved name (referenceTo target) (.chainedReference target))
  else none

/-- The fault of the first reference that has one, in name order. -/
def badReference? (template : Template) (form : Form σ) : Option TemplateFault :=
  form.references.findSome? fun (name, target) => referenceFault? template form name target

/-- The form of a template. -/
def ofTemplate (rules : Rules σ) (template : Template) :
    ExceptT TemplateFault Logged (Form σ) := do
  let form ← addEntries rules template template.entries .empty
  match badReference? template form with
  | some fault => throw fault
  | none => return form

/-- The form of the template that a sequence of bytes spells. -/
def ofBytes (rules : Rules σ) (bytes : ByteArray) : ExceptT TemplateFault Logged (Form σ) :=
  match Template.decode bytes with
  | .error fault => throw (.malformed (.found fault))
  | .ok template => ofTemplate rules template

end Form

end Stencil
