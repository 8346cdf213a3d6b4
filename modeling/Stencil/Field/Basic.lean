import Stencil.Json.Basic
import Stencil.Pattern.Basic
import Stencil.Table.Basic

/-!
# Fields and forms

A record is described field by field. A field has a name and a content that says where its value
comes from: a fixed value, another field, the clock, or the random words. Callers can add sources
of values of their own; their type is a parameter `σ` throughout. A form is a set of fields, and
filling it out makes a record.

The state of a source is part of the content of its field, so it belongs to that field alone. Two
fields that take turns on one source, as a caller might arrange with a shared handle, are not
described: here each of them would go on from a state of its own.

* `Stencil.Content`, `Stencil.Field`: the content of a field, without and with its name;
* `Stencil.Form`: fields by name, in the order in which they are filled out;
* `Stencil.Form.references`: which field refers to which.
-/

namespace Stencil

/-- What a field for identifiers shows. -/
inductive UuidKind where
  /-- A random identifier. -/
  | random
  /-- The time, as a field for the time does. -/
  | timestamp
deriving DecidableEq, Repr

/-- Where the value of a field comes from. -/
inductive Content (σ : Type) where
  /-- Always the same value. -/
  | static (value : Json)
  /-- The value of another field in the same record. -/
  | reference (target : String)
  /-- The time at which the field is filled out. -/
  | timestamp
  /-- An identifier. -/
  | uuid (kind : UuidKind)
  /-- A random text of a pattern. -/
  | pattern (shape : Pattern)
  /-- A source of values that the caller brought, in a state that no other field shares. -/
  | custom (source : σ)

namespace Content

variable {σ : Type}

/-- The name of the kind of content. -/
def kindName : Content σ → String
  | .static _ => "static"
  | .reference _ => "reference"
  | .timestamp => "timestamp"
  | .uuid _ => "uuid"
  | .pattern _ => "pattern"
  | .custom _ => "custom"

/-- The field referred to, if the content is a reference. -/
def target? : Content σ → Option String
  | .reference target => some target
  | _ => none

/-- Whether the content is a reference. -/
def isReference (content : Content σ) : Bool := content.target?.isSome

end Content

/-- A field: a name and a content. -/
structure Field (σ : Type) where
  /-- The name. -/
  name : String
  /-- Where the value comes from. -/
  content : Content σ

/-- Fields by name. -/
abbrev Form (σ : Type) := Table (Content σ)

namespace Form

variable {σ : Type}

/-- Adds a field under its own name. -/
def add (form : Form σ) (field : Field σ) : Form σ := form.insert field.name field.content

/-- The field of a name. -/
def field? (form : Form σ) (name : String) : Option (Field σ) := (form.get? name).map (⟨name, ·⟩)

/-- The fields in name order. -/
def fields (form : Form σ) : List (Field σ) :=
  form.entries.map fun (name, content) => ⟨name, content⟩

/-- The references: the name of each referring field and of the field it refers to, in name
order. -/
def references (form : Form σ) : List (String × String) :=
  form.entries.filterMap fun (name, content) => content.target?.map (name, ·)

end Form

end Stencil
