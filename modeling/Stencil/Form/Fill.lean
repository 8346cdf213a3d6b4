import Stencil.Field.Fill
import Stencil.Json.Writer

/-!
# Records

A record is made from a form in two passes. The first fills out the fields in name order, each
once; the second gives each reference the value that its target got in the first. So a reference
never consumes random words, and it shows what its target shows.

* `Stencil.Record`: values by name;
* `Stencil.fillEach`: the first pass;
* `Stencil.Form.fill`: both passes.
-/

namespace Stencil

/-- A record: values by name. -/
abbrev Record := Table Json

/-- The text of a record. -/
def Record.text (record : Record) : String := (Json.object record.entries).text

/-- What the first pass yields for a field. -/
structure Outcome (σ : Type) where
  /-- The name of the field. -/
  name : String
  /-- Its value; none for a reference. -/
  value : Option Json
  /-- Its content after it was filled out. -/
  content : Content σ

variable {γ σ : Type} [WordSource γ] [ValueSource σ]

/-- Fills out fields in turn. -/
def fillEach : List (String × Content σ) → StateM (Context γ) (List (Outcome σ))
  | [] => return []
  | (name, content) :: rest => do
    let (value, content) ← content.fill
    let more ← fillEach rest
    return ⟨name, value, content⟩ :: more

/-- The first pass has one outcome for each field, in the same order. -/
theorem names_fillEach (entries : List (String × Content σ)) (context : Context γ) :
    (fillEach entries context).1.map (·.name) = entries.map (·.1) := by
  induction entries generalizing context with
  | nil => rfl
  | cons entry rest ih => exact congrArg (entry.1 :: ·) (ih _)

/-- The value that the first pass found for a name, if any. -/
def valueOf? (outcomes : List (Outcome σ)) (name : String) : Option Json :=
  (outcomes.find? (·.name == name)).bind (·.value)

/-- The value of a field in the record: its own, or that of the field it refers to. -/
def Outcome.resolve (outcomes : List (Outcome σ)) (outcome : Outcome σ) : Json :=
  match outcome.value, outcome.content.target? with
  | some value, _ => value
  | none, some target => (valueOf? outcomes target).getD .null
  | none, none => .null

omit [WordSource γ] [ValueSource σ] in
/-- Entries made from outcomes, one of each, are in key order if the names are. -/
theorem inKeyOrder_map_outcome {α : Type} {outcomes : List (Outcome σ)} (f : Outcome σ → α)
    (h : (outcomes.map (·.name)).Pairwise (· < ·)) :
    InKeyOrder (outcomes.map fun o => (o.name, f o)) := by
  simpa [InKeyOrder, List.pairwise_map] using h

/-- Fills out a form: the record, and the form as it is after that. -/
def Form.fill (form : Form σ) : StateM (Context γ) (Record × Form σ) := fun context =>
  let run := fillEach form.entries context
  have increasing : (run.1.map (·.name)).Pairwise (· < ·) := by
    rw [names_fillEach]
    exact List.pairwise_map.2 form.ordered
  ((⟨run.1.map fun o => (o.name, o.resolve run.1), inKeyOrder_map_outcome _ increasing⟩,
    ⟨run.1.map fun o => (o.name, o.content), inKeyOrder_map_outcome _ increasing⟩), run.2)

end Stencil
