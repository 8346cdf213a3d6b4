import Stencil.Clock
import Stencil.Field.Basic
import Stencil.Pattern.Sample
import Stencil.Random.Uuid

/-!
# Filling out a field

Filling out a field consumes random words, clock readings and the state of the caller's source, and
nothing else. A reference has no value of its own: it gets one when the other fields of the record
have theirs.

* `Stencil.Context`: the random words and the clock;
* `Stencil.ValueSource`: what a source of values brought by the caller can do;
* `Stencil.Content.fill`: the value of a field.
-/

namespace Stencil

/-- What filling out a field draws on. -/
structure Context (γ : Type) where
  /-- The random words. -/
  words : γ
  /-- The clock. -/
  clock : Clock

namespace Context

variable {γ α : Type}

/-- Draws from the random words. -/
def draw (request : StateM γ α) : StateM (Context γ) α := fun context =>
  let (value, words) := request.run context.words
  (value, { context with words })

/-- Reads the clock. -/
def seconds : StateM (Context γ) Int64 := fun context =>
  let (seconds, clock) := Clock.read context.clock
  (seconds, { context with clock })

end Context

/-- A source of values with a state of its own. -/
class ValueSource (σ : Type) where
  /-- Produces a value, and the source as it is after that. -/
  produce : {γ : Type} → [WordSource γ] → σ → StateM (Context γ) (Json × σ)

/-- A time as a value. -/
def Json.ofSeconds (seconds : Int64) : Json := .number (.ofInt64 seconds)

variable {γ σ : Type} [WordSource γ] [ValueSource σ]

/-- Fills out a field of a content: its value, none for a reference, and the content as it is after
that. -/
def Content.fill (content : Content σ) : StateM (Context γ) (Option Json × Content σ) := do
  match content with
  | .static value => return (some value, content)
  | .reference _ => return (none, content)
  | .timestamp => return (some (.ofSeconds (← Context.seconds)), content)
  | .uuid .random => return (some (.string (← Context.draw drawUuid)), content)
  | .uuid .timestamp => return (some (.ofSeconds (← Context.seconds)), content)
  | .pattern shape => return (some (.string (← Context.draw shape.sample)), content)
  | .custom source =>
    let (value, source) ← ValueSource.produce source
    return (some value, .custom source)

end Stencil
