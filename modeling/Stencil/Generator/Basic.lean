import Stencil.Form.Fill
import Stencil.Form.OfTemplate
import Stencil.Random.ChaCha8

/-!
# Generators of records

A generator is a form together with the random words, the clock and the states of the callers'
sources that its records are made from. Making a record moves these on, so a generator is the
state of the actions below, which also report their events.

* `Stencil.Generator`, `Stencil.Setup.start`: generators, and how they are made;
* `Stencil.Generator.next`, `Stencil.Generator.nextText`: the next record, and its text;
* `Stencil.Generator.nextWith`: a record from random words of the caller.
-/

namespace Stencil

/-- A form and what its records are made from. -/
structure Generator (σ : Type) where
  /-- The form. -/
  form : Form σ
  /-- The random words. -/
  words : ChaCha8
  /-- The clock. -/
  clock : Clock
  /-- The seed of the random words. -/
  seed : UInt64

/-- What a generator is made from. -/
structure Setup (σ : Type) where
  /-- The bytes of the template. -/
  template : ByteArray
  /-- Keywords besides the built-in ones, which they replace. -/
  keywords : Keywords σ
  /-- The options. -/
  options : Options
  /-- The clock. -/
  clock : Clock
  /-- The seed to take if the options have none. -/
  freshSeed : UInt64

namespace Setup

variable {σ : Type}

/-- The rules by which the template is read. -/
def rules (setup : Setup σ) : Rules σ :=
  ⟨(Keywords.builtin setup.options.uuidKind).merge setup.keywords, setup.options.markerPlace⟩

/-- The seed of the generator. -/
def seed (setup : Setup σ) : UInt64 := setup.options.seed.getD setup.freshSeed

/-- Makes a generator. -/
def start (setup : Setup σ) : ExceptT TemplateFault Logged (Generator σ) := do
  let form ← Form.ofBytes setup.rules setup.template
  (Logged.emit (.generatorReady form.size form.references.length setup.seed) : Logged Unit)
  return ⟨form, .ofSeed setup.seed, setup.clock, setup.seed⟩

end Setup

/-- An action on a generator, which reports events. -/
abbrev Action (σ α : Type) := StateT (Generator σ) Logged α

namespace Generator

variable {γ σ : Type} [WordSource γ] [ValueSource σ]

/-- Makes a record from the words of the caller; those of the generator stay where they are. The
record is begun with the clock of the generator, and so is the next one, even if a source has put
another clock in its place. -/
def nextWith (words : γ) : Action σ (Record × γ) := fun generator =>
  let ((record, form), context) := generator.form.fill ⟨words, generator.clock⟩
  let later := { generator with form, clock := generator.clock.resume context.clock }
  ⟨((record, context.words), later), [.recordMade record.size]⟩

/-- Makes the next record from the words of the generator. -/
def next : Action σ Record := do
  let (record, words) ← nextWith (← get).words
  modify fun generator => { generator with words }
  return record

/-- Makes the next record and writes it as text. -/
def nextText : Action σ String := return (← next).text

end Generator

end Stencil
