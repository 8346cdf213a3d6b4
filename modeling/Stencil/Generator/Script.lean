import Stencil.Field.StockSource
import Stencil.Generator.Supply
import Stencil.Lines.Basic
import Stencil.Random.AnyWords

/-!
# Scripts

A script is a list of steps on one generator. The steps share its random words and the states of
its sources of values, so what a step yields depends on those before it.

* `Stencil.Step`, `Stencil.Reply`: a step, and what it yields;
* `Stencil.Step.run`: runs a step;
* `Stencil.runScript`: runs a script.
-/

namespace Stencil

/-- A step on a generator. -/
inductive Step where
  /-- Makes records and writes them as texts. -/
  | texts (count : Nat)
  /-- Makes records. -/
  | records (count : Nat)
  /-- Makes records from other random words. -/
  | recordsWith (words : AnyWords) (count : Nat)
  /-- Fills out the form with other random words and another clock. -/
  | fill (words : AnyWords) (clock : Clock) (count : Nat)
  /-- Asks a supply for records, and drains it after that if so told. -/
  | supply (count asked : Nat) (drained : Bool)
  /-- Writes records as lines. -/
  | lines (count : Nat) (sink : Throttle)
  /-- Makes records in several threads, and puts their texts in order. -/
  | threads (number each : Nat)
  /-- Fills out one field with other random words and another clock. -/
  | fillField (name : String) (words : AnyWords) (clock : Clock)
  /-- Shows one field. -/
  | field (name : String)
  /-- Shows the form. -/
  | form
  /-- Shows the seed. -/
  | seed

/-- What a step yields. -/
inductive Reply (σ : Type) where
  /-- Texts of records. -/
  | texts (texts : List String)
  /-- Records. -/
  | records (records : List Record)
  /-- The answers of a supply, each after the number of records that were left, the bounds known
  after them, and the number of records that were drained, if they were. -/
  | supplied (answers : List (Nat × Option Record)) (bounds : Nat × Nat) (drained : Option Nat)
  /-- What is left of writing lines. -/
  | written (written : Written Throttle)
  /-- The value of a field, if there is one of that name and it is no reference. -/
  | value (value : Option (Option Json))
  /-- A field, if there is one of that name. -/
  | field (field : Option (Field σ))
  /-- A form. -/
  | form (form : Form σ)
  /-- A seed. -/
  | seed (seed : UInt64)

variable {γ σ α : Type} [WordSource γ] [ValueSource σ]

/-- Does an action so many times. -/
def repeated (action : Action σ α) : (count : Nat) → Action σ (List α)
  | 0 => return []
  | count + 1 => do
    let first ← action
    let more ← repeated action count
    return first :: more

/-- Makes so many records from the words of the caller. -/
def recordsWith (words : γ) : (count : Nat) → Action σ (List Record)
  | 0 => return []
  | count + 1 => do
    let (first, words) ← Generator.nextWith words
    let more ← recordsWith words count
    return first :: more

/-- Fills out the form so many times in a context of the caller; nothing is reported. -/
def fillMany (context : Context γ) : (count : Nat) → Action σ (List Record)
  | 0 => return []
  | count + 1 => do
    let ((first, form), context) := (← get).form.fill context
    modify fun generator => { generator with form }
    let more ← fillMany context count
    return first :: more

/-- Fills out one field in a context of the caller. -/
def fillOne (name : String) (context : Context γ) : Action σ (Option (Option Json)) := do
  match (← get).form.get? name with
  | none => return none
  | some content =>
    let (value, content) := (content.fill context).1
    modify fun generator => { generator with form := generator.form.insert name content }
    return some value

/-- Runs a step. However threads take turns, each record is made by one of them before the next is
begun, so together they get the next records there are. -/
def Step.run (step : Step) : Action σ (Reply σ) := do
  match step with
  | .texts count => return .texts (← repeated Generator.nextText count)
  | .records count => return .records (← repeated Generator.next count)
  | .recordsWith words count => return .records (← Stencil.recordsWith words count)
  | .fill words clock count => return .records (← fillMany ⟨words, clock⟩ count)
  | .supply count asked drained =>
    let (answers, rest) ← (Supply.mk count).ask asked
    let left ← if drained then some <$> rest.drain else pure none
    return .supplied answers rest.bounds left
  | .lines count sink => return .written (← writeLines sink count)
  | .threads number each =>
    let texts ← repeated Generator.nextText (number * each)
    return .texts (texts.mergeSort (· ≤ ·))
  | .fillField name words clock => return .value (← fillOne name ⟨words, clock⟩)
  | .field name => return .field ((← get).form.field? name)
  | .form => return .form (← get).form
  | .seed => return .seed (← get).seed

/-- Runs the steps of a script in turn. -/
def runScript : List Step → Action σ (List (Reply σ))
  | [] => return []
  | step :: rest => do
    let reply ← step.run
    let more ← runScript rest
    return reply :: more

end Stencil
