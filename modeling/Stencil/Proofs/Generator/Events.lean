import Stencil.Proofs.Form.Events
import Stencil.Proofs.Generator.Evaluations
import Stencil.Proofs.Generator.Supply

/-!
# What is reported in a run

A record is reported where it is made, and every way to make one from a generator ends up there, so
a run has one event for each record: also for one that is forgotten, and for one that does not reach
its sink because the sink fails. Filling out the form in a context of the caller passes by that
place, and is not reported.

How many records a step makes cannot always be read off its answer. It is the number of records
after which it leaves the generator, and what a step reports is the making of these.

* `Stencil.Step.Traced`, `Stencil.Traced`: what a step and a script report;
* `Stencil.Step.traced_run`, `Stencil.traced_runScript`: steps and scripts do so;
* `Stencil.Setup.events_start`: what making a generator reports;
* `Stencil.events_audit`: the events of the whole library.
-/

namespace Stencil

variable {γ σ α : Type}

/-- The event of a record that is made. -/
def Event.ofRecord (record : Record) : Event := .recordMade record.size

/-! ### Events of records -/

section Records

variable [WordSource γ] [ValueSource σ]

namespace Generator

theorem events_nextWith (words : γ) (generator : Generator σ) :
    (nextWith words).events generator =
      [.ofRecord ((nextWith words).result generator).1.1] := rfl

theorem events_next (generator : Generator σ) :
    next.events generator = [.ofRecord (next.result generator).1] := rfl

/-- **What is done with one record after the other reports each of them.** -/
theorem events_repeated {action : Action σ α}
    (moves : ∀ generator, (action.result generator).2 = (next.result generator).2)
    (reports : ∀ generator, action.events generator = next.events generator) (count : ℕ)
    (generator : Generator σ) :
    (repeated action count).events generator =
      (generator.upcoming count).map .ofRecord := by
  induction count generalizing generator with
  | zero => rfl
  | succ count ih =>
    rw [events_repeated_succ, ih, reports, events_next, moves]
    rfl

theorem events_repeated_next (count : ℕ) (generator : Generator σ) :
    (repeated next count).events generator = (generator.upcoming count).map .ofRecord :=
  events_repeated (fun _ => rfl) (fun _ => rfl) count generator

theorem events_repeated_nextText (count : ℕ) (generator : Generator σ) :
    (repeated nextText count).events generator = (generator.upcoming count).map .ofRecord := by
  have moves : ∀ generator : Generator σ,
      (nextText.result generator).2 = (next.result generator).2 := fun _ => rfl
  have reports : ∀ generator : Generator σ,
      nextText.events generator = next.events generator := fun _ => rfl
  exact events_repeated moves reports count generator

end Generator

/-- Records from words of the caller are reported one by one. -/
theorem events_recordsWith (words : γ) (count : ℕ) (generator : Generator σ) :
    (recordsWith words count).events generator =
      ((recordsWith words count).result generator).1.map .ofRecord := by
  induction count generalizing words generator with
  | zero => rfl
  | succ count ih =>
    rw [recordsWith, Action.events_bind, Action.events_bind_pure, ih, Generator.events_nextWith]
    rfl

/-- Filling out the form in a context of the caller is not reported. -/
theorem events_fillMany (context : Context γ) (count : ℕ) (generator : Generator σ) :
    (fillMany context count).events generator = [] := by
  induction count generalizing context generator with
  | zero => rfl
  | succ count ih =>
    have rest := ih (generator.form.fill context).2
      { generator with form := (generator.form.fill context).1.2 }
    have step : (fillMany context (count + 1)).events generator =
        (fillMany (generator.form.fill context).2 count).events
          { generator with form := (generator.form.fill context).1.2 } ++ [] := rfl
    rw [step, rest]
    rfl

/-- Neither is filling out one field. -/
theorem events_fillOne (name : String) (context : Context γ) (generator : Generator σ) :
    (fillOne name context).events generator = [] := by
  rw [fillOne, Action.events_bind]
  dsimp only [Action.result, get, getThe, MonadStateOf.get, StateT.get, pure]
  cases generator.form.get? name <;> rfl

end Records

/-! ### Events of supplies -/

namespace Supply

variable [ValueSource σ]

/-- **A supply reports the records that it gives out**, and no call on a supply that is used up. -/
theorem events_ask (supply : Supply) (times : ℕ) (generator : Generator σ) :
    (supply.ask times).events generator =
      (generator.upcoming (min times supply.remaining)).map .ofRecord := by
  induction times generalizing supply generator with
  | zero => rw [Nat.zero_min]; rfl
  | succ times ih =>
    obtain ⟨_ | left⟩ := supply
    · rw [ask, Action.events_bind, Action.events_bind_pure]
      have nothing : ∀ calls, min calls (Supply.mk 0).remaining = 0 := Nat.min_zero
      rw [nothing]
      exact (ih ⟨0⟩ generator).trans (by rw [nothing])
    · rw [ask, Action.events_bind, Action.events_bind_pure, Nat.add_min_add_right]
      exact congrArg (_ :: ·) (ih ⟨left⟩ (Generator.next.result generator).2)

/-- **Draining a supply reports all records that were left.** -/
theorem events_drain (supply : Supply) (generator : Generator σ) :
    supply.drain.events generator = (generator.upcoming supply.remaining).map .ofRecord := by
  rw [drain_eq, Action.events_bind_pure, Generator.events_repeated_next]

/-- **A supply that is asked for records, and drained if so told**, reports those that it gives out,
or all of them. -/
theorem events_run (count asked : ℕ) (drained : Bool) (generator : Generator σ) :
    (Step.supply count asked drained).run.events generator =
      (generator.upcoming (if drained then count else min asked count)).map .ofRecord := by
  rw [Step.run, Action.events_bind, events_ask, result_ask_mk]
  cases drained with
  | false => exact List.append_nil _
  | true =>
    -- those that are given out, and those that are left
    have all := generator.upcoming_add (min asked count) (count - asked)
    rw [given_add_left] at all
    rw [if_pos rfl, all, List.map_append]
    dsimp only
    rw [if_pos rfl, Action.events_bind_pure, Action.events_map, events_drain]

end Supply

/-! ### Events of scripts -/

/-- **What a step reports**, with its answer and the generator that it leaves. Filling out the form
or a field in a context of the caller is not reported. Records from words of the caller are what the
step answers with, and each has an event. Any other step makes some of the next records, answers
with those, leaves the generator after them, and each of them has an event. -/
def Step.Traced (generator : Generator σ) [ValueSource σ] (step : Step) (reply : Reply σ)
    (events : List Event) (later : Generator σ) : Prop :=
  match step with
  | .fill .. | .fillField .. => events = []
  | .recordsWith _ count => ∃ records,
    reply = .records records ∧ records.length = count ∧ events = records.map .ofRecord
  | step => ∃ made, Step.Reports (generator.upcoming made) step reply ∧
    later = generator.after made ∧ events = (generator.upcoming made).map .ofRecord

/-- What a script reports: what its steps do, one after the other. -/
inductive Traced [ValueSource σ] :
    Generator σ → List Step → List (Reply σ) → List Event → Generator σ → Prop
  /-- No step. -/
  | nil (generator : Generator σ) : Traced generator [] [] [] generator
  /-- A step, and those after it. -/
  | cons {step : Step} {rest : List Step} {reply : Reply σ} {replies : List (Reply σ)}
    {events more : List Event} {generator between later : Generator σ}
    (first : step.Traced generator reply events between)
    (others : Traced between rest replies more later) :
    Traced generator (step :: rest) (reply :: replies) (events ++ more) later

section Scripts

variable [ValueSource σ]

/-- **A step reports the records that it makes**, each once. -/
theorem Step.traced_run (step : Step) (generator : Generator σ) :
    let run := step.run.result generator
    step.Traced generator run.1 (step.run.events generator) run.2 := by
  have length := generator.length_upcoming
  cases step with
  | texts count =>
    refine ⟨count, ?_⟩
    rw [run, Action.result_bind, Action.events_bind_pure, result_repeated_nextText,
      Generator.events_repeated_nextText]
    exact ⟨.texts (length count), rfl, rfl⟩
  | records count =>
    refine ⟨count, .records (length count), rfl, ?_⟩
    rw [run, Action.events_bind_pure, Generator.events_repeated_next]
  | recordsWith words count =>
    refine ⟨_, rfl, (makes_recordsWith words count generator).1, ?_⟩
    rw [run, Action.events_bind_pure]
    exact events_recordsWith words count generator
  | fill words clock count =>
    show Action.events _ generator = []
    rw [run, Action.events_bind_pure, events_fillMany]
  | supply count asked drained =>
    refine ⟨if drained then count else min asked count, ?_⟩
    rw [Supply.result_run, Supply.events_run]
    exact ⟨.supply (length _), rfl, rfl⟩
  | lines count sink =>
    obtain ⟨made, made_le, same, reported, front, all_made, success⟩ :=
      exists_result_writeLines sink count generator
    refine ⟨made, .lines ?_ front ?_ ?_, same, ?_⟩
    · exact Nat.le_trans (Nat.le_of_eq (length made)) made_le
    · exact fun fits => (length made).trans (all_made fits)
    · intro total done
      obtain ⟨all, rest⟩ := success total done
      exact ⟨(length made).trans all, rest⟩
    · rw [run, Action.events_bind_pure, reported, Generator.events_repeated_next]
  | threads number each =>
    refine ⟨number * each, ?_⟩
    rw [run, Action.result_bind, Action.events_bind_pure, result_repeated_nextText,
      Generator.events_repeated_nextText]
    exact ⟨.threads (length _), rfl, rfl⟩
  | fillField name words clock =>
    show Action.events _ generator = []
    rw [run, Action.events_bind_pure, events_fillOne]
  | field name => exact ⟨0, .field rfl, rfl, rfl⟩
  | form => exact ⟨0, .form rfl, rfl, rfl⟩
  | seed => exact ⟨0, .seed rfl, rfl, rfl⟩

/-- **A script reports the records that its steps make**, one step after the other. -/
theorem traced_runScript (script : List Step) (generator : Generator σ) :
    let run := (runScript script).result generator
    Traced generator script run.1 ((runScript script).events generator) run.2 := by
  induction script generalizing generator with
  | nil => exact .nil generator
  | cons step rest ih =>
    have others := ih (step.run.result generator).2
    rw [runScript, Action.events_bind, Action.events_bind_pure]
    exact .cons (step.traced_run generator) others

end Scripts

/-! ### Events of making a generator -/

/-- The references of a form are its fields that are references. -/
theorem Form.length_references (form : Form σ) :
    form.references.length = form.entries.countP (·.2.isReference) := by
  rw [references, List.length_filterMap_eq_countP]
  refine List.countP_congr fun entry _ => ?_
  rw [Option.isSome_map]
  rfl

/-- **Making a generator reports the making of its form**, and that the generator is ready unless
there is a fault. -/
theorem Setup.events_start (setup : Setup σ) :
    setup.start.run.events = (Form.ofBytes setup.rules setup.template).run.events ++
      match (Form.ofBytes setup.rules setup.template).run.value with
      | .ok form => [.generatorReady form.size form.references.length setup.seed]
      | .error _ => [] := by
  rw [start, Logged.events_bind]
  cases (Form.ofBytes setup.rules setup.template).run.value <;> rfl

/-- A generator of a template that can be read reports what its form does. If the template is
refused, that is all. -/
theorem Setup.start_of_refused {setup : Setup σ} {template : Template}
    (decoded : Template.decode setup.template = .ok template) {fault : TemplateFault}
    (refused : (Form.ofTemplate setup.rules template).run.value = .error fault) :
    setup.start.run.value = .error fault ∧
      setup.start.run.events = (Form.ofTemplate setup.rules template).run.events := by
  have bytes : Form.ofBytes setup.rules setup.template = Form.ofTemplate setup.rules template := by
    rw [Form.ofBytes, decoded]
  rw [value_start, events_start, bytes, refused]
  exact ⟨rfl, List.append_nil _⟩

/-- If it has a form, there is one more event, with the number of its keys, the number of references
and the seed. -/
theorem Setup.start_of_made {setup : Setup σ} {template : Template}
    (decoded : Template.decode setup.template = .ok template) {form : Form σ}
    (made : (Form.ofTemplate setup.rules template).run.value = .ok form) :
    ∃ generator, setup.start.run.value = .ok generator ∧ generator.form = form ∧
      setup.start.run.events = (Form.ofTemplate setup.rules template).run.events ++
        [.generatorReady template.keys.length (form.entries.countP (·.2.isReference))
          generator.seed] := by
  have bytes : Form.ofBytes setup.rules setup.template = Form.ofTemplate setup.rules template := by
    rw [Form.ofBytes, decoded]
  have size : template.keys.length = form.size := by
    rw [(Form.ofTemplate_eq_ok_iff.mp made).1.keys_eq]
    exact List.length_map ..
  refine ⟨⟨form, .ofSeed setup.seed, setup.clock, setup.seed⟩, ?_, rfl, ?_⟩
  · rw [value_start, bytes, made]
    rfl
  · rw [events_start, bytes, made, size, ← Form.length_references]

/-! ### All events -/

/-- **The events tell exactly what has happened.** While a form is made, entries are reached in the
order of their keys, up to the first one that fails on its own, and all of them if none does. Each
of these has one warning if its text strays, with the body that is taken for the directive, and then
one report of the kind of field that it is recognized as, unless it fails. The check of references
reports nothing. If there is a form, the fields that are reported are its fields.

Making a generator adds one event if it succeeds, with the number of keys, the number of references
and the seed, and none if it does not. A script has one event for each record that is made from the
generator, whatever becomes of the record, and no other. -/
theorem events_audit [ValueSource σ] :
    (∀ (rules : Rules σ) (template : Template),
      let made := (Form.ofTemplate rules template).run
      (∃ reached parts,
        (reached.map (·.1)).Pairwise KeyBefore ∧
        (∀ key value, (key, value) ∈ reached ↔ template.get? key = some value ∧
          ∀ earlier shown, template.get? earlier = some shown → KeyBefore earlier key →
            rules.Accepts template earlier shown) ∧
        List.Forall₂ (rules.EntryEvents template) reached parts ∧ made.events = parts.flatten) ∧
      ∀ form, made.value = .ok form → made.events.filter (·.level = .debug) =
        form.entries.map fun entry => .fieldRecognized entry.1 entry.2.kindName) ∧
    (∀ setup : Setup σ,
      (∀ template, Template.decode setup.template = .ok template →
        let made := (Form.ofTemplate setup.rules template).run
        (∀ fault, made.value = .error fault →
          setup.start.run.value = .error fault ∧ setup.start.run.events = made.events) ∧
        ∀ form, made.value = .ok form →
          ∃ generator, setup.start.run.value = .ok generator ∧ generator.form = form ∧
            setup.start.run.events = made.events ++
              [.generatorReady template.keys.length (form.entries.countP (·.2.isReference))
                generator.seed]) ∧
      ∀ cause, Template.decode setup.template = .error cause →
        setup.start.run.value = .error (.malformed (.found cause)) ∧
          setup.start.run.events = []) ∧
    ∀ (generator : Generator σ) (script : List Step),
      let run := (runScript script).result generator
      Traced generator script run.1 ((runScript script).events generator) run.2 := by
  refine ⟨fun rules template => ?_, fun setup => ⟨fun template decoded => ?_, ?_⟩, ?_⟩
  · exact ⟨Form.events_ofTemplate rules template, fun form => Form.debug_events_ofTemplate⟩
  · exact ⟨fun fault => Setup.start_of_refused decoded, fun form => Setup.start_of_made decoded⟩
  · intro cause unreadable
    rw [Setup.value_start, Setup.events_start, Form.ofBytes, unreadable]
    exact ⟨rfl, rfl⟩
  · exact fun generator script => traced_runScript script generator

/-- A setup of a template with a text that strays, and a reference to its field. -/
def strayed : Setup StockSource where
  template := "\x7b\"a\":\"x_go:<4>\",\"b\":\"_go:_a\"\x7d".toUTF8
  keywords := .empty
  options := ⟨some 7, .random, .anywhere⟩
  clock := .frozen 5
  freshSeed := 0

/-- Its template. -/
def strayedTemplate : Template :=
  ⟨[("a", .string "x_go:<4>"), ("b", .string "_go:_a")], by
    unfold InKeyOrder
    decide⟩

/-- Its form. -/
def strayedForm : Form StockSource :=
  ⟨[("a", .pattern ⟨":", "", 4, 0, 0, by decide⟩), ("b", .reference "a")], by
    have keys : ["a", "b"].Pairwise (· < ·) := by decide
    exact List.pairwise_map.mp keys⟩

/-- There is a warning, a report of each field, and one of the generator, with two keys and one
reference. -/
theorem events_audit_strayed :
    (Form.ofTemplate strayed.rules strayedTemplate).run.events.filter (·.level = .debug) =
      [.fieldRecognized "a" "pattern", .fieldRecognized "b" "reference"] ∧
    ∃ generator, strayed.start.run.value = .ok generator ∧ strayed.start.run.events =
      [.strayMarker "a" "x_go:<4>" ":<4>", .fieldRecognized "a" "pattern",
        .fieldRecognized "b" "reference", .generatorReady 2 1 generator.seed] := by
  have read : Json.readObject (symbols strayed.template) =
      .ok [("a", .string "x_go:<4>"), ("b", .string "_go:_a")] := by
    rw [strayed, symbols_toUTF8]
    rfl
  have decoded : Template.decode strayed.template = .ok strayedTemplate := by
    rw [Template.decode, read]
    rfl
  have made : (Form.ofTemplate strayed.rules strayedTemplate).run.value = .ok strayedForm := rfl
  obtain ⟨forms, starts, -⟩ := events_audit (σ := StockSource)
  obtain ⟨-, fields⟩ := forms strayed.rules strayedTemplate
  obtain ⟨generator, value, -, events⟩ :=
    ((starts strayed).1 strayedTemplate decoded).2 strayedForm made
  exact ⟨fields strayedForm made, generator, value, events⟩

end Stencil
