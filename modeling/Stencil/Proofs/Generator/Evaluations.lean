import Mathlib.Tactic.IntervalCases
import Stencil.Proofs.Form.Once
import Stencil.Proofs.Generator.Frame
import Stencil.Proofs.Lines.Front

/-!
# The values of a source in a run

Every step of a script that makes records makes them from the form of the generator, one after the
other, whatever it does with them then: it may give them out, write them, keep a supply of them back
or forget them. One step asks a single field for a value. So the values that a source produces in a
run can be counted: there is one for each record and one for each time that its field is asked
alone. For a source that goes through states one after the other this settles all values of a run,
and a counter counts through the run without leaving out or repeating a number.

* `Stencil.Step.Reports`: what a step answers with the records that it has made;
* `Stencil.Step.exists_reports`: steps make records from the form of the generator;
* `Stencil.Step.Evaluates`, `Stencil.Evaluations`: the values of a field in a step and in a script;
* `Stencil.Progression.At.runScript`: they are the next values of the source;
* `Stencil.evaluations_of_counter`: a counter in a run.
-/

namespace Stencil

variable {γ σ : Type}

/-! ### Records of a step -/

section Makes

variable [WordSource γ] [ValueSource σ]

theorem makes_repeated_next (count : ℕ) (generator : Generator σ) :
    let run := (repeated Generator.next count).result generator
    generator.form.Makes run.1 run.2.form := by
  induction count generalizing generator with
  | zero => exact .nil _
  | succ count ih => exact .cons generator.context (ih (Generator.next.result generator).2)

theorem makes_recordsWith (words : γ) (count : ℕ) (generator : Generator σ) :
    let run := (recordsWith words count).result generator
    run.1.length = count ∧ generator.form.Makes run.1 run.2.form := by
  induction count generalizing words generator with
  | zero => exact ⟨rfl, .nil _⟩
  | succ count ih =>
    obtain ⟨length, more⟩ := ih ((Generator.nextWith words).result generator).1.2
      ((Generator.nextWith words).result generator).2
    exact ⟨congrArg Nat.succ length, .cons (⟨words, generator.clock⟩ : Context γ) more⟩

theorem makes_fillMany (context : Context γ) (count : ℕ) (generator : Generator σ) :
    let run := (fillMany context count).result generator
    run.1.length = count ∧ generator.form.Makes run.1 run.2.form := by
  induction count generalizing context generator with
  | zero => exact ⟨rfl, .nil _⟩
  | succ count ih =>
    obtain ⟨length, more⟩ := ih (generator.form.fill context).2
      { generator with form := (generator.form.fill context).1.2 }
    exact ⟨congrArg Nat.succ length, .cons context more⟩

end Makes

/-- What a step answers with the records that it has made. -/
inductive Step.Reports (records : List Record) : Step → Reply σ → Prop
  /-- The texts of the records. -/
  | texts {count : ℕ} (made : records.length = count) :
    Reports records (.texts count) (.texts (records.map Record.text))
  /-- The records. -/
  | records {count : ℕ} (made : records.length = count) :
    Reports records (.records count) (.records records)
  /-- The records, from other words. -/
  | recordsWith {words : AnyWords} {count : ℕ} (made : records.length = count) :
    Reports records (.recordsWith words count) (.records records)
  /-- The records, in another context. -/
  | fill {words : AnyWords} {clock : Clock} {count : ℕ} (made : records.length = count) :
    Reports records (.fill words clock count) (.records records)
  /-- Those of the records that were asked for. If the supply was drained, the others have been made
  as well. -/
  | supply {count asked : ℕ} {drained : Bool}
    (made : records.length = if drained then count else min asked count) :
    Reports records (.supply count asked drained)
      (.supplied ((List.range asked).map fun index => (count - index, records[index]?))
        (count - asked, count - asked) (if drained then some (count - asked) else none))
  /-- What is left of writing the records. The sink has a front of their lines. No record is missing
  if the buffer has room for the lines, or if the attempt succeeded. -/
  | lines {count : ℕ} {sink : Throttle} {written : Written Throttle}
    (made_le : records.length ≤ count)
    (front : written.target.held <+: linesOf records)
    (all_made : (linesOf records).length ≤ bufferSize → records.length = count)
    (success : ∀ total, written.size = some total → records.length = count ∧
      total.toNat = min (linesOf records).length (UInt64.size - 1) ∧
        written.target.held = linesOf records) :
    Reports records (.lines count sink) (.written written)
  /-- The texts of the records, put in order. -/
  | threads {number each : ℕ} (made : records.length = number * each) :
    Reports records (.threads number each) (.texts ((records.map Record.text).mergeSort (· ≤ ·)))
  /-- A field, and no record has been made. -/
  | field {name : String} {answer : Option (Field σ)} (made : records = []) :
    Reports records (.field name) (.field answer)
  /-- The form, and no record has been made. -/
  | form {form : Form σ} (made : records = []) : Reports records .form (.form form)
  /-- The seed, and no record has been made. -/
  | seed {seed : UInt64} (made : records = []) : Reports records .seed (.seed seed)

variable [ValueSource σ]

/-- **A step makes its records from the form of the generator**, one after the other, unless it
fills out a single field. -/
theorem Step.exists_reports {step : Step}
    (whole : ∀ name words clock, step ≠ .fillField name words clock) (generator : Generator σ) :
    ∃ records, Step.Reports records step (step.run.result generator).1 ∧
      generator.form.Makes records (step.run.result generator).2.form := by
  have made := fun count => makes_repeated_next count generator
  have length := fun count => length_repeated (Generator.next (σ := σ)) count generator
  cases step with
  | texts count =>
    rw [Step.run, Action.result_bind, result_repeated_nextText]
    exact ⟨_, .texts (length count), made count⟩
  | records count => exact ⟨_, .records (length count), made count⟩
  | recordsWith words count =>
    obtain ⟨length, made⟩ := makes_recordsWith words count generator
    exact ⟨_, .recordsWith length, made⟩
  | fill words clock count =>
    obtain ⟨length, made⟩ := makes_fillMany (⟨words, clock⟩ : Context AnyWords) count generator
    exact ⟨_, .fill length, made⟩
  | supply count asked drained =>
    rw [Supply.result_run]
    exact ⟨_, .supply (length _), made _⟩
  | lines count sink =>
    obtain ⟨many, made_le, same, -, front, all_made, success⟩ :=
      exists_result_writeLines sink count generator
    have later : ((Step.lines count sink).run.result generator).2.form =
        ((repeated Generator.next many).result generator).2.form := congrArg Generator.form same
    rw [later]
    refine ⟨_, .lines ?_ front ?_ ?_, made many⟩
    · exact Nat.le_trans (Nat.le_of_eq (length many)) made_le
    · intro fits
      exact (length many).trans (all_made fits)
    · intro total done
      obtain ⟨all, rest⟩ := success total done
      exact ⟨(length many).trans all, rest⟩
  | threads number each =>
    rw [Step.run, Action.result_bind, result_repeated_nextText]
    exact ⟨_, .threads (length _), made _⟩
  | fillField name words clock => exact absurd rfl (whole name words clock)
  | field name => exact ⟨[], .field rfl, .nil _⟩
  | form => exact ⟨[], .form rfl, .nil _⟩
  | seed => exact ⟨[], .seed rfl, .nil _⟩

/-! ### Values of a field -/

/-- What a step answers when the field of a name has these values in it: one for each record that
the step makes, which shows it, or one if the step fills out that field. -/
inductive Step.Evaluates (form : Form σ) (name : String) : Step → Reply σ → List Json → Prop
  /-- The records show the values. -/
  | records {step : Step} {reply : Reply σ} {values : List Json} {records : List Record}
    (reports : Step.Reports records step reply)
    (shown : List.Forall₂ (form.Shows name) records values) : Evaluates form name step reply values
  /-- The step answers with the value. -/
  | fillField {words : AnyWords} {clock : Clock} (value : Json) :
    Evaluates form name (.fillField name words clock) (.value (some (some value))) [value]
  /-- The step fills out another field. -/
  | other {words : AnyWords} {clock : Clock} {answer : Option (Option Json)} {another : String}
    (different : another ≠ name) :
    Evaluates form name (.fillField another words clock) (.value answer) []

/-- What the steps of a script answer when the field of a name has these values, one step after the
other. -/
inductive Evaluations (form : Form σ) (name : String) :
    List Step → List (Reply σ) → List Json → Prop
  /-- No step. -/
  | nil : Evaluations form name [] [] []
  /-- A step, and those after it. -/
  | cons {step : Step} {rest : List Step} {reply : Reply σ} {replies : List (Reply σ)}
    {values more : List Json} (first : Step.Evaluates form name step reply values)
    (others : Evaluations form name rest replies more) :
    Evaluations form name (step :: rest) (reply :: replies) (values ++ more)

namespace Progression.At

variable {progression : Progression σ} {origin : Form σ} {name : String} {index : ℕ}
  {generator : Generator σ}

/-- **Filling out the field alone gives the next value**, and filling out another one none. -/
theorem fillField (h : progression.At origin name index generator.form) (another : String)
    (words : AnyWords) (clock : Clock) :
    let run := (Step.fillField another words clock).run.result generator
    ∃ count, Step.Evaluates origin name (.fillField another words clock) run.1
        (progression.values index count) ∧
      progression.At origin name (index + count) run.2.form := by
  have answer : (Step.fillField another words clock).run.result generator =
      (.value ((fillOne another (⟨words, clock⟩ : Context AnyWords)).result generator).1,
        ((fillOne another (⟨words, clock⟩ : Context AnyWords)).result generator).2) := rfl
  rw [answer, result_fillOne_eq]
  rcases eq_or_ne another name with rfl | different
  · -- the source produces the value of its state
    rw [h.reached]
    dsimp only [Option.elim_some]
    rw [progression.fill_state]
    refine ⟨1, .fillField _, h.alike.trans (.insert h.reached (.sources ..)), ?_⟩
    rw [Table.get?_insert, if_pos rfl]
  · refine ⟨0, .other different, ?_⟩
    cases found : generator.form.get? another with
    | none => exact h
    | some content =>
      refine ⟨h.alike.trans (.insert found (content.resembles_fill _)), ?_⟩
      show (generator.form.insert _ _).get? name = _
      rw [Table.get?_insert, if_neg different.symm]
      exact h.reached

/-- **A step gives the field the next values.** -/
theorem step (h : progression.At origin name index generator.form) (step : Step) :
    let run := step.run.result generator
    ∃ count, step.Evaluates origin name run.1 (progression.values index count) ∧
      progression.At origin name (index + count) run.2.form := by
  by_cases single : ∃ another words clock, step = .fillField another words clock
  · obtain ⟨another, words, clock, rfl⟩ := single
    exact h.fillField another words clock
  · have whole : ∀ another words clock, step ≠ .fillField another words clock :=
      fun another words clock same => single ⟨another, words, clock, same⟩
    obtain ⟨records, reports, made⟩ := Step.exists_reports whole generator
    obtain ⟨shown, later⟩ := h.makes made
    exact ⟨records.length, .records reports shown, later⟩

/-- **A script gives the field the next values**, one step after the other. -/
theorem runScript (h : progression.At origin name index generator.form) (script : List Step) :
    let run := (runScript script).result generator
    ∃ count, Evaluations origin name script run.1 (progression.values index count) ∧
      progression.At origin name (index + count) run.2.form := by
  induction script generalizing index generator with
  | nil => exact ⟨0, .nil, h⟩
  | cons step rest ih =>
    obtain ⟨count, first, next⟩ := h.step step
    obtain ⟨more, others, last⟩ := ih next
    refine ⟨count + more, ?_, ?_⟩
    · rw [progression.values_add]
      exact .cons first others
    · rw [← Nat.add_assoc]
      exact last

end Progression.At

/-! ### Counters -/

/-- A counter, from a number on. It counts modulo `2 ^ 64`. -/
def Progression.ofCounter (counter : UInt64 → σ)
    (counts : ∀ {γ : Type} [WordSource γ] (next : UInt64) (context : Context γ),
      ValueSource.produce (counter next) context =
        ((.number (.ofUInt64 next), counter (next + 1)), context))
    (first : UInt64) : Progression σ where
  state index := counter (first + .ofNat index)
  value index := .number (.ofUInt64 (first + .ofNat index))
  produce_state index context := by
    rw [counts, UInt64.ofNat_add, ← UInt64.add_assoc]
    rfl

/-- **A counter counts through a run.** Take a generator with the form of a template in which a
field has a counter, at a number `first`. Whatever steps a script has, the values of the field in
these steps are `first` and the numbers after it, modulo `2 ^ 64`, with none left out and none
repeated: each record shows one of them, for the field and all references to it, and so does the
answer of a step that fills out the field alone. The counter is left after these numbers.

Whatever states the other sources have come to, the next record fills out the fields with values of
their own in name order, each once. References take no part in that, and show what their targets
show. -/
theorem evaluations_of_counter (rules : Rules σ) (template : Template) (generator : Generator σ)
    (made : (Form.ofTemplate rules template).run.value = .ok generator.form) (counter : UInt64 → σ)
    (counts : ∀ {γ : Type} [WordSource γ] (next : UInt64) (context : Context γ),
      ValueSource.produce (counter next) context =
        ((.number (.ofUInt64 next), counter (next + 1)), context))
    (name : String) (first : UInt64)
    (found : generator.form.get? name = some (.custom (counter first))) (script : List Step) :
    let run := (runScript script).result generator
    (∃ count, Evaluations generator.form name script run.1
        ((List.range count).map fun index => .number (.ofUInt64 (first + .ofNat index))) ∧
      run.2.form.get? name = some (.custom (counter (first + .ofNat count)))) ∧
    ∀ {γ : Type} [WordSource γ] (context : Context γ),
      let form := run.2.form
      let once := form.own.mapM (fun entry => Content.fill entry.2) context
      let filled := form.fill context
      (form.own.map (·.1)).Pairwise (· < ·) ∧ filled.2 = once.2 ∧
      form.own.map (fun entry => (filled.1.1.get? entry.1, filled.1.2.get? entry.1)) =
        once.1.map (fun answer => (answer.1, some answer.2)) ∧
      ∀ referrer target, (referrer, target) ∈ form.references →
        filled.1.2.get? referrer = some (.reference target) ∧
        ∃ value, filled.1.1.get? referrer = some value ∧ filled.1.1.get? target = some value := by
  have start : (Progression.ofCounter counter counts first).At generator.form name 0
      generator.form := by
    refine ⟨.refl _, found.trans ?_⟩
    show _ = some (Content.custom (counter (first + 0)))
    rw [UInt64.add_zero]
  obtain ⟨count, evaluations, last⟩ := start.runScript script
  rw [Progression.values] at evaluations
  simp only [Nat.zero_add] at evaluations last
  refine ⟨⟨count, evaluations, last.reached⟩, fun context => ?_⟩
  exact Form.fill_once made (keepsForm_runScript script generator) context

/-- A script that makes records in several ways, once for a sink that has no room for them, and asks
the counter alone in between. -/
def countingWays : List Step :=
  [.texts 1, .recordsWith (.cycle ⟨[9], 0⟩) 1, .supply 3 1 true,
    .fillField "m" (.cycle ⟨[9], 0⟩) (.frozen 0), .lines 2 ⟨some 3, some 10⟩,
    .fill (.cycle ⟨[9], 0⟩) (.frozen 0) 1, .supply 2 1 false, .records 1]

/-- A counter that starts at 7 has come to 18 after that script. -/
theorem evaluations_of_counter_counted :
    let run := (runScript countingWays).result ⟨countedForm 7, .ofSeed 1, .frozen 5, 1⟩
    run.2.form = countedForm 18 ∧ ∃ count, Evaluations (countedForm 7) "m" countingWays run.1
        ((List.range count).map fun index => .number (.ofUInt64 (7 + .ofNat index))) ∧
      (countedForm 18).get? "m" = some (.custom (.sequence (7 + .ofNat count))) := by
  have made : (Form.ofTemplate counterRules counted).run.value = .ok (countedForm 7) := rfl
  have step : ∀ (step : Step) (rest : List Step) (generator : Generator StockSource),
      ((runScript (step :: rest)).result generator).2 =
        ((runScript rest).result (step.run.result generator).2).2 := fun _ _ _ => rfl
  have front : ((Step.recordsWith (.cycle ⟨[9], 0⟩) 1).run.result
      ((Step.texts 1).run.result ⟨countedForm 7, .ofSeed 1, .frozen 5, 1⟩).2).2 =
        ⟨countedForm 9, .ofSeed 1, .frozen 5, 1⟩ := rfl
  have drained : ((Step.supply 3 1 true).run.result ⟨countedForm 9, .ofSeed 1, .frozen 5, 1⟩).2 =
      ⟨countedForm 12, .ofSeed 1, .frozen 5, 1⟩ := by
    rw [Supply.result_run]
    rfl
  have alone : ((Step.fillField "m" (.cycle ⟨[9], 0⟩) (.frozen 0)).run.result
      ⟨countedForm 12, .ofSeed 1, .frozen 5, 1⟩).2 =
        ⟨countedForm 13, .ofSeed 1, .frozen 5, 1⟩ := rfl
  have written : ((Step.lines 2 ⟨some 3, some 10⟩).run.result
      ⟨countedForm 13, .ofSeed 1, .frozen 5, 1⟩).2 = ⟨countedForm 15, .ofSeed 1, .frozen 5, 1⟩ := by
    obtain ⟨made, made_le, later, -, -, all_made, -⟩ := exists_result_writeLines
      (⟨some 3, some 10⟩ : Throttle) 2 ⟨countedForm 13, .ofSeed 1, .frozen 5, 1⟩
    -- the two lines are short, so both records have been made before the sink fails
    obtain rfl : made = 2 := all_made (by interval_cases made <;> decide)
    exact later
  have run : ((runScript countingWays).result ⟨countedForm 7, .ofSeed 1, .frozen 5, 1⟩).2.form =
      countedForm 18 := by
    rw [countingWays, step, step, front, step, drained, step, alone, step, written]
    rfl
  obtain ⟨values, -⟩ := evaluations_of_counter counterRules counted
    ⟨countedForm 7, .ofSeed 1, .frozen 5, 1⟩ made StockSource.sequence (fun _ _ => rfl) "m" 7 rfl
    countingWays
  rw [run] at values
  exact ⟨run, values⟩

end Stencil
