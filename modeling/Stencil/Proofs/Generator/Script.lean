import Mathlib.Algebra.GroupWithZero.Nat
import Mathlib.Tactic.Common
import Stencil.Proofs.Lines.Records

/-!
# Scripts read one stream

Texts, records, supplies, lines and threads are ways to take records from a generator. Whatever
steps a script has, together they take the records of one stream, from the first on and in order,
and each step answers with those that it takes. Steps that bring words of their own, and steps that
only look, take none.

* `Stencil.Step.demand`: the number of records that a step takes;
* `Stencil.Step.replyFor`: what a step answers with the records that it takes;
* `Stencil.Step.result_run`: one step;
* `Stencil.result_runScript`: a script.
-/

namespace Stencil

variable {σ : Type}

namespace Step

/-- The number of records that a step takes from the stream of the generator. A supply takes no
more records than it is asked for, unless it is drained. -/
def demand : Step → Nat
  | .texts count => count
  | .records count => count
  | .supply count asked drained => if drained then count else min asked count
  | .lines count _ => count
  | .threads number each => number * each
  | .recordsWith .. | .fill .. | .fillField .. | .field _ | .form | .seed => 0

/-- A step is unhindered if its sink, should it have one, takes bytes whenever it is offered
some. -/
def Unhindered : Step → Prop
  | .lines _ sink => sink.chunk ≠ some 0 ∧ sink.room = none
  | _ => True

variable [ValueSource σ]

/-- What a step answers on a generator with a form, a clock and a seed, when `taken` are the records
that it takes. -/
def replyFor (form : Form σ) (clock : Clock) (seed : UInt64) (taken : List Record) :
    Step → Reply σ
  | .texts _ => .texts (taken.map Record.text)
  | .records _ => .records taken
  | .recordsWith words count => .records (form.firstRecords ⟨words, clock⟩ count)
  | .fill words clock count => .records (form.firstRecords ⟨words, clock⟩ count)
  | .supply count asked drained =>
    .supplied ((List.range asked).map fun index => (count - index, taken[index]?))
      (count - asked, count - asked) (if drained then some (count - asked) else none)
  | .lines _ sink =>
    .written ⟨some (addCapped 0 (linesOf taken).length),
      (Recorded.fresh sink).keep sink (linesOf taken)⟩
  | .threads .. => .texts ((taken.map Record.text).mergeSort (· ≤ ·))
  | .fillField name words clock =>
    let context : Context AnyWords := ⟨words, clock⟩
    .value ((form.get? name).map fun content => (content.fill context).1.1)
  | .field name => .field (form.field? name)
  | .form => .form form
  | .seed => .seed seed

variable {generator : Generator σ}

/-- **A step takes the records of its demand** from where the stream stands, and answers with
those. -/
theorem result_run (steady : generator.Steady) {step : Step} (unhindered : step.Unhindered) :
    step.run.result generator =
      (step.replyFor generator.form generator.clock generator.seed
          (generator.firstRecords step.demand),
        generator.advance step.demand) := by
  have next : ∀ count, (repeated Generator.next count).result generator =
      (generator.firstRecords count, generator.advance count) := fun count => by
    rw [result_repeated (f := id) Generator.result_next steady, List.map_id]
  cases step with
  | texts count =>
    rw [run, Action.result_bind, result_repeated Generator.result_nextText steady]
    rfl
  | records count =>
    rw [run, Action.result_bind, next]
    rfl
  | recordsWith words count =>
    rw [run, Action.result_bind, result_recordsWith steady]
    rfl
  | fill words clock count =>
    rw [run, Action.result_bind, result_fillMany steady]
    rfl
  | supply count asked drained =>
    rw [Supply.result_run, next]
    rfl
  | lines count sink =>
    obtain ⟨chunk, room⟩ := sink
    obtain ⟨positive, unlimited⟩ := unhindered
    obtain rfl : room = none := unlimited
    obtain ⟨size, after, written, total, held, same⟩ :=
      result_writeLines (willing_throttle positive) steady ⟨chunk, none⟩ rfl count
    have bytes : size = addCapped 0 (linesOf (generator.firstRecords count)).length := by
      refine UInt64.toNat_inj.mp ?_
      rw [total, toNat_addCapped, UInt64.toNat_zero, Nat.zero_add]
    have target : after = (Recorded.fresh ⟨chunk, none⟩).keep ⟨chunk, none⟩
        (linesOf (generator.firstRecords count)) := by
      refine Recorded.ext_held same ?_
      rw [held, Recorded.held_keep]
      rfl
    rw [run, Action.result_bind, written, bytes, target]
    rfl
  | threads number each =>
    rw [run, Action.result_bind, result_repeated Generator.result_nextText steady]
    rfl
  | fillField name words clock =>
    rw [run, Action.result_bind, result_fillOne steady]
    rfl
  | field name => rfl
  | form => rfl
  | seed => rfl

end Step

variable [ValueSource σ] {generator : Generator σ}

/-- **The steps of a script take the first records of the stream**, one step after the other: there
is a list of records for each step, of the length of its demand, the lists put together are the
first records of the stream, and each step answers with its list. -/
theorem result_runScript (steady : generator.Steady) {script : List Step}
    (unhindered : ∀ step ∈ script, step.Unhindered) :
    ∃ parts : List (List Record),
      parts.map List.length = script.map Step.demand ∧
      parts.flatten = generator.firstRecords (script.map Step.demand).sum ∧
      (runScript script).result generator =
        (List.zipWith (Step.replyFor generator.form generator.clock generator.seed) parts script,
          generator.advance (script.map Step.demand).sum) := by
  induction script generalizing generator with
  | nil => exact ⟨[], rfl, rfl, rfl⟩
  | cons step rest ih =>
    obtain ⟨head, tail⟩ := List.forall_mem_cons.mp unhindered
    obtain ⟨parts, lengths, joined, result⟩ := ih (steady.advance step.demand) tail
    refine ⟨generator.firstRecords step.demand :: parts, ?_, ?_, ?_⟩
    · rw [List.map_cons, List.map_cons, lengths]
      exact congrArg (· :: _) (Form.length_firstRecords ..)
    · rw [List.flatten_cons, joined, List.map_cons, List.sum_cons, steady.firstRecords_add]
    · rw [runScript, Action.result_bind, Step.result_run steady head, Action.result_bind, result,
        steady.advance_advance]
      rfl

/-! ### Generators from a template -/

omit [ValueSource σ] in
/-- A generator starts with the words of its seed. -/
theorem Setup.of_start_eq_ok {setup : Setup σ} {generator : Generator σ}
    (started : setup.start.run.value = .ok generator) :
    generator.words = .ofSeed setup.seed ∧ generator.clock = setup.clock ∧
      generator.seed = setup.seed := by
  rw [Setup.value_start] at started
  cases made : (Form.ofBytes setup.rules setup.template).run.value with
  | error fault =>
    rw [made] at started
    cases started
  | ok form =>
    rw [made] at started
    obtain rfl := Except.ok.inj started
    exact ⟨rfl, rfl, rfl⟩

/-- **All ways to take records read one stream.** A generator that starts with a frozen clock and
a plain form has a stream: the records that filling out the form over and over gives, with the words
of the seed. Whatever steps a script has, one list of records for each step can be found so that
the lists put together are the first records of the stream, each list has as many records as the
step asks for, and the step answers with its list. The generator is left with the words that those
records leave, and otherwise as it was. Making records from fresh words of the seed then gives the
stream from its start, and leaves the generator alone. -/
theorem runScript_stream (setup : Setup σ) (generator : Generator σ) (seconds : Int64)
    (started : setup.start.run.value = .ok generator) (frozen : setup.clock = .frozen seconds)
    (plain : generator.form.Plain) (script : List Step)
    (unhindered : ∀ step ∈ script, step.Unhindered) :
    let form := generator.form
    let origin : Context ChaCha8 := ⟨.ofSeed setup.seed, .frozen seconds⟩
    let total := (script.map Step.demand).sum
    let run := (runScript script).result generator
    (∃ parts : List (List Record),
      parts.flatten = (List.range total).map (form.recordAt origin) ∧
      parts.map List.length = script.map Step.demand ∧
      run.1 = List.zipWith (Step.replyFor form (.frozen seconds) setup.seed) parts script) ∧
    run.2 = ⟨form, (form.contextAfter origin total).words, .frozen seconds, setup.seed⟩ ∧
    ∀ count, (recordsWith (ChaCha8.ofSeed setup.seed) count).result run.2 =
      ((List.range count).map (form.recordAt origin), run.2) := by
  obtain ⟨form, words, clock, seed⟩ := generator
  obtain ⟨words_eq, clock_eq, seed_eq⟩ := Setup.of_start_eq_ok started
  obtain rfl : words = .ofSeed setup.seed := words_eq
  obtain rfl : clock = .frozen seconds := clock_eq.trans frozen
  obtain rfl : seed = setup.seed := seed_eq
  have steady : Generator.Steady ⟨form, .ofSeed setup.seed, .frozen seconds, setup.seed⟩ :=
    ⟨plain, seconds, rfl⟩
  obtain ⟨parts, lengths, joined, result⟩ := result_runScript steady unhindered
  dsimp only
  rw [result]
  refine ⟨⟨parts, joined, lengths, rfl⟩, rfl, fun count => ?_⟩
  exact result_recordsWith (steady.advance _) (ChaCha8.ofSeed setup.seed) count

/-- A setup whose records show the time and two random letters. -/
def timedLetters : Setup StockSource where
  template := "\x7b\"at\":\"_go:timestamp\",\"key\":\"_go:<2>\"\x7d".toUTF8
  keywords := .empty
  options := ⟨some 7, .random, .anywhere⟩
  clock := .frozen 5
  freshSeed := 0

/-- The form of its template. -/
def timedLettersForm : Form StockSource :=
  ⟨[("at", .timestamp), ("key", .pattern ⟨"", "", 2, 0, 0, Pattern.two_letters_le⟩)], by
    unfold InKeyOrder
    decide⟩

/-- A script that takes records in every way, and others in between. -/
def everyWay : List Step :=
  [.texts 1, .supply 3 1 true, .recordsWith (.cycle ⟨[9], 0⟩) 2, .supply 3 2 false,
    .fillField "key" (.cycle ⟨[9], 0⟩) (.frozen 0), .lines 2 ⟨some 1, none⟩, .threads 2 1,
    .records 1, .seed]

/-- The script takes eleven records of that setup in all. -/
theorem runScript_stream_everyWay :
    let origin : Context ChaCha8 := ⟨.ofSeed 7, .frozen 5⟩
    let run := (runScript everyWay).result ⟨timedLettersForm, .ofSeed 7, .frozen 5, 7⟩
    (∃ parts : List (List Record),
      parts.flatten = (List.range 11).map (timedLettersForm.recordAt origin) ∧
      parts.map List.length = [1, 3, 0, 2, 0, 2, 2, 1, 0] ∧
      run.1 = List.zipWith (Step.replyFor timedLettersForm (.frozen 5) 7) parts everyWay) ∧
    run.2 = ⟨timedLettersForm, (timedLettersForm.contextAfter origin 11).words, .frozen 5, 7⟩ ∧
    ∀ count, (recordsWith (ChaCha8.ofSeed 7) count).result run.2 =
      ((List.range count).map (timedLettersForm.recordAt origin), run.2) := by
  have read : Json.readObject (symbols timedLetters.template) =
      .ok [("at", .string "_go:timestamp"), ("key", .string "_go:<2>")] := by
    rw [timedLetters, symbols_toUTF8]
    rfl
  have started : timedLetters.start.run.value =
      .ok ⟨timedLettersForm, .ofSeed 7, .frozen 5, 7⟩ := by
    rw [Setup.value_start, Form.ofBytes, Template.decode, read]
    rfl
  have plain : timedLettersForm.Plain := by simp [Form.Plain, timedLettersForm]
  have unhindered : ∀ step ∈ everyWay, step.Unhindered := by simp [everyWay, Step.Unhindered]
  have demands : everyWay.map Step.demand = [1, 3, 0, 2, 0, 2, 2, 1, 0] := rfl
  have seed : timedLetters.seed = 7 := rfl
  have stream := runScript_stream timedLetters _ 5 started rfl plain everyWay unhindered
  rw [demands, seed] at stream
  exact stream

end Stencil
