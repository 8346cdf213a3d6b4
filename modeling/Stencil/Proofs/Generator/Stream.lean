import Stencil.Generator.Script
import Stencil.Proofs.Form.Stream
import Stencil.Table.Lemmas

/-!
# The stream of a generator

A generator whose form is plain and whose clock is frozen is changed by nothing but the words that
its records take. Its records are those of one stream, and whatever way they are taken, the next
way goes on where the last one stopped. Records made from other words leave it as it is.

* `Stencil.Generator.Steady`: generators of that kind;
* `Stencil.Generator.advance`: the generator after so many records;
* `Stencil.result_repeated`: records taken one after the other;
* `Stencil.Supply.result_ask`, `Stencil.Supply.result_drain`, `Stencil.Supply.result_run`: records
  taken from a supply, of any generator;
* `Stencil.result_recordsWith`, `Stencil.result_fillMany`, `Stencil.result_fillOne`: what takes no
  record of the generator.
-/

namespace Stencil

variable {γ σ α β : Type}

/-! ### Results of actions -/

/-- What an action gives and the generator as it is after that, without the events. -/
def Action.result (action : Action σ α) (generator : Generator σ) : α × Generator σ :=
  (action generator).value

theorem Action.result_pure (a : α) (generator : Generator σ) :
    Action.result (pure a) generator = (a, generator) := rfl

/-- One action after another: the second starts from the generator that the first leaves. -/
theorem Action.result_bind (action : Action σ α) (next : α → Action σ β)
    (generator : Generator σ) :
    Action.result (action >>= next) generator =
      (next (action.result generator).1).result (action.result generator).2 := rfl

/-- The events that an action reports. -/
def Action.events (action : Action σ α) (generator : Generator σ) : List Event :=
  (action generator).events

/-- One action after another: their events follow one another as well. -/
theorem Action.events_bind (action : Action σ α) (next : α → Action σ β)
    (generator : Generator σ) :
    Action.events (action >>= next) generator =
      action.events generator ++
        (next (action.result generator).1).events (action.result generator).2 := rfl

/-- What is made of the result of an action has no events of its own. -/
theorem Action.events_bind_pure (f : α → β) (action : Action σ α) (generator : Generator σ) :
    Action.events (action >>= fun a => pure (f a)) generator = action.events generator :=
  List.append_nil _

theorem Action.events_map (f : α → β) (action : Action σ α) (generator : Generator σ) :
    Action.events (f <$> action) generator = action.events generator :=
  events_bind_pure f action generator

/-- A generator is the form of its template, with the words of the seed. -/
theorem Setup.value_start (setup : Setup σ) :
    setup.start.run.value = (Form.ofBytes setup.rules setup.template).run.value.map
      fun form => ⟨form, .ofSeed setup.seed, setup.clock, setup.seed⟩ := by
  rw [start, ExceptT.run_bind]
  obtain ⟨value, events⟩ := (Form.ofBytes setup.rules setup.template).run
  cases value <;> rfl

namespace Generator

variable [WordSource γ] [ValueSource σ]

/-- The context in which a generator makes its records. -/
def context (generator : Generator σ) : Context ChaCha8 := ⟨generator.words, generator.clock⟩

/-- A generator is steady if its form is plain and its clock is frozen. -/
structure Steady (generator : Generator σ) : Prop where
  /-- No field has a source of the caller. -/
  plain : generator.form.Plain
  /-- The clock is frozen. -/
  frozen : ∃ seconds, generator.clock = .frozen seconds

/-- The generator with its words as they are after so many records. -/
def advance (generator : Generator σ) (count : Nat) : Generator σ :=
  { generator with words := (generator.form.contextAfter generator.context count).words }

/-- The first records of the stream of a generator. -/
def firstRecords (generator : Generator σ) (count : Nat) : List Record :=
  generator.form.firstRecords generator.context count

/-! ### Moving along the stream -/

namespace Steady

variable {generator : Generator σ} (steady : generator.Steady)
include steady

/-- Records made in a context with the clock of a steady generator leave the clock as it is. -/
theorem contextAfter_eq (words : γ) (count : Nat) :
    generator.form.contextAfter ⟨words, generator.clock⟩ count =
      ⟨(generator.form.contextAfter ⟨words, generator.clock⟩ count).words, generator.clock⟩ := by
  obtain ⟨seconds, frozen⟩ := steady.frozen
  have same : (generator.form.contextAfter ⟨words, generator.clock⟩ count).clock = _ :=
    Form.clock_contextAfter steady.plain frozen count
  rw [← frozen] at same
  exact congrArg (Context.mk _) same

theorem context_advance (count : Nat) :
    (generator.advance count).context = generator.form.contextAfter generator.context count :=
  (steady.contextAfter_eq generator.words count).symm

/-- A generator stays steady. -/
theorem advance (count : Nat) : (generator.advance count).Steady :=
  ⟨steady.plain, steady.frozen⟩

theorem advance_advance (m n : Nat) :
    (generator.advance m).advance n = generator.advance (m + n) := by
  have words : (generator.form.contextAfter (generator.advance m).context n).words =
      (generator.form.contextAfter generator.context (m + n)).words := by
    rw [steady.context_advance, Form.contextAfter_add]
  exact congrArg (fun words => { generator with words }) words

/-- **The stream goes on where it was left.** -/
theorem firstRecords_add (m n : Nat) :
    generator.firstRecords (m + n) =
      generator.firstRecords m ++ (generator.advance m).firstRecords n := by
  rw [firstRecords, firstRecords, firstRecords, steady.context_advance]
  exact Form.firstRecords_add ..

theorem firstRecords_succ (count : Nat) :
    generator.firstRecords (count + 1) =
      generator.form.recordAt generator.context 0 :: (generator.advance 1).firstRecords count := by
  rw [Nat.add_comm]
  exact steady.firstRecords_add 1 count

end Steady

/-! ### Making records -/

variable {generator : Generator σ}

/-- A record from words of the caller is the next of their stream. It leaves the generator as it
is. -/
theorem result_nextWith (steady : generator.Steady) (words : γ) :
    (nextWith words).result generator =
      ((generator.form.recordAt ⟨words, generator.clock⟩ 0,
        (generator.form.contextAfter ⟨words, generator.clock⟩ 1).words), generator) := by
  have form := Form.form_fill steady.plain (⟨words, generator.clock⟩ : Context γ)
  obtain ⟨seconds, frozen⟩ := steady.frozen
  have own : ∀ back, generator.clock.resume back = generator.clock := fun back => by
    rw [frozen]
    rfl
  show (((generator.form.fill ⟨words, generator.clock⟩).1.1,
      (generator.form.fill ⟨words, generator.clock⟩).2.words),
    { generator with
      form := (generator.form.fill ⟨words, generator.clock⟩).1.2
      clock := generator.clock.resume (generator.form.fill ⟨words, generator.clock⟩).2.clock }) = _
  rw [form, own]
  rfl

/-- The next record is the next of the stream. -/
theorem result_next (steady : generator.Steady) :
    next.result generator =
      (generator.form.recordAt generator.context 0, generator.advance 1) := by
  rw [next, Action.result_bind]
  show (Action.result (nextWith generator.words >>= _) generator) = _
  rw [Action.result_bind, result_nextWith steady]
  rfl

/-- The next text is that of the next record of the stream. -/
theorem result_nextText (steady : generator.Steady) :
    nextText.result generator =
      ((generator.form.recordAt generator.context 0).text, generator.advance 1) := by
  rw [nextText, Action.result_bind, result_next steady]
  rfl

end Generator

section Steps

/-! ### One record after the other -/

/-- An action done once more: the first time, and the times after that. -/
theorem result_repeated_succ (action : Action σ α) (count : ℕ) (generator : Generator σ) :
    (repeated action (count + 1)).result generator =
      let first := action.result generator
      let more := (repeated action count).result first.2
      (first.1 :: more.1, more.2) := rfl

theorem events_repeated_succ (action : Action σ α) (count : ℕ) (generator : Generator σ) :
    (repeated action (count + 1)).events generator =
      action.events generator ++ (repeated action count).events (action.result generator).2 := by
  rw [repeated, Action.events_bind, Action.events_bind_pure]

/-- An action done once more: the times before, and the last time. -/
theorem result_repeated_succ_last (action : Action σ α) (count : ℕ) (generator : Generator σ) :
    (repeated action (count + 1)).result generator =
      let before := (repeated action count).result generator
      let last := action.result before.2
      (before.1 ++ [last.1], last.2) := by
  induction count generalizing generator with
  | zero => rfl
  | succ count ih =>
    have rest := ih (action.result generator).2
    rw [result_repeated_succ]
    dsimp only
    rw [rest]
    rfl

/-- An action done so many times, and then so many times more. -/
theorem result_repeated_add (action : Action σ α) (m n : ℕ) (generator : Generator σ) :
    (repeated action (m + n)).result generator =
      let before := (repeated action m).result generator
      let after := (repeated action n).result before.2
      (before.1 ++ after.1, after.2) := by
  induction n with
  | zero =>
    show _ = (_ ++ [], _)
    rw [List.append_nil]
    rfl
  | succ n ih =>
    rw [← Nat.add_assoc, result_repeated_succ_last, ih]
    dsimp only
    rw [result_repeated_succ_last, List.append_assoc]

theorem length_repeated (action : Action σ α) (count : ℕ) (generator : Generator σ) :
    ((repeated action count).result generator).1.length = count := by
  induction count generalizing generator with
  | zero => rfl
  | succ count ih => exact congrArg Nat.succ (ih _)

/-- What an action gives the first of so many times. -/
theorem take_repeated (action : Action σ α) (m n : ℕ) (generator : Generator σ) :
    ((repeated action n).result generator).1.take m =
      ((repeated action (min m n)).result generator).1 := by
  rcases Nat.le_total m n with le | le
  · obtain ⟨rest, rfl⟩ := Nat.exists_eq_add_of_le le
    rw [result_repeated_add, Nat.min_eq_left le]
    exact List.take_left' (length_repeated ..)
  · rw [Nat.min_eq_right le]
    exact List.take_of_length_le (Nat.le_trans (Nat.le_of_eq (length_repeated ..)) le)

variable [WordSource γ] [ValueSource σ] {generator : Generator σ}

omit [WordSource γ] in
/-- The next texts are those of the next records, and the generator is left as by these. -/
theorem result_repeated_nextText (count : ℕ) (generator : Generator σ) :
    (repeated Generator.nextText count).result generator =
      (((repeated Generator.next count).result generator).1.map Record.text,
        ((repeated Generator.next count).result generator).2) := by
  induction count generalizing generator with
  | zero => rfl
  | succ count ih =>
    rw [result_repeated_succ, result_repeated_succ]
    show (_ :: ((repeated Generator.nextText count).result (Generator.next.result generator).2).1,
      ((repeated Generator.nextText count).result (Generator.next.result generator).2).2) = _
    rw [ih]
    rfl

/-- **What is done with one record after the other is done with the first records of the
stream.** -/
theorem result_repeated {action : Action σ α} {f : Record → α}
    (each : ∀ {generator : Generator σ}, generator.Steady → action.result generator =
      (f (generator.form.recordAt generator.context 0), generator.advance 1))
    (steady : generator.Steady) (count : Nat) :
    (repeated action count).result generator =
      ((generator.firstRecords count).map f, generator.advance count) := by
  induction count generalizing generator with
  | zero => rfl
  | succ count ih =>
    rw [repeated, Action.result_bind, each steady, Action.result_bind, ih (steady.advance 1),
      Action.result_pure, steady.advance_advance, Nat.add_comm 1 count, steady.firstRecords_succ]
    rfl

/-- **Records from words of the caller are those of their stream.** They leave the generator as it
is. -/
theorem result_recordsWith (steady : generator.Steady) (words : γ) (count : Nat) :
    (recordsWith words count).result generator =
      (generator.form.firstRecords ⟨words, generator.clock⟩ count, generator) := by
  induction count generalizing words with
  | zero => rfl
  | succ count ih =>
    rw [recordsWith, Action.result_bind, Generator.result_nextWith steady, Action.result_bind, ih,
      Action.result_pure, Form.firstRecords_succ, steady.contextAfter_eq]

/-- **Records filled out in a context of the caller are those of its stream.** They leave the
generator as it is. -/
theorem result_fillMany (steady : generator.Steady) (context : Context γ) (count : Nat) :
    (fillMany context count).result generator =
      (generator.form.firstRecords context count, generator) := by
  induction count generalizing context with
  | zero => rfl
  | succ count ih =>
    have form := Form.form_fill steady.plain context
    have rest : (fillMany context (count + 1)).result generator =
        (let more := (fillMany (generator.form.fill context).2 count).result
          { generator with form := (generator.form.fill context).1.2 }
        ((generator.form.fill context).1.1 :: more.1, more.2)) := rfl
    rw [rest, form, ih, Form.firstRecords_succ]
    rfl

/-- Filling out one field changes the content of that field, if there is one, and nothing else. -/
theorem result_fillOne_eq (generator : Generator σ) (name : String) (context : Context γ) :
    (fillOne name context).result generator =
      (generator.form.get? name).elim (none, generator) fun content =>
        (some (content.fill context).1.1,
          { generator with form := generator.form.insert name (content.fill context).1.2 }) := by
  rw [fillOne, Action.result_bind]
  dsimp only [Action.result, get, getThe, MonadStateOf.get, StateT.get, pure]
  cases generator.form.get? name <;> rfl

/-- **Filling out one field leaves the generator as it is.** -/
theorem result_fillOne (steady : generator.Steady) (name : String) (context : Context γ) :
    (fillOne name context).result generator =
      ((generator.form.get? name).map fun content => (content.fill context).1.1, generator) := by
  rw [result_fillOne_eq]
  -- the field is put back as it was found
  cases found : generator.form.get? name with
  | none => rfl
  | some content =>
    have plain := steady.plain (name, content) (Table.mem_of_get?_eq_some found)
    simp only [Content.content_fill plain, Table.insert_eq_self found, Option.elim_some,
      Option.map_some]

end Steps

/-! ### Supplies -/

namespace Supply

variable [ValueSource σ]

/-- **A supply gives out the next records, as many as it has.** It takes no more records than it
gives out. -/
theorem result_ask (supply : Supply) (times : ℕ) (generator : Generator σ) :
    (supply.ask times).result generator =
      let run := (repeated Generator.next (min times supply.remaining)).result generator
      (((List.range times).map fun index => (supply.remaining - index, run.1[index]?),
        ⟨supply.remaining - times⟩), run.2) := by
  induction times generalizing supply generator with
  | zero => rw [Nat.zero_min]; rfl
  | succ times ih =>
    obtain ⟨remaining⟩ := supply
    cases remaining with
    | zero =>
      -- a supply that is used up answers that nothing is left, and takes nothing
      have rest := ih ⟨0⟩ generator
      have step : (Supply.ask ⟨0⟩ (times + 1)).result generator =
          (let more := (Supply.ask ⟨0⟩ times).result generator
          (((0, none) :: more.1.1, more.1.2), more.2)) := rfl
      rw [step, rest]
      simp only [List.range_succ_eq_map, List.map_cons, List.map_map, Function.comp_def,
        Nat.zero_sub, Nat.min_zero, repeated, Action.result_pure, List.getElem?_nil]
    | succ left =>
      -- one record is given out, and the others come after it
      have rest := ih ⟨left⟩ (Generator.next.result generator).2
      have step : (Supply.ask ⟨left + 1⟩ (times + 1)).result generator =
          (let first := Generator.next.result generator
          let more := (Supply.ask ⟨left⟩ times).result first.2
          (((left + 1, some first.1) :: more.1.1, more.1.2), more.2)) := rfl
      rw [step, Nat.add_min_add_right, result_repeated_succ]
      simp only [rest, List.range_succ_eq_map, List.map_cons, List.map_map, Function.comp_def,
        Nat.succ_eq_add_one, Nat.add_sub_add_right, List.getElem?_cons_succ]
      rfl

/-- **Doing something with all records that are left** is making as many and then going through
them, if nothing that is done with a record ends this. -/
theorem forEach_eq_repeated {body : Record → StateM β Bool}
    (goesOn : ∀ record state, (body record state).1 = true) (count : ℕ) (state : β) :
    (Supply.mk count).forEach body state = (do
      let records ← repeated Generator.next count
      return (true, records.foldl (fun state record => (body record state).2) state) :
        Action σ (Bool × β)) := by
  induction count generalizing state with
  | zero => rw [forEach_zero]; rfl
  | succ count ih =>
    rw [forEach_succ, repeated]
    simp only [bind_assoc, pure_bind]
    refine bind_congr fun record => ?_
    have done : body record state = (true, (body record state).2) :=
      Prod.ext (goesOn record state) rfl
    rw [done]
    exact ih _

/-- **Draining a supply makes all records that are left**, and the answer is how many these are. -/
theorem drain_eq (supply : Supply) :
    supply.drain = (do
      let records ← repeated Generator.next supply.remaining
      return records.length : Action σ ℕ) := by
  have counted : ∀ (records : List Record) (n : ℕ),
      records.foldl (fun counted _ => counted + 1) n = n + records.length := by
    intro records
    induction records with
    | nil => exact fun n => rfl
    | cons record more ih =>
      intro n
      rw [List.foldl_cons, ih, List.length_cons]
      omega
  rw [drain, forEach_eq_repeated fun _ _ => rfl]
  simp only [bind_assoc, pure_bind, counted, Nat.zero_add]

/-- Draining a supply counts the records that were left. -/
theorem result_drain (supply : Supply) (generator : Generator σ) :
    supply.drain.result generator =
      (supply.remaining, ((repeated Generator.next supply.remaining).result generator).2) := by
  rw [drain_eq, Action.result_bind]
  exact Prod.ext (length_repeated ..) rfl

/-- **A supply that is asked for records, and drained if so told**, takes as many as it gives out,
or all of them. -/
theorem result_run (count asked : ℕ) (drained : Bool) (generator : Generator σ) :
    (Step.supply count asked drained).run.result generator =
      let run :=
        (repeated Generator.next (if drained then count else min asked count)).result generator
      (.supplied ((List.range asked).map fun index => (count - index, run.1[index]?))
        (count - asked, count - asked) (if drained then some (count - asked) else none),
        run.2) := by
  rw [Step.run, Action.result_bind, result_ask]
  cases drained with
  | false => rfl
  | true =>
    have all : min asked count + (count - asked) = count := by omega
    have answers : ((List.range asked).map fun index => (count - index,
          ((repeated Generator.next (min asked count)).result generator).1[index]?)) =
        (List.range asked).map fun index => (count - index,
          ((repeated Generator.next count).result generator).1[index]?) := by
      refine List.map_congr_left fun index member => ?_
      rw [← take_repeated, List.getElem?_take_of_lt (List.mem_range.mp member)]
    have after := congrArg Prod.snd
      (result_repeated_add Generator.next (min asked count) (count - asked) generator)
    rw [all] at after
    show (Reply.supplied _ (count - asked, count - asked)
        (some ((Supply.mk (count - asked)).drain.result
          ((repeated Generator.next (min asked count)).result generator).2).1),
      ((Supply.mk (count - asked)).drain.result
        ((repeated Generator.next (min asked count)).result generator).2).2) = _
    rw [result_drain, answers]
    exact Prod.ext rfl after.symm

end Supply

end Stencil
