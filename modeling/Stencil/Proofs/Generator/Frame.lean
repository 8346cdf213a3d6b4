import Mathlib.Tactic.Common
import Stencil.Generator.Script
import Stencil.Proofs.Form.Fill
import Stencil.Proofs.Generator.Stream

/-!
# What a run leaves alone

Whatever is done with a generator, its form stays what it was but for the states of the sources that
the caller brought. This holds of every step of a script, also of one that writes to a sink that
fails or that fills out the form from other words, and so of every state that a run can reach.

* `Stencil.Action.KeepsForm`: actions that leave the form alone but for its sources;
* `Stencil.Step.keepsForm_run`, `Stencil.keepsForm_runScript`: steps and scripts are such actions;
* `Stencil.record_of_ofTemplate`: what the records of a run hold.
-/

namespace Stencil

variable {γ ω σ α β : Type}

/-! ### Actions -/

/-- An action changes nothing in the form of a generator but the states of sources. -/
def Action.KeepsForm (action : Action σ α) : Prop :=
  ∀ generator : Generator σ, generator.form.Resembles (action.result generator).2.form

namespace Action.KeepsForm

protected theorem pure (a : α) : Action.KeepsForm (Pure.pure a : Action σ α) := fun _ => .refl _

protected theorem bind {action : Action σ α} {next : α → Action σ β} (first : action.KeepsForm)
    (rest : ∀ a, (next a).KeepsForm) : Action.KeepsForm (action >>= next) := fun generator =>
  (first generator).trans (rest _ _)

protected theorem map {action : Action σ α} (h : action.KeepsForm) (f : α → β) :
    Action.KeepsForm (f <$> action) := h

/-- What only looks at the generator leaves it alone. -/
protected theorem get : Action.KeepsForm (MonadState.get : Action σ (Generator σ)) :=
  fun _ => .refl _

/-- What changes only the words of the generator leaves its form alone. -/
protected theorem setWords (words : ChaCha8) :
    Action.KeepsForm (modify fun generator => { generator with words } : Action σ Unit) :=
  fun _ => .refl _

end Action.KeepsForm

section Actions

variable [WordSource γ] [ValueSource σ]

/-! ### Records -/

namespace Generator

theorem keepsForm_nextWith (words : γ) :
    Action.KeepsForm (nextWith words : Action σ (Record × γ)) := fun generator =>
  generator.form.resembles_fill _

theorem keepsForm_next : Action.KeepsForm (next : Action σ Record) :=
  .bind .get fun _ => .bind (keepsForm_nextWith _) fun _ => .bind (.setWords _) fun _ => .pure _

theorem keepsForm_nextText : Action.KeepsForm (nextText : Action σ String) :=
  .bind keepsForm_next fun _ => .pure _

end Generator

omit [ValueSource σ] in
theorem keepsForm_repeated {action : Action σ α} (each : action.KeepsForm) (count : ℕ) :
    (repeated action count).KeepsForm := by
  induction count with
  | zero => exact .pure _
  | succ count ih => exact .bind each fun _ => .bind ih fun _ => .pure _

omit [ValueSource σ] in
/-- What an action gives one time after the other, it gives on forms that resemble the first one. -/
theorem exists_of_mem_repeated {action : Action σ α} (each : action.KeepsForm) {count : ℕ}
    {generator : Generator σ} {a : α} (mem : a ∈ ((repeated action count).result generator).1) :
    ∃ later : Generator σ, generator.form.Resembles later.form ∧ (action.result later).1 = a := by
  induction count generalizing generator with
  | zero => cases mem
  | succ count ih =>
    rw [result_repeated_succ] at mem
    rcases List.mem_cons.mp mem with rfl | mem
    · exact ⟨generator, .refl _, rfl⟩
    · obtain ⟨later, alike, gives⟩ := ih mem
      exact ⟨later, (each generator).trans alike, gives⟩

theorem keepsForm_recordsWith (words : γ) (count : ℕ) :
    Action.KeepsForm (recordsWith words count : Action σ (List Record)) := by
  induction count generalizing words with
  | zero => exact .pure _
  | succ count ih =>
    exact .bind (Generator.keepsForm_nextWith words) fun _ => .bind (ih _) fun _ => .pure _

theorem keepsForm_fillMany (context : Context γ) (count : ℕ) :
    Action.KeepsForm (fillMany context count : Action σ (List Record)) := by
  induction count generalizing context with
  | zero => exact .pure _
  | succ count ih =>
    intro generator
    exact (generator.form.resembles_fill context).trans
      (ih _ { generator with form := (generator.form.fill context).1.2 })

theorem keepsForm_fillOne (name : String) (context : Context γ) :
    Action.KeepsForm (fillOne name context : Action σ (Option (Option Json))) := by
  intro generator
  rw [result_fillOne_eq]
  cases found : generator.form.get? name with
  | none => exact .refl _
  | some content => exact .insert found (content.resembles_fill context)

/-! ### Supplies and lines -/

namespace Supply

theorem keepsForm_next (supply : Supply) :
    Action.KeepsForm (supply.next : Action σ (Option Record × Supply)) := by
  obtain ⟨remaining⟩ := supply
  cases remaining with
  | zero => exact .pure _
  | succ left => exact .bind Generator.keepsForm_next fun _ => .pure _

theorem keepsForm_ask (supply : Supply) (times : ℕ) :
    Action.KeepsForm (supply.ask times : Action σ (List (ℕ × Option Record) × Supply)) := by
  induction times generalizing supply with
  | zero => exact .pure _
  | succ times ih => exact .bind supply.keepsForm_next fun _ => .bind (ih _) fun _ => .pure _

/-- What is done with the records does not touch the generator. -/
theorem keepsForm_forEach (body : Record → StateM β Bool) (supply : Supply) (state : β) :
    Action.KeepsForm (supply.forEach body state : Action σ (Bool × β)) := by
  obtain ⟨count⟩ := supply
  induction count generalizing state with
  | zero =>
    rw [forEach_zero]
    exact .pure _
  | succ count ih =>
    rw [forEach_succ]
    refine .bind Generator.keepsForm_next fun record => ?_
    split
    · exact .pure _
    · exact ih _

theorem keepsForm_drain (supply : Supply) : Action.KeepsForm (supply.drain : Action σ ℕ) :=
  .bind (keepsForm_forEach _ supply 0) fun _ => .pure _

end Supply

theorem keepsForm_writeLines [Sink ω] (sink : ω) (count : ℕ) :
    Action.KeepsForm (writeLines sink count : Action σ (Written ω)) :=
  .bind (Supply.keepsForm_forEach writeLine _ _) fun _ => .pure _

/-! ### Scripts -/

/-- **No step changes more of a form than the states of its sources.** -/
theorem Step.keepsForm_run (step : Step) : Action.KeepsForm (step.run : Action σ (Reply σ)) := by
  cases step with
  | texts count =>
    exact .bind (keepsForm_repeated Generator.keepsForm_nextText count) fun _ => .pure _
  | records count =>
    exact .bind (keepsForm_repeated Generator.keepsForm_next count) fun _ => .pure _
  | recordsWith words count => exact .bind (keepsForm_recordsWith words count) fun _ => .pure _
  | fill words clock count => exact .bind (keepsForm_fillMany _ count) fun _ => .pure _
  | supply count asked drained =>
    refine .bind (Supply.keepsForm_ask _ asked) fun answer => ?_
    cases drained with
    | true => exact .bind (.map answer.2.keepsForm_drain some) fun _ => .pure _
    | false => exact .pure _
  | lines count sink => exact .bind (keepsForm_writeLines sink count) fun _ => .pure _
  | threads number each =>
    exact .bind (keepsForm_repeated Generator.keepsForm_nextText _) fun _ => .pure _
  | fillField name words clock => exact .bind (keepsForm_fillOne name _) fun _ => .pure _
  | field name => exact .bind .get fun _ => .pure _
  | form => exact .bind .get fun _ => .pure _
  | seed => exact .bind .get fun _ => .pure _

/-- **No script changes more of a form than the states of its sources.** -/
theorem keepsForm_runScript (script : List Step) :
    Action.KeepsForm (runScript script : Action σ (List (Reply σ))) := by
  induction script with
  | nil => exact .pure _
  | cons step rest ih => exact .bind step.keepsForm_run fun _ => .bind ih fun _ => .pure _

/-! ### Records of a run -/

/-- **The record that a template describes.** Take a form of a template after any steps on its
generator, which may have left its sources in other states, and fill it out in any context. The
record has the keys of the template. A value that is no directive stands under its key as it is. A
reference shows the value that the first pass has found for its target, and the target shows the
same. Every other field shows the value that its content yields after the fields before it. -/
theorem record_of_ofTemplate (rules : Rules σ) (template : Template) (generator : Generator σ)
    (made : (Form.ofTemplate rules template).run.value = .ok generator.form) (script : List Step)
    (context : Context γ) :
    let form := ((runScript script).result generator).2.form
    let record := (form.fill context).1.1
    record.keys = template.keys ∧
    (∀ key value, template.get? key = some value →
      (∀ text, value = .string text → rules.place.admits text.toList = false) →
        record.get? key = some value) ∧
    (∀ name target, (name, target) ∈ form.references → ∃ value,
      valueOf? (fillEach form.entries context).1 target = some value ∧
        record.get? name = some value ∧ record.get? target = some value) ∧
    ∀ before name content after, form.entries = before ++ (name, content) :: after →
      content.isReference = false → ∃ value,
        (content.fill (fillEach before context).2).1.1 = some value ∧
          record.get? name = some value := by
  have same := keepsForm_runScript script generator
  refine ⟨Form.keys_fill_ofTemplate made same context, ?_, ?_, ?_⟩
  · intro key value entry plain
    exact Form.get?_fill_static made same entry plain context
  · intro name target refers
    exact Form.get?_fill_target made same refers context
  · intro before name content after split own
    exact Form.get?_fill_own split own context

end Actions

/-- Rules with a keyword for a counter. -/
def counterRules : Rules StockSource :=
  ⟨.ofList [("count", fun name _ => .ok ⟨name, .custom (.sequence 7)⟩)], .anywhere⟩

/-- A template with references before and after their target, a counter. -/
def counted : Template :=
  ⟨[("a", .string "_go:_m"), ("m", .string "_go:count"), ("t", .bool true),
    ("z", .string "_go:_m")], by
    unfold InKeyOrder
    decide⟩

/-- The form of that template, with the counter at a number. -/
def countedForm (next : UInt64) : Form StockSource :=
  ⟨[("a", .reference "m"), ("m", .custom (.sequence next)), ("t", .static (.bool true)),
    ("z", .reference "m")], by
    have keys : ["a", "m", "t", "z"].Pairwise (· < ·) := by decide
    exact List.pairwise_map.mp keys⟩

/-- After two records both references show the number that the counter has come to. -/
theorem record_of_ofTemplate_counted :
    let form := ((runScript [.records 2]).result
      ⟨countedForm 7, .ofSeed 1, .frozen 5, 1⟩).2.form
    let record := (form.fill (⟨⟨[9], 0⟩, .frozen 0⟩ : Context WordCycle)).1.1
    form = countedForm 9 ∧ record.keys = ["a", "m", "t", "z"] ∧
    record.get? "t" = some (.bool true) ∧
    record.get? "a" = record.get? "m" ∧ record.get? "z" = record.get? "m" ∧
    record.get? "m" = some (.number (.ofUInt64 9)) := by
  have made : (Form.ofTemplate counterRules counted).run.value = .ok (countedForm 7) := rfl
  have form : ((runScript [.records 2]).result
      ⟨countedForm 7, .ofSeed 1, .frozen 5, 1⟩).2.form = countedForm 9 := rfl
  have record := record_of_ofTemplate counterRules counted
    ⟨countedForm 7, .ofSeed 1, .frozen 5, 1⟩ made [.records 2]
    (⟨⟨[9], 0⟩, .frozen 0⟩ : Context WordCycle)
  rw [form] at record ⊢
  obtain ⟨keys, static, references, own⟩ := record
  obtain ⟨_, -, first, target⟩ := references "a" "m" (Form.mem_references_iff.mpr rfl)
  obtain ⟨_, -, last, target'⟩ := references "z" "m" (Form.mem_references_iff.mpr rfl)
  obtain ⟨_, yields, shown⟩ := own [_] "m" (.custom (.sequence 9)) [_, _] rfl rfl
  obtain rfl := Option.some.inj yields
  have plain := static "t" (.bool true) rfl (by simp)
  exact ⟨rfl, keys, plain, first.trans target.symm, last.trans target'.symm, shown⟩

end Stencil
