import Mathlib.Tactic.Common
import Stencil.Proofs.Form.Fill
import Stencil.Proofs.Generator.Stream

/-!
# A record made field by field

Filling out a form is one action of a generator, but it can be looked at field by field. After each
field the generator has a form of which the front has been filled out and the rest has not, and the
words that the front has left. The clock is not looked up in the generator for every field: a record
is begun with the clock of the generator, and whatever the fields do to that clock is known to the
draft of the record alone. When nothing is left to be filled out, what has been found for the fields
makes the record, and the generator, once it has its clock back, is where making the record in one
go would have left it.

* `Stencil.Draft`: a record that is being made;
* `Stencil.Generator.fillField`: one field;
* `Stencil.Generator.Partway`: how far the form has been filled out;
* `Stencil.Generator.Partway.fillField`, `Stencil.Generator.Partway.result_next`: the next field,
  and the end.
-/

namespace Stencil

variable {σ : Type} [ValueSource σ]

omit [ValueSource σ] in
/-- The record that outcomes make. -/
def recordOf (outcomes : List (Outcome σ)) : Record :=
  .ofList (outcomes.map fun outcome => (outcome.name, outcome.resolve outcomes))

/-- A record that is being made. -/
structure Draft (σ : Type) where
  /-- The outcomes of the fields that have been filled out. -/
  outcomes : List (Outcome σ)
  /-- The clock, as these fields have left it. -/
  clock : Clock

namespace Generator

/-- A record that has just been begun. -/
def draft (generator : Generator σ) : Draft σ := ⟨[], generator.clock⟩

/-- The generator with its clock back from a record that has been made. -/
def resume (generator : Generator σ) (draft : Draft σ) : Generator σ :=
  { generator with clock := generator.clock.resume draft.clock }

/-- Fills out one field of a generator: the draft with the outcome, and the generator with the
content and the words as they are after that. -/
def fillField (name : String) (content : Content σ) (draft : Draft σ) (generator : Generator σ) :
    Draft σ × Generator σ :=
  let ((value, content), context) := content.fill ⟨generator.words, draft.clock⟩
  (⟨draft.outcomes ++ [⟨name, value, content⟩], context.clock⟩,
    { generator with
      form := generator.form.insert name content
      words := context.words })

/-- Filling out a field adds one outcome. -/
theorem length_fillField (name : String) (content : Content σ) (draft : Draft σ)
    (generator : Generator σ) :
    (generator.fillField name content draft).1.outcomes.length = draft.outcomes.length + 1 :=
  List.length_append

/-- Filling out a field leaves as many fields as there were. -/
theorem size_fillField {generator : Generator σ} {index : ℕ} {name : String} {content : Content σ}
    (due : generator.form.entries[index]? = some (name, content)) (draft : Draft σ) :
    (generator.fillField name content draft).2.form.size = generator.form.size := by
  have found : generator.form.get? name = some content :=
    Table.get?_of_mem (List.mem_of_getElem? due)
  have same : generator.form.Resembles (generator.fillField name content draft).2.form :=
    .insert found (content.resembles_fill (⟨generator.words, draft.clock⟩ : Context ChaCha8))
  have keys := congrArg List.length same.keys_eq
  rw [Table.keys, Table.keys, List.length_map, List.length_map] at keys
  exact keys.symm

/-- A generator is partway through a record that was begun in another state, with this draft: its
outcomes are those of the fields at the front of the form, and the other fields have been left
alone. -/
def Partway (start : Generator σ) (draft : Draft σ) (generator : Generator σ) : Prop :=
  ∃ front rest, start.form.entries = front ++ rest ∧
    (draft.outcomes, (⟨generator.words, draft.clock⟩ : Context ChaCha8)) =
      fillEach front start.context ∧
    generator.form.entries = draft.outcomes.map (fun o => (o.name, o.content)) ++ rest ∧
    generator.clock = start.clock ∧ generator.seed = start.seed

namespace Partway

variable {start generator : Generator σ} {draft : Draft σ}

/-- A record that has just been begun. -/
protected theorem refl (start : Generator σ) : start.Partway start.draft start :=
  ⟨[], start.form.entries, rfl, rfl, rfl, rfl, rfl⟩

/-- **The next field is filled out after those before it.** -/
theorem fillField (h : start.Partway draft generator) {name : String} {content : Content σ}
    (due : generator.form.entries[draft.outcomes.length]? = some (name, content)) :
    start.Partway (generator.fillField name content draft).1
      (generator.fillField name content draft).2 := by
  obtain ⟨front, rest, split, filled, entries, clock, seed⟩ := h
  obtain ⟨rest, rfl⟩ : ∃ tail, rest = (name, content) :: tail := by
    rw [entries, List.getElem?_append_right (by simp), List.length_map, Nat.sub_self] at due
    rcases rest with _ | ⟨entry, tail⟩
    · cases due
    · exact ⟨tail, congrArg (· :: tail) (Option.some.inj due)⟩
  refine ⟨front ++ [(name, content)], rest, ?_, ?_, ?_, clock, seed⟩
  · rw [split, List.append_assoc, List.singleton_append]
  · rw [fillEach_append, ← filled]
    rfl
  · have ordered := generator.form.ordered
    rw [entries] at ordered
    show insertEntry name _ generator.form.entries = (draft.outcomes ++ [_]).map _ ++ rest
    rw [entries, insertEntry_append ordered, List.map_append, List.append_assoc]
    rfl

/-- **When no field is due, the record is made**, as if it had been made in one go. -/
theorem result_next (h : start.Partway draft generator)
    (done : generator.form.entries[draft.outcomes.length]? = none) :
    next.result start = (recordOf draft.outcomes, generator.resume draft) := by
  obtain ⟨front, rest, split, filled, entries, clock, seed⟩ := h
  obtain rfl : rest = [] := by
    rw [entries, List.getElem?_append_right (by simp), List.length_map, Nat.sub_self] at done
    rcases rest with _ | ⟨entry, tail⟩
    · rfl
    · cases done
  rw [List.append_nil] at split entries
  have run : fillEach start.form.entries start.context =
      (draft.outcomes, ⟨generator.words, draft.clock⟩) := by
    rw [split, filled]
  have ordered : (draft.outcomes.map (·.name)).Pairwise (· < ·) := by
    have names := names_fillEach start.form.entries start.context
    rw [run] at names
    rw [names]
    exact List.pairwise_map.mpr start.form.ordered
  have record : (start.form.fill start.context).1.1 = recordOf draft.outcomes := by
    refine Table.ext_entries ?_
    rw [recordOf, Table.entries_ofList (inKeyOrder_map_outcome _ ordered)]
    show (fillEach start.form.entries start.context).1.map _ = _
    rw [run]
  have form : (start.form.fill start.context).1.2 = generator.form := by
    refine Table.ext_entries ?_
    show (fillEach start.form.entries start.context).1.map _ = _
    rw [run, entries]
  have context : (start.form.fill start.context).2 = ⟨generator.words, draft.clock⟩ :=
    congrArg Prod.snd run
  show ((start.form.fill start.context).1.1, Generator.mk (start.form.fill start.context).1.2
    (start.form.fill start.context).2.words
    (start.clock.resume (start.form.fill start.context).2.clock) start.seed) = _
  rw [record, form, context, ← clock, ← seed]
  rfl

end Partway

end Generator

end Stencil
