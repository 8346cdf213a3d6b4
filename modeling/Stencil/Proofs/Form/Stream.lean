import Mathlib.Logic.Function.Iterate
import Mathlib.Tactic.Common
import Stencil.Form.Fill

/-!
# Streams of records

A form whose fields have no sources of the caller is the same after it has been filled out, so
filling it out again and again in one context gives a stream of records, which the form and the
context determine. A clock that is frozen is the same after that too; then only the random words
tell one place of the stream from another.

* `Stencil.Form.Plain`: forms without sources of the caller;
* `Stencil.Form.form_fill`: filling out a plain form leaves it as it is;
* `Stencil.Form.recordAt`, `Stencil.Form.contextAfter`: the stream, and the context on the way;
* `Stencil.Form.firstRecords_add`: a stream can be left and taken up again.
-/

namespace Stencil

variable {γ σ : Type} [WordSource γ] [ValueSource σ]

/-! ### What filling out leaves as it is -/

/-- Filling out a field changes its content only if that is a source of the caller. -/
theorem Content.content_fill {content : Content σ} (plain : ∀ source, content ≠ .custom source)
    (context : Context γ) : (content.fill context).1.2 = content := by
  cases content with
  | custom source => exact absurd rfl (plain source)
  | uuid kind => cases kind <;> rfl
  | _ => rfl

/-- Only sources of the caller and running clocks change the clock of a context. -/
theorem Content.clock_fill {content : Content σ} (plain : ∀ source, content ≠ .custom source)
    {context : Context γ} {seconds : Int64} (frozen : context.clock = .frozen seconds) :
    (content.fill context).2.clock = .frozen seconds := by
  obtain ⟨words, clock⟩ := context
  obtain rfl : clock = .frozen seconds := frozen
  cases content with
  | custom source => exact absurd rfl (plain source)
  | uuid kind => cases kind <;> rfl
  | _ => rfl

/-- The first pass leaves the contents of plain fields as they are. -/
theorem entries_fillEach {entries : List (String × Content σ)}
    (plain : ∀ entry ∈ entries, ∀ source, entry.2 ≠ .custom source) (context : Context γ) :
    (fillEach entries context).1.map (fun o => (o.name, o.content)) = entries := by
  induction entries generalizing context with
  | nil => rfl
  | cons entry rest ih =>
    obtain ⟨head, tail⟩ := List.forall_mem_cons.mp plain
    show (entry.1, (entry.2.fill context).1.2) ::
      (fillEach rest (entry.2.fill context).2).1.map _ = entry :: rest
    rw [Content.content_fill head, ih tail]

/-- The first pass leaves a frozen clock as it is. -/
theorem clock_fillEach {entries : List (String × Content σ)}
    (plain : ∀ entry ∈ entries, ∀ source, entry.2 ≠ .custom source) {context : Context γ}
    {seconds : Int64} (frozen : context.clock = .frozen seconds) :
    (fillEach entries context).2.clock = .frozen seconds := by
  induction entries generalizing context with
  | nil => exact frozen
  | cons entry rest ih =>
    obtain ⟨head, tail⟩ := List.forall_mem_cons.mp plain
    show (fillEach rest (entry.2.fill context).2).2.clock = _
    exact ih tail (Content.clock_fill head frozen)

namespace Form

/-- A form is plain if no field of it has a source that the caller brought. -/
def Plain (form : Form σ) : Prop :=
  ∀ entry ∈ form.entries, ∀ source, entry.2 ≠ Content.custom source

/-- **Filling out a plain form leaves it as it is.** -/
theorem form_fill {form : Form σ} (plain : form.Plain) (context : Context γ) :
    (form.fill context).1.2 = form := by
  have same := entries_fillEach plain context
  obtain ⟨entries, ordered⟩ := form
  simp only [fill, same]

/-- Filling out a plain form leaves a frozen clock as it is. -/
theorem clock_fill {form : Form σ} (plain : form.Plain) {context : Context γ} {seconds : Int64}
    (frozen : context.clock = .frozen seconds) :
    (form.fill context).2.clock = .frozen seconds :=
  clock_fillEach plain frozen

/-! ### The stream -/

/-- The context after so many records have been made. -/
def contextAfter (form : Form σ) (context : Context γ) (count : Nat) : Context γ :=
  (fun context => (form.fill context).2)^[count] context

/-- The record of the stream after so many others. -/
def recordAt (form : Form σ) (context : Context γ) (index : Nat) : Record :=
  (form.fill (form.contextAfter context index)).1.1

/-- The first records of the stream. -/
def firstRecords (form : Form σ) (context : Context γ) (count : Nat) : List Record :=
  (List.range count).map (form.recordAt context)

variable (form : Form σ) (context : Context γ)

/-- Making records goes on in the context that those before have left. -/
theorem contextAfter_add (m n : Nat) :
    form.contextAfter context (m + n) = form.contextAfter (form.contextAfter context m) n := by
  rw [Nat.add_comm]
  exact Function.iterate_add_apply ..

/-- The stream goes on in the context that the records before have left. -/
theorem recordAt_add (m n : Nat) :
    form.recordAt context (m + n) = form.recordAt (form.contextAfter context m) n := by
  rw [recordAt, recordAt, contextAfter_add]

/-- **A stream can be left and taken up again**, and no record is lost or repeated by that. -/
theorem firstRecords_add (m n : Nat) :
    form.firstRecords context (m + n) =
      form.firstRecords context m ++ form.firstRecords (form.contextAfter context m) n := by
  simp only [firstRecords, List.range_add, List.map_append, List.map_map]
  -- only the records after the first ones are looked at in another context
  congr 1
  refine List.map_congr_left fun index _ => ?_
  exact recordAt_add form context m index

theorem firstRecords_succ (count : Nat) :
    form.firstRecords context (count + 1) =
      form.recordAt context 0 :: form.firstRecords (form.contextAfter context 1) count := by
  rw [Nat.add_comm]
  exact firstRecords_add form context 1 count

theorem length_firstRecords (count : Nat) : (form.firstRecords context count).length = count := by
  rw [firstRecords, List.length_map, List.length_range]

/-- A frozen clock stays the same along the stream of a plain form. -/
theorem clock_contextAfter {form : Form σ} (plain : form.Plain) {context : Context γ}
    {seconds : Int64} (frozen : context.clock = .frozen seconds) (count : Nat) :
    (form.contextAfter context count).clock = .frozen seconds := by
  induction count generalizing context with
  | zero => exact frozen
  | succ count ih => exact ih (clock_fill plain frozen)

end Form

end Stencil
