import Stencil.Proofs.Lines.Delivery
import Stencil.Proofs.Lines.Front

/-!
# Delivery of records as lines

No record written to a sink that never fails goes wrong, so nothing ends the attempt early and the
sink has all lines in the end. They are the lines of the next records of the generator.

* `Stencil.forEach_writeLine_of_willing`: no line goes wrong;
* `Stencil.result_writeLines`: what is left of writing records to such a sink.
-/

namespace Stencil

variable {ω σ : Type} [Sink ω] {Q : ω → Prop}

/-- An attempt that succeeded so far succeeds in the end. -/
theorem finish_of_willing (willing : Willing Q) {counted : Counted ω}
    (h : Q counted.buffer.target.sink) :
    ∃ after, finish counted = ⟨some counted.bytes, after⟩ ∧ Q after.sink := by
  obtain ⟨after, flushed, hafter⟩ := Buffer.flush_of_willing willing h
  refine ⟨after.target, ?_, hafter⟩
  simp only [finish, flushed]

variable [ValueSource σ]

/-- **No line goes wrong**, so none is left unwritten. -/
theorem forEach_writeLine_of_willing (willing : Willing Q) (count : ℕ) {counted : Counted ω}
    (h : Q counted.buffer.target.sink) (generator : Generator σ) :
    ∃ after,
      (((Supply.mk count).forEach writeLine counted).result generator).1 = (true, after) ∧
      Q after.buffer.target.sink := by
  induction count generalizing counted generator with
  | zero =>
    rw [Supply.forEach_zero]
    exact ⟨counted, rfl, h⟩
  | succ count ih =>
    rcases first : Generator.next.result generator with ⟨record, later⟩
    obtain ⟨between, written, hbetween⟩ :=
      Counted.writePieces_of_willing willing record.linePieces h
    rw [← writeLine] at written
    rw [Supply.forEach_succ, Action.result_bind, first]
    simp only [written]
    exact ih hbetween later

/-- **A sink that never fails gets the lines of the next records**, and the answer is their number
of bytes, or the largest number of 64 bits if that is less. -/
theorem result_writeLines_of_willing (willing : Willing Q) {sink : ω} (h : Q sink) (count : ℕ)
    (generator : Generator σ) :
    let run := (repeated Generator.next count).result generator
    ∃ size after, (writeLines sink count).result generator = (⟨some size, after⟩, run.2) ∧
      size.toNat = min (linesOf run.1).length (UInt64.size - 1) ∧
      after.held = linesOf run.1 ∧ Q after.sink := by
  have start : Q (Counted.fresh sink).buffer.target.sink := h
  obtain ⟨counted, complete, hcounted⟩ :=
    forEach_writeLine_of_willing willing count start generator
  obtain ⟨after, finished, hafter⟩ := finish_of_willing willing hcounted
  have written : ((writeLines sink count).result generator).1 = ⟨some counted.bytes, after⟩ := by
    rw [writeLines, Action.result_bind, complete]
    exact finished
  obtain ⟨made, -, same, -, -, -, success⟩ := exists_result_writeLines sink count generator
  rw [written] at success
  obtain ⟨rfl, total, held⟩ := success counted.bytes rfl
  exact ⟨counted.bytes, after, Prod.ext written same, total, held, hafter⟩

/-- From a steady generator the lines are those of its stream. -/
theorem result_writeLines {generator : Generator σ} (willing : Willing Q)
    (steady : generator.Steady) (sink : ω) (h : Q sink) (count : ℕ) :
    ∃ size after, (writeLines sink count).result generator =
        (⟨some size, after⟩, generator.advance count) ∧
      size.toNat = min (linesOf (generator.firstRecords count)).length (UInt64.size - 1) ∧
      after.held = linesOf (generator.firstRecords count) ∧ Q after.sink := by
  have records := result_repeated (f := id) Generator.result_next steady count
  rw [List.map_id] at records
  have written := result_writeLines_of_willing willing h count generator
  rwa [records] at written

end Stencil
