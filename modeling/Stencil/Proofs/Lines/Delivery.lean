import Mathlib.Tactic.Common
import Stencil.Proofs.Lines.Contents

/-!
# Sinks that never fail

A sink that takes at least one byte of every offer may still take its bytes in any portions. No
attempt to write to such a sink fails: whatever is delivered is taken in the end, so room can always
be made, and a piece that is taken in part is followed up until nothing of it is left. What the sink
then has is known already, because it is known for every attempt that does not fail.

* `Stencil.Willing`: sinks that take at least one byte of every offer;
* `Stencil.Recorded.deliver_of_willing`: such a sink takes all that is delivered;
* `Stencil.Counted.writePieces_of_willing`: pieces are written without failure.
-/

namespace Stencil

variable {ω : Type} [Sink ω] {Q : ω → Prop}

/-- Sinks that take at least one byte of every offer, and then are of the same kind again. -/
def Willing (Q : ω → Prop) : Prop :=
  ∀ sink, Q sink → ∀ byte rest, ∃ n after,
    Sink.offer (byte :: rest) sink = (some (n + 1), after) ∧ Q after

/-- A sink with a limit for each offer but none in all never fails, and offers do not change it. -/
theorem willing_throttle {chunk : Option Nat} (positive : chunk ≠ some 0) :
    Willing fun sink : Throttle => sink = ⟨chunk, none⟩ := by
  rintro sink rfl byte rest
  cases chunk with
  | none => exact ⟨rest.length, _, rfl, rfl⟩
  | some limit =>
    obtain ⟨n, rfl⟩ := Nat.exists_eq_succ_of_ne_zero fun h => positive (congrArg some h)
    refine ⟨(rest.take n).length, _, ?_, rfl⟩
    rfl

/-! ### Sinks -/

namespace Recorded

/-- A willing sink takes something of every offer. -/
theorem offer_of_willing (willing : Willing Q) {r : Recorded ω} (hr : Q r.sink) (byte : UInt8)
    (rest : List UInt8) :
    ∃ n after, offer (byte :: rest) r = (n + 1, after) ∧ Q after.sink := by
  obtain ⟨m, after, answer, kept⟩ := willing _ hr byte rest
  refine ⟨(rest.take m).length, r.keep after ((byte :: rest).take (m + 1)), ?_, kept⟩
  simp only [offer]
  rw [answer]
  rfl

/-- **A willing sink takes all that is delivered.** -/
theorem deliver_of_willing (willing : Willing Q) :
    ∀ (rounds : Nat) {bytes : List UInt8} {r : Recorded ω}, bytes.length ≤ rounds → Q r.sink →
      ∃ after, deliver rounds bytes r = ([], after) ∧ Q after.sink := by
  intro rounds
  induction rounds with
  | zero =>
    intro bytes r bound hr
    obtain rfl := List.length_eq_zero_iff.mp (Nat.le_zero.mp bound)
    exact ⟨r, rfl, hr⟩
  | succ rounds ih =>
    intro bytes r bound hr
    rcases bytes with _ | ⟨byte, rest⟩
    · exact ⟨r, rfl, hr⟩
    · obtain ⟨n, first, offered, hfirst⟩ := offer_of_willing willing hr byte rest
      have fewer : ((byte :: rest).drop (n + 1)).length ≤ rounds := by
        rw [List.length_cons] at bound
        rw [List.drop_succ_cons, List.length_drop]
        omega
      obtain ⟨after, delivered, hafter⟩ := ih fewer hfirst
      refine ⟨after, ?_, hafter⟩
      -- one offer, and then the rest of the bytes
      rw [← delivered]
      simp only [deliver, List.isEmpty_cons, Bool.false_eq_true, if_false, bind, StateT.bind,
        offered, Nat.succ_ne_zero]

end Recorded

/-! ### Buffers -/

namespace Buffer

/-- Passing on what a buffer holds succeeds. -/
theorem flush_of_willing (willing : Willing Q) {buffer : Buffer ω} (h : Q buffer.target.sink) :
    ∃ after, flush buffer = (true, after) ∧ Q after.target.sink := by
  obtain ⟨target, delivered, htarget⟩ :=
    Recorded.deliver_of_willing willing buffer.pending.size (Nat.le_of_eq (Array.length_toList)) h
  refine ⟨⟨#[], target⟩, ?_, htarget⟩
  simp only [flush]
  rw [delivered]
  rfl

/-- Room can be made for any piece. -/
theorem makeRoom_of_willing (willing : Willing Q) {buffer : Buffer ω} (h : Q buffer.target.sink)
    (size : Nat) : ∃ after, makeRoom size buffer = (true, after) ∧ Q after.target.sink := by
  rcases makeRoom_cases size buffer with made | ⟨-, made⟩
  · rw [made]
    exact flush_of_willing willing h
  · exact ⟨buffer, made, h⟩

/-- Something is taken of every piece. -/
theorem write_of_willing (willing : Willing Q) {buffer : Buffer ω} (h : Q buffer.target.sink)
    (byte : UInt8) (rest : List UInt8) :
    ∃ n after, write (byte :: rest) buffer = (some (n + 1), after) ∧ Q after.target.sink := by
  obtain ⟨between, made, hbetween⟩ := makeRoom_of_willing willing h (byte :: rest).length
  rcases Nat.lt_or_ge (byte :: rest).length bufferSize with small | large
  · exact ⟨rest.length, _, write_of_small small made, hbetween⟩
  · obtain ⟨n, target, offered, htarget⟩ :=
      Recorded.offer_of_willing willing hbetween byte rest
    refine ⟨n, { between with target }, ?_, htarget⟩
    rw [write_of_large large made, offered]

end Buffer

/-! ### Pieces -/

namespace Counted

/-- A piece is written without failure. -/
theorem writeAll_of_willing (willing : Willing Q) (piece : List UInt8) {counted : Counted ω}
    (h : Q counted.buffer.target.sink) :
    ∃ after, writeAll piece counted = (true, after) ∧ Q after.buffer.target.sink := by
  induction length : piece.length using Nat.strongRecOn generalizing piece counted with
  | ind _ ih =>
    rcases piece with _ | ⟨byte, rest⟩
    · exact ⟨counted, writeAll_nil counted, h⟩
    · obtain ⟨more, buffer, called, hbuffer⟩ := Buffer.write_of_willing willing h byte rest
      have written : write (byte :: rest) counted =
          (some (more + 1), ⟨buffer, addCapped counted.bytes (more + 1)⟩) := by
        simp only [write, called]
      have fewer : (rest.drop more).length < (byte :: rest).length := by
        rw [List.length_drop, List.length_cons]
        omega
      rw [writeAll_cons, written]
      exact ih _ (length ▸ fewer) (rest.drop more) hbuffer rfl

/-- **Pieces are written without failure**, one after the other. -/
theorem writePieces_of_willing (willing : Willing Q) (pieces : List (List UInt8))
    {counted : Counted ω} (h : Q counted.buffer.target.sink) :
    ∃ after, writePieces pieces counted = (true, after) ∧ Q after.buffer.target.sink := by
  induction pieces generalizing counted with
  | nil => exact ⟨counted, rfl, h⟩
  | cons piece more ih =>
    obtain ⟨between, written, hbetween⟩ := writeAll_of_willing willing piece h
    obtain ⟨after, rest, hafter⟩ := ih hbetween
    refine ⟨after, ?_, hafter⟩
    simp only [writePieces, bind, StateT.bind, written, if_true, rest]

end Counted

end Stencil
