import Stencil.Proofs.Lines.Front

/-!
# A sink that runs out of room

While all that has been written fits into the buffer, nothing of it reaches the sink: each piece is
added to what the buffer holds. So only the end of the attempt offers anything to the sink, and if
the sink has room for less, it takes as much of the front as it has room for. What is offered once
more after that is refused, so no byte arrives twice.

* `Stencil.Rationed`: sinks that take bytes in any portions while there is room;
* `Stencil.Recorded.deliver_of_rationed`: such a sink takes a front of what is delivered;
* `Stencil.finish_of_rationed`: so it does at the end of an attempt;
* `Stencil.result_forEach_writeLine_of_fits`: lines that fit into the buffer stay there until then.
-/

namespace Stencil

/-- Sinks with room for so many bytes: such a sink takes at least one byte of every offer as long as
it has room, and no more than it has room for. After that it takes nothing. -/
structure Rationed {ω : Type} [Sink ω] (Q : ℕ → ω → Prop) : Prop where
  /-- With room left, the sink takes something, and then has room for that much less. -/
  takes : ∀ {room sink}, Q (room + 1) sink → ∀ byte rest, ∃ n after, n ≤ room ∧ n ≤ rest.length ∧
    Sink.offer (byte :: rest) sink = (some (n + 1), after) ∧ Q (room - n) after
  /-- Without room, it fails or answers that it has taken nothing, now and later. -/
  refuses : ∀ {sink}, Q 0 sink → ∀ byte rest, ∃ answer after, answer.getD 0 = 0 ∧
    Sink.offer (byte :: rest) sink = (answer, after) ∧ Q 0 after

/-- A throttle with room for so many bytes is such a sink. -/
theorem rationed_throttle {chunk : Option ℕ} (positive : chunk ≠ some 0) :
    Rationed fun room (sink : Throttle) => sink = ⟨chunk, some room⟩ where
  takes := by
    rintro room sink rfl byte rest
    cases chunk with
    | none =>
      refine ⟨(rest.take room).length, _, ?_, ?_, rfl, ?_⟩
      · exact List.length_take_le ..
      · exact List.length_take_le' ..
      · simp [takeUpTo]
    | some limit =>
      obtain ⟨n, rfl⟩ := Nat.exists_eq_succ_of_ne_zero fun h => positive (congrArg some h)
      refine ⟨((rest.take n).take room).length, _, ?_, ?_, rfl, ?_⟩
      · exact List.length_take_le ..
      · exact Nat.le_trans (List.length_take_le' ..) (List.length_take_le' ..)
      · simp [takeUpTo]
  refuses := by
    rintro sink rfl byte rest
    exact ⟨none, _, rfl, rfl, rfl⟩

variable {ω σ : Type} [Sink ω] {Q : ℕ → ω → Prop}

/-! ### Sinks -/

namespace Recorded

/-- A sink without room takes nothing of what is delivered. -/
theorem deliver_of_full (rationed : Rationed Q) (rounds : ℕ) (bytes : List UInt8) {r : Recorded ω}
    (hr : Q 0 r.sink) :
    ∃ after, deliver rounds bytes r = (bytes, r.keep after []) ∧ Q 0 after := by
  match rounds, bytes with
  | 0, bytes => exact ⟨r.sink, rfl, hr⟩
  | rounds + 1, [] => exact ⟨r.sink, rfl, hr⟩
  | rounds + 1, byte :: rest =>
    obtain ⟨answer, after, nothing, answered, hafter⟩ := rationed.refuses hr byte rest
    have offered : offer (byte :: rest) r = (0, r.keep after []) := by
      simp only [offer]
      rw [answered]
      simp only [nothing, List.take_zero, List.length_nil]
    refine ⟨after, ?_, hafter⟩
    simp only [deliver, List.isEmpty_cons, Bool.false_eq_true, if_false, bind, StateT.bind, offered,
      if_true]
    rfl

/-- **Of what is delivered, a sink takes as much of the front as it has room for.** -/
theorem deliver_of_rationed (rationed : Rationed Q) :
    ∀ (rounds : ℕ) {bytes : List UInt8} {room : ℕ} {r : Recorded ω}, bytes.length ≤ rounds →
      Q room r.sink → ∃ after, deliver rounds bytes r =
        (bytes.drop room, r.keep after (bytes.take room)) ∧ Q (room - bytes.length) after := by
  intro rounds
  induction rounds with
  | zero =>
    intro bytes room r bound hr
    obtain rfl := List.length_eq_zero_iff.mp (Nat.le_zero.mp bound)
    refine ⟨r.sink, ?_, hr⟩
    rw [List.drop_nil, List.take_nil]
    rfl
  | succ rounds ih =>
    intro bytes room r bound hr
    match room, bytes with
    | 0, bytes =>
      obtain ⟨after, delivered, hafter⟩ := deliver_of_full rationed (rounds + 1) bytes hr
      rw [Nat.zero_sub]
      exact ⟨after, delivered, hafter⟩
    | room + 1, [] => exact ⟨r.sink, rfl, hr⟩
    | room + 1, byte :: rest =>
      obtain ⟨n, first, roomy, within, answered, hfirst⟩ := rationed.takes hr byte rest
      have length : ((byte :: rest).take (n + 1)).length = n + 1 :=
        List.length_take_of_le (Nat.succ_le_succ within)
      have offered : offer (byte :: rest) r =
          (n + 1, r.keep first ((byte :: rest).take (n + 1))) := by
        simp only [offer]
        rw [answered]
        simp only [Option.getD_some, length]
      have fewer : ((byte :: rest).drop (n + 1)).length ≤ rounds := by
        simp only [List.length_cons] at bound
        rw [List.drop_succ_cons, List.length_drop]
        omega
      obtain ⟨after, delivered, hafter⟩ :=
        ih (r := r.keep first ((byte :: rest).take (n + 1))) fewer hfirst
      refine ⟨after, ?_, ?_⟩
      · -- one offer, and then the rest of the bytes with the rest of the room
        have step : deliver (rounds + 1) (byte :: rest) r =
            deliver rounds ((byte :: rest).drop (n + 1))
              (r.keep first ((byte :: rest).take (n + 1))) := by
          simp only [deliver, List.isEmpty_cons, Bool.false_eq_true, if_false, bind, StateT.bind,
            offered, Nat.succ_ne_zero]
        have total : n + 1 + (room - n) = room + 1 := by omega
        rw [step, delivered, keep_keep, List.drop_drop, ← List.take_add, total]
      · have left : room - n - ((byte :: rest).drop (n + 1)).length =
            room + 1 - (byte :: rest).length := by
          rw [List.drop_succ_cons, List.length_drop, List.length_cons]
          omega
        rwa [← left]

end Recorded

/-! ### Buffers -/

namespace Buffer

/-- Passing on what a buffer holds succeeds if the sink has room for it. -/
theorem flush_of_rationed (rationed : Rationed Q) {room : ℕ} {buffer : Buffer ω}
    (h : Q room buffer.target.sink) :
    ∃ after, flush buffer = (decide (buffer.pending.size ≤ room),
        ⟨(buffer.pending.toList.drop room).toArray,
          buffer.target.keep after (buffer.pending.toList.take room)⟩) ∧
      Q (room - buffer.pending.size) after := by
  obtain ⟨after, delivered, hafter⟩ :=
    Recorded.deliver_of_rationed rationed buffer.pending.size (Nat.le_of_eq Array.length_toList) h
  refine ⟨after, ?_, hafter⟩
  have left : (buffer.pending.toList.drop room).isEmpty = decide (buffer.pending.size ≤ room) := by
    rw [Bool.eq_iff_iff, List.isEmpty_iff, List.drop_eq_nil_iff, Array.length_toList,
      decide_eq_true_eq]
  simp only [flush]
  rw [delivered, ← left]

end Buffer

/-! ### Attempts -/

/-- **The end of an attempt passes on as much as the sink has room for.** It fails if that is not
all of it. -/
theorem finish_of_rationed (rationed : Rationed Q) {room : ℕ} {counted : Counted ω}
    (h : Q room counted.buffer.target.sink) :
    ∃ after, finish counted =
        ⟨if room < counted.buffer.pending.size then none else some counted.bytes, after⟩ ∧
      after.held = counted.buffer.target.held ++ counted.buffer.pending.toList.take room := by
  obtain ⟨⟨pending, target⟩, bytes⟩ := counted
  obtain ⟨after, flushed, hafter⟩ := Buffer.flush_of_rationed rationed h
  dsimp only at flushed hafter ⊢
  rcases Nat.lt_or_ge room pending.size with more | fits
  · -- the sink has no room left when the rest is offered once more
    rw [decide_eq_false (Nat.not_le.mpr more)] at flushed
    rw [Nat.sub_eq_zero_of_le (Nat.le_of_lt more)] at hafter
    have full : Q 0 (target.keep after (pending.toList.take room)).sink := hafter
    obtain ⟨last, again, -⟩ := Recorded.deliver_of_full rationed
      (pending.toList.drop room).length (pending.toList.drop room) full
    refine ⟨(target.keep after (pending.toList.take room)).keep last [], ?_, ?_⟩
    · simp only [finish, flushed, if_pos more]
      exact congrArg (fun answer : List UInt8 × Recorded ω => Written.mk none answer.2) again
    · rw [Recorded.held_keep, Recorded.held_keep, List.append_nil]
  · rw [decide_eq_true fits] at flushed
    refine ⟨target.keep after (pending.toList.take room), ?_, Recorded.held_keep ..⟩
    simp only [finish, flushed, if_neg (Nat.not_lt.mpr fits)]

variable [ValueSource σ]

/-- **Lines that the buffer has room for stay there until the end.** -/
theorem result_forEach_writeLine_of_fits (count : ℕ) {counted : Counted ω}
    (generator : Generator σ)
    (fits : counted.buffer.pending.size +
      (linesOf ((repeated Generator.next count).result generator).1).length ≤ bufferSize) :
    let run := (repeated Generator.next count).result generator
    ((Supply.mk count).forEach writeLine counted).result generator =
      ((true, counted.hold (linesOf run.1)), run.2) := by
  induction count generalizing generator counted with
  | zero =>
    simp only [Supply.forEach_zero, repeated, Action.result_pure, linesOf, List.flatMap_nil,
      Counted.hold_nil]
  | succ count ih =>
    rcases first : Generator.next.result generator with ⟨record, later⟩
    rw [result_repeated_succ, first] at fits ⊢
    dsimp only at fits ⊢
    rw [linesOf, List.flatMap_cons, ← linesOf] at fits ⊢
    rw [List.length_append] at fits
    have front : counted.buffer.pending.size + record.line.length ≤ bufferSize := by omega
    have back : (counted.hold record.line).buffer.pending.size +
        (linesOf ((repeated Generator.next count).result later).1).length ≤ bufferSize := by
      rw [Counted.hold, Buffer.size_pending_hold]
      omega
    rw [Supply.forEach_succ, Action.result_bind, first]
    simp only [writeLine_of_fits record front]
    rw [ih later back, Counted.hold_hold]

end Stencil
