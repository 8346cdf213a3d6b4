import Stencil.Proofs.Generator.Stream
import Stencil.Proofs.Lines.Contents

/-!
# What reaches any sink

A sink may take its bytes in any portions, refuse some of them, fail and go on later. At the end of
an attempt the sink has a front of the lines of the records that were made, because these are what
the buffer has been given. If the attempt succeeded the sink has all of them, and the answer is
their number of bytes, up to the largest number of 64 bits.

Records can remain unmade only after a failure, and there is none before the buffer is full.

* `Stencil.Record.line`, `Stencil.linesOf`: the bytes of a line, and of several;
* `Stencil.Leaves`: what is left of writing records through a buffer;
* `Stencil.exists_leaves`: writing records leaves that;
* `Stencil.exists_result_writeLines`: what is left of writing records to any sink.
-/

namespace Stencil

variable {ω σ : Type}

/-! ### Lines -/

/-- The line of a record: its text and a line feed, as bytes. -/
def Record.line (record : Record) : List UInt8 := bytesOf (record.text.toList ++ ['\n'])

/-- The lines of records, put together. -/
def linesOf (records : List Record) : List UInt8 := records.flatMap Record.line

/-- A line is put together from its pieces. -/
theorem Record.line_eq_flatten (record : Record) : record.line = record.linePieces.flatten :=
  record.flatten_linePieces.symm

/-- No piece of a line that the buffer has room for fills the buffer by itself. -/
theorem Record.length_lt_of_mem_linePieces {record : Record} {piece : List UInt8}
    (mem : piece ∈ record.linePieces) (fits : record.line.length ≤ bufferSize) :
    piece.length < bufferSize := by
  have split : record.linePieces =
      (Json.object record.entries).pieces.map bytesOf ++ [bytesOf ['\n']] := by
    rw [linePieces, List.map_append]
    rfl
  have total : record.line.length =
      ((Json.object record.entries).pieces.map bytesOf).flatten.length + 1 := by
    rw [record.line_eq_flatten, split, List.flatten_append, List.length_append]
    rfl
  rw [split] at mem
  rcases List.mem_append.mp mem with inner | last
  · have part := (List.sublist_flatten_of_mem inner).length_le
    omega
  · obtain rfl := List.mem_singleton.mp last
    decide

variable [Sink ω]

/-- **A line is added to what the buffer has been given, or a front of it.** -/
theorem adds_writeLine (record : Record) (counted : Counted ω) :
    Counted.Adds record.line counted (writeLine record counted) := by
  rw [record.line_eq_flatten]
  exact Counted.adds_writePieces record.linePieces counted

/-- **A line that the buffer has room for is added to what the buffer holds.** -/
theorem writeLine_of_fits (record : Record) {counted : Counted ω}
    (fits : counted.buffer.pending.size + record.line.length ≤ bufferSize) :
    writeLine record counted = (true, counted.hold record.line) := by
  have small : record.line.length ≤ bufferSize := by omega
  rw [record.line_eq_flatten] at fits ⊢
  exact Counted.writePieces_of_fits
    (fun piece mem => Record.length_lt_of_mem_linePieces mem small) fits

/-! ### Attempts -/

/-- After an attempt that failed the sink has a front of what the buffer has been given. -/
theorem held_giveUp (counted : Counted ω) :
    (giveUp counted).target.held <+: counted.contents := by
  rw [Counted.contents, ← Buffer.contents_flush counted.buffer]
  exact List.prefix_append ..

/-- Whatever happens at the end of an attempt, the sink has a front of what the buffer has been
given. If the attempt succeeded it has all of that, and the answer is the count. -/
theorem held_finish (counted : Counted ω) :
    (finish counted).target.held <+: counted.contents ∧
      ∀ total, (finish counted).size = some total →
        total = counted.bytes ∧ (finish counted).target.held = counted.contents := by
  have same := Buffer.contents_flush counted.buffer
  have empty := @Buffer.pending_flush ω _ counted.buffer
  rcases flushed : Buffer.flush counted.buffer with ⟨_ | _, after⟩
  · rw [flushed] at same
    simp only [finish, flushed]
    refine ⟨?_, ?_⟩
    · rw [Counted.contents, ← same]
      exact held_giveUp ⟨after, counted.bytes⟩
    · rintro total ⟨⟩
  · rw [flushed] at same empty
    have held : after.target.held = counted.contents := by
      rw [Counted.contents, ← same, Buffer.contents, empty rfl]
      simp
    simp only [finish, flushed]
    exact ⟨held ▸ List.prefix_rfl, fun total success => ⟨(Option.some.inj success).symm, held⟩⟩

variable [ValueSource σ]

/-- What is left of writing records through a buffer: some of the records have been made, one after
the other, and their lines or a front of these have been added to what the buffer has been given. -/
structure Leaves (count : ℕ) (counted : Counted ω) (made : ℕ) (lines : List UInt8)
    (attempt : Bool × Counted ω) : Prop where
  /-- No more records have been made than were asked for. -/
  made_le : made ≤ count
  /-- The lines of the records have been added, or a front of them. -/
  adds : Counted.Adds lines counted attempt
  /-- If the attempt succeeded, all records have been made. -/
  complete : attempt.1 = true → made = count
  /-- If the buffer had room for the lines, all records have been made. -/
  all_made : counted.buffer.pending.size + lines.length ≤ bufferSize → made = count

namespace Leaves

variable {count made : ℕ} {counted between : Counted ω} {line lines : List UInt8}
  {attempt : Bool × Counted ω}

omit [Sink ω] in
/-- A line that went into the buffer, and what comes after it. -/
theorem cons (first : Counted.Adds line counted (true, between))
    (kept : counted.buffer.pending.size + line.length ≤ bufferSize → between = counted.hold line)
    (h : Leaves count between made lines attempt) :
    Leaves (count + 1) counted (made + 1) (line ++ lines) attempt where
  made_le := Nat.succ_le_succ h.made_le
  adds := .trans (first.all rfl) first.exact h.adds
  complete := fun success => congrArg Nat.succ (h.complete success)
  all_made := by
    intro fits
    rw [List.length_append] at fits
    have same := kept (by omega)
    refine congrArg Nat.succ (h.all_made ?_)
    rw [same, Counted.hold, Buffer.size_pending_hold]
    omega

omit [Sink ω] in
/-- A line that did not go into the buffer, after which no record is made. -/
theorem failed (first : Counted.Adds line counted (false, between))
    (full : bufferSize < counted.buffer.pending.size + line.length) :
    Leaves (count + 1) counted 1 line (false, between) where
  made_le := Nat.succ_pos count
  adds := first
  complete := by
    rintro ⟨⟩
  all_made := fun fits => absurd full (Nat.not_lt_of_le fits)

end Leaves

/-- **Records are made and written one after the other**, until a line does not go into the buffer.
Nothing but the making of records is reported. -/
theorem exists_leaves (count : ℕ) (counted : Counted ω) (generator : Generator σ) :
    ∃ made, let run := (repeated Generator.next made).result generator
      let attempt := ((Supply.mk count).forEach writeLine counted).result generator
      attempt.2 = run.2 ∧
      ((Supply.mk count).forEach writeLine counted).events generator =
        (repeated Generator.next made).events generator ∧
      Leaves count counted made (linesOf run.1) attempt.1 := by
  induction count generalizing counted generator with
  | zero =>
    rw [Supply.forEach_zero]
    exact ⟨0, rfl, rfl, Nat.le_refl 0, .nil counted, fun _ => rfl, fun _ => rfl⟩
  | succ count ih =>
    rcases first : Generator.next.result generator with ⟨record, later⟩
    have added := adds_writeLine record counted
    have kept := @writeLine_of_fits ω _ record counted
    rcases written : writeLine record counted with ⟨_ | _, between⟩
    · -- had the buffer had room for the line, it would have gone in
      rw [written] at added kept
      have full : bufferSize < counted.buffer.pending.size + record.line.length :=
        Nat.lt_of_not_le fun fits => by cases kept fits
      have line : linesOf [record] = record.line := List.append_nil _
      refine ⟨1, ?_⟩
      rw [result_repeated_succ, events_repeated_succ, first, Supply.forEach_succ,
        Action.result_bind, Action.events_bind, first]
      simp only [written]
      refine ⟨rfl, rfl, ?_⟩
      show Leaves (count + 1) counted 1 (linesOf [record]) (false, between)
      rw [line]
      exact .failed added full
    · rw [written] at added kept
      obtain ⟨made, same, reported, leaves⟩ := ih between later
      refine ⟨made + 1, ?_⟩
      rw [result_repeated_succ, events_repeated_succ, first, Supply.forEach_succ,
        Action.result_bind, Action.events_bind, first]
      simp only [written]
      rw [linesOf, List.flatMap_cons, ← linesOf]
      exact ⟨same, congrArg _ reported,
        leaves.cons added fun fits => (Prod.mk.inj (kept fits)).2⟩

/-- **Records written to any sink.** The generator is left as by making some of the records, no more
than were asked for, and what is reported is the making of these. The sink has a front of their
lines. If the buffer has room for the lines no record is missing. If the attempt succeeded no record
is missing, the sink has all lines, and the answer is their number of bytes, or the largest number
of 64 bits if that is less. -/
theorem exists_result_writeLines (sink : ω) (count : ℕ) (generator : Generator σ) :
    ∃ made ≤ count, let run := (repeated Generator.next made).result generator
      let written := (writeLines sink count).result generator
      written.2 = run.2 ∧
      (writeLines sink count).events generator =
        (repeated Generator.next made).events generator ∧
      written.1.target.held <+: linesOf run.1 ∧
      ((linesOf run.1).length ≤ bufferSize → made = count) ∧
      ∀ total, written.1.size = some total →
        made = count ∧ total.toNat = min (linesOf run.1).length (UInt64.size - 1) ∧
          written.1.target.held = linesOf run.1 := by
  obtain ⟨made, same, reported, leaves⟩ := exists_leaves count (.fresh sink) generator
  refine ⟨made, leaves.made_le, ?_⟩
  dsimp only
  rw [writeLines, Action.result_bind, Action.events_bind_pure]
  rcases left : ((Supply.mk count).forEach writeLine (.fresh sink)).result generator with
    ⟨⟨complete, counted⟩, later⟩
  rw [left] at same leaves
  obtain ⟨-, ⟨front, exact, all⟩, whole, all_made⟩ := leaves
  refine ⟨same, reported, ?_⟩
  -- the buffer had not been given anything before
  rw [show (Counted.fresh sink).contents = [] from rfl, List.nil_append] at front all
  have small : (linesOf ((repeated Generator.next made).result generator).1).length ≤ bufferSize →
      made = count := fun fits => all_made (Nat.le_trans (Nat.le_of_eq (Nat.zero_add _)) fits)
  cases complete
  · refine ⟨(held_giveUp counted).trans front, small, ?_⟩
    rintro total ⟨⟩
  · obtain ⟨part, success⟩ := held_finish counted
    refine ⟨part.trans front, small, fun total answered => ?_⟩
    obtain ⟨rfl, held⟩ := success total answered
    refine ⟨whole rfl, ?_, held.trans (all rfl)⟩
    rw [exact (Counted.exact_fresh sink), all rfl]

end Stencil
