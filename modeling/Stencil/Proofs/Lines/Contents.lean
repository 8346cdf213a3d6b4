import Mathlib.Tactic.Common
import Stencil.Lines.Counted

/-!
# What is written is never lost

A sink may take its bytes in any portions, refuse some of them, fail and go on later, and a buffer
in front of it may pass them on at any time. Still what the sink has taken and what the buffer holds
are, put together, always a front of what has been written, and all of it as long as no attempt has
failed. The counter sits in front of the buffer, so it sees neither the sink nor the moment at which
bytes are passed on. It is right all the same, because each call adds to the count just what it adds
to those two together.

* `Stencil.Buffer.contents`: the bytes taken by the sink and the bytes held;
* `Stencil.Counted.Exact`: the count is the number of these;
* `Stencil.Counted.Adds`: steps that add bytes, or a front of them, and keep the count right;
* `Stencil.Counted.adds_writePieces`: writing pieces is such a step;
* `Stencil.Counted.writePieces_of_fits`: pieces that the buffer has room for.
-/

namespace Stencil

variable {ω : Type}

/-! ### Sinks -/

namespace Recorded

/-- Bytes kept in two portions are kept. -/
theorem keep_keep (r : Recorded ω) (first second : ω) (front back : List UInt8) :
    (r.keep first front).keep second back = r.keep second (front ++ back) := by
  simp [keep, List.reverseAux_eq]

/-- A recorded sink is determined by the sink and the bytes that it has taken. -/
theorem ext_held {r s : Recorded ω} (sink : r.sink = s.sink) (held : r.held = s.held) : r = s := by
  obtain ⟨_, _⟩ := r
  obtain ⟨_, _⟩ := s
  have backwards := List.reverse_inj.mp held
  simp_all

variable [Sink ω]

/-- What is taken of an offer is a front of it. -/
theorem held_offer (bytes : List UInt8) (r : Recorded ω) :
    (offer bytes r).1 ≤ bytes.length ∧
      (offer bytes r).2.held = r.held ++ bytes.take (offer bytes r).1 := by
  refine ⟨List.length_take_le' .., ?_⟩
  show (r.keep _ _).held = _ ++ bytes.take (bytes.take _).length
  rw [held_keep, List.length_take, ← List.take_eq_take_min]

/-- What is taken and what is left of a delivery are all of it. -/
theorem held_deliver (rounds : ℕ) (bytes : List UInt8) (r : Recorded ω) :
    (deliver rounds bytes r).2.held ++ (deliver rounds bytes r).1 = r.held ++ bytes := by
  induction rounds generalizing bytes r with
  | zero => rfl
  | succ rounds ih =>
    rcases bytes with _ | ⟨byte, rest⟩
    · rfl
    · obtain ⟨-, held⟩ := held_offer (byte :: rest) r
      rcases offered : offer (byte :: rest) r with ⟨taken, after⟩
      rw [offered] at held
      dsimp only at held
      simp only [deliver, List.isEmpty_cons, Bool.false_eq_true, if_false, bind, StateT.bind,
        offered]
      split
      next nothing =>
        show after.held ++ (byte :: rest) = _
        rw [held, nothing, List.take_zero, List.append_nil]
      next => rw [ih, held, List.append_assoc, List.take_append_drop]

end Recorded

/-! ### Buffers -/

namespace Buffer

/-- What a buffer has been given: the bytes that the sink has taken, and those that it holds. -/
def contents (buffer : Buffer ω) : List UInt8 := buffer.target.held ++ buffer.pending.toList

/-- A buffer that holds more bytes. -/
def hold (buffer : Buffer ω) (bytes : List UInt8) : Buffer ω :=
  { buffer with pending := buffer.pending ++ bytes }

@[simp] theorem toList_pending_hold (buffer : Buffer ω) (bytes : List UInt8) :
    (buffer.hold bytes).pending.toList = buffer.pending.toList ++ bytes :=
  Array.toList_appendList

@[simp] theorem size_pending_hold (buffer : Buffer ω) (bytes : List UInt8) :
    (buffer.hold bytes).pending.size = buffer.pending.size + bytes.length := by
  rw [← Array.length_toList, toList_pending_hold, List.length_append, Array.length_toList]

@[simp] theorem hold_nil (buffer : Buffer ω) : buffer.hold [] = buffer :=
  congrArg (Buffer.mk · buffer.target) Array.appendList_nil

@[simp] theorem hold_hold (buffer : Buffer ω) (first second : List UInt8) :
    (buffer.hold first).hold second = buffer.hold (first ++ second) :=
  congrArg (Buffer.mk · buffer.target) (Array.ext' (by simp [hold]))

/-- Bytes that are held come last. -/
theorem contents_hold (buffer : Buffer ω) (bytes : List UInt8) :
    (buffer.hold bytes).contents = buffer.contents ++ bytes := by
  rw [contents, toList_pending_hold, ← List.append_assoc]
  rfl

variable [Sink ω]

/-- Passing on what a buffer holds does not change what it has been given. -/
theorem contents_flush (buffer : Buffer ω) : (flush buffer).2.contents = buffer.contents :=
  Recorded.held_deliver buffer.pending.size buffer.pending.toList buffer.target

/-- A buffer that has been passed on without failure is empty. -/
theorem pending_flush {buffer : Buffer ω} (passed : (flush buffer).1 = true) :
    (flush buffer).2.pending = #[] := by
  have empty := List.isEmpty_iff.mp passed
  show List.toArray _ = _
  rw [empty]

/-- Making room for a piece passes on what the buffer holds, or leaves the buffer alone. -/
theorem makeRoom_cases (size : ℕ) (buffer : Buffer ω) :
    makeRoom size buffer = flush buffer ∨
      buffer.pending.size + size ≤ bufferSize ∧ makeRoom size buffer = (true, buffer) := by
  have made : makeRoom size buffer =
      (if bufferSize < buffer.pending.size + size then flush else pure true) buffer := rfl
  rw [made]
  split
  next => exact .inl rfl
  next fits => exact .inr ⟨Nat.le_of_not_lt fits, rfl⟩

/-- There is room already for a piece that fits. -/
theorem makeRoom_of_fits {size : ℕ} {buffer : Buffer ω}
    (fits : buffer.pending.size + size ≤ bufferSize) : makeRoom size buffer = (true, buffer) := by
  show (if bufferSize < buffer.pending.size + size then flush else pure true) buffer = _
  rw [if_neg (Nat.not_lt.mpr fits)]
  rfl

theorem contents_makeRoom (size : ℕ) (buffer : Buffer ω) :
    (makeRoom size buffer).2.contents = buffer.contents := by
  rcases makeRoom_cases size buffer with made | ⟨-, made⟩
  · rw [made, contents_flush]
  · rw [made]

/-- If room has been made for a large piece, nothing else is held. -/
theorem pending_makeRoom {size : ℕ} (large : bufferSize ≤ size) {buffer : Buffer ω}
    (roomy : (makeRoom size buffer).1 = true) : (makeRoom size buffer).2.pending = #[] := by
  rcases makeRoom_cases size buffer with made | ⟨fits, made⟩
  · rw [made] at roomy ⊢
    exact pending_flush roomy
  · rw [made]
    show buffer.pending = #[]
    exact Array.eq_empty_of_size_eq_zero (by omega)

section Calls

variable {piece : List UInt8} {buffer : Buffer ω}

/-- A call fails if no room can be made. -/
theorem write_of_noRoom {between : Buffer ω}
    (made : makeRoom piece.length buffer = (false, between)) :
    write piece buffer = (none, between) := by
  simp only [write, bind, StateT.bind, made, Bool.not_false, if_true]
  rfl

/-- A piece that is smaller than the buffer is held. -/
theorem write_of_small {between : Buffer ω} (small : piece.length < bufferSize)
    (made : makeRoom piece.length buffer = (true, between)) :
    write piece buffer = (some piece.length, between.hold piece) := by
  simp only [write, bind, StateT.bind, made, small, Bool.not_true, Bool.false_eq_true, if_true,
    if_false]
  rfl

/-- A larger one is offered to the sink at once. -/
theorem write_of_large {between : Buffer ω} (large : bufferSize ≤ piece.length)
    (made : makeRoom piece.length buffer = (true, between)) :
    write piece buffer =
      (some (Recorded.offer piece between.target).1,
        { between with target := (Recorded.offer piece between.target).2 }) := by
  simp only [write, bind, StateT.bind, made, Nat.not_lt.mpr large, Bool.not_true,
    Bool.false_eq_true, if_false]
  rfl

/-- **A call adds what it takes**, and that is a front of the piece. -/
theorem contents_of_write {answer : Option ℕ} {after : Buffer ω}
    (written : write piece buffer = (answer, after)) :
    answer.getD 0 ≤ piece.length ∧
      after.contents = buffer.contents ++ piece.take (answer.getD 0) := by
  have same := contents_makeRoom piece.length buffer
  rcases made : makeRoom piece.length buffer with ⟨_ | _, between⟩
  · rw [made] at same
    obtain ⟨rfl, rfl⟩ := Prod.mk.inj ((write_of_noRoom made).symm.trans written)
    exact ⟨Nat.zero_le _, same.trans (List.append_nil _).symm⟩
  · rw [made] at same
    rcases Nat.lt_or_ge piece.length bufferSize with small | large
    · -- the piece is kept in the buffer
      obtain ⟨rfl, rfl⟩ := Prod.mk.inj ((write_of_small small made).symm.trans written)
      refine ⟨Nat.le_refl _, ?_⟩
      rw [contents_hold, same, Option.getD_some, List.take_length]
    · -- the piece is offered to the sink, and the buffer holds nothing that it would overtake
      have empty := pending_makeRoom large (congrArg Prod.fst made)
      rw [made] at empty
      obtain ⟨rfl, rfl⟩ := Prod.mk.inj ((write_of_large large made).symm.trans written)
      obtain ⟨within, held⟩ := Recorded.held_offer piece between.target
      refine ⟨within, ?_⟩
      rw [← same, contents, contents, empty, held]
      simp

end Calls

end Buffer

/-! ### Counters -/

theorem toNat_addCapped (bytes : UInt64) (more : ℕ) :
    (addCapped bytes more).toNat = min (bytes.toNat + more) (UInt64.size - 1) := by
  refine UInt64.toNat_ofNat_of_lt' (Nat.lt_of_le_of_lt (Nat.min_le_right ..) ?_)
  decide

/-- It does not matter whether a count is capped at every step or once. -/
theorem addCapped_addCapped (bytes : UInt64) (first second : ℕ) :
    addCapped (addCapped bytes first) second = addCapped bytes (first + second) := by
  refine UInt64.toNat_inj.mp ?_
  rw [toNat_addCapped, toNat_addCapped, toNat_addCapped]
  omega

theorem addCapped_zero (bytes : UInt64) : addCapped bytes 0 = bytes := by
  refine UInt64.toNat_inj.mp ?_
  rw [toNat_addCapped]
  exact Nat.min_eq_left (Nat.le_pred_of_lt bytes.toNat_lt)

namespace Counted

/-- What has been given to the buffer behind a counter. -/
def contents (counted : Counted ω) : List UInt8 := counted.buffer.contents

/-- **The count is right**: it is the number of bytes that the buffer has been given, or the largest
number of 64 bits if that is less. -/
def Exact (counted : Counted ω) : Prop :=
  counted.bytes.toNat = min counted.contents.length (UInt64.size - 1)

/-- It is right in the beginning. -/
theorem exact_fresh (sink : ω) : (fresh sink).Exact := rfl

/-- A count that is right stays right if it goes up by the number of bytes that are added. -/
theorem Exact.add {counted : Counted ω} (right : counted.Exact) {buffer : Buffer ω}
    {bytes : List UInt8} (given : buffer.contents = counted.contents ++ bytes) :
    Exact ⟨buffer, addCapped counted.bytes bytes.length⟩ := by
  have total : (contents ⟨buffer, addCapped counted.bytes bytes.length⟩).length =
      counted.contents.length + bytes.length := by
    rw [contents, given, List.length_append]
  rw [Exact, toNat_addCapped, total, right]
  omega

/-- A counter whose buffer holds more bytes. -/
def hold (counted : Counted ω) (bytes : List UInt8) : Counted ω :=
  ⟨counted.buffer.hold bytes, addCapped counted.bytes bytes.length⟩

@[simp] theorem hold_nil (counted : Counted ω) : counted.hold [] = counted := by
  rw [hold, Buffer.hold_nil, List.length_nil, addCapped_zero]

@[simp] theorem hold_hold (counted : Counted ω) (first second : List UInt8) :
    (counted.hold first).hold second = counted.hold (first ++ second) := by
  simp only [hold, Buffer.hold_hold, addCapped_addCapped, List.length_append]

/-- What is left of an attempt to add bytes to what a buffer has been given: they have been added if
the attempt succeeded, and otherwise at least no more than a front of them. -/
structure Adds (bytes : List UInt8) (counted : Counted ω) (attempt : Bool × Counted ω) : Prop where
  /-- In any case a front of the bytes has been added. -/
  front : attempt.2.contents <+: counted.contents ++ bytes
  /-- In any case the count is still right. -/
  exact : counted.Exact → attempt.2.Exact
  /-- If the attempt succeeded, all of the bytes have been added. -/
  all : attempt.1 = true → attempt.2.contents = counted.contents ++ bytes

/-- Doing nothing adds no bytes. -/
theorem Adds.nil (counted : Counted ω) : Adds [] counted (true, counted) where
  front := List.prefix_append ..
  exact := id
  all := fun _ => (List.append_nil _).symm

/-- An attempt that failed after a part of the bytes. -/
theorem Adds.part {front back : List UInt8} {counted after : Counted ω}
    (given : after.contents = counted.contents ++ front)
    (exact : counted.Exact → after.Exact) : Adds (front ++ back) counted (false, after) where
  front := by
    rw [← List.append_assoc, ← given]
    exact List.prefix_append ..
  exact := exact
  all := by
    rintro ⟨⟩

/-- An attempt to add more goes on from one that succeeded. -/
theorem Adds.trans {front back : List UInt8} {counted between : Counted ω}
    {attempt : Bool × Counted ω} (given : between.contents = counted.contents ++ front)
    (exact : counted.Exact → between.Exact) (second : Adds back between attempt) :
    Adds (front ++ back) counted attempt where
  front := by
    rw [← List.append_assoc, ← given]
    exact second.front
  exact := fun right => second.exact (exact right)
  all := by
    intro success
    rw [← List.append_assoc, ← given]
    exact second.all success

variable [Sink ω]

/-- **A call adds what it takes, and counts that.** -/
theorem contents_of_write {piece : List UInt8} {counted after : Counted ω} {answer : Option ℕ}
    (written : write piece counted = (answer, after)) :
    after.contents = counted.contents ++ piece.take (answer.getD 0) ∧
      (counted.Exact → after.Exact) := by
  rcases called : Buffer.write piece counted.buffer with ⟨_ | taken, buffer⟩
  · obtain ⟨-, given⟩ := Buffer.contents_of_write called
    simp only [write, called] at written
    obtain ⟨rfl, rfl⟩ := Prod.mk.inj written
    refine ⟨given, fun right => ?_⟩
    rw [Option.getD_none, List.take_zero, List.append_nil] at given
    show counted.bytes.toNat = _
    rw [right, contents, ← given]
    rfl
  · obtain ⟨within, given⟩ := Buffer.contents_of_write called
    simp only [write, called] at written
    obtain ⟨rfl, rfl⟩ := Prod.mk.inj written
    rw [Option.getD_some] at within given
    refine ⟨given, fun right => ?_⟩
    have exact := right.add given
    rwa [List.length_take_of_le within] at exact

/-- **A piece is added, or a front of it.** -/
theorem adds_writeAll (piece : List UInt8) (counted : Counted ω) :
    Adds piece counted (writeAll piece counted) := by
  induction length : piece.length using Nat.strongRecOn generalizing piece counted with
  | ind _ ih =>
    rcases piece with _ | ⟨byte, rest⟩
    · rw [writeAll_nil]
      exact .nil counted
    · rw [writeAll_cons]
      rcases written : write (byte :: rest) counted with ⟨_ | _ | more, after⟩
      · -- the call failed
        obtain ⟨given, exact⟩ := contents_of_write written
        exact .part given exact
      · -- the call took nothing
        obtain ⟨given, exact⟩ := contents_of_write written
        exact .part given exact
      · obtain ⟨given, exact⟩ := contents_of_write written
        have fewer : (rest.drop more).length < (byte :: rest).length := by
          rw [List.length_drop, List.length_cons]
          omega
        have both := Adds.trans given exact (ih _ (length ▸ fewer) (rest.drop more) after rfl)
        rw [Option.getD_some, List.take_succ_cons, List.cons_append, List.take_append_drop] at both
        exact both

/-- **Pieces are added one after the other**, until an attempt fails. -/
theorem adds_writePieces (pieces : List (List UInt8)) (counted : Counted ω) :
    Adds pieces.flatten counted (writePieces pieces counted) := by
  induction pieces generalizing counted with
  | nil => exact .nil counted
  | cons piece more ih =>
    have first := adds_writeAll piece counted
    rw [List.flatten_cons]
    rcases written : writeAll piece counted with ⟨_ | _, between⟩
    · rw [written] at first
      simp only [writePieces, bind, StateT.bind, written, Bool.false_eq_true, if_false]
      refine ⟨first.front.trans ?_, first.exact, ?_⟩
      · rw [← List.append_assoc]
        exact List.prefix_append ..
      · rintro ⟨⟩
    · rw [written] at first
      simp only [writePieces, bind, StateT.bind, written, if_true]
      exact .trans (first.all rfl) first.exact (ih between)

/-! ### Pieces that fit -/

/-- A piece that the buffer has room for is added to what the buffer holds, unless it fills the
buffer by itself. -/
theorem writeAll_of_fits {piece : List UInt8} {counted : Counted ω}
    (short : piece.length < bufferSize)
    (fits : counted.buffer.pending.size + piece.length ≤ bufferSize) :
    writeAll piece counted = (true, counted.hold piece) := by
  rcases piece with _ | ⟨byte, rest⟩
  · rw [writeAll_nil, hold_nil]
  · have called := Buffer.write_of_small short (Buffer.makeRoom_of_fits fits)
    have written : write (byte :: rest) counted =
        (some (rest.length + 1), counted.hold (byte :: rest)) := by
      simp only [write, called]
      rfl
    rw [writeAll_cons, written]
    dsimp only
    rw [List.drop_length, writeAll_nil]

/-- **Pieces that the buffer has room for are added to what the buffer holds.** -/
theorem writePieces_of_fits {pieces : List (List UInt8)} {counted : Counted ω}
    (short : ∀ piece ∈ pieces, piece.length < bufferSize)
    (fits : counted.buffer.pending.size + pieces.flatten.length ≤ bufferSize) :
    writePieces pieces counted = (true, counted.hold pieces.flatten) := by
  induction pieces generalizing counted with
  | nil => rw [List.flatten_nil, hold_nil]; rfl
  | cons piece more ih =>
    obtain ⟨head, tail⟩ := List.forall_mem_cons.mp short
    rw [List.flatten_cons, List.length_append] at fits
    have first : counted.buffer.pending.size + piece.length ≤ bufferSize := by omega
    have rest : (counted.hold piece).buffer.pending.size + more.flatten.length ≤ bufferSize := by
      rw [hold, Buffer.size_pending_hold]
      omega
    simp only [writePieces, bind, StateT.bind, writeAll_of_fits head first, if_true, ih tail rest,
      hold_hold, List.flatten_cons]

end Counted

end Stencil
