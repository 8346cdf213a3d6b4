import Stencil.Lines.Buffer

/-!
# Counted output

A counter in front of a buffer adds up the bytes that the buffer takes, call by call. It counts to
the largest number of 64 bits and stays there.

* `Stencil.Counted`: a buffer with the number of bytes that it has taken;
* `Stencil.Counted.write`: one call of the buffer;
* `Stencil.Counted.writeAll`, `Stencil.Counted.writePieces`: as many calls as a piece of output may
  need, or several pieces.
-/

namespace Stencil

/-- Adds to a number of 64 bits, and stays at the largest one if the sum is larger. -/
def addCapped (bytes : UInt64) (more : Nat) : UInt64 :=
  .ofNat (min (bytes.toNat + more) (UInt64.size - 1))

/-- A buffer with the number of bytes that it has taken. -/
structure Counted (ω : Type) where
  /-- The buffer. -/
  buffer : Buffer ω
  /-- The number of bytes, up to the largest number of 64 bits. -/
  bytes : UInt64

namespace Counted

variable {ω : Type}

/-- A buffer that has not taken any bytes. -/
def fresh (sink : ω) : Counted ω := ⟨⟨#[], .fresh sink⟩, 0⟩

variable [Sink ω]

/-- Hands a piece of output to the buffer, and counts what it takes of that. -/
def write (piece : List UInt8) : StateM (Counted ω) (Option Nat) := fun counted =>
  let (answer, buffer) := Buffer.write piece counted.buffer
  match answer with
  | none => (none, { counted with buffer })
  | some taken => (some taken, ⟨buffer, addCapped counted.bytes taken⟩)

/-- Hands a piece of output to the buffer until all of it is taken. The answer is whether that
succeeded; it does not if a call fails or takes nothing. -/
def writeAll : (piece : List UInt8) → StateM (Counted ω) Bool
  | [] => return true
  | byte :: rest => do
    match ← write (byte :: rest) with
    | none | some 0 => return false
    | some (more + 1) => writeAll (rest.drop more)
termination_by piece => piece.length

theorem writeAll_nil (counted : Counted ω) : writeAll [] counted = (true, counted) := by
  rw [writeAll]
  rfl

/-- A piece that is taken in part is followed up with the rest of it. -/
theorem writeAll_cons (byte : UInt8) (rest : List UInt8) (counted : Counted ω) :
    writeAll (byte :: rest) counted =
      match write (byte :: rest) counted with
      | (none, after) | (some 0, after) => (false, after)
      | (some (more + 1), after) => writeAll (rest.drop more) after := by
  rw [writeAll]
  show StateT.bind _ _ _ = _
  rw [StateT.bind]
  rcases write (byte :: rest) counted with ⟨_ | _ | more, after⟩ <;> rfl

/-- Takes pieces of output one after the other, until one fails. -/
def writePieces : (pieces : List (List UInt8)) → StateM (Counted ω) Bool
  | [] => return true
  | piece :: more => do if ← writeAll piece then writePieces more else return false

end Counted

end Stencil
