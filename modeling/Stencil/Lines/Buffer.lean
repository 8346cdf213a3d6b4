import Stencil.Lines.Sink

/-!
# Buffered output

A buffer collects pieces of output and passes them on together. It is emptied before a piece that
does not fit, and a piece as large as the buffer bypasses it.

* `Stencil.Buffer`: a buffer before a sink;
* `Stencil.Buffer.flush`: passes on what the buffer holds;
* `Stencil.Buffer.write`: takes a piece of output, or a front of it.
-/

namespace Stencil

/-- The number of bytes that a buffer has room for. -/
def bufferSize : Nat := 8192

/-- A buffer before a sink. -/
structure Buffer (ω : Type) where
  /-- The bytes that have not been passed on. -/
  pending : Array UInt8
  /-- The sink. -/
  target : Recorded ω

namespace Buffer

variable {ω : Type} [Sink ω]

/-- Passes on what the buffer holds. The answer is whether the sink has taken all of it; otherwise
the buffer keeps the rest. -/
def flush : StateM (Buffer ω) Bool := fun buffer =>
  let (left, target) :=
    Recorded.deliver buffer.pending.size buffer.pending.toList buffer.target
  (left.isEmpty, ⟨left.toArray, target⟩)

/-- Makes room for a piece of output. -/
def makeRoom (size : Nat) : StateM (Buffer ω) Bool := do
  if bufferSize < (← get).pending.size + size then flush else return true

/-- Takes a piece of output, or a front of it. The answer is the number of bytes that are taken, and
none if no room could be made. A piece that is offered to the sink at once may be taken in part, and
none of it is if the sink fails. -/
def write (piece : List UInt8) : StateM (Buffer ω) (Option Nat) := do
  if !(← makeRoom piece.length) then return none
  if piece.length < bufferSize then
    modify fun buffer => { buffer with pending := buffer.pending ++ piece }
    return some piece.length
  modifyGet fun buffer =>
    let (taken, target) := Recorded.offer piece buffer.target
    (some taken, { buffer with target })

end Buffer

end Stencil
