import Stencil.Generator.Supply
import Stencil.Json.Pieces
import Stencil.Lines.Counted
import Stencil.Text.Bytes

/-!
# Records as lines

Records are written one to a line, as JSON, through a buffer that counts. Text of JSON has no line
feed, so the lines can be told apart. The records come from a supply, one at a time, and a line goes
into the buffer piece by piece, so a sink that fails may be noticed within a line.

* `Stencil.Record.linePieces`: the line of a record, in pieces;
* `Stencil.writeLines`: writes records to a sink.
-/

namespace Stencil

/-- The line of a record, in the pieces in which it is written. -/
def Record.linePieces (record : Record) : List (List UInt8) :=
  ((Json.object record.entries).pieces ++ [['\n']]).map bytesOf

/-- Together the pieces of a line are the text of the record and a line feed. -/
theorem Record.flatten_linePieces (record : Record) :
    record.linePieces.flatten = bytesOf (record.text.toList ++ ['\n']) := by
  rw [linePieces, flatten_map_bytesOf, List.flatten_append, Json.flatten_pieces]
  simp [text, Json.text]

/-- What is left of an attempt to write: the number of bytes written, unless the sink failed, and
the sink. -/
structure Written (ω : Type) where
  /-- The number of bytes, up to the largest number of 64 bits; none if the sink failed. -/
  size : Option UInt64
  /-- The sink, with the bytes that it has taken. -/
  target : Recorded ω

variable {ω σ : Type} [Sink ω] [ValueSource σ]

/-- Ends an attempt that failed: what the buffer holds is offered once more. -/
def giveUp (counted : Counted ω) : Written ω := ⟨none, (Buffer.flush counted.buffer).2.target⟩

/-- Ends an attempt that succeeded so far: passes on what the buffer holds. -/
def finish (counted : Counted ω) : Written ω :=
  match Buffer.flush counted.buffer with
  | (true, buffer) => ⟨some counted.bytes, buffer.target⟩
  | (false, buffer) => giveUp { counted with buffer }

/-- Writes the line of a record. -/
def writeLine (record : Record) : StateM (Counted ω) Bool := Counted.writePieces record.linePieces

/-- Writes so many records to a sink, one to a line. A record is made only when the lines before it
have gone into the buffer. -/
def writeLines (sink : ω) (count : Nat) : Action σ (Written ω) := do
  let (complete, counted) ← (Supply.mk count).forEach writeLine (.fresh sink)
  return if complete then finish counted else giveUp counted

end Stencil
