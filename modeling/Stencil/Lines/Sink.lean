/-!
# Sinks

A sink takes bytes, but perhaps only some of those it is offered, and it may fail. A recorded sink
keeps the bytes that it has taken.

* `Stencil.Sink`: what a sink can do;
* `Stencil.Recorded`: a sink with the bytes that it has taken;
* `Stencil.Recorded.deliver`: offers bytes until all are taken;
* `Stencil.Throttle`: a sink with limits.
-/

namespace Stencil

/-- A sink for bytes. -/
class Sink (ω : Type) where
  /-- Offers bytes: how many of them the sink takes from the front, or nothing if it fails. -/
  offer : List UInt8 → StateM ω (Option Nat)

/-- A sink and the bytes that it has taken. -/
structure Recorded (ω : Type) where
  /-- The sink. -/
  sink : ω
  /-- The bytes, the last one first. -/
  backwards : List UInt8

namespace Recorded

variable {ω : Type}

/-- A sink that has not taken any bytes. -/
def fresh (sink : ω) : Recorded ω := ⟨sink, []⟩

/-- The bytes that the sink has taken, in the order in which it took them. -/
def held (r : Recorded ω) : List UInt8 := r.backwards.reverse

/-- Adds bytes to those that the sink has taken. -/
def keep (r : Recorded ω) (sink : ω) (taken : List UInt8) : Recorded ω :=
  ⟨sink, taken.reverseAux r.backwards⟩

/-- The bytes kept last come last. -/
theorem held_keep (r : Recorded ω) (sink : ω) (taken : List UInt8) :
    (r.keep sink taken).held = r.held ++ taken := by
  simp [held, keep, List.reverseAux_eq]

variable [Sink ω]

/-- Offers bytes to the sink and keeps those that it takes. The answer is how many that are; a sink
that fails takes none. -/
def offer (bytes : List UInt8) : StateM (Recorded ω) Nat := fun r =>
  let (answer, sink) := Sink.offer bytes r.sink
  let taken := bytes.take (answer.getD 0)
  (taken.length, r.keep sink taken)

/-- Offers bytes until all are taken, and answers those that are left when the sink takes none. Each
round takes at least one byte, so there need be no more rounds than bytes. -/
def deliver : (rounds : Nat) → List UInt8 → StateM (Recorded ω) (List UInt8)
  | 0, bytes => return bytes
  | rounds + 1, bytes => do
    if bytes.isEmpty then return []
    let taken ← offer bytes
    if taken = 0 then return bytes else deliver rounds (bytes.drop taken)

end Recorded

/-! ### Sinks with limits -/

/-- A sink that takes no more than `chunk` bytes at a time, and fails when it has room for no
more. -/
structure Throttle where
  /-- The most bytes that are taken at a time; none stands for no limit. -/
  chunk : Option Nat
  /-- The number of bytes that there is room for; none stands for no limit. -/
  room : Option Nat
deriving DecidableEq, Repr

/-- The front of a list, as long as a limit allows, if there is one. -/
def takeUpTo {α : Type} (limit : Option Nat) (l : List α) : List α :=
  match limit with
  | some n => l.take n
  | none => l

instance : Sink Throttle where
  offer bytes throttle :=
    let taken := (takeUpTo throttle.room (takeUpTo throttle.chunk bytes)).length
    if throttle.room = some 0 then (none, throttle)
    else (some taken, { throttle with room := throttle.room.map (· - taken) })

end Stencil
