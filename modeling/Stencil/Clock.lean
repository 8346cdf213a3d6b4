/-!
# Clocks

Fields that show the time read a clock, once per evaluation. A clock is passed along like a
source of random words, since a running clock may show another time at each reading.

* `Stencil.Clock`: a frozen or a running clock;
* `Stencil.Clock.read`: a reading;
* `Stencil.Clock.resume`: a clock that has been lent.
-/

namespace Stencil

/-- A clock that shows seconds since the Unix epoch. -/
inductive Clock where
  /-- A clock that always shows the same time. -/
  | frozen (seconds : Int64)
  /-- A clock that shows `readings i` at its reading number `i`, with so many readings made. -/
  | running (readings : Nat → Int64) (made : Nat)

/-- Reads the clock. -/
def Clock.read : StateM Clock Int64 := fun clock =>
  match clock with
  | .frozen seconds => (seconds, clock)
  | .running readings made => (readings made, .running readings (made + 1))

/-- A clock that has been lent, and the clock that has come back for it. The own clock is kept,
whatever has been put in its place in the meantime; if it is running, it goes on after the readings
that have been made. -/
def Clock.resume (own back : Clock) : Clock :=
  match own, back with
  | .running readings _, .running _ made => .running readings made
  | own, _ => own

end Stencil
