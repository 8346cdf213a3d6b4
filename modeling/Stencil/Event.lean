/-!
# Events

While it works, the library reports what it does. Reports are data: an action returns the events
that it reports along with its value, in the order in which they happened.

* `Stencil.Event`: what is reported, with the level, the message and the details of each event;
* `Stencil.Logged`: a value with the events reported on the way to it.
-/

namespace Stencil

/-- How important an event is. -/
inductive Level where
  /-- Steps of a run. -/
  | trace
  /-- Steps of a construction. -/
  | debug
  /-- Things completed. -/
  | info
  /-- Things that may be a mistake. -/
  | warn
deriving DecidableEq, Repr

/-- Something that the library reports. -/
inductive Event where
  /-- A text of a template has the marker, but not at its start. -/
  | strayMarker (field value body : String)
  /-- A field of a template has been recognized. -/
  | fieldRecognized (field kind : String)
  /-- A generator is ready. -/
  | generatorReady (fields references : Nat) (seed : UInt64)
  /-- A record has been made. -/
  | recordMade (fields : Nat)
deriving DecidableEq, Repr

namespace Event

/-- The level of an event. -/
def level : Event → Level
  | strayMarker .. => .warn
  | fieldRecognized .. => .debug
  | generatorReady .. => .info
  | recordMade .. => .trace

/-- What an event says. -/
def message : Event → String
  | strayMarker .. => "directive marker is not a prefix; body taken from fixed offset"
  | fieldRecognized .. => "field classified"
  | generatorReady .. => "processor built"
  | recordMade .. => "record generated"

/-- What an event is about, by name. -/
def details : Event → List (String × String)
  | strayMarker field value body => [("field", field), ("value", value), ("body", body)]
  | fieldRecognized field kind => [("field", field), ("kind", kind)]
  | generatorReady fields references seed =>
    [("fields", fields.repr), ("references", references.repr), ("seed", seed.toNat.repr)]
  | recordMade fields => [("fields", fields.repr)]

end Event

/-- A value with the events reported on the way to it. -/
structure Logged (α : Type) where
  /-- The value. -/
  value : α
  /-- The events, in order. -/
  events : List Event

namespace Logged

instance : Monad Logged where
  pure a := ⟨a, []⟩
  bind x f := ⟨(f x.value).value, x.events ++ (f x.value).events⟩

instance : LawfulMonad Logged where
  map_const := rfl
  id_map x := by simp [Functor.map]
  seqLeft_eq x y := by simp [SeqLeft.seqLeft, Seq.seq, Functor.map]
  seqRight_eq x y := by simp [SeqRight.seqRight, Seq.seq, Functor.map]
  pure_seq f x := by simp [Seq.seq, Functor.map, pure]
  bind_pure_comp f x := rfl
  bind_map f x := rfl
  pure_bind a f := by simp [bind, pure]
  bind_assoc x f g := by simp [bind]

/-- Reports an event. -/
def emit (event : Event) : Logged Unit := ⟨(), [event]⟩

end Logged

end Stencil
