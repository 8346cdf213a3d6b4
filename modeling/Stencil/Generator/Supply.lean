import Stencil.Generator.Basic

/-!
# Records on demand

A supply of records is a promise of so many of them. Each is made when it is asked for and not
before, from the words of the generator; once the supply is used up, asking does nothing.

Whoever wants all records that are left asks until there is none. A supply has one record fewer
after each that it gives out, so this comes to an end.

* `Stencil.Supply.next`: asks for a record;
* `Stencil.Supply.forEach`: asks for all that are left, and does something with each;
* `Stencil.Supply.drain`: asks for all that are left, and counts them.
-/

namespace Stencil

/-- A supply of records. -/
structure Supply where
  /-- The number of records that are left. -/
  remaining : Nat
deriving DecidableEq, Repr

namespace Supply

variable {σ β : Type} [ValueSource σ]

/-- The next record, if any is left, and the supply after it. -/
def next (supply : Supply) : Action σ (Option Record × Supply) :=
  match supply.remaining with
  | 0 => return (none, supply)
  | left + 1 => return (some (← Generator.next), ⟨left⟩)

/-- The bounds known for the number of records left: both are that number. -/
def bounds (supply : Supply) : Nat × Nat := (supply.remaining, supply.remaining)

/-- Asks so many times for a record, and notes before each time how many are left, which is the
lower bound. -/
def ask (supply : Supply) : (times : Nat) → Action σ (List (Nat × Option Record) × Supply)
  | 0 => return ([], supply)
  | times + 1 => do
    let (record, rest) ← supply.next
    let (more, rest) ← rest.ask times
    return ((supply.bounds.1, record) :: more, rest)

/-- A supply that has given out a record has fewer left. -/
theorem remaining_lt_of_next {supply rest : Supply} {generator : Generator σ} {record : Record}
    (given : (supply.next generator).value.1 = (some record, rest)) :
    rest.remaining < supply.remaining := by
  obtain ⟨_ | left⟩ := supply
  · cases given
  · obtain ⟨-, rfl⟩ := Prod.mk.inj given
    exact Nat.lt_succ_self left

/-- Asks for records until there is none, and does something with each of them. What is done with a
record also answers whether to go on; if not, no more records are asked for. The answer is whether
it went on to the end. -/
def forEach (body : Record → StateM β Bool) (supply : Supply) (state : β) : Action σ (Bool × β) :=
  fun generator =>
    let asked := supply.next generator
    match given : asked.value.1 with
    | (none, _) => ⟨((true, state), asked.value.2), asked.events⟩
    | (some record, rest) =>
      have : rest.remaining < supply.remaining := remaining_lt_of_next given
      match body record state with
      | (false, state) => ⟨((false, state), asked.value.2), asked.events⟩
      | (true, state) =>
        let others := rest.forEach body state asked.value.2
        ⟨others.value, asked.events ++ others.events⟩
termination_by supply.remaining

/-- A supply that is used up has no record to do anything with. -/
theorem forEach_zero (body : Record → StateM β Bool) (state : β) :
    forEach body ⟨0⟩ state = (pure (true, state) : Action σ (Bool × β)) := by
  funext generator
  rw [forEach]
  rfl

/-- Otherwise the next record comes first. -/
theorem forEach_succ (body : Record → StateM β Bool) (left : Nat) (state : β) :
    forEach body ⟨left + 1⟩ state = (do
      match body (← Generator.next) state with
      | (false, state) => return (false, state)
      | (true, state) => forEach body ⟨left⟩ state : Action σ (Bool × β)) := by
  funext generator
  have reported : (next ⟨left + 1⟩ generator).events = (Generator.next generator).events :=
    List.append_nil _
  rw [forEach]
  show (match body (Generator.next generator).value.1 state with
    | (false, state) => Logged.mk ((false, state), (Generator.next generator).value.2)
        (next ⟨left + 1⟩ generator).events
    | (true, state) =>
      ⟨(forEach body ⟨left⟩ state (Generator.next generator).value.2).value,
        (next ⟨left + 1⟩ generator).events ++
          (forEach body ⟨left⟩ state (Generator.next generator).value.2).events⟩) = Logged.mk _ _
  rw [reported]
  rcases Generator.next generator with ⟨⟨record, later⟩, events⟩
  dsimp only
  rcases body record state with ⟨_ | _, state⟩
  · exact congrArg (Logged.mk _) (List.append_nil _).symm
  · rfl

/-- **All records are asked for one at a time**, until there is none or what is done with one of
them ends this. -/
theorem forEach_eq (body : Record → StateM β Bool) (supply : Supply) (state : β) :
    supply.forEach body state = (do
      match ← supply.next with
      | (none, _) => return (true, state)
      | (some record, rest) =>
        match body record state with
        | (false, state) => return (false, state)
        | (true, state) => rest.forEach body state : Action σ (Bool × β)) := by
  obtain ⟨_ | left⟩ := supply
  · rw [forEach_zero]
    rfl
  · rw [forEach_succ, next]
    simp only [bind_assoc, pure_bind]

/-- Asks for all records that are left, and counts them. -/
def drain (supply : Supply) : Action σ Nat := do
  let (_, counted) ← supply.forEach (fun _ counted => (true, counted + 1)) 0
  return counted

end Supply

end Stencil
