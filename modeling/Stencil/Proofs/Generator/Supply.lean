import Mathlib.Data.List.TakeDrop
import Stencil.Proofs.Generator.Stream

/-!
# How far a supply has come

A supply keeps one number, how many records are left, and the generator keeps its place in its own
records. Nothing ever compares the two. They agree because both move in the same call: what has been
given out and what is left always add up to what was promised, and the generator stands right after
what has been given out. A call on a supply that is used up moves neither, so from then on all calls
are alike.

* `Stencil.Generator.upcoming`, `Stencil.Generator.after`: the next records of a generator, and the
  generator after them;
* `Stencil.Supply.result_next`: one call, wherever the supply stands;
* `Stencil.Supply.ask_exact`: any number of calls, and draining what they leave.
-/

namespace Stencil

variable {σ : Type} [ValueSource σ]

/-! ### The next records of a generator -/

namespace Generator

/-- The next so many records of a generator. -/
def upcoming (generator : Generator σ) (count : ℕ) : List Record :=
  ((repeated next count).result generator).1

/-- The generator after its next so many records. -/
def after (generator : Generator σ) (count : ℕ) : Generator σ :=
  ((repeated next count).result generator).2

variable (generator : Generator σ)

theorem length_upcoming (count : ℕ) : (generator.upcoming count).length = count :=
  length_repeated next count generator

/-- More records begin with fewer ones. -/
theorem upcoming_add (m n : ℕ) :
    generator.upcoming (m + n) = generator.upcoming m ++ (generator.after m).upcoming n := by
  rw [upcoming, result_repeated_add]
  rfl

theorem after_add (m n : ℕ) : generator.after (m + n) = (generator.after m).after n := by
  rw [after, result_repeated_add]
  rfl

theorem take_upcoming (m n : ℕ) :
    (generator.upcoming n).take m = generator.upcoming (min m n) :=
  take_repeated next m n generator

/-- The records after the first ones are those of the generator after these. -/
theorem drop_upcoming (m n : ℕ) :
    (generator.upcoming n).drop m = (generator.after (min m n)).upcoming (n - m) := by
  rcases Nat.le_total m n with le | le
  · obtain ⟨rest, rfl⟩ := Nat.exists_eq_add_of_le le
    rw [upcoming_add, List.drop_left' (generator.length_upcoming m), Nat.min_eq_left le,
      Nat.add_sub_cancel_left]
  · rw [List.drop_of_length_le (Nat.le_trans (Nat.le_of_eq (generator.length_upcoming n)) le),
      Nat.sub_eq_zero_of_le le]
    rfl

end Generator

namespace Supply

/-! ### One call -/

/-- Asking a supply that is used up changes neither the supply nor the generator, and reports no
event. -/
theorem next_of_usedUp : (Supply.mk 0).next = (pure (none, ⟨0⟩) : Action σ _) := rfl

/-- **One call gives out the next record**, if any is left, and takes it from the number of those
that are left and from the generator alike. -/
theorem result_next (supply : Supply) (generator : Generator σ) :
    supply.next.result generator =
      (((generator.upcoming supply.remaining).head?, ⟨supply.remaining - 1⟩),
        generator.after (min 1 supply.remaining)) := by
  obtain ⟨_ | left⟩ := supply
  · rfl
  · rw [Nat.min_eq_left (Nat.le_add_left 1 left)]
    rfl

/-! ### Any number of calls -/

variable (count times : ℕ) (generator : Generator σ)

/-- What has been given out and what is left add up to what was promised. -/
theorem given_add_left : min times count + (count - times) = count := by omega

/-- **Where the supply and the generator stand** after so many calls, and what has been answered. -/
theorem result_ask_mk :
    ((Supply.mk count).ask times).result generator =
      (((List.range times).map fun index => (count - index, (generator.upcoming count)[index]?),
        ⟨count - times⟩), generator.after (min times count)) := by
  rw [result_ask]
  refine Prod.ext (Prod.ext (List.map_congr_left fun index member => ?_) rfl) rfl
  -- the records that have been given out are the first of all that were promised
  show (count - index, (generator.upcoming (min times count))[index]?) = _
  rw [← generator.take_upcoming, List.getElem?_take_of_lt (List.mem_range.mp member)]

/-- **A call after so many calls** gives out the record that is due, and there is one as long as
fewer have been given out than were promised. -/
theorem result_next_after :
    (Supply.mk (count - times)).next.result (generator.after (min times count)) =
      (((generator.upcoming count)[times]?, ⟨count - (times + 1)⟩),
        generator.after (min (times + 1) count)) := by
  have moved : min times count + min 1 (count - times) = min (times + 1) count := by omega
  rw [result_next, ← generator.drop_upcoming, List.head?_drop, ← generator.after_add, moved,
    Nat.sub_sub]

/-- **A supply is exact, and stays used up.** Take any generator and a supply of `count` records,
and ask for a record `times` times. Before the first `count` calls so many records are left as have
not been given out, and each of these calls gives out the record that is due. Before every further
call none is left, and none is given out. Afterwards the bounds are the number of records left, one
more call would give out the next of them, and draining counts them.

The generator stands after the records that have been given out, and after all `count` records if
the rest is drained. Once the supply is used up, asking it again does nothing, whatever is done with
the generator in the meantime. -/
theorem ask_exact (generator : Generator σ) (count times : ℕ) :
    let asked := ((Supply.mk count).ask times).result generator
    let answers := asked.1.1
    let rest := asked.1.2
    answers.length = times ∧
    (∀ index left answer, answers[index]? = some (left, answer) →
      if index < count then
        left + index = count ∧ answer = (generator.upcoming count)[index]? ∧ answer.isSome
      else left = 0 ∧ answer = none) ∧
    rest.bounds = (count - min times count, count - min times count) ∧
    asked.2 = generator.after (min times count) ∧
    rest.next.result asked.2 =
      (((generator.upcoming count)[times]?, ⟨count - min (times + 1) count⟩),
        generator.after (min (times + 1) count)) ∧
    rest.drain.result asked.2 = (count - min times count, generator.after count) ∧
    (count ≤ times → rest.next = (pure (none, rest) : Action σ _)) := by
  have left_eq : ∀ calls, count - min calls count = count - calls := fun calls => by omega
  dsimp only
  rw [result_ask_mk, left_eq, left_eq]
  refine ⟨by simp, ?_, rfl, rfl, result_next_after count times generator, ?_, ?_⟩
  · intro index left answer answered
    rw [List.getElem?_map, Option.map_eq_some_iff] at answered
    obtain ⟨_, member, same⟩ := answered
    obtain ⟨_, rfl⟩ := List.getElem?_eq_some_iff.mp member
    obtain ⟨rfl, rfl⟩ := Prod.mk.inj same
    rw [List.getElem_range]
    split
    next below =>
      refine ⟨Nat.sub_add_cancel (Nat.le_of_lt below), rfl, ?_⟩
      simpa [generator.length_upcoming] using below
    next above =>
      have used := Nat.le_of_not_lt above
      exact ⟨Nat.sub_eq_zero_of_le used,
        List.getElem?_eq_none (Nat.le_trans (Nat.le_of_eq (generator.length_upcoming count)) used)⟩
  · rw [result_drain]
    refine Prod.ext rfl ?_
    show (generator.after (min times count)).after (count - times) = _
    rw [← generator.after_add, given_add_left]
  · intro usedUp
    rw [Nat.sub_eq_zero_of_le usedUp]
    exact next_of_usedUp

end Supply

end Stencil
