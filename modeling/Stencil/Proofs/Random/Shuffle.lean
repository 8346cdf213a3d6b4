import Mathlib.Data.Nat.Factorial.Basic
import Stencil.Proofs.Random.Uniform
import Stencil.Random.Shuffle

/-!
# Shuffles stay in bounds

A chunk holds positions in a mixed radix: below `m`, below `m + 1`, and so on, one factor for each
position that remains. Its value is below the product of these factors, an ascending factorial.
That is the invariant: taking a position off divides the value by the first factor, and a chunk
that is refilled is a draw below the product that was worked out for it, which may well reach past
the end of the list. So every position taken off is below its factor, and a shuffle only swaps
positions of the list.

* `Stencil.IndexChunk.Holds`: the invariant;
* `Stencil.IndexChunk.take_spec`, `Stencil.IndexChunk.refill_spec`: both steps keep it;
* `Stencil.swapPartners_le`: a position is swapped with one at or before it;
* `Stencil.applySwaps_perm`: a shuffled list has the elements of the list.
-/

namespace Stencil

/-! ### The bound of a chunk -/

/-- **A bound is a product of consecutive integers**, of at least as many as it had before. -/
theorem growBound_eq (rounds m count : ℕ) :
    ∃ factors, growBound rounds (m.ascFactorial count) (m + count) count =
      (m.ascFactorial factors, factors) ∧ count ≤ factors := by
  induction rounds generalizing count with
  | zero => exact ⟨count, rfl, Nat.le_refl _⟩
  | succ rounds ih =>
    rw [growBound]
    split
    · obtain ⟨factors, heq, hle⟩ := ih (count + 1)
      refine ⟨factors, ?_, Nat.le_of_succ_le hle⟩
      rw [Nat.mul_comm, ← Nat.ascFactorial_succ]
      exact heq
    · exact ⟨count, rfl, Nat.le_refl _⟩

/-- The bound for positions below `m` is the product of its factors, which begin with `m`. -/
theorem chunkBound_eq (m : ℕ) :
    (chunkBound m).1 = m.ascFactorial (chunkBound m).2 ∧ 1 ≤ (chunkBound m).2 := by
  have hone : m.ascFactorial 1 = m := by simp [Nat.ascFactorial]
  obtain ⟨factors, heq, hle⟩ := growBound_eq 32 m 1
  rw [hone] at heq
  rw [chunkBound, heq]
  exact ⟨rfl, hle⟩

/-! ### Chunks -/

namespace IndexChunk

/-- **The invariant of a chunk** whose next position is below `m`. -/
def Holds (chunk : IndexChunk) (m : ℕ) : Prop := chunk.value < m.ascFactorial chunk.remaining

theorem holds_start : start.Holds 1 := by
  change 0 < Nat.ascFactorial 1 1
  decide

/-- Taking a position off a chunk keeps the invariant, and the position is below its factor. -/
theorem take_spec {chunk : IndexChunk} {m : ℕ} (hpos : 0 < m) (h : chunk.Holds m)
    (hne : chunk.remaining ≠ 0) : (chunk.take m).1 < m ∧ (chunk.take m).2.Holds (m + 1) := by
  unfold take
  split
  · next hone =>
    rw [Holds, hone] at h
    refine ⟨by simpa [Nat.ascFactorial] using h, ?_⟩
    rw [Holds, Nat.ascFactorial_zero]
    exact Nat.one_pos
  · -- the first factor is divided out of both sides of the bound
    refine ⟨Nat.mod_lt _ hpos, ?_⟩
    obtain ⟨k, hk⟩ := Nat.exists_eq_succ_of_ne_zero hne
    rw [Holds, hk, Nat.ascFactorial_succ, ← Nat.succ_ascFactorial] at h
    rw [Holds, hk]
    exact Nat.div_lt_of_lt_mul h

variable {γ : Type} [WordSource γ]

/-- Refilling a chunk that is used up sets up the invariant, and a chunk that is not used up keeps
it. -/
theorem refill_spec {chunk : IndexChunk} {m : ℕ} (h : chunk.Holds (m + 1)) (words : γ) :
    (chunk.refill (m + 1) words).1.Holds (m + 1) ∧
      (chunk.refill (m + 1) words).1.remaining ≠ 0 := by
  unfold refill
  split
  · obtain ⟨hbound, hone⟩ := chunkBound_eq (m + 1)
    have hpos : 0 < (chunkBound (m + 1)).1 := by
      rw [hbound]
      exact Nat.ascFactorial_pos m _
    have hlt : (uniform (chunkBound (m + 1)).1 words).1 <
        (m + 1).ascFactorial (chunkBound (m + 1)).2 := by
      rw [← hbound]
      exact uniform_lt hpos words
    exact ⟨hlt, Nat.one_le_iff_ne_zero.mp hone⟩
  · next hne => exact ⟨h, hne⟩

end IndexChunk

/-! ### Partners -/

section Partners

variable {γ : Type} [WordSource γ]

theorem swapPartnersFrom_succ (position : ℕ) (chunk : IndexChunk) (count : ℕ) (words : γ) :
    swapPartnersFrom position chunk (count + 1) words =
      (let filled := chunk.refill (position + 1) words
       let taken := filled.1.take (position + 1)
       let more := swapPartnersFrom (position + 1) taken.2 count filled.2
       (taken.1 :: more.1, more.2)) := rfl

theorem length_swapPartnersFrom (position : ℕ) (chunk : IndexChunk) (count : ℕ) (words : γ) :
    (swapPartnersFrom position chunk count words).1.length = count := by
  induction count generalizing position chunk words with
  | zero => rfl
  | succ count ih => simp only [swapPartnersFrom_succ, List.length_cons, ih]

/-- As long as the invariant holds, **a position is swapped with one at or before it**. -/
theorem swapPartnersFrom_le {position : ℕ} {chunk : IndexChunk} (h : chunk.Holds (position + 1))
    (count : ℕ) (words : γ) :
    ∀ i partner, (swapPartnersFrom position chunk count words).1[i]? = some partner →
      partner ≤ position + i := by
  induction count generalizing position chunk words with
  | zero =>
    intro i partner hi
    cases hi
  | succ count ih =>
    -- the invariant is carried from one position to the next, through a refill if need be
    obtain ⟨hfilled, hne⟩ := IndexChunk.refill_spec h words
    obtain ⟨hlt, hrest⟩ := IndexChunk.take_spec (Nat.succ_pos _) hfilled hne
    intro i partner hi
    rw [swapPartnersFrom_succ] at hi
    cases i with
    | zero =>
      obtain rfl := Option.some.inj hi
      exact Nat.le_of_lt_succ hlt
    | succ i =>
      rw [List.getElem?_cons_succ] at hi
      have hle := ih hrest _ i partner hi
      omega

/-- **Every position of a list is swapped with one at or before it.** -/
theorem swapPartners_le (length : ℕ) (words : γ) :
    ∀ i partner : ℕ, (swapPartners length words).1[i]? = some partner → partner ≤ i := by
  intro i partner hi
  have hle := swapPartnersFrom_le IndexChunk.holds_start length words i partner hi
  rwa [Nat.zero_add] at hle

theorem length_swapPartners (length : ℕ) (words : γ) :
    (swapPartners length words).1.length = length :=
  length_swapPartnersFrom 0 .start length words

end Partners

/-! ### Swaps -/

variable {α : Type}

theorem swapAt_perm (l : List α) (i j : ℕ) : (swapAt l i j).Perm l := by
  unfold swapAt
  split
  · next a b ha hb =>
    obtain ⟨hi, rfl⟩ := List.getElem?_eq_some_iff.mp ha
    obtain ⟨hj, rfl⟩ := List.getElem?_eq_some_iff.mp hb
    exact List.set_set_perm hi hj
  · exact List.Perm.refl l

/-- **Swaps change nothing but the order.** -/
theorem applySwaps_perm (l : List α) (position : ℕ) (partners : List ℕ) :
    (applySwaps l position partners).Perm l := by
  induction partners generalizing l position with
  | nil => exact List.Perm.refl l
  | cons partner more ih => exact (ih _ _).trans (swapAt_perm l position partner)

end Stencil
