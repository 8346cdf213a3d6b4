import Stencil.Proofs.Random.Uniform

/-!
# Draws that known words force

A source that gives out the words of a list can be made to give any result that a draw is capable
of: one only has to write down the words. This file keeps the account. A draw *can give* a result if
there are words such that, whenever they come up next, the draw has that result and takes exactly
them. Actions that can give their results can be put one after the other, since the second finds its
words right after those of the first; so only single draws need an argument.

For a number below a bound the argument is that the products of the words with the bound are no
further apart than the bound, which is at most `2 ^ 32`. So one of them falls right behind each
multiple of `2 ^ 32`, and its high half is any number one likes. If the low half calls for a second
word then zero does no harm.

* `Stencil.CanGive`, `Stencil.CanGive.bind`: results that words can force;
* `Stencil.canGive_uniform`: every number below a bound;
* `Stencil.CanGive.exists_words`: the words for a result.
-/

namespace Stencil

variable {α β : Type}

/-! ### Words that come up next -/

/-- The words that a cycle gives out before it begins again. -/
def WordCycle.upcoming (cycle : WordCycle) : List UInt64 := cycle.words.drop cycle.position

/-- The next word is the first of those that come up, and the cycle does not begin again as long as
others do. -/
theorem WordCycle.next_of_upcoming {cycle : WordCycle} {word : UInt64} {rest : List UInt64}
    (h : cycle.upcoming = word :: rest) (hrest : rest ≠ []) :
    (WordCycle.next cycle).1 = word ∧ (WordCycle.next cycle).2.upcoming = rest := by
  have hword : cycle.words[cycle.position]? = some word := by
    rw [← List.head?_drop, ← upcoming, h, List.head?_cons]
  have hdrop : cycle.words.drop (cycle.position + 1) = rest := by
    rw [← List.tail_drop, ← upcoming, h, List.tail_cons]
  have hmore : cycle.position + 1 < cycle.words.length := by
    by_contra hcon
    exact hrest (hdrop ▸ List.drop_of_length_le (Nat.le_of_not_lt hcon))
  refine ⟨?_, ?_⟩
  · rw [next, List.getD_eq_getElem?_getD, hword, Option.getD_some]
  · rw [next, upcoming]
    simp only [if_pos hmore]
    exact hdrop

/-- **A draw can give a result**: there are words such that it has that result and takes exactly
them if they come up next. -/
def CanGive (draw : StateM WordCycle α) (a : α) : Prop :=
  ∃ words, ∀ cycle rest, rest ≠ [] → cycle.upcoming = words ++ rest →
    (draw cycle).1 = a ∧ (draw cycle).2.upcoming = rest

theorem canGive_pure (a : α) : CanGive (pure a) a :=
  ⟨[], fun _ _ _ h => ⟨rfl, h⟩⟩

/-- **Draws one after the other** can give what each of them can. -/
theorem CanGive.bind {draw : StateM WordCycle α} {a : α} {next : α → StateM WordCycle β} {b : β}
    (hdraw : CanGive draw a) (hnext : CanGive (next a) b) : CanGive (draw >>= next) b := by
  obtain ⟨words, hwords⟩ := hdraw
  obtain ⟨words', hwords'⟩ := hnext
  refine ⟨words ++ words', fun cycle rest hrest hcycle => ?_⟩
  rw [List.append_assoc] at hcycle
  have hmore : words' ++ rest ≠ [] := List.append_ne_nil_of_right_ne_nil _ hrest
  obtain ⟨ha, hleft⟩ := hwords cycle (words' ++ rest) hmore hcycle
  rw [bind_apply, ha]
  exact hwords' _ rest hrest hleft

/-- A list of words that makes a fresh cycle give a result. -/
theorem CanGive.exists_words {draw : StateM WordCycle α} {a : α} (h : CanGive draw a) :
    ∃ words, words ≠ [] ∧ (draw ⟨words, 0⟩).1 = a := by
  obtain ⟨words, hwords⟩ := h
  exact ⟨words ++ [0], List.concat_ne_nil _ _, (hwords _ [0] (List.cons_ne_nil _ _) rfl).1⟩

/-! ### Single draws -/

/-- Any word of 32 bits is the low half of a word. -/
theorem canGive_word32 (word : UInt32) :
    CanGive (WordSource.word32 : StateM WordCycle UInt32) word := by
  refine ⟨[word.toUInt64], fun cycle rest hrest hcycle => ?_⟩
  obtain ⟨hword, hleft⟩ := WordCycle.next_of_upcoming hcycle hrest
  refine ⟨?_, hleft⟩
  change (WordCycle.next cycle).1.toUInt32 = word
  rw [hword, UInt32.toUInt32_toUInt64]

/-- **Right behind each multiple of `2 ^ 32`** there is a product of a word with the bound. -/
theorem exists_word {n i : ℕ} (hi : i < n) (hn : n ≤ UInt32.size) :
    ∃ word < UInt32.size, i * UInt32.size ≤ word * n ∧ word * n < i * UInt32.size + n := by
  have hpos : 0 < n := Nat.zero_lt_of_lt hi
  -- the quotient of the multiple by the bound, rounded up
  have hdiv := Nat.div_add_mod (i * UInt32.size + (n - 1)) n
  have hmod := Nat.mod_lt (i * UInt32.size + (n - 1)) hpos
  refine ⟨(i * UInt32.size + (n - 1)) / n, ?_, ?_, ?_⟩
  · rw [Nat.div_lt_iff_lt_mul hpos]
    have hlast : (i + 1) * UInt32.size ≤ n * UInt32.size := Nat.mul_le_mul_right _ hi
    rw [Nat.succ_mul] at hlast
    rw [Nat.mul_comm UInt32.size]
    omega
  · rw [Nat.mul_comm _ n]
    omega
  · rw [Nat.mul_comm _ n]
    omega

/-- **Every number below a bound can be drawn.** -/
theorem canGive_uniform {n i : ℕ} (hi : i < n) (hn : n ≤ UInt32.size) : CanGive (uniform n) i := by
  obtain ⟨word, hword, hlow, hhigh⟩ := exists_word hi hn
  have htoNat : (UInt32.ofNat word).toNat = word := UInt32.toNat_ofNat_of_lt' hword
  have hquotient : word * n / UInt32.size = i := by
    rw [Nat.div_eq_iff (by decide)]
    omega
  refine (canGive_word32 (UInt32.ofNat word)).bind ?_
  simp only [htoNat, hquotient]
  split
  · -- a second word is called for, and zero adds no carry
    refine (canGive_word32 0).bind ?_
    have hmod := Nat.mod_lt (word * n) (show 0 < UInt32.size by decide)
    simp only [UInt32.toNat_zero, Nat.zero_mul, Nat.zero_div, Nat.add_zero,
      if_neg (Nat.not_le.mpr hmod)]
    exact canGive_pure i
  · exact canGive_pure i

/-! ### Several draws -/

/-- Several draws can give what each of them can. -/
theorem canGive_drawMany {draw : StateM WordCycle α} {results : List α}
    (h : ∀ a ∈ results, CanGive draw a) : CanGive (drawMany draw results.length) results := by
  induction results with
  | nil => exact canGive_pure []
  | cons a results ih =>
    obtain ⟨ha, hresults⟩ := List.forall_mem_cons.mp h
    exact ha.bind ((ih hresults).bind (canGive_pure _))

/-- **Every list of indices in range can be drawn.** -/
theorem canGive_drawIndices {n : ℕ} {indices : List ℕ} (h : ∀ i ∈ indices, i < n)
    (hn : n ≤ UInt32.size) : CanGive (drawIndices n indices.length) indices :=
  canGive_drawMany fun i hi => canGive_uniform (h i hi) hn

end Stencil
