import Mathlib.Data.Nat.Basic
import Stencil.Random.Uniform

/-!
# Draws below a bound

A number below `n` is the high half of a product with `n`, corrected upwards by at most one. The
correction never reaches `n`: the product falls short of `2 ^ 32 * n` by at least `n`, so if the
high half is `n - 1` already then the low half is too small for a correction to be considered.
Nothing is assumed about the words.

* `Stencil.bind_apply`, `Stencil.pure_apply`: how a run of draws is taken apart;
* `Stencil.uniform_lt`: one draw;
* `Stencil.length_drawMany`, `Stencil.lt_of_mem_drawIndices`: several draws.
-/

namespace Stencil

/-! ### Runs -/

section Runs

variable {σ α β : Type}

/-- One action after another: the second starts from what the first leaves. -/
theorem bind_apply (x : StateM σ α) (f : α → StateM σ β) (s : σ) :
    (x >>= f) s = f (x s).1 (x s).2 := rfl

theorem pure_apply (a : α) (s : σ) : (pure a : StateM σ α) s = (a, s) := rfl

end Runs

variable {γ α : Type}

theorem drawMany_succ (draw : StateM γ α) (count : ℕ) (words : γ) :
    drawMany draw (count + 1) words =
      ((draw words).1 :: (drawMany draw count (draw words).2).1,
        (drawMany draw count (draw words).2).2) := rfl

theorem length_drawMany (draw : StateM γ α) (count : ℕ) (words : γ) :
    (drawMany draw count words).1.length = count := by
  induction count generalizing words with
  | zero => rfl
  | succ count ih => rw [drawMany_succ, List.length_cons, ih]

/-- What every draw gives, several draws give. -/
theorem forall_mem_drawMany {draw : StateM γ α} {P : α → Prop} (h : ∀ words, P (draw words).1)
    (count : ℕ) (words : γ) : ∀ a ∈ (drawMany draw count words).1, P a := by
  induction count generalizing words with
  | zero => exact fun a ha => absurd ha (List.not_mem_nil)
  | succ count ih =>
    rw [drawMany_succ]
    exact List.forall_mem_cons.mpr ⟨h words, ih _⟩

/-! ### One draw -/

variable [WordSource γ]

/-- **The correction stays below the bound.** -/
theorem high_lt {word n : ℕ} (hword : word < UInt32.size) (hpos : 0 < n) :
    word * n / UInt32.size < n ∧
      (UInt32.size - n < word * n % UInt32.size → word * n / UInt32.size + 1 < n) := by
  have hshort : word * n + n ≤ UInt32.size * n := by
    rw [← Nat.succ_mul]
    exact Nat.mul_le_mul_right n hword
  have hsize : UInt32.size = 4294967296 := rfl
  rw [hsize] at hshort ⊢
  -- in terms of the product, both parts are linear
  generalize word * n = product at hshort ⊢
  constructor
  · omega
  · intro hlow
    omega

/-- **A draw is below its bound**, whatever the words are. -/
theorem uniform_lt {n : ℕ} (hpos : 0 < n) (words : γ) : (uniform n words).1 < n := by
  obtain ⟨hhigh, hcorrected⟩ := high_lt (WordSource.word32 words).1.toNat_lt hpos
  unfold uniform
  rw [bind_apply]
  dsimp only
  split
  · next hlow =>
    rw [bind_apply, pure_apply]
    dsimp only
    split
    · exact hcorrected hlow
    · exact hhigh
  · exact hhigh

/-- **Every index drawn is in range.** -/
theorem lt_of_mem_drawIndices {n : ℕ} (hpos : 0 < n) (count : ℕ) (words : γ) :
    ∀ i ∈ (drawIndices n count words).1, i < n :=
  forall_mem_drawMany (uniform_lt hpos) count words

theorem length_drawIndices (n count : ℕ) (words : γ) :
    (drawIndices n count words).1.length = count :=
  length_drawMany (uniform n) count words

end Stencil
