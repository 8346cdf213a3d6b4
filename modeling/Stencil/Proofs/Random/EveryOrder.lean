import Mathlib.Data.List.Induction
import Mathlib.Data.List.Perm.Basic
import Stencil.Proofs.Random.Reach
import Stencil.Proofs.Random.Shuffle

/-!
# A shuffle can give every order

A shuffle swaps each position with one at or before it. That every order comes out of some such
swaps is seen from the end: the last swap decides which element goes where the last one stood, and
undoing it leaves an order of the elements before. What is left is to make the shuffle draw the
positions. They are not drawn one by one but as the digits of one number for several positions, and
the last such number has digits for positions past the end of the list. So the number is put
together from the positions that are wanted, **with zeros for those that are not there**, and the
draw of the number is forced.

* `Stencil.exists_partners`: swaps that bring a list into an order;
* `Stencil.digitNumber`, `Stencil.digitNumber_lt`: positions as digits of a number;
* `Stencil.IndexChunk.Spells`: a chunk from which given positions are taken;
* `Stencil.canGive_shuffle`: every order of a list.
-/

namespace Stencil

variable {α : Type}

/-! ### Swaps -/

/-- Positions to swap with, for the positions from the given one on, that stand at or before
them. -/
def AtOrBefore (position : ℕ) (partners : List ℕ) : Prop :=
  ∀ i partner, partners[i]? = some partner → partner ≤ position + i

theorem atOrBefore_cons {position partner : ℕ} {more : List ℕ} :
    AtOrBefore position (partner :: more) ↔
      partner ≤ position ∧ AtOrBefore (position + 1) more := by
  constructor
  · intro h
    refine ⟨h 0 partner rfl, fun i other hi => ?_⟩
    have hle := h (i + 1) other (by rwa [List.getElem?_cons_succ])
    omega
  · rintro ⟨hfirst, hmore⟩ i other hi
    cases i with
    | zero =>
      obtain rfl := Option.some.inj hi
      exact hfirst
    | succ i =>
      rw [List.getElem?_cons_succ] at hi
      have hle := hmore i other hi
      omega

theorem AtOrBefore.concat {position partner : ℕ} {partners : List ℕ}
    (h : AtOrBefore position partners) (hle : partner ≤ position + partners.length) :
    AtOrBefore position (partners ++ [partner]) := by
  induction partners generalizing position with
  | nil => exact atOrBefore_cons.mpr ⟨hle, fun i other hi => by simp at hi⟩
  | cons first more ih =>
    obtain ⟨hfirst, hmore⟩ := atOrBefore_cons.mp h
    rw [List.length_cons] at hle
    exact atOrBefore_cons.mpr ⟨hfirst, ih hmore (by omega)⟩

/-- What stands where after a swap. -/
theorem getElem?_swapAt {l : List α} {i j : ℕ} (hi : i < l.length) (hj : j < l.length) (k : ℕ) :
    (swapAt l i j)[k]? = if k = j then l[i]? else if k = i then l[j]? else l[k]? := by
  have hswap : swapAt l i j = (l.set i l[j]).set j l[i] := by
    simp only [swapAt, List.getElem?_eq_getElem hi, List.getElem?_eq_getElem hj]
  rw [hswap]
  rcases eq_or_ne k j with rfl | hkj
  · rw [if_pos rfl, List.getElem?_set_self (by rwa [List.length_set]), List.getElem?_eq_getElem hi]
  rw [if_neg hkj, List.getElem?_set_ne hkj.symm]
  rcases eq_or_ne k i with rfl | hki
  · rw [if_pos rfl, List.getElem?_set_self hi, List.getElem?_eq_getElem hj]
  · rw [if_neg hki, List.getElem?_set_ne hki.symm]

theorem length_swapAt (l : List α) (i j : ℕ) : (swapAt l i j).length = l.length :=
  (swapAt_perm l i j).length_eq

/-- A swap undoes itself. -/
theorem swapAt_swapAt {l : List α} {i j : ℕ} (hi : i < l.length) (hj : j < l.length) :
    swapAt (swapAt l i j) i j = l := by
  have hi' : i < (swapAt l i j).length := by rwa [length_swapAt]
  have hj' : j < (swapAt l i j).length := by rwa [length_swapAt]
  refine List.ext_getElem? fun k => ?_
  simp only [getElem?_swapAt hi' hj', getElem?_swapAt hi hj]
  split_ifs <;> simp_all

/-- A swap within the front of a list leaves the rest alone. -/
theorem swapAt_append {l : List α} {i j : ℕ} (hi : i < l.length) (hj : j < l.length) (m : List α) :
    swapAt (l ++ m) i j = swapAt l i j ++ m := by
  unfold swapAt
  rw [List.getElem?_append_left hi, List.getElem?_append_left hj, List.getElem?_eq_getElem hi,
    List.getElem?_eq_getElem hj]
  simp only
  rw [List.set_append_left _ _ hi, List.set_append_left _ _ (by rwa [List.length_set])]

/-- Swaps of two runs of positions, one after the other. -/
theorem applySwaps_append (l : List α) (position : ℕ) (partners more : List ℕ) :
    applySwaps l position (partners ++ more) =
      applySwaps (applySwaps l position partners) (position + partners.length) more := by
  induction partners generalizing l position with
  | nil => rfl
  | cons partner partners ih =>
    rw [List.cons_append, applySwaps, applySwaps, ih, List.length_cons, Nat.add_right_comm,
      Nat.add_assoc]

/-- Swaps within the front of a list leave the rest alone. -/
theorem applySwaps_of_append {l : List α} {position : ℕ} {partners : List ℕ}
    (h : AtOrBefore position partners) (hle : position + partners.length ≤ l.length) (m : List α) :
    applySwaps (l ++ m) position partners = applySwaps l position partners ++ m := by
  induction partners generalizing l position with
  | nil => rfl
  | cons partner more ih =>
    obtain ⟨hfirst, hmore⟩ := atOrBefore_cons.mp h
    rw [List.length_cons] at hle
    rw [applySwaps, applySwaps, swapAt_append (by omega) (by omega)]
    exact ih hmore (by rw [length_swapAt]; omega)

/-- **Every order of a list comes out of swaps** of each position with one at or before it. -/
theorem exists_partners {l m : List α} (h : l.Perm m) :
    ∃ partners, partners.length = l.length ∧ AtOrBefore 0 partners ∧
      applySwaps l 0 partners = m := by
  induction l using List.reverseRecOn generalizing m with
  | nil =>
    obtain rfl := List.perm_nil.mp h.symm
    exact ⟨[], rfl, fun i partner hi => by simp at hi, rfl⟩
  | append_singleton l x ih =>
    have hlength : m.length = l.length + 1 := by
      rw [← h.length_eq, List.length_append, List.length_singleton]
    have hmem : x ∈ m := h.mem_iff.mp (List.mem_append_right l (List.mem_singleton_self x))
    obtain ⟨j, hj⟩ := List.getElem?_of_mem hmem
    obtain ⟨hjlt, -⟩ := List.getElem?_eq_some_iff.mp hj
    -- before the last swap, the last element stands at the end
    have hlast : (swapAt m l.length j).getLast? = some x := by
      rw [List.getLast?_eq_getElem?, length_swapAt, hlength, Nat.add_sub_cancel,
        getElem?_swapAt (by omega) hjlt, if_pos rfl, hj]
      split_ifs with hsame
      · rw [hsame, hj]
      · rfl
    obtain ⟨front, hfront⟩ := List.getLast?_eq_some_iff.mp hlast
    have hperm : l.Perm front := by
      rw [← List.perm_append_right_iff [x], ← hfront]
      exact h.trans (swapAt_perm m l.length j).symm
    obtain ⟨partners, hcount, hbefore, rfl⟩ := ih hperm
    refine ⟨partners ++ [j], ?_, hbefore.concat (by omega), ?_⟩
    · rw [List.length_append, List.length_append, hcount]
      rfl
    · rw [applySwaps_append, applySwaps_of_append hbefore (by omega), ← hfront, hcount,
        Nat.zero_add]
      exact swapAt_swapAt (by omega) hjlt

/-! ### Positions as digits -/

/-- The number with the given digits, the first one below `m`, the next one below `m + 1`, and so
on, and zeros for those that are missing. -/
def digitNumber (m : ℕ) : (count : ℕ) → (digits : List ℕ) → ℕ
  | 0, _ => 0
  | count + 1, digits => digits.headD 0 + m * digitNumber (m + 1) count digits.tail

/-- **The number is below the product of the bounds** of its digits. -/
theorem digitNumber_lt {position : ℕ} {digits : List ℕ} (h : AtOrBefore position digits)
    (count : ℕ) : digitNumber (position + 1) count digits < (position + 1).ascFactorial count := by
  induction count generalizing position digits with
  | zero => exact Nat.one_pos
  | succ count ih =>
    have hhead : digits.headD 0 < position + 1 ∧ AtOrBefore (position + 1) digits.tail := by
      cases digits with
      | nil => exact ⟨Nat.succ_pos _, fun i partner hi => by simp at hi⟩
      | cons digit digits =>
        obtain ⟨hle, hrest⟩ := atOrBefore_cons.mp h
        exact ⟨Nat.lt_succ_of_le hle, hrest⟩
    have hrest : (position + 1) * (digitNumber (position + 1 + 1) count digits.tail + 1) ≤
        (position + 1) * (position + 1 + 1).ascFactorial count :=
      Nat.mul_le_mul_left _ (ih hhead.2)
    rw [digitNumber, Nat.ascFactorial_succ, ← Nat.succ_ascFactorial]
    rw [Nat.mul_succ] at hrest
    exact Nat.lt_of_lt_of_le (by omega) hrest

/-! ### Chunks that spell positions -/

namespace IndexChunk

/-- **A chunk spells positions**: its value has them as digits, the first one below `m`. -/
def Spells (chunk : IndexChunk) (m : ℕ) (digits : List ℕ) : Prop :=
  chunk.value = digitNumber m chunk.remaining digits

/-- A chunk that spells positions gives out the first one and spells the others. -/
theorem Spells.take {chunk : IndexChunk} {m digit : ℕ} {digits : List ℕ}
    (h : chunk.Spells m (digit :: digits)) (hlt : digit < m) (hne : chunk.remaining ≠ 0) :
    (chunk.take m).1 = digit ∧ (chunk.take m).2.Spells (m + 1) digits := by
  obtain ⟨value, remaining⟩ := chunk
  obtain ⟨count, rfl⟩ := Nat.exists_eq_succ_of_ne_zero hne
  have hvalue : value = digit + m * digitNumber (m + 1) count digits := h
  unfold IndexChunk.take
  split
  · next hone =>
    obtain rfl : count = 0 := Nat.succ.inj hone
    exact ⟨hvalue, rfl⟩
  · refine ⟨?_, ?_⟩
    · simp only [hvalue]
      rw [Nat.add_mul_mod_self_left, Nat.mod_eq_of_lt hlt]
    · change value / m = digitNumber (m + 1) count digits
      rw [hvalue, Nat.add_mul_div_left _ _ (Nat.zero_lt_of_lt hlt), Nat.div_eq_of_lt hlt,
        Nat.zero_add]

end IndexChunk

/-- A bound grows as long as it stays below `2 ^ 32`. -/
theorem growBound_lt {rounds product next count : ℕ} (h : product < UInt32.size) :
    (growBound rounds product next count).1 < UInt32.size := by
  induction rounds generalizing product next count with
  | zero => exact h
  | succ rounds ih =>
    rw [growBound]
    split
    · next hgrows => exact ih hgrows
    · exact h

/-- **A chunk that is used up can be refilled to spell any positions.** -/
theorem IndexChunk.canGive_refill {chunk : IndexChunk} {position : ℕ} {digits : List ℕ}
    (h : chunk.Spells (position + 1) digits) (hdigits : AtOrBefore position digits)
    (hsize : position + 1 < UInt32.size) :
    ∃ filled, CanGive (chunk.refill (position + 1)) filled ∧ filled.remaining ≠ 0 ∧
      filled.Spells (position + 1) digits := by
  unfold refill
  split
  · obtain ⟨hbound, hone⟩ := chunkBound_eq (position + 1)
    have hle : (chunkBound (position + 1)).1 < UInt32.size := growBound_lt hsize
    have hlt : digitNumber (position + 1) (chunkBound (position + 1)).2 digits <
        (chunkBound (position + 1)).1 := by
      rw [hbound]
      exact digitNumber_lt hdigits _
    refine ⟨⟨digitNumber (position + 1) (chunkBound (position + 1)).2 digits,
      (chunkBound (position + 1)).2⟩, ?_, Nat.one_le_iff_ne_zero.mp hone, rfl⟩
    exact (canGive_uniform hlt (Nat.le_of_lt hle)).bind (canGive_pure _)
  · next hne => exact ⟨chunk, canGive_pure chunk, hne, h⟩

/-- **Any positions at or before their own can be drawn** to swap with. -/
theorem canGive_swapPartnersFrom {position : ℕ} {chunk : IndexChunk} {partners : List ℕ}
    (h : chunk.Spells (position + 1) partners) (hpartners : AtOrBefore position partners)
    (hsize : position + partners.length < UInt32.size) :
    CanGive (swapPartnersFrom position chunk partners.length) partners := by
  induction partners generalizing position chunk with
  | nil => exact canGive_pure []
  | cons partner more ih =>
    rw [List.length_cons] at hsize
    obtain ⟨filled, hfilled, hne, hspells⟩ := chunk.canGive_refill h hpartners (by omega)
    obtain ⟨hfirst, hmore⟩ := atOrBefore_cons.mp hpartners
    obtain ⟨htaken, hrest⟩ := hspells.take (Nat.lt_succ_of_le hfirst) hne
    refine hfilled.bind ?_
    refine (ih hrest hmore (by omega)).bind ?_
    change CanGive (pure ((filled.take (position + 1)).1 :: more)) _
    rw [htaken]
    exact canGive_pure _

/-- **A shuffle can give every order.** -/
theorem canGive_shuffle {l m : List α} (h : l.Perm m) (hsize : l.length < UInt32.size) :
    CanGive (shuffle l) m := by
  obtain ⟨partners, hlength, hbefore, rfl⟩ := exists_partners h
  have hstart : IndexChunk.start.Spells 1 partners := by
    have hfirst : partners.headD 0 = 0 := by
      cases partners with
      | nil => rfl
      | cons partner more => exact Nat.le_zero.mp (atOrBefore_cons.mp hbefore).1
    change 0 = partners.headD 0 + 1 * 0
    rw [hfirst]
  have hdraw := canGive_swapPartnersFrom hstart hbefore (by omega)
  rw [hlength] at hdraw
  exact hdraw.bind (canGive_pure _)

end Stencil
