import Mathlib.Algebra.Group.Nat.Even
import Mathlib.Data.List.Induction
import Stencil.Pattern.Text

/-!
# Bare brackets

Whether a bracket is bare can be said of one position at a time: the bracket stands there and no
backslash stands right before it. This file reads `Stencil.barePositions`, which goes over a text
once with a flag, as the list of those positions, and `Stencil.standing`, which toggles, as a
statement about how many there are: a bracket is left standing if it is bare, an **even** number
of bare ones come before it, and none after it.

* `Stencil.BareAt`, `Stencil.bareIndices`, `Stencil.bareCount`: bare positions, and their number;
* `Stencil.barePositions_eq`: the scan lists the bare positions;
* `Stencil.Stands`, `Stencil.standing_iff_stands`: which bracket is left standing;
* `Stencil.cut?_eq_some_iff`: where a text is cut.
-/

namespace Stencil

/-! ### Bare positions -/

/-- A bracket is **bare** at a position of a text if it stands there and no backslash stands right
before it. -/
def BareAt (bracket : Char) (text : List Char) (i : ℕ) : Prop :=
  text[i]? = some bracket ∧ (i = 0 ∨ text[i - 1]? ≠ some '\\')

instance (bracket : Char) (text : List Char) : DecidablePred (BareAt bracket text) :=
  fun _ => inferInstanceAs (Decidable (_ ∧ _))

/-- The positions at which a bracket is bare, in order. -/
def bareIndices (bracket : Char) (text : List Char) : List ℕ :=
  (List.range text.length).filter (BareAt bracket text ·)

/-- The number of these positions. -/
def bareCount (bracket : Char) (text : List Char) : ℕ := (bareIndices bracket text).length

variable {bracket : Char}

/-- A bare bracket divides its text into what stands before it, which does not end in a backslash,
and what stands after it. -/
theorem bareAt_iff_split {text : List Char} {i : ℕ} :
    BareAt bracket text i ↔
      ∃ l m, text = l ++ bracket :: m ∧ l.length = i ∧ l.getLast? ≠ some '\\' := by
  constructor
  · rintro ⟨hi, hback⟩
    obtain ⟨hlt, hget⟩ := List.getElem?_eq_some_iff.mp hi
    refine ⟨text.take i, text.drop (i + 1), ?_, by rw [List.length_take]; omega, ?_⟩
    · rw [← hget, List.getElem_cons_drop, List.take_append_drop]
    · rw [List.getLast?_eq_getElem?, List.length_take, Nat.min_eq_left (Nat.le_of_lt hlt)]
      rcases hback with rfl | hback
      · simp
      · rcases Nat.eq_zero_or_pos i with rfl | hpos
        · simp
        · rwa [List.getElem?_take_of_lt (by omega)]
  · rintro ⟨l, m, rfl, rfl, hlast⟩
    refine ⟨by simp, ?_⟩
    rcases Nat.eq_zero_or_pos l.length with h0 | hpos
    · exact Or.inl h0
    · refine Or.inr ?_
      rwa [List.getElem?_append_left (by omega), ← List.getLast?_eq_getElem?]

/-! ### The scan

The scan carries one bit: whether a backslash stands right before the next character. After a
text that bit depends on its last character only. -/

/-- The flag of the scan after a text, if it was `escaped` before it. -/
def escapedAfter (escaped : Bool) (text : List Char) : Bool :=
  (text.getLast?.map (· == '\\')).getD escaped

@[simp] theorem escapedAfter_nil (escaped : Bool) : escapedAfter escaped [] = escaped := rfl

@[simp] theorem escapedAfter_cons (escaped : Bool) (c : Char) (text : List Char) :
    escapedAfter escaped (c :: text) = escapedAfter (c == '\\') text := by
  unfold escapedAfter
  rw [List.getLast?_cons]
  cases text.getLast? <;> rfl

theorem escapedAfter_false_iff {text : List Char} :
    escapedAfter false text = true ↔ text.getLast? = some '\\' := by
  unfold escapedAfter
  cases text.getLast? <;> simp

theorem escapedAfter_eq_false {text : List Char} (h : text.getLast? ≠ some '\\') :
    escapedAfter false text = false := by
  rw [Bool.eq_false_iff]
  exact fun hcon => h (escapedAfter_false_iff.mp hcon)

theorem barePositions_append (escaped : Bool) (index : ℕ) (l m : List Char) :
    barePositions bracket escaped index (l ++ m) =
      barePositions bracket escaped index l ++
        barePositions bracket (escapedAfter escaped l) (index + l.length) m := by
  induction l generalizing escaped index with
  | nil => rfl
  | cons c l ih =>
    rw [List.cons_append, barePositions, barePositions, ih, escapedAfter_cons, List.length_cons,
      Nat.add_right_comm index 1, Nat.add_assoc index]
    split <;> rfl

/-- A character at the end does not change which positions before it are bare. -/
theorem bareAt_concat_of_lt {l : List Char} {i : ℕ} (h : i < l.length) (c : Char) :
    BareAt bracket (l ++ [c]) i ↔ BareAt bracket l i := by
  unfold BareAt
  rw [List.getElem?_append_left h, List.getElem?_append_left (by omega)]

/-- A bracket at the end is bare unless the text before it ends in a backslash. -/
theorem bareAt_concat_length {l : List Char} {c : Char} :
    BareAt bracket (l ++ [c]) l.length ↔ c = bracket ∧ l.getLast? ≠ some '\\' := by
  rw [bareAt_iff_split]
  constructor
  · rintro ⟨l', m, heq, hlen, hback⟩
    obtain ⟨rfl, hm⟩ := List.append_inj heq hlen.symm
    exact ⟨(List.cons.inj hm).1, hback⟩
  · rintro ⟨rfl, hback⟩
    exact ⟨l, [], rfl, rfl, hback⟩

/-- **The scan lists the bare positions**, in order. -/
theorem barePositions_eq (text : List Char) :
    barePositions bracket false 0 text = bareIndices bracket text := by
  -- from the end, since what stands before a bracket decides and not what stands after it
  induction text using List.reverseRecOn with
  | nil => rfl
  | append_singleton l c ih =>
    have hbefore : ∀ i ∈ List.range l.length,
        decide (BareAt bracket (l ++ [c]) i) = decide (BareAt bracket l i) := by
      intro i hi
      exact decide_eq_decide.mpr (bareAt_concat_of_lt (List.mem_range.mp hi) c)
    have hlast : BareAt bracket (l ++ [c]) l.length ↔ c = bracket ∧ l.getLast? ≠ some '\\' :=
      bareAt_concat_length
    rw [barePositions_append, ih, bareIndices, bareIndices, List.length_append,
      List.length_singleton, List.range_succ, List.filter_append, List.filter_congr hbefore]
    congr 1
    by_cases hback : l.getLast? = some '\\'
    · simp [barePositions, hlast, hback, escapedAfter_false_iff.mpr hback]
    · by_cases hc : c = bracket
      · subst hc
        simp [barePositions, hlast, hback, escapedAfter_eq_false hback]
      · simp [barePositions, hlast, hc]

theorem mem_barePositions_iff {text : List Char} {i : ℕ} :
    i ∈ barePositions bracket false 0 text ↔ BareAt bracket text i := by
  rw [barePositions_eq, bareIndices, List.mem_filter, List.mem_range, decide_eq_true_iff]
  refine ⟨And.right, fun h => ⟨?_, h⟩⟩
  exact (List.getElem?_eq_some_iff.mp h.1).1

theorem length_barePositions (text : List Char) :
    (barePositions bracket false 0 text).length = bareCount bracket text := by
  rw [barePositions_eq, bareCount]

/-- The scan of a later part of a text lists only positions of that part. -/
theorem le_of_mem_barePositions {escaped : Bool} {index i : ℕ} {text : List Char}
    (h : i ∈ barePositions bracket escaped index text) : index ≤ i := by
  induction text generalizing escaped index with
  | nil => cases h
  | cons c text ih =>
    rw [barePositions] at h
    split at h
    · rcases List.mem_cons.mp h with rfl | h
      · exact Nat.le_refl _
      · exact Nat.le_of_succ_le (ih h)
    · exact Nat.le_of_succ_le (ih h)

/-- Where a text starts does not change how many bare brackets it has. -/
theorem length_barePositions_index (escaped : Bool) (index index' : ℕ) (text : List Char) :
    (barePositions bracket escaped index text).length =
      (barePositions bracket escaped index' text).length := by
  induction text generalizing escaped index index' with
  | nil => rfl
  | cons c text ih =>
    rw [barePositions, barePositions]
    split <;> simp [ih _ (index + 1) (index' + 1)]

/-! ### Counting -/

/-- Bare brackets can be counted part by part, unless a part ends in a backslash: that would
change whether the first character of the next part is bare. -/
theorem bareCount_append {l : List Char} (h : l.getLast? ≠ some '\\') (m : List Char) :
    bareCount bracket (l ++ m) = bareCount bracket l + bareCount bracket m := by
  rw [← length_barePositions, barePositions_append, escapedAfter_eq_false h, List.length_append,
    length_barePositions, length_barePositions_index _ _ 0, length_barePositions]

theorem bareCount_cons {c : Char} (h : c ≠ '\\') (m : List Char) :
    bareCount bracket (c :: m) = (if c = bracket then 1 else 0) + bareCount bracket m := by
  have hone : bareCount bracket [c] = if c = bracket then 1 else 0 := by
    rw [← length_barePositions]
    by_cases hc : c = bracket <;> simp [barePositions, hc]
  rw [← List.singleton_append, bareCount_append (by simpa using h), hone]

theorem bareCount_eq_zero_of_notMem {text : List Char} (h : bracket ∉ text) :
    bareCount bracket text = 0 := by
  rw [bareCount, List.length_eq_zero_iff, bareIndices, List.filter_eq_nil_iff]
  intro i _ hbare
  exact h (List.mem_of_getElem? (decide_eq_true_iff.mp hbare).1)

theorem bareCount_eq_zero_iff {text : List Char} :
    bareCount bracket text = 0 ↔ ∀ i, ¬BareAt bracket text i := by
  rw [← length_barePositions, List.length_eq_zero_iff, List.eq_nil_iff_forall_not_mem]
  exact forall_congr' fun i => not_congr mem_barePositions_iff

/-! ### What is left standing -/

theorem standing_concat (positions : List ℕ) (i : ℕ) :
    standing (positions ++ [i]) = if (standing positions).isSome then none else some i := by
  rw [standing, List.foldl_append]
  rfl

/-- Nothing is left standing of an even number of positions. -/
theorem standing_eq_none_iff {positions : List ℕ} :
    standing positions = none ↔ Even positions.length := by
  induction positions using List.reverseRecOn with
  | nil => simp [standing]
  | append_singleton positions i ih =>
    rw [standing_concat, List.length_append, List.length_singleton, Nat.even_add_one, ← ih]
    cases standing positions <;> simp

/-- Of an odd number of positions the last one is left standing. -/
theorem standing_eq_some_iff {positions : List ℕ} {i : ℕ} :
    standing positions = some i ↔
      ∃ earlier, positions = earlier ++ [i] ∧ Even earlier.length := by
  rcases List.eq_nil_or_concat positions with rfl | ⟨earlier, j, rfl⟩
  · simp [standing]
  · rw [List.concat_eq_append, standing_concat]
    constructor
    · intro h
      cases hs : standing earlier with
      | some k => simp [hs] at h
      | none =>
        obtain rfl : j = i := by simpa [hs] using h
        exact ⟨earlier, rfl, standing_eq_none_iff.mp hs⟩
    · rintro ⟨earlier', heq, heven⟩
      obtain ⟨rfl, rfl⟩ := List.append_inj' heq rfl |>.imp_right fun h => (List.cons.inj h).1
      simp [standing_eq_none_iff.mpr heven]

/-- **A bracket is left standing** between two parts of a text: it is bare, the bare ones before
it cancel each other, and none comes after it. -/
structure Stands (bracket : Char) (before after : List Char) : Prop where
  /-- No backslash stands right before the bracket. -/
  bare : before.getLast? ≠ some '\\'
  /-- An even number of bare brackets come before it. -/
  even : Even (bareCount bracket before)
  /-- No bare bracket comes after it. -/
  last : bareCount bracket after = 0

/-- The bare positions of a text with a bare bracket in it: those before it, its own, and those
after it. -/
theorem barePositions_split {before after : List Char} (hbracket : bracket ≠ '\\')
    (h : before.getLast? ≠ some '\\') :
    barePositions bracket false 0 (before ++ bracket :: after) =
      barePositions bracket false 0 before ++
        before.length :: barePositions bracket false (before.length + 1) after := by
  rw [barePositions_append, escapedAfter_eq_false h, Nat.zero_add, barePositions,
    beq_eq_false_iff_ne.mpr hbracket]
  simp

/-- **Which bracket is left standing.** -/
theorem standing_iff_stands (hbracket : bracket ≠ '\\') {text : List Char} {i : ℕ} :
    standing (barePositions bracket false 0 text) = some i ↔
      ∃ before after, text = before ++ bracket :: after ∧ before.length = i ∧
        Stands bracket before after := by
  rw [standing_eq_some_iff]
  constructor
  · rintro ⟨earlier, heq, heven⟩
    have hmem : i ∈ barePositions bracket false 0 text := by simp [heq]
    obtain ⟨before, after, rfl, rfl, hbare⟩ := bareAt_iff_split.mp (mem_barePositions_iff.mp hmem)
    refine ⟨before, after, rfl, rfl, ?_⟩
    rw [barePositions_split hbracket hbare] at heq
    -- the positions after this one are larger, so a last position equal to it leaves none
    rcases List.eq_nil_or_concat (barePositions bracket false (before.length + 1) after) with
      hnil | ⟨between, j, hj⟩
    · rw [hnil] at heq
      obtain ⟨hearlier, -⟩ := List.append_inj' heq rfl
      rw [← hearlier, length_barePositions] at heven
      refine ⟨hbare, heven, ?_⟩
      rw [← length_barePositions, length_barePositions_index _ _ (before.length + 1), hnil]
      rfl
    · rw [List.concat_eq_append] at hj
      rw [hj, ← List.cons_append, ← List.append_assoc] at heq
      obtain ⟨-, hji⟩ := List.append_inj' heq rfl
      have hle : before.length + 1 ≤ j := le_of_mem_barePositions (by rw [hj]; simp)
      have hjlen : j = before.length := (List.cons.inj hji).1
      omega
  · rintro ⟨before, after, rfl, rfl, hbare, heven, hlast⟩
    refine ⟨barePositions bracket false 0 before, ?_, by rwa [length_barePositions]⟩
    have hnil : barePositions bracket false (before.length + 1) after = [] := by
      rw [← List.length_eq_zero_iff, length_barePositions_index _ _ 0, length_barePositions]
      exact hlast
    rw [barePositions_split hbracket hbare, hnil]

/-! ### Where a text is cut -/

/-- The text that was cut. -/
def Cut.text (cut : Cut) : List Char := cut.before ++ '<' :: cut.body ++ '>' :: cut.after

/-- A text is put together from its parts. -/
theorem Cut.text_eq (cut : Cut) :
    cut.text = cut.before ++ '<' :: (cut.body ++ '>' :: cut.after) := by
  rw [text, List.append_assoc, List.cons_append]

/-- The parts of a text, taken out by the positions of its brackets. -/
theorem Cut.eq_of_positions (cut : Cut) :
    (⟨cut.text.take cut.before.length,
      (cut.text.take (cut.before ++ '<' :: cut.body).length).drop (cut.before.length + 1),
      cut.text.drop ((cut.before ++ '<' :: cut.body).length + 1)⟩ : Cut) = cut := by
  obtain ⟨before, body, after⟩ := cut
  have hbefore : (Cut.text ⟨before, body, after⟩).take before.length = before := by
    rw [text_eq, List.take_left]
  have hbody : ((Cut.text ⟨before, body, after⟩).take (before ++ '<' :: body).length).drop
      (before.length + 1) = body := by
    rw [text, List.take_left, List.append_cons, List.drop_left' (by simp)]
  have hafter : (Cut.text ⟨before, body, after⟩).drop ((before ++ '<' :: body).length + 1) =
      after := by
    rw [text, List.append_cons _ '>', List.drop_left' (by rw [List.length_append]; rfl)]
  rw [hbefore, hbody, hafter]

/-- If one bracket comes before another, the first stands within what comes before the second. -/
theorem exists_cut_of_length_lt {text l l' m m' : List Char} (hl : text = l ++ '<' :: l')
    (hm : text = m ++ '>' :: m') (hlt : l.length < m.length) :
    ∃ body, m = l ++ '<' :: body ∧ l' = body ++ '>' :: m' := by
  have hfirst : l ++ ['<'] <+: text := ⟨l', by rw [hl, ← List.append_cons]⟩
  have hsecond : m <+: text := ⟨'>' :: m', hm.symm⟩
  obtain ⟨body, rfl⟩ : l ++ ['<'] <+: m := by
    refine List.prefix_of_prefix_length_le hfirst hsecond ?_
    rw [List.length_append, List.length_singleton]
    exact hlt
  refine ⟨body, by rw [← List.append_cons], ?_⟩
  have h : l ++ '<' :: l' = l ++ '<' :: (body ++ '>' :: m') := by
    rw [← hl, hm, ← List.append_cons, List.append_assoc, List.cons_append]
  exact (List.cons.inj (List.append_cancel_left h)).2

/-- The opening bracket of a cut is the one that the scan leaves standing. -/
theorem Cut.standing_opening {cut : Cut}
    (h : Stands '<' cut.before (cut.body ++ '>' :: cut.after)) :
    standing (barePositions '<' false 0 cut.text) = some cut.before.length :=
  (standing_iff_stands (by decide)).mpr ⟨_, _, cut.text_eq, rfl, h⟩

/-- The closing bracket of a cut is the one that the scan leaves standing. -/
theorem Cut.standing_closing {cut : Cut}
    (h : Stands '>' (cut.before ++ '<' :: cut.body) cut.after) :
    standing (barePositions '>' false 0 cut.text) =
      some (cut.before ++ '<' :: cut.body).length :=
  (standing_iff_stands (by decide)).mpr ⟨_, _, rfl, rfl, h⟩

/-- **A text is cut** at the opening and the closing bracket left standing, if they are in
order. -/
theorem cut?_eq_some_iff {text : List Char} {cut : Cut} :
    cut? text = some cut ↔
      text = cut.text ∧ Stands '<' cut.before (cut.body ++ '>' :: cut.after) ∧
        Stands '>' (cut.before ++ '<' :: cut.body) cut.after := by
  constructor
  · intro h
    unfold cut? at h
    split at h
    · next start stop hstart hstop =>
      obtain ⟨l, l', hl, rfl, hopen⟩ := (standing_iff_stands (by decide)).mp hstart
      obtain ⟨m, m', hm, rfl, hclose⟩ := (standing_iff_stands (by decide)).mp hstop
      split at h
      · next hlt =>
        obtain ⟨body, rfl, rfl⟩ := exists_cut_of_length_lt hl hm hlt
        have hcut : text = Cut.text ⟨l, body, m'⟩ := hm
        rw [hcut, (Cut.eq_of_positions ⟨l, body, m'⟩)] at h
        obtain rfl := Option.some.inj h
        exact ⟨hcut, hopen, hclose⟩
      · cases h
    · cases h
  · rintro ⟨rfl, hopen, hclose⟩
    have hlt : cut.before.length < (cut.before ++ '<' :: cut.body).length := by simp
    unfold cut?
    rw [Cut.standing_opening hopen, Cut.standing_closing hclose]
    simp only [if_pos hlt]
    rw [cut.eq_of_positions]

end Stencil
