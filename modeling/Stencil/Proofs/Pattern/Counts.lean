import Mathlib.Algebra.BigOperators.Group.List.Basic
import Mathlib.Algebra.GroupWithZero.Nat
import Mathlib.Data.List.Forall2
import Stencil.Pattern.Text

/-!
# Lists of counts

What stands between the brackets of a pattern is a list of one to three counts with slashes between
them. This file says so without the reader: a count is an optional plus sign and some decimal
digits whose **value** fits in 64 bits, however many zeros come first. `Stencil.readDigits` has to
give up as soon as the number grows too large; that is no loss, since more digits never make it
smaller. Nor is it a loss that the sum of the counts is held at the largest 64-bit number at every
step, since the cap is far below that.

* `Stencil.DenotesCount`, `Stencil.readCount_eq_ok_iff`: the text of a count, and that exactly
  these are read;
* `Stencil.ListsCounts`, `Stencil.readCounts_eq_ok_iff`: the same for the whole body;
* `Stencil.foldl_addHeld`, `Stencil.readBody_eq_ok_iff`: the cap on their sum.
-/

namespace Stencil

/-! ### One count -/

/-- **A text denotes a count**: after at most one plus sign come one or more decimal digits, whose
value is below `2 ^ 64`. -/
def DenotesCount (segment : List Char) (n : ℕ) : Prop :=
  ∃ digits, (segment = digits ∨ segment = '+' :: digits) ∧ digits ≠ [] ∧
    (∀ c ∈ digits, c.isDigit) ∧ digitsValue digits = n ∧ n < 2 ^ 64

theorem le_ofDigitChars (digits : List Char) (value : ℕ) :
    value ≤ Nat.ofDigitChars 10 digits value := by
  induction digits generalizing value with
  | nil => exact Nat.le_refl _
  | cons c digits ih =>
    rw [Nat.ofDigitChars_cons]
    exact Nat.le_trans (by omega) (ih _)

/-- Digits are read to the end if and only if they are digits and their value fits in 64 bits. -/
theorem readDigits_eq_ok_iff {value n : ℕ} (hvalue : value ≤ maxCount) {digits : List Char} :
    readDigits value digits = .ok n ↔
      (∀ c ∈ digits, c.isDigit) ∧ Nat.ofDigitChars 10 digits value = n ∧ n ≤ maxCount := by
  induction digits generalizing value with
  | nil =>
    rw [readDigits, Except.ok.injEq, Nat.ofDigitChars_nil]
    constructor
    · rintro rfl
      exact ⟨by simp, rfl, hvalue⟩
    · rintro ⟨-, rfl, -⟩
      rfl
  | cons c digits ih =>
    rw [readDigits, Nat.ofDigitChars_cons]
    by_cases hc : c.isDigit
    · simp only [if_pos hc]
      by_cases hnext : 10 * value + digitValue c ≤ maxCount
      · rw [if_pos hnext, ih hnext, List.forall_mem_cons]
        exact and_congr_left' ⟨fun h => ⟨hc, h⟩, And.right⟩
      · rw [if_neg hnext]
        refine iff_of_false (by simp) ?_
        rintro ⟨-, rfl, hle⟩
        -- the value never falls below what is read so far
        exact hnext (Nat.le_trans (le_ofDigitChars digits _) hle)
    · rw [if_neg hc]
      refine iff_of_false (by simp) ?_
      rintro ⟨hall, -⟩
      exact hc (hall c List.mem_cons_self)

/-- Nonempty digits on their own are read as their value. -/
theorem readDigits_zero_eq_ok_iff {digits : List Char} {n : ℕ} :
    readDigits 0 digits = .ok n ↔
      (∀ c ∈ digits, c.isDigit) ∧ digitsValue digits = n ∧ n < 2 ^ 64 := by
  rw [readDigits_eq_ok_iff (Nat.zero_le _)]
  exact and_congr_right' (and_congr_right' (Nat.lt_succ_iff (n := maxCount)).symm)

/-- **Exactly the texts that denote a count are read as one.** -/
theorem readCount_eq_ok_iff {segment : List Char} {n : ℕ} :
    readCount segment = .ok n ↔ DenotesCount segment n := by
  have hplus : ¬('+' : Char).isDigit := by decide
  fun_cases readCount segment with
  | case1 =>
    refine iff_of_false (by simp) ?_
    rintro ⟨digits, hshape, hne, -⟩
    rcases hshape with rfl | hshape
    · exact hne rfl
    · cases hshape
  | case2 =>
    refine iff_of_false (by simp) ?_
    rintro ⟨digits, hshape, hne, hall, -⟩
    rcases hshape with rfl | hshape
    · exact hplus (hall _ List.mem_cons_self)
    · exact hne (List.cons.inj hshape).2.symm
  | case3 digits hne =>
    rw [readDigits_zero_eq_ok_iff]
    constructor
    · exact fun h => ⟨digits, Or.inr rfl, hne, h⟩
    · -- the sign itself is no digit, so it is the sign that the text denotes
      rintro ⟨digits', hshape, -, h⟩
      rcases hshape with rfl | hshape
      · exact absurd (h.1 _ List.mem_cons_self) hplus
      · rwa [(List.cons.inj hshape).2]
  | case4 digits hne hone hsign =>
    rw [readDigits_zero_eq_ok_iff]
    constructor
    · exact fun h => ⟨segment, Or.inl rfl, hne, h⟩
    · rintro ⟨digits', hshape, -, h⟩
      rcases hshape with rfl | hshape
      · exact h
      · exact absurd hshape (hsign digits')

theorem readSegment_eq_ok_iff {segment : List Char} {n : ℕ} :
    readSegment segment = .ok n ↔ DenotesCount segment n := by
  rw [← readCount_eq_ok_iff, readSegment]
  cases readCount segment <;> simp [Except.mapError]

/-! ### Several counts -/

theorem segments_eq_splitOn (body : List Char) : segments body = body.splitOn '/' := by
  induction body with
  | nil => rfl
  | cons c rest ih =>
    rw [segments, List.splitOn_cons_eq_if_modifyHead, ih]
    simp

/-- The segments are what stands between the slashes. -/
theorem segments_eq_iff {body : List Char} {parts : List (List Char)} (hne : parts ≠ [])
    (hslash : ∀ part ∈ parts, '/' ∉ part) :
    segments body = parts ↔ body = ['/'].intercalate parts := by
  rw [segments_eq_splitOn]
  constructor
  · rintro rfl
    rw [List.intercalate_splitOn]
  · rintro rfl
    exact List.splitOn_intercalate '/' hslash hne

theorem mapM_readSegment_eq_ok_iff {parts : List (List Char)} {counts : List ℕ} :
    parts.mapM readSegment = .ok counts ↔ List.Forall₂ DenotesCount parts counts := by
  induction parts generalizing counts with
  | nil => cases counts <;> simp [pure, Except.pure]
  | cons part parts ih =>
    rw [List.mapM_cons, List.forall₂_cons_left_iff]
    simp only [← readSegment_eq_ok_iff, ← ih]
    cases readSegment part <;> cases parts.mapM readSegment <;>
      simp [bind, Except.bind, pure, Except.pure, eq_comm]

/-- **A text lists counts**: one to three of them, with slashes between them. -/
structure ListsCounts (body : List Char) (counts : List ℕ) : Prop where
  /-- The segments between the slashes denote the counts. -/
  parts : ∃ parts, body = ['/'].intercalate parts ∧ List.Forall₂ DenotesCount parts counts
  /-- There is at least one. -/
  nonempty : 1 ≤ counts.length
  /-- There is at most one for each class of characters. -/
  atMost : counts.length ≤ 3

theorem DenotesCount.mem {segment : List Char} {n : ℕ} (h : DenotesCount segment n) {c : Char}
    (hc : c ∈ segment) : c.isDigit ∨ c = '+' := by
  obtain ⟨digits, hshape, -, hall, -⟩ := h
  rcases hshape with rfl | rfl
  · exact Or.inl (hall c hc)
  · rcases List.mem_cons.mp hc with rfl | hc
    · exact Or.inr rfl
    · exact Or.inl (hall c hc)

theorem DenotesCount.slash_notMem {segment : List Char} {n : ℕ} (h : DenotesCount segment n) :
    '/' ∉ segment := fun hmem => absurd (h.mem hmem) (by decide)

theorem exists_denotesCount_of_forall₂ {parts : List (List Char)} {counts : List ℕ}
    (h : List.Forall₂ DenotesCount parts counts) : ∀ part ∈ parts, ∃ n, DenotesCount part n := by
  induction h with
  | nil => simp
  | cons hn _ ih => exact List.forall_mem_cons.mpr ⟨⟨_, hn⟩, ih⟩

theorem slash_notMem_of_forall₂ {parts : List (List Char)} {counts : List ℕ}
    (h : List.Forall₂ DenotesCount parts counts) : ∀ part ∈ parts, '/' ∉ part := by
  intro part hmem
  obtain ⟨n, hn⟩ := exists_denotesCount_of_forall₂ h part hmem
  exact hn.slash_notMem

/-- Nothing else occurs in a list of counts than digits, plus signs and slashes. -/
theorem ListsCounts.mem {body : List Char} {counts : List ℕ} (h : ListsCounts body counts)
    {c : Char} (hc : c ∈ body) : c.isDigit ∨ c = '+' ∨ c = '/' := by
  obtain ⟨⟨parts, rfl, hparts⟩, -, -⟩ := h
  induction hparts with
  | nil => cases hc
  | @cons part n parts counts hn hrest ih =>
    rcases parts with _ | ⟨next, parts⟩
    · rw [List.intercalate_singleton] at hc
      exact (hn.mem hc).imp_right Or.inl
    · rw [List.intercalate_cons_cons] at hc
      rcases List.mem_append.mp hc with hc | hc
      · rcases List.mem_append.mp hc with hc | hc
        · exact (hn.mem hc).imp_right Or.inl
        · exact Or.inr (Or.inr (List.mem_singleton.mp hc))
      · exact ih hc

/-- The counts that a text lists are those of its segments. -/
theorem listsCounts_iff {body : List Char} {counts : List ℕ} :
    ListsCounts body counts ↔
      (segments body).mapM readSegment = .ok counts ∧ counts.length ≤ maxSegments := by
  rw [mapM_readSegment_eq_ok_iff]
  constructor
  · rintro ⟨⟨parts, hbody, hparts⟩, hpos, hle⟩
    have hne : parts ≠ [] := by
      rintro rfl
      rw [← hparts.length_eq] at hpos
      cases hpos
    rw [(segments_eq_iff hne (slash_notMem_of_forall₂ hparts)).mpr hbody]
    exact ⟨hparts, hle⟩
  · rintro ⟨hparts, hle⟩
    have hne : segments body ≠ [] := by
      rw [segments_eq_splitOn]
      exact List.splitOn_ne_nil '/' body
    refine ⟨⟨segments body, ?_, hparts⟩, ?_, hle⟩
    · exact (segments_eq_iff hne (slash_notMem_of_forall₂ hparts)).mp rfl
    · rw [← hparts.length_eq]
      exact List.length_pos_iff.mpr hne

/-- A text lists its counts in one way only. -/
theorem ListsCounts.unique {body : List Char} {counts counts' : List ℕ}
    (h : ListsCounts body counts) (h' : ListsCounts body counts') : counts = counts' := by
  have heq := (listsCounts_iff.mp h).1.symm.trans (listsCounts_iff.mp h').1
  exact Except.ok.inj heq

/-- **Exactly the texts that list counts are read** as the counts that they list. -/
theorem readCounts_eq_ok_iff {body : List Char} {counts : List ℕ} :
    readCounts body = .ok counts ↔ ListsCounts body counts := by
  have hlen : (segments body).mapM readSegment = .ok counts →
      (segments body).length = counts.length := fun h =>
    (mapM_readSegment_eq_ok_iff.mp h).length_eq
  rw [listsCounts_iff, readCounts]
  by_cases hmany : maxSegments < (segments body).length
  · simp only [if_pos hmany]
    refine iff_of_false (by simp) ?_
    rintro ⟨hread, hle⟩
    rw [hlen hread] at hmany
    exact absurd hle (Nat.not_le.mpr hmany)
  · simp only [if_neg hmany]
    refine (and_iff_left_of_imp fun hread => ?_).symm
    rw [← hlen hread]
    exact Nat.not_lt.mp hmany

/-! ### The sum of the counts -/

/-- **A sum held step by step is the exact sum, held once.** -/
theorem foldl_addHeld (counts : List ℕ) {start : ℕ} (h : start ≤ maxCount) :
    counts.foldl addHeld start = min (start + counts.sum) maxCount := by
  induction counts generalizing start with
  | nil =>
    rw [List.foldl_nil, List.sum_nil]
    omega
  | cons n counts ih =>
    have hstart : addHeld start n ≤ maxCount := Nat.min_le_right _ _
    rw [List.foldl_cons, ih hstart, List.sum_cons, addHeld]
    omega

/-- A held sum is beyond the cap if and only if the exact one is. -/
theorem lt_min_maxCount_iff {n : ℕ} : maxPatternLength < min n maxCount ↔ 64 < n := by
  rw [Nat.lt_min]
  exact and_iff_left (show maxPatternLength < maxCount by decide)

/-- The cap is on the exact sum, and it is reported up to the largest 64-bit number. -/
theorem readBody_of_listsCounts {body : List Char} {counts : List ℕ} (h : ListsCounts body counts) :
    readBody body =
      if 64 < counts.sum then .error (.tooLong 64 (min counts.sum maxCount))
      else .ok (counts.getD 0 0, counts.getD 1 0, counts.getD 2 0) := by
  simp only [readBody, readCounts_eq_ok_iff.mpr h, foldl_addHeld counts (Nat.zero_le _),
    Nat.zero_add, lt_min_maxCount_iff]
  rfl

/-- **Exactly the texts that list counts within the cap are read**, and a count that is missing is
zero. -/
theorem readBody_eq_ok_iff {body : List Char} {read : ℕ × ℕ × ℕ} :
    readBody body = .ok read ↔
      ∃ counts, ListsCounts body counts ∧ counts.sum ≤ 64 ∧
        read = (counts.getD 0 0, counts.getD 1 0, counts.getD 2 0) := by
  constructor
  · intro h
    cases hcounts : readCounts body with
    | error fault =>
      rw [readBody, hcounts] at h
      cases h
    | ok counts =>
      have hlists := readCounts_eq_ok_iff.mp hcounts
      rw [readBody_of_listsCounts hlists] at h
      split at h
      · cases h
      · next hle => exact ⟨counts, hlists, Nat.not_lt.mp hle, (Except.ok.inj h).symm⟩
  · rintro ⟨counts, hlists, hle, rfl⟩
    rw [readBody_of_listsCounts hlists, if_neg (Nat.not_lt.mpr hle)]

theorem mapM_readSegment_error {parts : List (List Char)} {fault : PatternFault}
    (h : parts.mapM readSegment = .error fault) : ∃ cause, fault = .invalidBody cause := by
  induction parts with
  | nil => cases h
  | cons part parts ih =>
    rw [List.mapM_cons, readSegment] at h
    cases hone : readCount part with
    | error cause =>
      rw [hone] at h
      exact ⟨_, (Except.error.inj h).symm⟩
    | ok n =>
      rw [hone] at h
      cases hmore : parts.mapM readSegment with
      | error cause =>
        rw [hmore] at h
        obtain rfl := Except.error.inj h
        exact ih hmore
      | ok counts =>
        rw [hmore] at h
        cases h

/-- A body that lists no counts is at fault itself, whatever the fault. -/
theorem readCounts_error {body : List Char} {fault : PatternFault}
    (h : readCounts body = .error fault) : ∃ cause, fault = .invalidBody cause := by
  unfold readCounts at h
  by_cases hmany : maxSegments < (segments body).length
  · simp only [if_pos hmany] at h
    exact ⟨_, (Except.error.inj h).symm⟩
  · simp only [if_neg hmany] at h
    exact mapM_readSegment_error h

/-- A body that is not read has been located. -/
theorem readBody_ne_notFound (body : List Char) : readBody body ≠ .error .notFound := by
  intro h
  cases hcounts : readCounts body with
  | error fault =>
    obtain ⟨cause, rfl⟩ := readCounts_error hcounts
    rw [readBody, hcounts] at h
    cases h
  | ok counts =>
    rw [readBody_of_listsCounts (readCounts_eq_ok_iff.mp hcounts)] at h
    split at h <;> cases h

end Stencil
