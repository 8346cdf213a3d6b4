import Mathlib.Algebra.BigOperators.Group.List.Basic
import Stencil.Proofs.Pattern.Counts

/-!
# Why a body lists no counts

Reading a count goes digit by digit and gives up at the first character that is no digit or makes
the number too large. The other way of saying it looks at the whole text: there is a longest front
that is a number of 64 bits, and the character after it decides the fault. Only one thing has to be
seen for the two to agree, that the numbers of longer and longer fronts never fall. The number of
segments is looked at before any of them is read, and of several bad segments the leftmost counts.

* `Stencil.StopsAt`, `Stencil.readDigits_eq_error_iff`: the character at which reading stops;
* `Stencil.FailsAsCount`, `Stencil.readCount_eq_error_iff`: a segment that is no count, and why;
* `Stencil.BodyFails`, `Stencil.readCounts_eq_error_iff`: the same for the whole body;
* `Stencil.readBody_eq_invalidBody_iff`, `Stencil.readBody_eq_tooLong_iff`: the faults of a body.
-/

namespace Stencil

/-! ### One segment -/

/-- The text of a count without its plus sign. -/
def afterSign : List Char → List Char
  | '+' :: digits => digits
  | text => text

/-- **A segment is no count**, for a cause. After the sign comes a front of digits whose number fits
in 64 bits; the character after it is no digit, or is one that makes the number too large. -/
inductive FailsAsCount : List Char → CountFault → Prop where
  /-- There is nothing to read. -/
  | empty : FailsAsCount [] .empty
  /-- There is nothing after the sign. -/
  | sign : FailsAsCount ['+'] .invalidDigit
  /-- A character stands where a digit is due. -/
  | invalidDigit {segment front rest : List Char} {c : Char}
    (split : afterSign segment = front ++ c :: rest) (digits : ∀ d ∈ front, d.isDigit)
    (fits : digitsValue front < 2 ^ 64) (invalid : ¬c.isDigit) :
    FailsAsCount segment .invalidDigit
  /-- A digit makes the number too large. -/
  | overflow {segment front rest : List Char} {c : Char}
    (split : afterSign segment = front ++ c :: rest) (digits : ∀ d ∈ front, d.isDigit)
    (fits : digitsValue front < 2 ^ 64) (digit : c.isDigit)
    (large : 2 ^ 64 ≤ digitsValue (front ++ [c])) : FailsAsCount segment .overflow

/-- Something holds of a front of a list and the element after it if it holds of the first element
with nothing before it, or with the first element in front of others. -/
theorem exists_split_cons_iff {α : Type} {a : α} {l : List α} {p : List α → α → Prop} :
    (∃ front b rest, a :: l = front ++ b :: rest ∧ p front b) ↔
      p [] a ∨ ∃ front b rest, l = front ++ b :: rest ∧ p (a :: front) b := by
  constructor
  · rintro ⟨front, b, rest, hsplit, hp⟩
    cases front with
    | nil =>
      obtain ⟨rfl, -⟩ := List.cons.inj hsplit
      exact Or.inl hp
    | cons first front =>
      obtain ⟨rfl, hrest⟩ := List.cons.inj hsplit
      exact Or.inr ⟨front, b, rest, hrest, hp⟩
  · rintro (hp | ⟨front, b, rest, rfl, hp⟩)
    · exact ⟨[], a, l, rfl, hp⟩
    · exact ⟨a :: front, b, rest, rfl, hp⟩

/-- **Reading stops at a character**, for a cause: the digits before it are read on top of a number
and fit in 64 bits, and it is no digit or makes the number too large. -/
def StopsAt (value : ℕ) (front : List Char) (c : Char) (cause : CountFault) : Prop :=
  (∀ d ∈ front, d.isDigit) ∧ Nat.ofDigitChars 10 front value ≤ maxCount ∧
    (¬c.isDigit ∧ cause = .invalidDigit ∨
      c.isDigit ∧ maxCount < Nat.ofDigitChars 10 (front ++ [c]) value ∧ cause = .overflow)

theorem stopsAt_nil {value : ℕ} (hvalue : value ≤ maxCount) {c : Char} {cause : CountFault} :
    StopsAt value [] c cause ↔
      ¬c.isDigit ∧ cause = .invalidDigit ∨
        c.isDigit ∧ maxCount < 10 * value + digitValue c ∧ cause = .overflow := by
  rw [StopsAt, List.nil_append, Nat.ofDigitChars_cons, Nat.ofDigitChars_nil, Nat.ofDigitChars_nil]
  exact (and_iff_right (by simp)).trans (and_iff_right hvalue)

theorem stopsAt_cons {value : ℕ} {d c : Char} {front : List Char} {cause : CountFault} :
    StopsAt value (d :: front) c cause ↔
      d.isDigit ∧ StopsAt (10 * value + digitValue d) front c cause := by
  rw [StopsAt, List.forall_mem_cons, List.cons_append, Nat.ofDigitChars_cons, Nat.ofDigitChars_cons,
    and_assoc]
  rfl

/-- The number never falls, so it fits from the start. -/
theorem StopsAt.le {value : ℕ} {front : List Char} {c : Char} {cause : CountFault}
    (h : StopsAt value front c cause) : value ≤ maxCount :=
  Nat.le_trans (le_ofDigitChars front value) h.2.1

/-- Digits are not read to the end if and only if reading stops at one of the characters. -/
theorem readDigits_eq_error_iff {value : ℕ} (hvalue : value ≤ maxCount) {cause : CountFault}
    {digits : List Char} :
    readDigits value digits = .error cause ↔
      ∃ front c rest, digits = front ++ c :: rest ∧ StopsAt value front c cause := by
  induction digits generalizing value with
  | nil => exact iff_of_false (by simp [readDigits]) (by simp)
  | cons c digits ih =>
    rw [readDigits, exists_split_cons_iff, stopsAt_nil hvalue]
    simp only [stopsAt_cons]
    by_cases hc : c.isDigit
    · by_cases hnext : 10 * value + digitValue c ≤ maxCount
      · simp [hc, hnext, Nat.not_lt.mpr hnext, ih hnext]
      · -- what is too large once is not read on top of
        have hnone : ∀ front d, ¬StopsAt (10 * value + digitValue c) front d cause :=
          fun front d h => hnext h.le
        simp [hc, hnext, Nat.lt_of_not_le hnext, hnone, eq_comm]
    · simp [hc, eq_comm]

/-- What is left after the sign is not read for the same causes as the segment. -/
theorem readDigits_afterSign_eq_error_iff {segment : List Char} {cause : CountFault}
    (hempty : segment ≠ []) (hsign : segment ≠ ['+']) :
    readDigits 0 (afterSign segment) = .error cause ↔ FailsAsCount segment cause := by
  rw [readDigits_eq_error_iff (Nat.zero_le _)]
  constructor
  · rintro ⟨front, c, rest, hsplit, hfront, hfits, hstop⟩
    rcases hstop with ⟨hno, rfl⟩ | ⟨hdigit, hlarge, rfl⟩
    · exact .invalidDigit hsplit hfront (Nat.lt_succ_of_le hfits) hno
    · exact .overflow hsplit hfront (Nat.lt_succ_of_le hfits) hdigit hlarge
  · rintro (_ | _ | ⟨hsplit, hfront, hfits, hno⟩ | ⟨hsplit, hfront, hfits, hdigit, hlarge⟩)
    · exact absurd rfl hempty
    · exact absurd rfl hsign
    · exact ⟨_, _, _, hsplit, hfront, Nat.le_of_lt_succ hfits, Or.inl ⟨hno, rfl⟩⟩
    · exact ⟨_, _, _, hsplit, hfront, Nat.le_of_lt_succ hfits, Or.inr ⟨hdigit, hlarge, rfl⟩⟩

/-- **A segment is not read as a count if and only if it is none**, for the same cause. -/
theorem readCount_eq_error_iff {segment : List Char} {cause : CountFault} :
    readCount segment = .error cause ↔ FailsAsCount segment cause := by
  fun_cases readCount segment with
  | case1 =>
    constructor
    · intro h
      obtain rfl := Except.error.inj h
      exact .empty
    · rintro (_ | _ | ⟨hsplit, -⟩ | ⟨hsplit, -⟩)
      · rfl
      · simp [afterSign] at hsplit
      · simp [afterSign] at hsplit
  | case2 =>
    constructor
    · intro h
      obtain rfl := Except.error.inj h
      exact .sign
    · rintro (_ | _ | ⟨hsplit, -⟩ | ⟨hsplit, -⟩)
      · rfl
      · simp [afterSign] at hsplit
      · simp [afterSign] at hsplit
  | case3 digits hne =>
    have hsign : '+' :: digits ≠ ['+'] := fun hcon => hne (List.cons.inj hcon).2
    exact readDigits_afterSign_eq_error_iff (List.cons_ne_nil _ _) hsign
  | case4 digits hne hone hsign =>
    have hsame : afterSign segment = segment := by
      unfold afterSign
      split
      · next digits => exact absurd rfl (hsign digits)
      · rfl
    rw [← readDigits_afterSign_eq_error_iff hne hone, hsame]

/-- **Every segment is a count or none for one cause**, and never both. -/
theorem denotesCount_or_failsAsCount (segment : List Char) :
    (∃ n, DenotesCount segment n ∧ ∀ cause, ¬FailsAsCount segment cause) ∨
      ∃ cause, FailsAsCount segment cause ∧ ∀ n, ¬DenotesCount segment n := by
  simp only [← readCount_eq_ok_iff, ← readCount_eq_error_iff]
  cases readCount segment <;> simp

theorem readSegment_eq_error_iff {segment : List Char} {fault : PatternFault} :
    readSegment segment = .error fault ↔
      ∃ cause, FailsAsCount segment cause ∧
        fault = .invalidBody (.badSegment (String.ofList segment) cause) := by
  simp only [← readCount_eq_error_iff, readSegment]
  cases readCount segment <;> simp [Except.mapError, eq_comm]

/-! ### The whole body -/

/-- **A body lists no counts**, for a reason: it has too many segments, whatever they are, or a
segment is no count and all before it are. -/
inductive BodyFails (body : List Char) : BodyFault → Prop where
  /-- There are more segments than classes of characters. -/
  | tooMany (many : 3 < (body.splitOn '/').length) :
    BodyFails body (.tooManySegments (body.splitOn '/').length)
  /-- A segment is no count, and it is the leftmost one. -/
  | bad {front rest : List (List Char)} {part : List Char} {cause : CountFault}
    (few : (body.splitOn '/').length ≤ 3) (split : body.splitOn '/' = front ++ part :: rest)
    (counts : ∀ before ∈ front, ∃ n, DenotesCount before n) (fails : FailsAsCount part cause) :
    BodyFails body (.badSegment (String.ofList part) cause)

/-- Segments are not all read if and only if there is a first that is not. -/
theorem mapM_readSegment_eq_error_iff {parts : List (List Char)} {fault : PatternFault} :
    parts.mapM readSegment = .error fault ↔
      ∃ front part rest, parts = front ++ part :: rest ∧
        (∀ before ∈ front, ∃ n, DenotesCount before n) ∧ readSegment part = .error fault := by
  induction parts with
  | nil => simp [pure, Except.pure]
  | cons part parts ih =>
    rw [List.mapM_cons, exists_split_cons_iff]
    simp only [List.forall_mem_cons, ← readSegment_eq_ok_iff] at ih ⊢
    cases readSegment part with
    | error cause => simp [bind, Except.bind]
    | ok n =>
      have hmore : (do
          let counts ← parts.mapM readSegment
          pure (n :: counts)) = Except.error fault ↔ parts.mapM readSegment = .error fault := by
        cases parts.mapM readSegment <;> simp [bind, Except.bind, pure, Except.pure]
      refine hmore.trans (ih.trans ?_)
      simp

/-- **The counts of a body are not read if and only if it lists none**, for the same reason. -/
theorem readCounts_eq_error_iff {body : List Char} {fault : PatternFault} :
    readCounts body = .error fault ↔
      ∃ cause, BodyFails body cause ∧ fault = .invalidBody cause := by
  rw [readCounts]
  simp only [segments_eq_splitOn]
  by_cases hmany : maxSegments < (body.splitOn '/').length
  · rw [if_pos hmany]
    constructor
    · intro h
      exact ⟨_, .tooMany hmany, (Except.error.inj h).symm⟩
    · rintro ⟨cause, _ | ⟨hfew, -⟩, rfl⟩
      · rfl
      · exact absurd hmany (Nat.not_lt.mpr hfew)
  · rw [if_neg hmany, mapM_readSegment_eq_error_iff]
    constructor
    · rintro ⟨front, part, rest, hsplit, hfront, hfails⟩
      obtain ⟨cause, hcause, rfl⟩ := readSegment_eq_error_iff.mp hfails
      exact ⟨_, .bad (Nat.not_lt.mp hmany) hsplit hfront hcause, rfl⟩
    · rintro ⟨cause, hmany' | ⟨-, hsplit, hfront, hcause⟩, rfl⟩
      · exact absurd hmany' hmany
      · exact ⟨_, _, _, hsplit, hfront, readSegment_eq_error_iff.mpr ⟨_, hcause, rfl⟩⟩

/-- **A body is at fault if and only if it lists no counts.** -/
theorem readBody_eq_invalidBody_iff {body : List Char} {fault : BodyFault} :
    readBody body = .error (.invalidBody fault) ↔ BodyFails body fault := by
  have hcounts : readCounts body = .error (.invalidBody fault) ↔ BodyFails body fault := by
    simp [readCounts_eq_error_iff]
  rw [← hcounts]
  cases hread : readCounts body with
  | error cause => rw [readBody, hread, Except.error.injEq, Except.error.injEq]
  | ok counts =>
    -- what fails after the counts have been read is their sum
    rw [readBody_of_listsCounts (readCounts_eq_ok_iff.mp hread)]
    split <;> simp

/-- **Counts are at fault if and only if their sum is beyond the cap.** -/
theorem readBody_eq_tooLong_iff {body : List Char} {max actual : ℕ} :
    readBody body = .error (.tooLong max actual) ↔
      max = 64 ∧ ∃ counts, ListsCounts body counts ∧ 64 < counts.sum ∧
        actual = min counts.sum maxCount := by
  constructor
  · intro h
    cases hread : readCounts body with
    | error cause =>
      obtain ⟨fault, rfl⟩ := readCounts_error hread
      rw [readBody, hread] at h
      cases h
    | ok counts =>
      have hlists := readCounts_eq_ok_iff.mp hread
      rw [readBody_of_listsCounts hlists] at h
      split at h
      · next hsum =>
        obtain ⟨rfl, rfl⟩ := PatternFault.tooLong.inj (Except.error.inj h)
        exact ⟨rfl, counts, hlists, hsum, rfl⟩
      · cases h
  · rintro ⟨rfl, counts, hlists, hsum, rfl⟩
    rw [readBody_of_listsCounts hlists, if_pos hsum]

end Stencil
