import Mathlib.Algebra.Ring.Parity
import Mathlib.Tactic.Common
import Stencil.Proofs.Pattern.Grammar
import Stencil.Proofs.Pattern.Refusal

/-!
# What becomes of a text

A text is refused as a pattern in three stages: no body is located, the body lists no counts, or the
counts are too large together. This file says for each text which stage it is, with no reference to
the stages before. For the first one the toggling has to be read as a rule about all bare brackets
at once. Whether one is left standing is a matter of how many there are, and if one is it is the
**last**; so a body lies between the last bare brackets, and the order of the two decides whether it
does. For the third one the sum of the counts is held at the largest 64-bit number. It does not
matter at which step of the summation it is held.

* `Stencil.standing_barePositions`: the bracket that is left standing;
* `Stencil.DelimitsBody`, `Stencil.cut?_eq_none_iff`: the brackets around a body;
* `Stencil.ofText_outcome`: what becomes of a text.
-/

namespace Stencil

/-! ### Last bare brackets -/

/-- **The last bare bracket is left standing**, if their number is odd. -/
theorem standing_barePositions (bracket : Char) (text : List Char) :
    standing (barePositions bracket false 0 text) =
      if Even (bareIndices bracket text).length then none
      else (bareIndices bracket text).getLast? := by
  rw [barePositions_eq]
  split
  · next heven => exact standing_eq_none_iff.mpr heven
  · next hodd =>
    cases hstanding : standing (bareIndices bracket text) with
    | none => exact absurd (standing_eq_none_iff.mp hstanding) hodd
    | some i =>
      obtain ⟨earlier, heq, -⟩ := standing_eq_some_iff.mp hstanding
      rw [heq, List.getLast?_concat]

/-- The last bare bracket is a bare bracket. -/
theorem getElem?_of_getLast?_bareIndices {bracket : Char} {text : List Char} {i : ℕ}
    (h : (bareIndices bracket text).getLast? = some i) : text[i]? = some bracket := by
  have hmem := List.mem_of_getLast? h
  rw [bareIndices, List.mem_filter, decide_eq_true_iff] at hmem
  exact hmem.2.1

/-- An odd number of positions has a last one. -/
theorem exists_last {positions : List ℕ} (h : Odd positions.length) :
    ∃ i, positions.getLast? = some i := by
  refine Option.ne_none_iff_exists'.mp fun hnone => ?_
  rw [List.getLast?_eq_none_iff.mp hnone] at h
  exact absurd h (by decide)

/-- **Two brackets delimit the body of a text**: there is an odd number of bare brackets of either
kind, and the last ones are in order. -/
structure DelimitsBody (text : List Char) (start stop : ℕ) : Prop where
  /-- There is an odd number of bare opening brackets. -/
  opening_odd : Odd (bareIndices '<' text).length
  /-- There is an odd number of bare closing brackets. -/
  closing_odd : Odd (bareIndices '>' text).length
  /-- The body starts after the last bare opening bracket. -/
  opening_last : (bareIndices '<' text).getLast? = some start
  /-- The body stops before the last bare closing bracket. -/
  closing_last : (bareIndices '>' text).getLast? = some stop
  /-- They are in order. -/
  in_order : start < stop

/-- The text between two positions. -/
def textBetween (text : List Char) (start stop : ℕ) : List Char :=
  (text.take stop).drop (start + 1)

/-- A text is cut at the brackets that delimit its body. -/
theorem DelimitsBody.cut?_eq {text : List Char} {start stop : ℕ}
    (h : DelimitsBody text start stop) :
    cut? text = some ⟨text.take start, textBetween text start stop, text.drop (stop + 1)⟩ := by
  unfold cut?
  rw [standing_barePositions, standing_barePositions,
    if_neg (Nat.not_even_iff_odd.mpr h.opening_odd), h.opening_last,
    if_neg (Nat.not_even_iff_odd.mpr h.closing_odd), h.closing_last]
  exact if_pos h.in_order

/-- The brackets that delimit the body are where the text is cut. -/
theorem cut?_ne_none_iff {text : List Char} :
    cut? text ≠ none ↔ ∃ start stop, DelimitsBody text start stop := by
  constructor
  · intro h
    unfold cut? at h
    rw [standing_barePositions, standing_barePositions] at h
    split at h
    · next start stop hstart hstop =>
      split_ifs at hstart hstop with hopening hclosing
      split at h
      · next hlt =>
        exact ⟨start, stop, Nat.not_even_iff_odd.mp hopening, Nat.not_even_iff_odd.mp hclosing,
          hstart, hstop, hlt⟩
      · exact absurd rfl h
    · exact absurd rfl h
  · rintro ⟨start, stop, hdelimits⟩
    rw [hdelimits.cut?_eq]
    exact Option.some_ne_none _

/-- **When a text is not cut**: the number of bare brackets of either kind is even, or the last
opening one comes after the last closing one. -/
theorem cut?_eq_none_iff {text : List Char} :
    cut? text = none ↔
      Even (bareIndices '<' text).length ∨ Even (bareIndices '>' text).length ∨
        ∃ start stop, (bareIndices '<' text).getLast? = some start ∧
          (bareIndices '>' text).getLast? = some stop ∧ stop < start := by
  rw [← not_iff_not, ← ne_eq, cut?_ne_none_iff]
  constructor
  · rintro ⟨start, stop, hopening, hclosing, hstart, hstop, hlt⟩
    rintro (heven | heven | ⟨start', stop', hstart', hstop', hgt⟩)
    · exact Nat.not_even_iff_odd.mpr hopening heven
    · exact Nat.not_even_iff_odd.mpr hclosing heven
    · obtain rfl := Option.some.inj (hstart.symm.trans hstart')
      obtain rfl := Option.some.inj (hstop.symm.trans hstop')
      exact Nat.lt_asymm hlt hgt
  · intro h
    obtain ⟨hopening, hclosing, hordered⟩ := not_or.mp h |>.imp_right not_or.mp
    rw [Nat.not_even_iff_odd] at hopening hclosing
    obtain ⟨start, hstart⟩ := exists_last hopening
    obtain ⟨stop, hstop⟩ := exists_last hclosing
    refine ⟨start, stop, hopening, hclosing, hstart, hstop, ?_⟩
    by_contra hle
    -- no position holds both brackets, so the last ones are in the wrong order
    rcases Nat.lt_or_eq_of_le (Nat.le_of_not_lt hle) with hlt | rfl
    · exact hordered ⟨start, stop, hstart, hstop, hlt⟩
    · have hboth := (getElem?_of_getLast?_bareIndices hstart).symm.trans
        (getElem?_of_getLast?_bareIndices hstop)
      cases hboth

/-! ### The stages after it -/

namespace DelimitsBody

variable {raw : String} {start stop : ℕ}

/-- **A text is refused for what its body is refused for.** The cap is checked again when the
pattern is made, and by then nothing is beyond it. -/
theorem ofText_eq_error_iff (h : DelimitsBody raw.toList start stop) {fault : PatternFault} :
    Pattern.ofText raw = .error fault ↔
      readBody (textBetween raw.toList start stop) = .error fault := by
  have hmade : Pattern.ofText raw = (readBody (textBetween raw.toList start stop)).bind fun read =>
      Pattern.ofParts (String.ofList (unescape (raw.toList.take start)))
        (String.ofList (unescape (raw.toList.drop (stop + 1)))) read.1 read.2.1 read.2.2 := by
    rw [Pattern.ofText, h.cut?_eq]
    rfl
  rw [hmade]
  cases hread : readBody (textBetween raw.toList start stop) with
  | error cause => rw [Except.bind, Except.error.injEq, Except.error.injEq]
  | ok read =>
    rw [Except.bind, ofParts_of_le (le_of_readBody hread)]
    exact iff_of_false (by simp) (by simp)

/-- **A text is a pattern if its body lists counts within the cap**, and then its length is their
sum. -/
theorem ofText_eq_ok_iff_sum (h : DelimitsBody raw.toList start stop) {length : ℕ} :
    (∃ p, Pattern.ofText raw = .ok p ∧ p.length = length) ↔
      ∃ counts, ListsCounts (textBetween raw.toList start stop) counts ∧ counts.sum ≤ 64 ∧
        length = counts.sum := by
  simp only [ofText_eq_ok_iff, isWritten_iff, h.cut?_eq, Option.some.injEq, Cut.mk.injEq]
  constructor
  · rintro ⟨p, ⟨_, _, _, counts, ⟨⟨rfl, rfl, rfl⟩, hlists, hle⟩, -, -, hparts⟩, rfl⟩
    obtain ⟨hletters, hdigits, hspecials⟩ := hparts
    refine ⟨counts, hlists, hle, ?_⟩
    rw [Pattern.length, hletters, hdigits, hspecials, sum_getD hlists.atMost]
  · rintro ⟨counts, hlists, hle, rfl⟩
    have hsum := sum_getD hlists.atMost
    exact ⟨⟨_, _, _, _, _, hsum ▸ hle⟩, ⟨_, _, _, counts, ⟨⟨rfl, rfl, rfl⟩, hlists, hle⟩,
      rfl, rfl, rfl, rfl, rfl⟩, hsum⟩

end DelimitsBody

/-- A body lists no counts if it has too many segments or one that is no count. -/
theorem exists_bodyFails_iff {body : List Char} :
    (∃ fault, BodyFails body fault) ↔
      3 < (body.splitOn '/').length ∨ ∃ part ∈ body.splitOn '/', ∀ n, ¬DenotesCount part n := by
  constructor
  · rintro ⟨fault, hmany | @⟨front, rest, part, cause, -, hsplit, -, hfails⟩⟩
    · exact Or.inl hmany
    · refine Or.inr ⟨part, by rw [hsplit]; simp, ?_⟩
      rcases denotesCount_or_failsAsCount part with ⟨n, -, hnone⟩ | ⟨cause', -, hnone⟩
      · exact absurd hfails (hnone cause)
      · exact hnone
  · intro h
    cases hread : readCounts body with
    | error fault =>
      obtain ⟨cause, hfails, -⟩ := readCounts_eq_error_iff.mp hread
      exact ⟨cause, hfails⟩
    | ok counts =>
      -- a body that is read has neither
      obtain ⟨hparts, hle⟩ := listsCounts_iff.mp (readCounts_eq_ok_iff.mp hread)
      rw [segments_eq_splitOn, mapM_readSegment_eq_ok_iff] at hparts
      rcases h with hmany | ⟨part, hmem, hnone⟩
      · rw [hparts.length_eq] at hmany
        exact absurd hle (Nat.not_le.mpr hmany)
      · obtain ⟨n, hn⟩ := exists_denotesCount_of_forall₂ hparts part hmem
        exact absurd hn (hnone n)

/-- **What becomes of a text.** No body is found in it if and only if the number of bare brackets of
either kind is even, or the last bare opening bracket comes after the last bare closing one.
Otherwise the body lies between these two. It is at fault if it has more than three segments,
whatever they are, or a segment is no count; then the leftmost of these is named and its cause.
Otherwise the text is refused if the sum of the counts is beyond the cap of 64. The cap is reported
with the sum, which is given up to the largest 64-bit number, and it is the same whether it is held
there once or at every step. All other texts are patterns, and their length is the sum of their
counts. -/
theorem ofText_outcome (raw : String) :
    (Pattern.ofText raw = .error .notFound ↔
      Even (bareIndices '<' raw.toList).length ∨ Even (bareIndices '>' raw.toList).length ∨
        ∃ start stop, (bareIndices '<' raw.toList).getLast? = some start ∧
          (bareIndices '>' raw.toList).getLast? = some stop ∧ stop < start) ∧
    (Pattern.ofText raw ≠ .error .notFound ↔ ∃ start stop, DelimitsBody raw.toList start stop) ∧
    (∀ start stop body, DelimitsBody raw.toList start stop →
      body = textBetween raw.toList start stop →
      ((∃ fault, Pattern.ofText raw = .error (.invalidBody fault)) ↔
        3 < (body.splitOn '/').length ∨ ∃ part ∈ body.splitOn '/', ∀ n, ¬DenotesCount part n) ∧
      (∀ fault, Pattern.ofText raw = .error (.invalidBody fault) ↔ BodyFails body fault) ∧
      (∀ max actual, Pattern.ofText raw = .error (.tooLong max actual) ↔
        max = 64 ∧ ∃ counts, ListsCounts body counts ∧ 64 < counts.sum ∧
          actual = min counts.sum (2 ^ 64 - 1)) ∧
      ∀ length, (∃ p, Pattern.ofText raw = .ok p ∧ p.length = length) ↔
        ∃ counts, ListsCounts body counts ∧ counts.sum ≤ 64 ∧ length = counts.sum) ∧
    (∀ body counts, ListsCounts body counts → 64 < counts.sum →
      readBody body = .error (.tooLong 64 (min counts.sum (2 ^ 64 - 1))) ∧
      ∀ lead trail,
        Pattern.ofParts lead trail (counts.getD 0 0) (counts.getD 1 0) (counts.getD 2 0) =
          .error (.tooLong 64 (min counts.sum (2 ^ 64 - 1)))) ∧
    (∀ found, (PatternFault.invalidBody (.tooManySegments found)).message =
      s!"invalid pattern body: expected at most 3 segments, found {found}") ∧
    ∀ part cause, (PatternFault.invalidBody (.badSegment part cause)).message =
      s!"invalid pattern body: segment '{part}': {cause.message}" := by
  refine ⟨?_, ?_, ?_, ?_, ?_, ?_⟩
  · rw [ofText_eq_notFound_iff, cut?_eq_none_iff]
  · rw [ne_eq, ofText_eq_notFound_iff, ← ne_eq, cut?_ne_none_iff]
  · rintro start stop _ h rfl
    refine ⟨?_, ?_, ?_, ?_⟩
    · simp only [h.ofText_eq_error_iff, readBody_eq_invalidBody_iff, exists_bodyFails_iff]
    · exact fun fault => h.ofText_eq_error_iff.trans readBody_eq_invalidBody_iff
    · exact fun max actual => h.ofText_eq_error_iff.trans readBody_eq_tooLong_iff
    · exact fun length => h.ofText_eq_ok_iff_sum
  · intro body counts hlists hsum
    refine ⟨readBody_eq_tooLong_iff.mpr ⟨rfl, counts, hlists, hsum, rfl⟩, fun lead trail => ?_⟩
    rw [← sum_getD hlists.atMost] at hsum ⊢
    exact ofParts_of_lt hsum
  · intro found
    rfl
  · intro part cause
    rfl

/-- Counts that are too large together by far, and a segment that is too large at its last digit,
with no digit after it. -/
theorem ofText_outcome_limits :
    DelimitsBody "<+018446744073709551615/1>".toList 0 25 ∧
    Pattern.ofText "<+018446744073709551615/1>" = .error (.tooLong 64 18446744073709551615) ∧
    DelimitsBody "\\>>x><7/18446744073709551616x>".toList 5 29 ∧
    Pattern.ofText "\\>>x><7/18446744073709551616x>" =
      .error (.invalidBody (.badSegment "18446744073709551616x" .overflow)) := by
  have hlarge : DelimitsBody "<+018446744073709551615/1>".toList 0 25 :=
    ⟨by decide, by decide, by decide, by decide, by decide⟩
  have hbad : DelimitsBody "\\>>x><7/18446744073709551616x>".toList 5 29 :=
    ⟨by decide, by decide, by decide, by decide, by decide⟩
  obtain ⟨-, -, hstages, -⟩ := ofText_outcome "<+018446744073709551615/1>"
  obtain ⟨-, -, hstages', -⟩ := ofText_outcome "\\>>x><7/18446744073709551616x>"
  obtain ⟨-, -, htooLong, -⟩ := hstages 0 25 "+018446744073709551615/1".toList hlarge (by decide)
  obtain ⟨-, hbody, -⟩ := hstages' 5 29 "7/18446744073709551616x".toList hbad (by decide)
  refine ⟨hlarge, (htooLong _ _).mpr ⟨rfl, [18446744073709551615, 1], ?_, by decide, by decide⟩,
    hbad, (hbody _).mpr ?_⟩
  · exact listsCounts_iff.mpr ⟨rfl, by decide⟩
  · have hoverflow : FailsAsCount "18446744073709551616x".toList .overflow :=
      @FailsAsCount.overflow _ "1844674407370955161".toList ['x'] '6' (by decide)
        (List.all_eq_true.mp (by decide)) (by decide) (by decide) (by decide)
    refine @BodyFails.bad _ [['7']] [] _ _ (by decide) (by decide) ?_ hoverflow
    intro before hbefore
    rw [List.mem_singleton.mp hbefore]
    exact ⟨7, readCount_eq_ok_iff.mp rfl⟩

end Stencil
