import Mathlib.Algebra.GroupWithZero.Nat
import Stencil.Proofs.Pattern.Counts
import Stencil.Proofs.Pattern.Offsets

/-!
# The grammar of patterns

The reader of `Stencil.Pattern.ofText` toggles: brackets cancel brackets, whatever stands between
them. This file says in one place which texts it accepts. A text is a pattern if and only if it is

`lead < counts > trail`

where the lead does not end in a backslash and has an **even** number of bare brackets of either
kind, and the trail has none. The counts hold no bracket and no backslash, so nothing between the
brackets takes part in the toggling, and the two kinds of bracket, which the reader tracks
independently, meet in this one condition.

* `Stencil.IsWritten`: the grammar;
* `Stencil.ofText_eq_ok_iff`: what the reader accepts, and the pattern it gives;
* `Stencil.ofText_grammar`: the grammar is exact and unambiguous, and the text is cut between
  characters.
-/

namespace Stencil

/-! ### The grammar -/

/-- **The grammar of patterns**: how a text divides into a lead, counts and a trail. -/
structure IsWritten (text lead body trail : List Char) (counts : List ℕ) : Prop where
  /-- The body stands between two brackets. -/
  text_eq : text = lead ++ '<' :: body ++ '>' :: trail
  /-- The opening bracket of the body is bare. -/
  lead_end : lead.getLast? ≠ some '\\'
  /-- The bare opening brackets of the lead cancel each other. -/
  lead_opening : Even (bareCount '<' lead)
  /-- The bare closing brackets of the lead cancel each other. -/
  lead_closing : Even (bareCount '>' lead)
  /-- The body lists counts. -/
  lists : ListsCounts body counts
  /-- The counts are within the cap. -/
  total : counts.sum ≤ 64
  /-- No bracket of the trail is bare. -/
  trail_bare : ∀ i, ¬BareAt '<' trail i ∧ ¬BareAt '>' trail i

theorem ListsCounts.notMem {body : List Char} {counts : List ℕ} (h : ListsCounts body counts)
    {c : Char} (hc : ¬(c.isDigit ∨ c = '+' ∨ c = '/')) : c ∉ body := fun hmem => hc (h.mem hmem)

/-- A body ends in a character of its own, so it hides no bracket after it. -/
theorem ListsCounts.getLast?_ne {body : List Char} {counts : List ℕ} (h : ListsCounts body counts) :
    body.getLast? ≠ some '\\' := fun hlast =>
  h.notMem (by decide) (List.mem_of_getLast? hlast)

theorem ListsCounts.bareCount_eq_zero {body : List Char} {counts : List ℕ}
    (h : ListsCounts body counts) {bracket : Char} (hbracket : isBracket bracket) :
    bareCount bracket body = 0 := by
  refine bareCount_eq_zero_of_notMem (h.notMem ?_)
  rcases (by simpa [isBracket] using hbracket : bracket = '<' ∨ bracket = '>') with rfl | rfl <;>
    decide

/-- **Around counts the brackets left standing are those of the grammar**: the body takes no part
in the toggling, and neither bracket of the body is of the other's kind. -/
theorem stands_iff {lead body trail : List Char} {counts : List ℕ} (h : ListsCounts body counts) :
    (Stands '<' lead (body ++ '>' :: trail) ∧ Stands '>' (lead ++ '<' :: body) trail) ↔
      lead.getLast? ≠ some '\\' ∧ Even (bareCount '<' lead) ∧ Even (bareCount '>' lead) ∧
        ∀ i, ¬BareAt '<' trail i ∧ ¬BareAt '>' trail i := by
  -- neither the body nor the bracket of the other kind adds to a count
  have hafter : bareCount '<' (body ++ '>' :: trail) = bareCount '<' trail := by
    rw [bareCount_append h.getLast?_ne, h.bareCount_eq_zero rfl, bareCount_cons (by decide)]
    simp
  have hbefore : lead.getLast? ≠ some '\\' →
      bareCount '>' (lead ++ '<' :: body) = bareCount '>' lead := by
    intro hlead
    rw [bareCount_append hlead, bareCount_cons (by decide), h.bareCount_eq_zero rfl]
    simp
  have hlast : (lead ++ '<' :: body).getLast? ≠ some '\\' := by
    intro hcon
    rw [List.getLast?_append_of_ne_nil lead (by simp)] at hcon
    rcases List.mem_cons.mp (List.mem_of_getLast? hcon) with hc | hc
    · cases hc
    · exact h.notMem (by decide) hc
  simp only [forall_and, ← bareCount_eq_zero_iff]
  constructor
  · rintro ⟨⟨hlead, heven, hnone⟩, -, heven', hnone'⟩
    rw [hafter] at hnone
    rw [hbefore hlead] at heven'
    exact ⟨hlead, heven, heven', hnone, hnone'⟩
  · rintro ⟨hlead, heven, heven', hnone, hnone'⟩
    refine ⟨⟨hlead, heven, ?_⟩, hlast, ?_, hnone'⟩
    · rwa [hafter]
    · rwa [hbefore hlead]

theorem isWritten_iff {text lead body trail : List Char} {counts : List ℕ} :
    IsWritten text lead body trail counts ↔
      cut? text = some ⟨lead, body, trail⟩ ∧ ListsCounts body counts ∧ counts.sum ≤ 64 := by
  rw [cut?_eq_some_iff]
  constructor
  · rintro ⟨rfl, hlead, heven, heven', hlists, htotal, htrail⟩
    exact ⟨⟨rfl, (stands_iff hlists).mpr ⟨hlead, heven, heven', htrail⟩⟩, hlists, htotal⟩
  · rintro ⟨⟨rfl, hstands⟩, hlists, htotal⟩
    obtain ⟨hlead, heven, heven', htrail⟩ := (stands_iff hlists).mp hstands
    exact ⟨rfl, hlead, heven, heven', hlists, htotal, htrail⟩

/-! ### What the reader accepts -/

section Parts

variable {lead trail : String} {letters digits specials : ℕ}

/-- Counts within the cap make a pattern. -/
theorem ofParts_of_le (h : letters + digits + specials ≤ 64) :
    Pattern.ofParts lead trail letters digits specials =
      .ok ⟨lead, trail, letters, digits, specials, h⟩ := by
  have hheld : addHeld (addHeld letters digits) specials ≤ maxPatternLength := by
    rw [addHeld_addHeld]
    exact Nat.le_trans (Nat.min_le_left _ _) h
  exact dif_pos hheld

/-- Counts beyond the cap do not, and their sum is reported up to the largest 64-bit number. -/
theorem ofParts_of_lt (h : 64 < letters + digits + specials) :
    Pattern.ofParts lead trail letters digits specials =
      .error (.tooLong 64 (min (letters + digits + specials) maxCount)) := by
  have hheld : ¬addHeld (addHeld letters digits) specials ≤ maxPatternLength := fun hle =>
    Nat.not_le.mpr h (add_le_of_addHeld_le (by decide) hle)
  rw [← addHeld_addHeld]
  exact dif_neg hheld

theorem ofParts_eq_ok_iff {p : Pattern} :
    Pattern.ofParts lead trail letters digits specials = .ok p ↔
      letters + digits + specials ≤ 64 ∧ p.lead = lead ∧ p.trail = trail ∧
        p.letters = letters ∧ p.digits = digits ∧ p.specials = specials := by
  constructor
  · intro h
    rcases Nat.lt_or_ge 64 (letters + digits + specials) with hlt | hle
    · rw [ofParts_of_lt hlt] at h
      cases h
    · rw [ofParts_of_le hle] at h
      obtain rfl := Except.ok.inj h
      exact ⟨hle, rfl, rfl, rfl, rfl, rfl⟩
  · rintro ⟨hle, rfl, rfl, rfl, rfl, rfl⟩
    exact ofParts_of_le hle

end Parts

/-- At most three counts and zeros in place of those that are missing add up to the same. -/
theorem sum_getD {counts : List ℕ} (h : counts.length ≤ 3) :
    counts.getD 0 0 + counts.getD 1 0 + counts.getD 2 0 = counts.sum := by
  match counts, h with
  | [], _ => rfl
  | [_], _ => simp
  | [_, _], _ => simp
  | [_, _, _], _ => simp [Nat.add_assoc]

/-- What is read from a body is within the cap, so that the cap need not be checked again. -/
theorem le_of_readBody {body : List Char} {read : ℕ × ℕ × ℕ} (h : readBody body = .ok read) :
    read.1 + read.2.1 + read.2.2 ≤ 64 := by
  obtain ⟨counts, hlists, htotal, rfl⟩ := readBody_eq_ok_iff.mp h
  rwa [sum_getD hlists.atMost]

/-- **The reader accepts exactly the grammar**, and gives the pattern whose fixed parts and counts
are those of the text. -/
theorem ofText_eq_ok_iff {raw : String} {p : Pattern} :
    Pattern.ofText raw = .ok p ↔
      ∃ lead body trail counts, IsWritten raw.toList lead body trail counts ∧
        p.lead = String.ofList (unescape lead) ∧ p.trail = String.ofList (unescape trail) ∧
        p.letters = counts.getD 0 0 ∧ p.digits = counts.getD 1 0 ∧
        p.specials = counts.getD 2 0 := by
  unfold Pattern.ofText
  simp only [isWritten_iff]
  cases hcut : cut? raw.toList with
  | none => exact iff_of_false (by simp) (by simp)
  | some cut =>
    simp only [Option.some.injEq]
    constructor
    · intro h
      cases hbody : readBody cut.body with
      | error fault =>
        rw [hbody] at h
        cases h
      | ok read =>
        obtain ⟨counts, hlists, htotal, rfl⟩ := readBody_eq_ok_iff.mp hbody
        rw [hbody] at h
        obtain ⟨-, hp⟩ := ofParts_eq_ok_iff.mp h
        exact ⟨cut.before, cut.body, cut.after, counts, ⟨rfl, hlists, htotal⟩, hp⟩
    · rintro ⟨lead, body, trail, counts, ⟨rfl, hlists, htotal⟩, hp⟩
      have hread := readBody_eq_ok_iff.mpr ⟨counts, hlists, htotal, rfl⟩
      rw [hread]
      exact ofParts_eq_ok_iff.mpr ⟨le_of_readBody hread, hp⟩

/-- **A text is a pattern in one way only.** -/
theorem IsWritten.unique {text lead body trail lead' body' trail' : List Char}
    {counts counts' : List ℕ} (h : IsWritten text lead body trail counts)
    (h' : IsWritten text lead' body' trail' counts') :
    lead = lead' ∧ body = body' ∧ trail = trail' ∧ counts = counts' := by
  obtain ⟨hcut, hlists, -⟩ := isWritten_iff.mp h
  obtain ⟨hcut', hlists', -⟩ := isWritten_iff.mp h'
  have heq := Option.some.inj (hcut.symm.trans hcut')
  obtain ⟨rfl, rfl, rfl⟩ := Cut.mk.inj heq
  exact ⟨rfl, rfl, rfl, hlists.unique hlists'⟩

/-- A text of the grammar is read. -/
theorem IsWritten.exists_pattern {raw : String} {lead body trail : List Char} {counts : List ℕ}
    (h : IsWritten raw.toList lead body trail counts) : ∃ p, Pattern.ofText raw = .ok p := by
  have hle : counts.getD 0 0 + counts.getD 1 0 + counts.getD 2 0 ≤ maxPatternLength := by
    rw [sum_getD h.lists.atMost]
    exact h.total
  exact ⟨⟨_, _, _, _, _, hle⟩, ofText_eq_ok_iff.mpr ⟨lead, body, trail, counts, h,
    rfl, rfl, rfl, rfl, rfl⟩⟩

/-! ### Where the text is cut -/

/-- No body is located if and only if the text is not cut. -/
theorem ofText_eq_notFound_iff {raw : String} :
    Pattern.ofText raw = .error .notFound ↔ cut? raw.toList = none := by
  unfold Pattern.ofText
  cases cut? raw.toList with
  | none => simp
  | some cut =>
    refine iff_of_false ?_ (by simp)
    dsimp only
    intro h
    cases hbody : readBody cut.body with
    | error fault =>
      rw [hbody] at h
      obtain rfl := Except.error.inj h
      exact readBody_ne_notFound _ hbody
    | ok read =>
      rw [hbody] at h
      change Pattern.ofParts _ _ read.1 read.2.1 read.2.2 = _ at h
      rw [ofParts_of_le (le_of_readBody hbody)] at h
      cases h

/-- The parts of a text lie between the offsets of its brackets. -/
theorem exists_parts_of_bracketOffsets {raw : String} {start stop : ℕ}
    (h : bracketOffsets? raw.toList = some (start, stop)) :
    ∃ lead body trail : String, raw = lead ++ "<" ++ body ++ ">" ++ trail ∧
      start = lead.utf8ByteSize ∧ stop = start + 1 + body.utf8ByteSize ∧
      cut? raw.toList = some ⟨lead.toList, body.toList, trail.toList⟩ := by
  rw [bracketOffsets?_eq_map_cut?, Option.map_eq_some_iff] at h
  obtain ⟨⟨lead, body, trail⟩, hcut, heq⟩ := h
  obtain ⟨rfl, rfl⟩ := Prod.mk.inj heq
  refine ⟨String.ofList lead, String.ofList body, String.ofList trail, ?_, ?_, ?_, ?_⟩
  · rw [← String.toList_inj, (cut?_eq_some_iff.mp hcut).1]
    simp [Cut.text]
  · rw [utf8ByteSize_ofList]
  · have hone : ('<' : Char).utf8Size = 1 := rfl
    rw [utf8ByteSize_ofList, byteLength_append, byteLength_cons, hone, Nat.add_assoc]
  · rw [hcut, String.toList_ofList, String.toList_ofList, String.toList_ofList]

/-- **The grammar of patterns is exact.** A text is read if and only if it is of the grammar, in
one way only, and the pattern has the fixed parts and the counts of the text. The brackets are
found at byte offsets between which no character is divided. -/
theorem ofText_grammar (raw : String) :
    ((∃ p, Pattern.ofText raw = .ok p) ↔
      ∃ lead body trail counts, IsWritten raw.toList lead body trail counts) ∧
    (∀ lead body trail counts p, IsWritten raw.toList lead body trail counts →
      Pattern.ofText raw = .ok p →
        p.lead = String.ofList (unescape lead) ∧ p.trail = String.ofList (unescape trail) ∧
        p.letters = counts.getD 0 0 ∧ p.digits = counts.getD 1 0 ∧
        p.specials = counts.getD 2 0) ∧
    (∀ lead body trail counts lead' body' trail' counts',
      IsWritten raw.toList lead body trail counts →
      IsWritten raw.toList lead' body' trail' counts' →
        lead = lead' ∧ body = body' ∧ trail = trail' ∧ counts = counts') ∧
    (Pattern.ofText raw = .error .notFound ↔ bracketOffsets? raw.toList = none) ∧
    (∀ start stop, bracketOffsets? raw.toList = some (start, stop) →
      (∀ offset ∈ [start, start + 1, stop, stop + 1], (⟨offset⟩ : String.Pos.Raw).IsValid raw) ∧
      ∃ lead body trail : String, raw = lead ++ "<" ++ body ++ ">" ++ trail ∧
        start = lead.utf8ByteSize ∧ stop = start + 1 + body.utf8ByteSize ∧
        cut? raw.toList = some ⟨lead.toList, body.toList, trail.toList⟩) := by
  refine ⟨⟨?_, ?_⟩, ?_, ?_, ?_, ?_⟩
  · rintro ⟨p, hp⟩
    obtain ⟨lead, body, trail, counts, h, -⟩ := ofText_eq_ok_iff.mp hp
    exact ⟨lead, body, trail, counts, h⟩
  · rintro ⟨lead, body, trail, counts, h⟩
    exact h.exists_pattern
  · intro lead body trail counts p h hp
    obtain ⟨lead', body', trail', counts', h', hparts⟩ := ofText_eq_ok_iff.mp hp
    obtain ⟨rfl, rfl, rfl, rfl⟩ := h.unique h'
    exact hparts
  · intro lead body trail counts lead' body' trail' counts' h h'
    exact h.unique h'
  · rw [ofText_eq_notFound_iff, bracketOffsets?_eq_map_cut?, Option.map_eq_none_iff]
  · intro start stop h
    refine ⟨?_, exists_parts_of_bracketOffsets h⟩
    have hvalid := isValid_bracketOffsets h
    rwa [String.ofList_toList] at hvalid

end Stencil
