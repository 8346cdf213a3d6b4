import Stencil.Proofs.Pattern.Escape
import Stencil.Proofs.Pattern.Grammar

/-!
# Writing a pattern and reading it back

The text of a pattern is of the grammar as long as its lead does not end in a backslash: the fixed
parts are written without bare brackets, so nothing is left to toggle, and the counts are written
out in full. A lead that does end in a backslash takes the opening bracket of the body with it, and
since no other bracket is bare the text is not a pattern at all. The reader never gives such a
lead, because it never drops the last character of one.

* `Stencil.isWritten_text`: the text of a pattern, as the grammar divides it;
* `Stencil.getLast?_lead_of_ofText`: what the reader never gives;
* `Stencil.ofText_text`: writing and reading are inverse wherever they can be.
-/

namespace Stencil

/-! ### The body -/

theorem denotesCount_decimalDigits {n : ℕ} (h : n < 2 ^ 64) :
    DenotesCount (decimalDigits n) n := by
  refine ⟨decimalDigits n, Or.inl rfl, Nat.toDigits_ne_nil, ?_, digitsValue_decimalDigits n, h⟩
  exact fun c hc => Nat.isDigit_of_mem_toDigits (by decide) (by decide) hc

/-- The body of a pattern's text lists its counts. -/
theorem listsCounts_bodyText (p : Pattern) :
    ListsCounts p.bodyText [p.letters, p.digits, p.specials] := by
  have hle : p.letters + p.digits + p.specials ≤ 64 := p.length_le
  refine ⟨⟨[decimalDigits p.letters, decimalDigits p.digits, decimalDigits p.specials], ?_, ?_⟩,
    by simp, by simp⟩
  · rw [List.intercalate_cons_cons, List.intercalate_cons_cons, List.intercalate_singleton,
      Pattern.bodyText]
    simp
  · refine .cons ?_ (.cons ?_ (.cons ?_ .nil)) <;> exact denotesCount_decimalDigits (by omega)

/-! ### The text -/

theorem toList_text (p : Pattern) :
    p.text.toList = escape p.lead.toList ++ '<' :: p.bodyText ++ '>' :: escape p.trail.toList := by
  rw [Pattern.text, String.toList_ofList]

/-- **The text of a pattern is of the grammar**, unless the lead ends in a backslash. -/
theorem isWritten_text {p : Pattern} (h : p.lead.toList.getLast? ≠ some '\\') :
    IsWritten p.text.toList (escape p.lead.toList) p.bodyText (escape p.trail.toList)
      [p.letters, p.digits, p.specials] where
  text_eq := toList_text p
  lead_end := by rwa [getLast?_escape]
  lead_opening := by
    rw [bareCount_escape rfl]
    exact Even.zero
  lead_closing := by
    rw [bareCount_escape rfl]
    exact Even.zero
  lists := listsCounts_bodyText p
  total := by
    have hle : p.letters + p.digits + p.specials ≤ 64 := p.length_le
    simp only [List.sum_cons, List.sum_nil]
    omega
  trail_bare := forall_and.mpr
    ⟨bareCount_eq_zero_iff.mp (bareCount_escape rfl _),
      bareCount_eq_zero_iff.mp (bareCount_escape rfl _)⟩

/-- **A lead that ends in a backslash hides the body**: then no opening bracket of the text is
bare. -/
theorem cut?_text_eq_none {p : Pattern} (h : p.lead.toList.getLast? = some '\\') :
    cut? p.text.toList = none := by
  have hopening : barePositions '<' false 0 p.text.toList = [] := by
    have hflag : escapedAfter false (escape p.lead.toList) = true := by
      rw [escapedAfter_false_iff, getLast?_escape, h]
    have hbody : bareCount '<' (p.bodyText ++ '>' :: escape p.trail.toList) = 0 := by
      rw [bareCount_append (listsCounts_bodyText p).getLast?_ne,
        (listsCounts_bodyText p).bareCount_eq_zero rfl, bareCount_cons (by decide),
        bareCount_escape rfl]
      rfl
    rw [toList_text, List.append_assoc, List.cons_append, barePositions_append, hflag, escape,
      barePositions_escapeFrom rfl, barePositions, ← List.length_eq_zero_iff]
    simp only [Bool.not_true, Bool.and_false, Bool.false_eq_true, if_false, List.nil_append]
    rw [show ('<' == '\\') = false from rfl, length_barePositions_index _ _ 0,
      length_barePositions, hbody]
  unfold cut?
  rw [hopening]
  rfl

/-- The reader gives no lead that ends in a backslash. -/
theorem getLast?_lead_of_ofText {raw : String} {p : Pattern} (h : Pattern.ofText raw = .ok p) :
    p.lead.toList.getLast? ≠ some '\\' := by
  obtain ⟨lead, body, trail, counts, hwritten, hlead, -⟩ := ofText_eq_ok_iff.mp h
  rw [hlead, String.toList_ofList, getLast?_unescape]
  exact hwritten.lead_end

/-- The text of a pattern is read back, unless the lead ends in a backslash. -/
theorem ofText_text_of_lead {p : Pattern} (h : p.lead.toList.getLast? ≠ some '\\') :
    Pattern.ofText p.text = .ok p := by
  refine ofText_eq_ok_iff.mpr ⟨_, _, _, _, isWritten_text h, ?_, ?_, rfl, rfl, rfl⟩
  · rw [unescape_escape, String.ofList_toList]
  · rw [unescape_escape, String.ofList_toList]

/-- **Writing and reading are inverse wherever they can be.** The text of a pattern is read back as
that pattern, unless its lead ends in a backslash; then the text is not a pattern. A pattern that
was read has no such lead, so it is always read back. -/
theorem ofText_text (p : Pattern) :
    (p.lead.toList.getLast? ≠ some '\\' → Pattern.ofText p.text = .ok p) ∧
    (p.lead.toList.getLast? = some '\\' → Pattern.ofText p.text = .error .notFound) ∧
    ∀ raw, Pattern.ofText raw = .ok p →
      p.lead.toList.getLast? ≠ some '\\' ∧ Pattern.ofText p.text = .ok p := by
  refine ⟨ofText_text_of_lead, ?_, ?_⟩
  · intro h
    exact ofText_eq_notFound_iff.mpr (cut?_text_eq_none h)
  · intro raw h
    have hlead := getLast?_lead_of_ofText h
    exact ⟨hlead, ofText_text_of_lead hlead⟩

end Stencil
