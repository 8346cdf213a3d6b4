import Stencil.Proofs.Pattern.Bare

/-!
# Writing backslashes and reading them back

The reader of backslashes looks one character ahead: a backslash goes if a character other than a
backslash follows. The writer looks one character back: a character other than a backslash gets one
more if it follows a backslash or is a bracket. The two meet in the state of the writer. In the
middle of a run of backslashes nothing has been added to the run yet, so what is written from there
reads back **together with the backslash before it**; that is the second half of
`Stencil.unescape_escapeFrom`, and the induction needs both halves at once.

* `Stencil.unescape_escape`: a written text reads back;
* `Stencil.barePositions_escapeFrom`: no bracket of a written text is bare;
* `Stencil.getLast?_escape`, `Stencil.getLast?_unescape`: neither changes the last character.
-/

namespace Stencil

/-! ### Reading -/

theorem unescape_cons_of_ne {c : Char} (hc : c ≠ '\\') (rest : List Char) :
    unescape (c :: rest) = c :: unescape rest := by
  cases rest with
  | nil => rfl
  | cons next rest => rw [unescape, if_neg fun h => hc h.1]

theorem unescape_backslash_of_ne {c : Char} (hc : c ≠ '\\') (rest : List Char) :
    unescape ('\\' :: c :: rest) = unescape (c :: rest) := by
  rw [unescape, if_pos ⟨rfl, hc⟩]

theorem unescape_backslash_backslash (rest : List Char) :
    unescape ('\\' :: '\\' :: rest) = '\\' :: unescape ('\\' :: rest) := by
  rw [unescape, if_neg fun h => h.2 rfl]

/-- **Reading keeps the last character**: what is dropped always has a character after it. -/
theorem getLast?_unescape (text : List Char) : (unescape text).getLast? = text.getLast? := by
  fun_induction unescape text with
  | case1 => rfl
  | case2 c => rfl
  | case3 c next rest _ ih => rw [ih, List.getLast?_cons_cons]
  | case4 c next rest _ ih =>
    rw [List.getLast?_cons, ih, List.getLast?_cons_cons, List.getLast?_cons]
    rfl

/-! ### Writing -/

/-- **What is written reads back**, from the start of a text and from the middle of a run of
backslashes, where the last backslash of the run is still to be judged. -/
theorem unescape_escapeFrom (text : List Char) :
    unescape (escapeFrom false text) = text ∧
      unescape ('\\' :: escapeFrom true text) = '\\' :: text := by
  induction text with
  | nil => exact ⟨rfl, rfl⟩
  | cons c rest ih =>
    obtain ⟨hfresh, hrun⟩ := ih
    by_cases hc : c = '\\'
    · subst hc
      constructor
      · rw [escapeFrom, if_pos rfl, hrun]
      · rw [escapeFrom, if_pos rfl, unescape_backslash_backslash, hrun]
    · -- a character that ends a run, or follows none, gets its backslash back
      have hone : unescape ('\\' :: c :: escapeFrom false rest) = c :: rest := by
        rw [unescape_backslash_of_ne hc, unescape_cons_of_ne hc, hfresh]
      constructor
      · rw [escapeFrom, if_neg hc]
        split
        · exact hone
        · rw [unescape_cons_of_ne hc, hfresh]
      · rw [escapeFrom, if_neg hc, Bool.true_or, if_pos rfl, unescape_backslash_backslash, hone]

/-- **A written text reads back.** -/
theorem unescape_escape (text : List Char) : unescape (escape text) = text :=
  (unescape_escapeFrom text).1

/-- **No bracket of a written text is bare**: a bracket gets a backslash of its own. -/
theorem barePositions_escapeFrom {bracket : Char} (hbracket : isBracket bracket)
    (afterBackslash escaped : Bool) (index : ℕ) (text : List Char) :
    barePositions bracket escaped index (escapeFrom afterBackslash text) = [] := by
  have hback : ('\\' == bracket) = false := by
    rw [beq_eq_false_iff_ne]
    rintro rfl
    cases hbracket
  induction text generalizing afterBackslash escaped index with
  | nil => rfl
  | cons c rest ih =>
    rw [escapeFrom]
    split
    · next hc => simp [hc, barePositions, hback, ih]
    · split
      · -- the backslash of its own makes the bracket escaped, and is no bracket itself
        simp [barePositions, hback, ih]
      · next hplain =>
        have hne : (c == bracket) = false := by
          rw [beq_eq_false_iff_ne]
          rintro rfl
          simp [hbracket] at hplain
        simp [barePositions, hne, ih]

theorem bareCount_escape {bracket : Char} (hbracket : isBracket bracket) (text : List Char) :
    bareCount bracket (escape text) = 0 := by
  rw [← length_barePositions, escape, barePositions_escapeFrom hbracket]
  rfl

/-- **Writing keeps the last character.** -/
theorem getLast?_escapeFrom (afterBackslash : Bool) (text : List Char) :
    (escapeFrom afterBackslash text).getLast? = text.getLast? := by
  induction text generalizing afterBackslash with
  | nil => rfl
  | cons c rest ih =>
    rw [escapeFrom, List.getLast?_cons (l := rest)]
    split
    · rw [List.getLast?_cons, ih]
    · split
      · rw [List.getLast?_cons_cons, List.getLast?_cons, ih]
      · rw [List.getLast?_cons, ih]

theorem getLast?_escape (text : List Char) : (escape text).getLast? = text.getLast? :=
  getLast?_escapeFrom false text

end Stencil
