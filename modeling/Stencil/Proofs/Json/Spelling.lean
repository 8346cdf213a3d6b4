import Mathlib.Tactic.Common
import Stencil.Json.Token
import Stencil.Json.Writer

/-!
# Tokens are read as they were written

The writer escapes some characters of a text and leaves others as they are. What it makes of a
character is read back as that character, whatever follows, since the reader looks no further than
the end of an escape. A number has no end of its own: it is read back if no digit, point or exponent
follows, which a comma, a bracket and the end of the document see to.

* `Stencil.readString_writeString`: texts;
* `Stencil.Delimits`: symbols after which a number has ended;
* `Stencil.readNumber_signedDigits`: integers.
-/

namespace Stencil

/-! ### Texts -/

/-- Digits of base sixteen are read back. -/
theorem hexDigitValue?_hexDigit (n : ℕ) : hexDigitValue? (hexDigit n) = some (n % 16) := by
  have each : ∀ k < 16, hexDigitValue? (Nat.digitChar k) = some k := by decide
  exact each (n % 16) (Nat.mod_lt _ (by decide))

/-- A numeric escape is read as the character with that number, below the surrogates. -/
theorem readSymbols_numericEscape {n : ℕ} (small : n < 256) (rest : List Symbol) :
    readSymbols (['\\', 'u', '0', '0', hexDigit (n / 16), hexDigit n].map some ++ rest) =
      putBefore (some (Char.ofNat n)) (readSymbols rest) := by
  have unit : hexUnit (some '0') (some '0') (some (hexDigit (n / 16))) (some (hexDigit n)) =
      some n := by
    have zero : hexValue (some '0') = some 0 := rfl
    have high : hexValue (some (hexDigit (n / 16))) = _ := hexDigitValue?_hexDigit (n / 16)
    have low : hexValue (some (hexDigit n)) = _ := hexDigitValue?_hexDigit n
    simp only [hexUnit, zero, high, low, Option.bind_eq_bind, Option.bind_some, Option.pure_def,
      Option.some.injEq]
    omega
  have leading : isLeadingSurrogate n = false := by
    simp only [isLeadingSurrogate, Bool.and_eq_false_imp, decide_eq_true_eq,
      decide_eq_false_iff_not]
    omega
  have trailing : isTrailingSurrogate n = false := by
    simp only [isTrailingSurrogate, Bool.and_eq_false_imp, decide_eq_true_eq,
      decide_eq_false_iff_not]
    omega
  simp only [List.map_cons, List.map_nil, List.cons_append, List.nil_append, readSymbols, unit,
    leading, trailing, Bool.false_eq_true, if_false]

/-- A character that needs no escape stands for itself. -/
theorem readSymbols_plain {c : Char} (quote : c ≠ '"') (backslash : c ≠ '\\') (plain : ¬c < ' ')
    (rest : List Symbol) :
    readSymbols (some c :: rest) = putBefore (some c) (readSymbols rest) := by
  rw [readSymbols, if_neg plain]
  all_goals simp_all

/-- **What the writer makes of a character is read as that character.** -/
theorem readSymbols_escapedChar (c : Char) (rest : List Symbol) :
    readSymbols ((escapedChar c).map some ++ rest) = putBefore (some c) (readSymbols rest) := by
  unfold escapedChar
  -- the escapes by a letter come first, and then those by a number
  iterate 7
    split
    · subst c
      rw [List.map_cons, List.map_cons, List.map_nil, List.cons_append, List.cons_append,
        List.nil_append, readSymbols]
      · rfl
      all_goals simp
  split
  next control =>
    have small : c.toNat < 32 := control
    rw [readSymbols_numericEscape (by omega), Char.ofNat_toNat]
  next quote backslash _ _ _ _ _ plain => exact readSymbols_plain quote backslash plain rest

theorem readSymbols_flatMap_escapedChar (text : List Char) (rest : List Symbol) :
    readSymbols ((text.flatMap escapedChar).map some ++ some '"' :: rest) =
      .ok (text.map some, rest) := by
  induction text with
  | nil => simp only [List.flatMap_nil, List.map_nil, List.nil_append, readSymbols]
  | cons c text ih =>
    rw [List.flatMap_cons, List.map_append, List.append_assoc, readSymbols_escapedChar, ih]
    rfl

/-- **A text is read as it was written**, after its opening quotation mark. -/
theorem readString_writeString (value : String) (rest : List Symbol) :
    readString ((writeString value).tail.map some ++ rest) = .ok (value, rest) := by
  have characters : ∀ l : List Char, (l.map some).mapM id = some l := by
    intro l
    induction l with
    | nil => rfl
    | cons c l ih => simp [ih]
  have split : (writeString value).tail.map some ++ rest =
      (value.toList.flatMap escapedChar).map some ++ some '"' :: rest := by
    simp [writeString]
  rw [split, readString, readSymbols_flatMap_escapedChar]
  simp only [bind, Except.bind, characters, String.ofList_toList]
  rfl

/-! ### Numbers -/

/-- A number has ended before these symbols: they go on neither with a digit, nor with a point, nor
with an exponent. -/
def Delimits (rest : List Symbol) : Prop :=
  ∀ x ∈ rest.head?, isDigitSymbol x = false ∧ x ≠ some '.' ∧ x ≠ some 'e' ∧ x ≠ some 'E'

theorem delimits_nil : Delimits [] := by
  simp [Delimits]

theorem delimits_cons {x : Symbol} (h : x ∈ [some ',', some ']', some '\x7d'])
    (rest : List Symbol) : Delimits (x :: rest) := by
  simp only [List.mem_cons, List.not_mem_nil, or_false] at h
  rcases h with rfl | rfl | rfl <;> simp [Delimits, isDigitSymbol]

/-- A run of digits ends where no digit follows. -/
theorem spanDigits_append {digits : List Char} (all : ∀ c ∈ digits, c.isDigit) {rest : List Symbol}
    (ends : ∀ x ∈ rest.head?, isDigitSymbol x = false) :
    spanDigits (digits.map some ++ rest) = (digits, rest) := by
  have last : rest.takeWhile isDigitSymbol = [] ∧ rest.dropWhile isDigitSymbol = rest := by
    cases rest with
    | nil => exact ⟨rfl, rfl⟩
    | cons x rest => simp [ends x rfl]
  induction digits with
  | nil => simp [spanDigits, last]
  | cons c digits ih =>
    obtain ⟨digit, others⟩ := List.forall_mem_cons.mp all
    have digit : isDigitSymbol (some c) = true := digit
    have tail := ih others
    simp only [spanDigits, Prod.mk.injEq] at tail ⊢
    rw [List.map_cons, List.cons_append, List.takeWhile_cons_of_pos digit,
      List.dropWhile_cons_of_pos digit]
    exact ⟨congrArg (c :: ·) tail.1, tail.2⟩

theorem isDigit_of_mem_decimalDigits {n : ℕ} {c : Char} (mem : c ∈ decimalDigits n) : c.isDigit :=
  Nat.isDigit_of_mem_toDigits (by decide) (by decide) mem

/-- There is at least one digit. -/
theorem exists_decimalDigits (n : ℕ) : ∃ d more, decimalDigits n = d :: more ∧ d.isDigit := by
  obtain ⟨d, more, spelled⟩ :=
    List.exists_cons_of_ne_nil (Nat.toDigits_ne_nil : decimalDigits n ≠ [])
  exact ⟨d, more, spelled, isDigit_of_mem_decimalDigits (spelled ▸ List.mem_cons_self)⟩

/-- The digits of a positive number do not begin with a zero. -/
theorem head?_decimalDigits {n : ℕ} (positive : 0 < n) : (decimalDigits n).head? ≠ some '0' := by
  induction n using Nat.strongRecOn with
  | _ n ih =>
    rw [decimalDigits, Nat.toDigits_eq_if (by decide)]
    split
    next => simpa using Nat.ne_of_gt positive
    next several =>
      -- the first digit is that of the number without its last digit
      rw [List.head?_append, Option.or_of_isSome (List.isSome_head?.mpr Nat.toDigits_ne_nil)]
      exact ih (n / 10) (by omega) (by omega)

/-- Without a point there is no part after it. -/
theorem readFraction_of_unmarked {s : List Symbol} (unmarked : ∀ x ∈ s.head?, x ≠ some '.') :
    readFraction s = .ok (none, s) := by
  unfold readFraction
  split
  next => exact absurd rfl (unmarked _ rfl)
  next => rfl

/-- Without its mark there is no exponent. -/
theorem readExponent_of_unmarked {s : List Symbol}
    (unmarked : ∀ x ∈ s.head?, x ≠ some 'e' ∧ x ≠ some 'E') : readExponent s = .ok (none, s) := by
  unfold readExponent
  split
  next => exact absurd rfl (unmarked _ rfl).1
  next => exact absurd rfl (unmarked _ rfl).2
  next => rfl

/-- **Digits are read as the number that they spell.** -/
theorem readNumeral_decimalDigits (negative : Bool) (n : ℕ) {rest : List Symbol}
    (ends : Delimits rest) :
    readNumeral negative ((decimalDigits n).map some ++ rest) =
      .ok (⟨negative, decimalDigits n, none, none⟩, rest) := by
  have run : readDigitRun ((decimalDigits n).map some ++ rest) = .ok (decimalDigits n, rest) := by
    rw [readDigitRun, spanDigits_append (fun _ => isDigit_of_mem_decimalDigits)
      fun x mem => (ends x mem).1]
    cases spelled : decimalDigits n with
    | nil => exact absurd spelled Nat.toDigits_ne_nil
    | cons => rfl
  have leading : ¬((decimalDigits n).head? = some '0' ∧ decimalDigits n ≠ ['0']) := by
    rcases Nat.eq_zero_or_pos n with rfl | positive
    · simp [decimalDigits]
    · exact fun h => head?_decimalDigits positive h.1
  have noFraction : readFraction rest = .ok (none, rest) :=
    readFraction_of_unmarked fun x mem => (ends x mem).2.1
  have noExponent : readExponent rest = .ok (none, rest) :=
    readExponent_of_unmarked fun x mem => (ends x mem).2.2
  simp only [readNumeral, run, bind, Except.bind, leading, if_false, pure, Except.pure, noFraction,
    noExponent]

/-- The digits of an integer, with a minus sign if it is negative, denote that integer. -/
theorem value?_decimalDigits {n : Int} (fits : InWordRange n) :
    (Numeral.mk (decide (n < 0)) (decimalDigits n.natAbs) none none).value? =
      some (.integer n fits) := by
  have signed : (if n < 0 then -(n.natAbs : Int) else n.natAbs) = n := by
    split <;> omega
  have zero : ¬(n < 0 ∧ n.natAbs = 0) := by omega
  have integer : (Numeral.mk (decide (n < 0)) (decimalDigits n.natAbs) none none).integer? =
      some (.integer n fits) := by
    simp only [Numeral.integer?, digitsValue_decimalDigits, decide_eq_true_eq, zero, if_false,
      signed]
    exact dif_pos fits
  rw [Numeral.value?, integer]
  rfl

section Sign

variable {s rest : List Symbol} {numeral : Numeral} {number : Number}

/-- After a minus sign a numeral is read as a negative one. -/
theorem readNumber_minus (read : readNumeral true s = .ok (numeral, rest))
    (value : numeral.value? = some number) :
    readNumber (some '-' :: s) = .ok (number, rest) := by
  simp only [readNumber, read, bind, Except.bind, value]
  rfl

/-- Without a minus sign a numeral is read as it is. -/
theorem readNumber_unsigned (unsigned : ∀ t, s ≠ some '-' :: t)
    (read : readNumeral false s = .ok (numeral, rest)) (value : numeral.value? = some number) :
    readNumber s = .ok (number, rest) := by
  unfold readNumber
  split
  next t => exact absurd rfl (unsigned t)
  next =>
    simp only [read, bind, Except.bind, value]
    rfl

end Sign

/-- **An integer is read as it was written**, if the number has ended after it. -/
theorem readNumber_signedDigits {n : Int} (fits : InWordRange n) {rest : List Symbol}
    (ends : Delimits rest) :
    readNumber ((signedDigits n).map some ++ rest) = .ok (.integer n fits, rest) := by
  have value := value?_decimalDigits fits
  have numeral := readNumeral_decimalDigits (decide (n < 0)) n.natAbs ends
  unfold signedDigits
  split
  next negative =>
    rw [decide_eq_true negative] at numeral value
    exact readNumber_minus numeral value
  next natural =>
    rw [decide_eq_false natural] at numeral value
    refine readNumber_unsigned (fun t signed => ?_) numeral value
    -- a digit is no minus sign
    obtain ⟨d, more, spelled, digit⟩ := exists_decimalDigits n.natAbs
    rw [spelled] at signed
    obtain rfl : d = '-' := by simpa using (List.cons.inj signed).1
    exact absurd digit (by decide)

end Stencil
