import Stencil.Proofs.Json.Decoded

/-!
# Blanks between tokens

Blanks can stand anywhere between the tokens of a document. Take them all out, but for those within
texts, and the document is read as the same. The converse is not true: taking out a blank can join
two tokens that the reader does not accept next to one another, so a document without blanks may be
read where the one with blanks is not. A number is the one token whose end has to be looked for, and
what follows it in a document that is read is a comma, a bracket or the end, with or without blanks.

* `Stencil.unspaced`: the symbols of a document without blanks;
* `Stencil.Unspaceable`: readers to which blanks do not matter;
* `Stencil.Json.readObject_unspaced`: a document without its blanks.
-/

namespace Stencil

/-! ### Documents without blanks -/

mutual

/-- The symbols without the blanks outside of texts. -/
def unspaced : List Symbol → List Symbol
  | [] => []
  | x :: s =>
    if x = some '"' then x :: unspacedText s
    else if isBlank x then unspaced s
    else x :: unspaced s

/-- The symbols after an opening quotation mark, without the blanks after the closing one. -/
def unspacedText : List Symbol → List Symbol
  | [] => []
  | some '\\' :: x :: s => some '\\' :: x :: unspacedText s
  | x :: s => if x = some '"' then x :: unspaced s else x :: unspacedText s

end

mutual

/-- **Nothing but blanks is taken out**: all other symbols stay, in the same order. -/
theorem filter_unspaced : (s : List Symbol) →
    (unspaced s).filter (!isBlank ·) = s.filter (!isBlank ·)
  | [] => rfl
  | x :: s => by
    rw [unspaced]
    split
    next => rw [List.filter_cons, List.filter_cons, filter_unspacedText s]
    next =>
      split
      next blank => rw [filter_unspaced s, List.filter_cons_of_neg (by simp [blank])]
      next => rw [List.filter_cons, List.filter_cons, filter_unspaced s]

theorem filter_unspacedText : (s : List Symbol) →
    (unspacedText s).filter (!isBlank ·) = s.filter (!isBlank ·)
  | [] => rfl
  | x :: s => by
    by_cases escape : ∃ y t, x = some '\\' ∧ s = y :: t
    · obtain ⟨y, t, rfl, rfl⟩ := escape
      rw [unspacedText]
      simp only [List.filter_cons, filter_unspacedText t]
    · rw [unspacedText]
      · split
        next => rw [List.filter_cons, List.filter_cons, filter_unspaced s]
        next => rw [List.filter_cons, List.filter_cons, filter_unspacedText s]
      · exact fun y t hx hs => escape ⟨y, t, hx, hs⟩

end

variable {x : Symbol} {s rest : List Symbol}

theorem unspaced_quote (s : List Symbol) :
    unspaced (some '"' :: s) = some '"' :: unspacedText s := by
  rw [unspaced, if_pos rfl]

theorem unspaced_cons (quote : x ≠ some '"') (visible : isBlank x = false) (s : List Symbol) :
    unspaced (x :: s) = x :: unspaced s := by
  rw [unspaced, if_neg quote, visible, if_neg Bool.false_ne_true]

/-- Leading blanks are taken out. -/
theorem unspaced_skipBlanks (s : List Symbol) : unspaced (skipBlanks s) = unspaced s := by
  induction s with
  | nil => rfl
  | cons x s ih =>
    rw [skipBlanks, List.dropWhile_cons]
    split
    next blank =>
      have quote : x ≠ some '"' := by
        rintro rfl
        cases blank
      rw [unspaced, if_neg quote, if_pos blank]
      exact ih
    next => rfl

/-- What is left does not begin with a blank. -/
theorem skipBlanks_unspaced (s : List Symbol) : skipBlanks (unspaced s) = unspaced s := by
  induction s with
  | nil => rfl
  | cons x s ih =>
    rw [unspaced]
    split
    next quote =>
      subst quote
      exact skipBlanks_cons rfl _
    next =>
      split
      next => exact ih
      next visible => exact skipBlanks_cons (Bool.eq_false_iff.mpr visible) _

/-- After leading blanks, the first symbol is none. -/
theorem isBlank_of_skipBlanks (skipped : skipBlanks s = x :: rest) : isBlank x = false := by
  have first := List.head?_dropWhile_not isBlank s
  rw [skipBlanks] at skipped
  rw [skipped] at first
  simpa using first

/-- The first symbol after leading blanks stays the first if it opens no text. -/
theorem unspaced_of_skipBlanks (skipped : skipBlanks s = x :: rest) (quote : x ≠ some '"') :
    unspaced s = x :: unspaced rest := by
  rw [← unspaced_skipBlanks, skipped, unspaced_cons quote (isBlank_of_skipBlanks skipped)]

/-- The first symbol after leading blanks stays the first in any case. -/
theorem exists_unspaced_eq (skipped : skipBlanks s = x :: rest) :
    ∃ more, unspaced s = x :: more := by
  by_cases quote : x = some '"'
  · rw [← unspaced_skipBlanks, skipped, quote, unspaced_quote]
    exact ⟨_, rfl⟩
  · exact ⟨_, unspaced_of_skipBlanks skipped quote⟩

/-- **Blanks do not matter to a reader**: what it reads, it reads without blanks as well. -/
def Unspaceable {α : Type} (reader : Reader α) : Prop :=
  ∀ {s a rest}, reader s = .ok (a, rest) → Delimits (unspaced rest) →
    reader (unspaced s) = .ok (a, unspaced rest) ∧ (unspaced rest).length ≤ (unspaced s).length

/-! ### Tokens -/

section Words

/-- A word is read as before. -/
theorem readWord_unspaced {word : List Char}
    (letters : ∀ c ∈ word, some c ≠ some '"' ∧ isBlank (some c) = false)
    (read : readWord word s = .ok rest) :
    readWord word (unspaced s) = .ok (unspaced rest) ∧
      (unspaced rest).length ≤ (unspaced s).length := by
  induction word generalizing s with
  | nil =>
    obtain rfl := Except.ok.inj read
    exact ⟨rfl, Nat.le_refl _⟩
  | cons c word ih =>
    obtain ⟨letter, letters⟩ := List.forall_mem_cons.mp letters
    cases s with
    | nil => cases read
    | cons x s =>
      rw [readWord] at read
      split at read
      next same =>
        subst same
        obtain ⟨read', shorter⟩ := ih letters read
        rw [unspaced_cons letter.1 letter.2, readWord, if_pos rfl]
        exact ⟨read', Nat.le_succ_of_le shorter⟩
      next => cases read

end Words

section Texts

variable {value : List Symbol}

theorem unspacedText_of_ne (backslash : x ≠ some '\\') (quote : x ≠ some '"') (s : List Symbol) :
    unspacedText (x :: s) = x :: unspacedText s := by
  rw [unspacedText, if_neg quote]
  exact fun _ _ same => absurd same backslash

/-- A symbol put before a text is put before a text that was read. -/
theorem of_putBefore_eq_ok {r : Except ReadFault (List Symbol × List Symbol)}
    (read : putBefore x r = .ok (value, rest)) :
    ∃ more, r = .ok (more, rest) ∧ value = x :: more := by
  cases r with
  | error fault => cases read
  | ok r =>
    obtain ⟨rfl, rfl⟩ := Prod.mk.inj (Except.ok.inj read)
    exact ⟨_, rfl, rfl⟩

/-- The digits of an escape are no quotation marks and begin no escapes. -/
theorem unspacedText_of_hexUnit {a b c d : Symbol} {unit : ℕ}
    (digits : hexUnit a b c d = some unit) (s : List Symbol) :
    unspacedText (a :: b :: c :: d :: s) = a :: b :: c :: d :: unspacedText s := by
  have digit : ∀ {x : Symbol} {n : ℕ}, hexValue x = some n → ∀ s,
      unspacedText (x :: s) = x :: unspacedText s := by
    intro x n value s
    refine unspacedText_of_ne ?_ ?_ s <;>
    · rintro rfl
      cases value
  simp only [hexUnit, Option.bind_eq_bind, Option.bind_eq_some_iff] at digits
  obtain ⟨_, first, _, second, _, third, _, fourth, -⟩ := digits
  rw [digit first, digit second, digit third, digit fourth]

/-- **A text is read as before**, with the blanks within it. -/
theorem readSymbols_unspacedText (read : readSymbols s = .ok (value, rest)) :
    readSymbols (unspacedText s) = .ok (value, unspaced rest) ∧
      (unspaced rest).length ≤ (unspacedText s).length := by
  fun_induction readSymbols s generalizing value
  case case2 =>
    obtain ⟨rfl, rfl⟩ := Prod.mk.inj (Except.ok.inj read)
    rw [unspacedText, if_pos rfl, readSymbols]
    · exact ⟨rfl, Nat.le_succ _⟩
    · simp
  case case7 first plain leading _ _ _ _ _ _ second trailing ih =>
    obtain ⟨more, inner, rfl⟩ := of_putBefore_eq_ok read
    obtain ⟨inner', shorter⟩ := ih inner
    rw [unspacedText, unspacedText_of_hexUnit first, unspacedText, unspacedText_of_hexUnit second,
      readSymbols, first]
    simp only [if_neg plain, if_pos leading, second, if_pos trailing, inner', List.length_cons]
    exact ⟨rfl, by omega⟩
  case case10 first plain single ih =>
    obtain ⟨more, inner, rfl⟩ := of_putBefore_eq_ok read
    obtain ⟨inner', shorter⟩ := ih inner
    rw [unspacedText, unspacedText_of_hexUnit first, readSymbols, first]
    simp only [if_neg plain, if_neg single, inner', List.length_cons]
    exact ⟨rfl, by omega⟩
  case case12 letter _ short ih =>
    obtain ⟨more, inner, rfl⟩ := of_putBefore_eq_ok read
    obtain ⟨inner', shorter⟩ := ih inner
    rw [unspacedText, readSymbols, short]
    · simp only [inner', List.length_cons]
      exact ⟨rfl, by omega⟩
    · exact fun _ _ _ _ _ _ => letter
    · exact letter
  case case16 c after quote alone _ _ letter byte plain ih =>
    obtain ⟨more, inner, rfl⟩ := of_putBefore_eq_ok read
    obtain ⟨inner', shorter⟩ := ih inner
    have backslash : c ≠ '\\' := by
      rcases after with _ | ⟨_ | letter', after⟩
      · exact alone rfl
      · exact byte after rfl
      · exact letter letter' after rfl
    rw [unspacedText_of_ne (by simpa using backslash) (by simpa using quote),
      readSymbols_plain quote backslash plain, inner']
    exact ⟨rfl, Nat.le_succ_of_le shorter⟩
  case case17 ih =>
    obtain ⟨more, inner, rfl⟩ := of_putBefore_eq_ok read
    obtain ⟨inner', shorter⟩ := ih inner
    rw [unspacedText_of_ne (by simp) (by simp), readSymbols, inner']
    exact ⟨rfl, Nat.le_succ_of_le shorter⟩
  all_goals cases read

theorem readString_unspacedText {value : String} (read : readString s = .ok (value, rest)) :
    readString (unspacedText s) = .ok (value, unspaced rest) ∧
      (unspaced rest).length ≤ (unspacedText s).length := by
  obtain ⟨⟨symbols, after⟩, inner, read⟩ := exists_of_bind_eq_ok read
  dsimp only at read
  split at read
  next characters valid =>
    obtain ⟨rfl, rfl⟩ := Prod.mk.inj (Except.ok.inj read)
    obtain ⟨inner', shorter⟩ := readSymbols_unspacedText inner
    simp only [readString, inner', bind, Except.bind, valid]
    exact ⟨rfl, shorter⟩
  next => cases read

end Texts

section Numbers

theorem visible_of_isDigitSymbol (digit : isDigitSymbol x = true) :
    x ≠ some '"' ∧ isBlank x = false := by
  rcases x with _ | c
  · cases digit
  · refine ⟨?_, Json.isBlank_startsNumber (.inr digit)⟩
    rintro ⟨⟩
    cases digit

/-- Leading digits stay where they are. -/
theorem unspaced_append_of_digits {digits : List Char} (all : ∀ c ∈ digits, c.isDigit)
    (rest : List Symbol) :
    unspaced (digits.map some ++ rest) = digits.map some ++ unspaced rest := by
  induction digits with
  | nil => rfl
  | cons c digits ih =>
    obtain ⟨digit, others⟩ := List.forall_mem_cons.mp all
    obtain ⟨quote, visible⟩ := visible_of_isDigitSymbol (x := some c) digit
    rw [List.map_cons, List.cons_append, unspaced_cons quote visible, ih others, List.cons_append]

/-- The leading digits are what stands before the first symbol that is none. -/
theorem spanDigits_eq_iff {digits : List Char} :
    spanDigits s = (digits, rest) ↔ (∀ c ∈ digits, c.isDigit) ∧ s = digits.map some ++ rest ∧
      ∀ x ∈ rest.head?, isDigitSymbol x = false := by
  refine ⟨fun span => ?_, fun ⟨all, split, ends⟩ => split ▸ spanDigits_append all ends⟩
  induction s generalizing digits with
  | nil =>
    obtain ⟨rfl, rfl⟩ := Prod.mk.inj span
    simp
  | cons x s ih =>
    by_cases digit : isDigitSymbol x = true
    · obtain ⟨c, rfl⟩ : ∃ c, x = some c := by
        cases x with
        | none => cases digit
        | some c => exact ⟨c, rfl⟩
      rw [spanDigits, List.takeWhile_cons_of_pos digit, List.dropWhile_cons_of_pos digit] at span
      obtain ⟨rfl, rfl⟩ := Prod.mk.inj span
      obtain ⟨all, split, ends⟩ := ih rfl
      exact ⟨List.forall_mem_cons.mpr ⟨digit, all⟩, congrArg (some c :: ·) split, ends⟩
    · rw [spanDigits, List.takeWhile_cons_of_neg digit, List.dropWhile_cons_of_neg digit] at span
      obtain ⟨rfl, rfl⟩ := Prod.mk.inj span
      simpa using digit

/-- A run of digits is read if there is at least one. -/
theorem readDigitRun_eq_ok_iff {digits : List Char} :
    readDigitRun s = .ok (digits, rest) ↔ digits ≠ [] ∧ spanDigits s = (digits, rest) := by
  rw [readDigitRun]
  split
  next same =>
    rw [same]
    exact iff_of_false (by simp) fun h => h.1 (Prod.mk.inj h.2).1.symm
  next nonempty same =>
    rw [same, Except.ok.injEq]
    refine ⟨fun read => ⟨?_, read⟩, And.right⟩
    obtain ⟨rfl, -⟩ := Prod.mk.inj read
    exact nonempty

/-- A run of digits is read as before, if it has ended before what is left without blanks. -/
theorem readDigitRun_unspaced {digits : List Char} (read : readDigitRun s = .ok (digits, rest))
    (ends : ∀ x ∈ (unspaced rest).head?, isDigitSymbol x = false) :
    readDigitRun (unspaced s) = .ok (digits, unspaced rest) ∧
      (unspaced rest).length ≤ (unspaced s).length := by
  obtain ⟨nonempty, span⟩ := readDigitRun_eq_ok_iff.mp read
  obtain ⟨all, rfl, -⟩ := spanDigits_eq_iff.mp span
  rw [unspaced_append_of_digits all, List.length_append]
  exact ⟨readDigitRun_eq_ok_iff.mpr ⟨nonempty, spanDigits_append all ends⟩, by omega⟩

/-- What is read as a run of digits begins with a digit, with blanks and without. -/
theorem exists_digit_of_readDigitRun {digits : List Char}
    (read : readDigitRun s = .ok (digits, rest)) :
    ∃ c more, c.isDigit ∧ s = some c :: more ∧ unspaced s = some c :: unspaced more := by
  obtain ⟨nonempty, span⟩ := readDigitRun_eq_ok_iff.mp read
  obtain ⟨all, rfl, -⟩ := spanDigits_eq_iff.mp span
  obtain ⟨c, more, rfl⟩ := List.exists_cons_of_ne_nil nonempty
  have digit : c.isDigit := all c List.mem_cons_self
  obtain ⟨quote, visible⟩ := visible_of_isDigitSymbol (x := some c) digit
  exact ⟨c, _, digit, rfl, unspaced_cons quote visible _⟩

/-- A part after a point is read as before, and so is none. -/
theorem readFraction_unspaced {fraction : Option (List Char)}
    (read : readFraction s = .ok (fraction, rest))
    (ends : ∀ x ∈ (unspaced rest).head?, isDigitSymbol x = false ∧ x ≠ some '.') :
    readFraction (unspaced s) = .ok (fraction, unspaced rest) ∧
      (unspaced rest).length ≤ (unspaced s).length ∧
      ∀ x ∈ (unspaced s).head?, isDigitSymbol x = false := by
  unfold readFraction at read
  split at read
  next s =>
    obtain ⟨⟨digits, after⟩, run, read⟩ := exists_of_bind_eq_ok read
    obtain ⟨rfl, rfl⟩ := Prod.mk.inj (Except.ok.inj read)
    obtain ⟨run', shorter⟩ := readDigitRun_unspaced run fun x mem => (ends x mem).1
    rw [unspaced_cons (by decide) rfl]
    refine ⟨?_, Nat.le_succ_of_le shorter, by simp [isDigitSymbol]⟩
    simp only [readFraction, run', bind, Except.bind]
    rfl
  next =>
    obtain ⟨rfl, rfl⟩ := Prod.mk.inj (Except.ok.inj read)
    exact ⟨readFraction_of_unmarked fun x mem => (ends x mem).2, Nat.le_refl _,
      fun x mem => (ends x mem).1⟩

/-- Whether an exponent has a minus sign, and what follows its sign. -/
def splitSign : List Symbol → Bool × List Symbol
  | some '+' :: rest => (false, rest)
  | some '-' :: rest => (true, rest)
  | s => (false, s)

/-- After its mark, an exponent is a sign and a run of digits. -/
theorem readExponent_of_mark (mark : x = some 'e' ∨ x = some 'E') (s : List Symbol) :
    readExponent (x :: s) = (readDigitRun (splitSign s).2).map fun (digits, rest) =>
      let magnitude : Int := digitsValue digits
      (some (if (splitSign s).1 then -magnitude else magnitude), rest) := by
  fun_cases splitSign s
  case case1 rest | case2 rest =>
    rcases mark with rfl | rfl <;>
    · rw [readExponent]
      cases readDigitRun rest <;> rfl
  case case3 plus minus =>
    rcases mark with rfl | rfl <;>
    · rw [readExponent]
      · cases readDigitRun s <;> rfl
      · exact plus
      · exact minus

/-- A sign before digits stays where it is, and no sign comes forward. -/
theorem splitSign_unspaced {digits : List Char}
    (run : readDigitRun (splitSign s).2 = .ok (digits, rest)) :
    splitSign (unspaced s) = ((splitSign s).1, unspaced (splitSign s).2) ∧
      (unspaced (splitSign s).2).length ≤ (unspaced s).length := by
  revert run
  fun_cases splitSign s
  case case1 rest | case2 rest =>
    intro _
    rw [unspaced_cons (by decide) rfl]
    exact ⟨rfl, Nat.le_succ _⟩
  case case3 =>
    intro run
    obtain ⟨c, more, digit, -, begins⟩ := exists_digit_of_readDigitRun run
    refine ⟨?_, Nat.le_refl _⟩
    rw [begins]
    unfold splitSign
    split
    next same =>
      obtain ⟨rfl⟩ := Option.some.inj (List.cons.inj same).1
      cases digit
    next same =>
      obtain ⟨rfl⟩ := Option.some.inj (List.cons.inj same).1
      cases digit
    next => rfl

/-- An exponent is read as before, and so is none. -/
theorem readExponent_unspaced {exponent : Option Int} (read : readExponent s = .ok (exponent, rest))
    (ends : Delimits (unspaced rest)) :
    readExponent (unspaced s) = .ok (exponent, unspaced rest) ∧
      (unspaced rest).length ≤ (unspaced s).length ∧
      ∀ x ∈ (unspaced s).head?, isDigitSymbol x = false ∧ x ≠ some '.' := by
  by_cases marked : ∃ x more, (x = some 'e' ∨ x = some 'E') ∧ s = x :: more
  · obtain ⟨x, more, mark, rfl⟩ := marked
    rw [readExponent_of_mark mark] at read
    cases run : readDigitRun (splitSign more).2 with
    | error fault =>
      rw [run] at read
      cases read
    | ok result =>
      rw [run] at read
      obtain ⟨rfl, rfl⟩ := Prod.mk.inj (Except.ok.inj read)
      obtain ⟨sign, shorter⟩ := splitSign_unspaced run
      obtain ⟨run', shorter'⟩ := readDigitRun_unspaced run fun x mem => (ends x mem).1
      have kept : unspaced (x :: more) = x :: unspaced more := by
        rcases mark with rfl | rfl <;> exact unspaced_cons (by decide) rfl _
      rw [kept, readExponent_of_mark mark, sign, run', List.length_cons]
      refine ⟨rfl, by omega, ?_⟩
      rcases mark with rfl | rfl <;> simp [isDigitSymbol]
  · have unmarked : ∀ x ∈ s.head?, x ≠ some 'e' ∧ x ≠ some 'E' := by
      intro x mem
      obtain ⟨more, rfl⟩ := List.head?_eq_some_iff.mp mem
      exact ⟨fun mark => marked ⟨x, more, .inl mark, rfl⟩,
        fun mark => marked ⟨x, more, .inr mark, rfl⟩⟩
    rw [readExponent_of_unmarked unmarked] at read
    obtain ⟨rfl, rfl⟩ := Prod.mk.inj (Except.ok.inj read)
    exact ⟨readExponent_of_unmarked fun x mem => (ends x mem).2.2, Nat.le_refl _,
      fun x mem => ⟨(ends x mem).1, (ends x mem).2.1⟩⟩

theorem unspaceable_readNumeral (negative : Bool) : Unspaceable (readNumeral negative) := by
  intro s numeral rest read ends
  obtain ⟨⟨whole, s₁⟩, first, read⟩ := exists_of_bind_eq_ok read
  dsimp only at read
  split at read
  next => cases read
  next leading =>
    obtain ⟨⟨fraction, s₂⟩, second, read⟩ := exists_of_bind_eq_ok read
    obtain ⟨⟨exponent, s₃⟩, third, read⟩ := exists_of_bind_eq_ok read
    obtain ⟨rfl, rfl⟩ := Prod.mk.inj (Except.ok.inj read)
    -- each part ends where the next begins, or where the number ends
    obtain ⟨third', shorter₃, ends₂⟩ := readExponent_unspaced third ends
    obtain ⟨second', shorter₂, ends₁⟩ := readFraction_unspaced second ends₂
    obtain ⟨first', shorter₁⟩ := readDigitRun_unspaced first ends₁
    simp only [readNumeral, first', bind, Except.bind, if_neg leading, pure, Except.pure, second',
      third', true_and]
    exact Nat.le_trans shorter₃ (Nat.le_trans shorter₂ shorter₁)

/-- A number is a numeral, with a minus sign or without. -/
theorem readNumber_eq_ok {number : Number} (read : readNumber s = .ok (number, rest)) :
    ∃ numeral : Numeral, numeral.value? = some number ∧
      ((∃ after, s = some '-' :: after ∧ readNumeral true after = .ok (numeral, rest)) ∨
        readNumeral false s = .ok (numeral, rest)) := by
  unfold readNumber at read
  dsimp only at read
  split at read <;>
  · obtain ⟨⟨numeral, after⟩, inner, read⟩ := exists_of_bind_eq_ok read
    dsimp only at read
    split at read
    next value =>
      obtain ⟨rfl, rfl⟩ := Prod.mk.inj (Except.ok.inj read)
      first
        | exact ⟨numeral, value, .inl ⟨_, rfl, inner⟩⟩
        | exact ⟨numeral, value, .inr inner⟩
    next => cases read

/-- **A number is read as before**, if it has ended before what is left without blanks. -/
theorem unspaceable_readNumber : Unspaceable readNumber := by
  intro s number rest read ends
  obtain ⟨numeral, value, ⟨after, rfl, inner⟩ | inner⟩ := readNumber_eq_ok read
  · obtain ⟨inner', shorter⟩ := unspaceable_readNumeral _ inner ends
    rw [unspaced_cons (by decide) rfl]
    exact ⟨readNumber_minus inner' value, Nat.le_succ_of_le shorter⟩
  · obtain ⟨inner', shorter⟩ := unspaceable_readNumeral _ inner ends
    refine ⟨readNumber_unsigned (fun t signed => ?_) inner' value, shorter⟩
    -- a digit is no minus sign
    obtain ⟨⟨whole, after⟩, first, -⟩ := exists_of_bind_eq_ok inner
    obtain ⟨c, more, digit, -, begins⟩ := exists_digit_of_readDigitRun first
    rw [begins] at signed
    obtain ⟨rfl⟩ := Option.some.inj (List.cons.inj signed).1
    cases digit

end Numbers

/-! ### Containers -/

section Containers

variable {α : Type} {close : Char} {element : Reader α} {elements : List α}

/-- More rounds than are needed change nothing. -/
theorem readMore_of_le {rounds more : ℕ} (le : rounds ≤ more)
    (read : readMore close element rounds s = .ok (elements, rest)) :
    readMore close element more s = .ok (elements, rest) := by
  induction rounds generalizing s more elements rest with
  | zero => cases read
  | succ rounds ih =>
    obtain ⟨more, rfl⟩ := Nat.exists_eq_succ_of_ne_zero (Nat.ne_of_gt (Nat.zero_lt_of_lt le))
    rw [readMore_succ_eq_ok_iff] at read ⊢
    refine read.imp_right ?_
    rintro ⟨after, a, middle, others, opened, skipped, first, later, split⟩
    exact ⟨after, a, middle, others, opened, skipped, first, ih (Nat.le_of_succ_le_succ le) later,
      split⟩

/-- A closing bracket stays where it is. -/
theorem unspaced_of_closed (closes : close = ']' ∨ close = '\x7d')
    (closed : skipBlanks s = some close :: rest) : unspaced s = some close :: unspaced rest := by
  refine unspaced_of_skipBlanks closed ?_
  rcases closes with rfl | rfl <;> decide

/-- After an element stands a comma or the closing bracket, so a number has ended there. -/
theorem delimits_of_readMore (closes : close = ']' ∨ close = '\x7d') {rounds : ℕ}
    (read : readMore close element rounds s = .ok (elements, rest)) : Delimits (unspaced s) := by
  cases rounds with
  | zero => cases read
  | succ rounds =>
    rcases readMore_succ_eq_ok_iff.mp read with ⟨closed, -⟩ | ⟨_, _, _, _, -, comma, -⟩
    · rw [unspaced_of_closed closes closed]
      rcases closes with rfl | rfl <;> exact delimits_cons (by simp) _
    · rw [unspaced_of_skipBlanks comma (by decide)]
      exact delimits_cons (by simp) _

/-- The rest of a container is read as before. -/
theorem readMore_unspaced (closes : close = ']' ∨ close = '\x7d') (each : Unspaceable element)
    {rounds : ℕ} (read : readMore close element rounds s = .ok (elements, rest)) :
    readMore close element ((unspaced s).length + 1) (unspaced s) =
        .ok (elements, unspaced rest) ∧
      (unspaced rest).length ≤ (unspaced s).length := by
  induction rounds generalizing s elements rest with
  | zero => cases read
  | succ rounds ih =>
    rcases readMore_succ_eq_ok_iff.mp read with ⟨closed, rfl⟩ |
      ⟨after, a, middle, more, opened, comma, first, later, rfl⟩
    · have begins := unspaced_of_closed closes closed
      refine ⟨readMore_succ_eq_ok_iff.mpr (.inl ⟨?_, rfl⟩), ?_⟩
      · rw [skipBlanks_unspaced, begins]
      · rw [begins]
        exact Nat.le_succ _
    · have begins := unspaced_of_skipBlanks comma (by decide)
      obtain ⟨first', shorter⟩ := each first (delimits_of_readMore closes later)
      obtain ⟨later', shorter'⟩ := ih later
      have size : (unspaced s).length = (unspaced after).length + 1 := by
        rw [begins, List.length_cons]
      refine ⟨readMore_succ_eq_ok_iff.mpr (.inr ⟨unspaced after, a, unspaced middle, more, opened,
        ?_, first', readMore_of_le (by omega) later', rfl⟩), by omega⟩
      rw [skipBlanks_unspaced, begins]

/-- **The elements of a container are read as before.** -/
theorem unspaceable_readElements (closes : close = ']' ∨ close = '\x7d')
    (each : Unspaceable element) : Unspaceable (readElements close element) := by
  intro s elements rest read _
  rcases readElements_eq_ok_iff.mp read with ⟨closed, rfl⟩ |
    ⟨x, after, a, middle, more, opened, skipped, first, later, rfl⟩
  · have begins := unspaced_of_closed closes closed
    refine ⟨readElements_eq_ok_iff.mpr (.inl ⟨?_, rfl⟩), ?_⟩
    · rw [skipBlanks_unspaced, begins]
    · rw [begins]
      exact Nat.le_succ _
  · obtain ⟨others, begins⟩ := exists_unspaced_eq skipped
    obtain ⟨first', shorter⟩ := each first (delimits_of_readMore closes later)
    obtain ⟨later', shorter'⟩ := readMore_unspaced closes each later
    refine ⟨readElements_eq_ok_iff.mpr (.inr ⟨x, others, a, unspaced middle, more, opened, ?_,
      first', later', rfl⟩), Nat.le_trans shorter' shorter⟩
    rw [skipBlanks_unspaced, begins]

/-- A member is read as before. -/
theorem unspaceable_readMember (each : Unspaceable element) :
    Unspaceable (readMember element) := by
  intro s member rest read ends
  obtain ⟨after, middle, more, opened, name, colon, inner⟩ := readMember_eq_ok_iff.mp read
  obtain ⟨name', shorter⟩ := readString_unspacedText name
  obtain ⟨inner', shorter'⟩ := each inner ends
  have begins : unspaced s = some '"' :: unspacedText after := by
    rw [← unspaced_skipBlanks, opened, unspaced_quote]
  have colon' := unspaced_of_skipBlanks colon (by decide)
  refine ⟨readMember_eq_ok_iff.mpr ⟨unspacedText after, unspaced middle, unspaced more, ?_, name',
    ?_, inner'⟩, ?_⟩
  · rw [skipBlanks_unspaced, begins]
  · rw [skipBlanks_unspaced, colon']
  · rw [colon', List.length_cons] at shorter
    rw [begins, List.length_cons]
    omega

end Containers

namespace Json

/-- **Values are read as before.** -/
theorem unspaceable_readValue (depth : ℕ) : Unspaceable (readValue depth) := by
  induction depth using Nat.strongRecOn with
  | _ depth ih =>
    intro s value rest read ends
    unfold readValue at read
    dsimp only at read
    split at read
    case h_1 | h_2 | h_3 =>
      next skipped =>
      obtain ⟨_, word, read⟩ := exists_of_bind_eq_ok read
      obtain ⟨rfl, rfl⟩ := Prod.mk.inj (Except.ok.inj read)
      obtain ⟨word', shorter⟩ := readWord_unspaced (by simp [isBlank]) word
      rw [unspaced_of_skipBlanks skipped (by decide)]
      unfold readValue
      dsimp only
      rw [skipBlanks_cons rfl]
      simp only [word', bind, Except.bind, List.length_cons]
      exact ⟨rfl, by omega⟩
    case h_4 opened =>
      obtain ⟨_, text, read⟩ := exists_of_bind_eq_ok read
      obtain ⟨rfl, rfl⟩ := Prod.mk.inj (Except.ok.inj read)
      obtain ⟨text', shorter⟩ := readString_unspacedText text
      rw [← unspaced_skipBlanks s, opened, unspaced_quote]
      exact ⟨readValue_string text' depth, Nat.le_succ_of_le shorter⟩
    case h_5 opened =>
      split at read
      next => cases read
      next less =>
        obtain ⟨_, items, read⟩ := exists_of_bind_eq_ok read
        obtain ⟨rfl, rfl⟩ := Prod.mk.inj (Except.ok.inj read)
        obtain ⟨items', shorter⟩ :=
          unspaceable_readElements (.inl rfl) (ih less (Nat.lt_succ_self _)) items ends
        rw [unspaced_of_skipBlanks opened (by decide)]
        exact ⟨readValue_array items', Nat.le_succ_of_le shorter⟩
    case h_6 opened =>
      split at read
      next => cases read
      next less =>
        obtain ⟨_, members, read⟩ := exists_of_bind_eq_ok read
        obtain ⟨rfl, rfl⟩ := Prod.mk.inj (Except.ok.inj read)
        obtain ⟨members', shorter⟩ := unspaceable_readElements (.inr rfl)
          (unspaceable_readMember (ih less (Nat.lt_succ_self _))) members ends
        rw [unspaced_of_skipBlanks opened (by decide)]
        exact ⟨readValue_object members', Nat.le_succ_of_le shorter⟩
    case h_7 => cases read
    case h_8 x after _ _ _ _ _ _ skipped =>
      split at read
      next starts =>
        obtain ⟨_, number, read⟩ := exists_of_bind_eq_ok read
        obtain ⟨rfl, rfl⟩ := Prod.mk.inj (Except.ok.inj read)
        obtain ⟨number', shorter⟩ := unspaceable_readNumber number ends
        obtain ⟨c, rfl, begins⟩ : ∃ c, x = some c ∧ (c = '-' ∨ c.isDigit) := by
          rcases x with _ | c
          · rcases starts with minus | digit
            · cases minus
            · cases digit
          · exact ⟨c, rfl, starts.imp_left Option.some.inj⟩
        have quote : some c ≠ some '"' := fun same =>
          ne_of_startsNumber begins (by decide) (Option.some.inj same)
        rw [unspaced_cons quote (isBlank_startsNumber begins)] at number' shorter
        rw [unspaced_of_skipBlanks skipped quote]
        exact ⟨readValue_number begins number' depth, shorter⟩
      next => cases read

/-- **A document is read without its blanks as it is read with them.** -/
theorem readObject_unspaced {members : List (String × Json)} (read : readObject s = .ok members) :
    readObject (unspaced s) = .ok members := by
  unfold readObject at read
  split at read
  next => cases read
  next other =>
    obtain ⟨⟨value, rest⟩, document, read⟩ := exists_of_bind_eq_ok read
    split at read
    next same =>
      obtain ⟨rfl, rfl⟩ := Prod.mk.inj same
      split at read
      next ended =>
        obtain rfl := Except.ok.inj read
        have left : unspaced rest = [] := by rw [← unspaced_skipBlanks, ended]; rfl
        obtain ⟨document', -⟩ := unspaceable_readValue maxDepth document (left ▸ delimits_nil)
        rw [unspaced_skipBlanks, left] at document'
        unfold readObject
        rw [skipBlanks_unspaced]
        split
        next bracket =>
          -- the first symbol is the same with blanks before it
          cases skipped : skipBlanks s with
          | nil =>
            rw [← unspaced_skipBlanks, skipped] at bracket
            cases bracket
          | cons x after =>
            obtain ⟨more, begins⟩ := exists_unspaced_eq skipped
            obtain ⟨rfl, -⟩ := List.cons.inj (begins.symm.trans bracket)
            exact absurd skipped (other after)
        next =>
          simp only [document', bind, Except.bind]
          rfl
      next => cases read
    next => cases read

end Json

end Stencil
