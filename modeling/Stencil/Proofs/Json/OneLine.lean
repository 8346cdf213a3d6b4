import Mathlib.Tactic.Common
import Stencil.Json.Writer

/-!
# A written value stands on one line

Of the characters that end a line, the writer puts none: within a text they are escaped, and between
values there is nothing but brackets, commas and colons. So a record can be ended by a line feed
and found again by it.

* `Stencil.Json.lineFeed_notMem_write`: a written value has no line feed.
-/

namespace Stencil

/-! ### Numbers -/

theorem lineFeed_notMem_decimalDigits (n : Nat) : '\n' ∉ decimalDigits n := by
  intro h
  have digit := Nat.isDigit_of_mem_toDigits (b := 10) (by decide) (by decide) h
  revert digit
  decide

theorem lineFeed_notMem_signedDigits (n : Int) : '\n' ∉ signedDigits n := by
  unfold signedDigits
  split <;> simp [lineFeed_notMem_decimalDigits]

theorem lineFeed_notMem_plainNotation {digits : List Char} (h : '\n' ∉ digits) (exponent : Int) :
    '\n' ∉ plainNotation digits exponent := by
  have front := fun n => mt (List.mem_of_mem_take (i := n)) h
  have back := fun n => mt (List.mem_of_mem_drop (i := n)) h
  unfold plainNotation
  split
  · simp [h]
  · dsimp only
    split <;> simp [h, front, back]

theorem lineFeed_notMem_scientificNotation {digits : List Char} (h : '\n' ∉ digits)
    (exponent : Int) : '\n' ∉ scientificNotation digits exponent := by
  unfold scientificNotation
  have sign : '\n' ∉ (if exponent < 0 then [] else ['+']) := by
    split <;> simp
  simp only [List.mem_append, List.mem_cons, not_or]
  refine ⟨⟨?_, by decide, sign⟩, lineFeed_notMem_signedDigits exponent⟩
  -- the digits of the mantissa have at most a point among them
  split <;> simp_all

theorem lineFeed_notMem_writeFloat (layout : FloatLayout) (x : Binary64) :
    '\n' ∉ layout.write x := by
  have magnitude : '\n' ∉ (if x.significand = 0 then ['0', '.', '0']
      else
        let decimal := x.shortest
        let digits := decimalDigits decimal.coefficient
        let exponent := decimal.exponent + digits.length - 1
        if layout.leastPlain ≤ exponent ∧ exponent ≤ layout.greatestPlain then
          plainNotation digits exponent
        else scientificNotation digits exponent) := by
    split
    · decide
    · dsimp only
      split
      · exact lineFeed_notMem_plainNotation (lineFeed_notMem_decimalDigits _) _
      · exact lineFeed_notMem_scientificNotation (lineFeed_notMem_decimalDigits _) _
  unfold FloatLayout.write
  dsimp only at magnitude ⊢
  split
  · rw [List.mem_cons, not_or]
    exact ⟨by decide, magnitude⟩
  · exact magnitude

theorem Number.lineFeed_notMem_write (number : Number) : '\n' ∉ number.write := by
  cases number with
  | integer value => exact lineFeed_notMem_signedDigits value
  | float value => exact lineFeed_notMem_writeFloat jsonLayout value

/-! ### Texts -/

/-- A character is written without a line feed: a line feed itself is escaped by a letter. -/
theorem lineFeed_notMem_escapedChar (c : Char) : '\n' ∉ escapedChar c := by
  have small : ∀ k < 16, '\n' ≠ Nat.digitChar k := by decide
  have digit : ∀ n, '\n' ≠ hexDigit n := fun n => small _ (Nat.mod_lt n (by decide))
  unfold escapedChar
  split_ifs
  all_goals simp_all [eq_comm]

theorem lineFeed_notMem_writeString (value : String) : '\n' ∉ writeString value := by
  simp [writeString, lineFeed_notMem_escapedChar]

/-! ### Values -/

namespace Json

mutual

/-- **A written value has no line feed.** -/
theorem lineFeed_notMem_write : (value : Json) → '\n' ∉ value.write
  | .null | .bool true | .bool false => by decide
  | .number value => value.lineFeed_notMem_write
  | .string value => lineFeed_notMem_writeString value
  | .array items => by simp [write, lineFeed_notMem_writeItems items]
  | .object members => by simp [write, lineFeed_notMem_writeMembers members]

theorem lineFeed_notMem_writeItems : (items : List Json) → '\n' ∉ writeItems items
  | [] => by simp [writeItems]
  | [item] => lineFeed_notMem_write item
  | item :: next :: more => by
    simp [writeItems, lineFeed_notMem_write item, lineFeed_notMem_writeItems (next :: more)]

theorem lineFeed_notMem_writeMembers :
    (members : List (String × Json)) → '\n' ∉ writeMembers members
  | [] => by simp [writeMembers]
  | [(key, value)] => by
    simp [writeMembers, lineFeed_notMem_writeString, lineFeed_notMem_write value]
  | (key, value) :: next :: more => by
    simp [writeMembers, lineFeed_notMem_writeString, lineFeed_notMem_write value,
      lineFeed_notMem_writeMembers (next :: more)]

end

end Json

end Stencil
