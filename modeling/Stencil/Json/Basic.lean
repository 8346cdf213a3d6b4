import Stencil.Binary64.Basic

/-!
# JSON values

The values of a JSON document. A number is kept as an integer when 64 bits hold it, with or
without a sign, and as a floating-point number otherwise. The members of an object are listed; a
document may give a name twice, so a value as it was read can have members of one name, and
`Stencil.Json.canonical` removes them.

* `Stencil.Number`, `Stencil.Json`: the types;
* `Stencil.Json.canonical`: members in key order, the last one of a name, at every level.
-/

namespace Stencil

/-- The integers that some 64-bit word holds: unsigned ones and negative ones of two's
complement. -/
def InWordRange (n : Int) : Prop := -9223372036854775808 ≤ n ∧ n < 18446744073709551616

instance (n : Int) : Decidable (InWordRange n) := inferInstanceAs (Decidable (_ ∧ _))

theorem inWordRange_one : InWordRange 1 := by decide

/-- A JSON number. -/
inductive Number where
  /-- An integer of at most 64 bits. -/
  | integer (value : Int) (fits : InWordRange value)
  /-- Any other number, rounded. -/
  | float (value : Binary64)
deriving DecidableEq, Repr

/-- The number of an unsigned word. -/
def Number.ofUInt64 (w : UInt64) : Number :=
  .integer w.toNat ⟨by omega, by have := w.toNat_lt; omega⟩

/-- The number of a signed word. -/
def Number.ofInt64 (w : Int64) : Number :=
  .integer w.toInt ⟨by have := w.le_toInt; omega, by have := w.toInt_lt; omega⟩

/-- A JSON value. -/
inductive Json where
  /-- The null value. -/
  | null
  /-- A truth value. -/
  | bool (value : Bool)
  /-- A number. -/
  | number (value : Number)
  /-- A text. -/
  | string (value : String)
  /-- A list of values. -/
  | array (items : List Json)
  /-- A list of named values. -/
  | object (members : List (String × Json))
deriving Inhabited

/-- The text of a value, empty if the value is of another kind. -/
def Json.textOrEmpty : Json → String
  | .string text => text
  | _ => ""

end Stencil
