import Stencil.Binary64.Shortest
import Stencil.Json.Basic
import Stencil.Text.Digits

/-!
# Writing JSON

A value is written without blanks. Of the characters of a text only the quotation mark, the
backslash and the control characters below the blank are escaped, the latter by a letter where one
exists. Floating-point numbers have the fewest digits that read back, with a decimal point unless
an exponent is given.

* `Stencil.Json.write`: the characters of a value;
* `Stencil.Json.text`: the same as a text.
-/

namespace Stencil

/-! ### Numbers -/

/-- How floating-point numbers are laid out: those with a decimal exponent from `leastPlain` to
`greatestPlain` are written without one. -/
structure FloatLayout where
  /-- The least exponent of a number in plain notation. -/
  leastPlain : Int
  /-- The greatest exponent of a number in plain notation. -/
  greatestPlain : Int

/-- JSON documents write `0.00001` and `1000000000000000.0` in full, and smaller or larger numbers
with an exponent. -/
def jsonLayout : FloatLayout := ⟨-5, 15⟩

/-- The decimal digits of an integer, after a minus sign if it is negative. -/
def signedDigits (n : Int) : List Char :=
  if n < 0 then '-' :: decimalDigits n.natAbs else decimalDigits n.natAbs

/-- Digits with a decimal point, for a number whose first digit has the place value
`10 ^ exponent`. At least one digit stands on each side of the point. -/
def plainNotation (digits : List Char) (exponent : Int) : List Char :=
  if exponent < 0 then
    '0' :: '.' :: List.replicate (-exponent - 1).toNat '0' ++ digits
  else
    let whole := exponent.toNat + 1
    if digits.length ≤ whole then
      digits ++ List.replicate (whole - digits.length) '0' ++ ['.', '0']
    else digits.take whole ++ '.' :: digits.drop whole

/-- Digits with a point after the first, if there are more, and an exponent with its sign. -/
def scientificNotation (digits : List Char) (exponent : Int) : List Char :=
  let mantissa := match digits with
    | [] => []
    | [d] => [d]
    | d :: more => d :: '.' :: more
  mantissa ++ 'e' :: (if exponent < 0 then [] else ['+']) ++ signedDigits exponent

/-- The characters of a floating-point number. -/
def FloatLayout.write (layout : FloatLayout) (x : Binary64) : List Char :=
  let magnitude :=
    if x.significand = 0 then ['0', '.', '0']
    else
      let decimal := x.shortest
      let digits := decimalDigits decimal.coefficient
      let exponent := decimal.exponent + digits.length - 1
      if layout.leastPlain ≤ exponent ∧ exponent ≤ layout.greatestPlain then
        plainNotation digits exponent
      else scientificNotation digits exponent
  if x.negative then '-' :: magnitude else magnitude

/-- The characters of a number. -/
def Number.write : Number → List Char
  | .integer value _ => signedDigits value
  | .float value => jsonLayout.write value

/-! ### Texts -/

/-- A character as it stands between quotation marks. -/
def escapedChar (c : Char) : List Char :=
  if c = '"' then ['\\', '"']
  else if c = '\\' then ['\\', '\\']
  else if c = '\n' then ['\\', 'n']
  else if c = '\r' then ['\\', 'r']
  else if c = '\t' then ['\\', 't']
  else if c = '\x08' then ['\\', 'b']
  else if c = '\x0c' then ['\\', 'f']
  else if c < ' ' then ['\\', 'u', '0', '0', hexDigit (c.toNat / 16), hexDigit c.toNat]
  else [c]

/-- A text between quotation marks. -/
def writeString (value : String) : List Char :=
  '"' :: value.toList.flatMap escapedChar ++ ['"']

/-! ### Values -/

namespace Json

mutual

/-- The characters of a value, without blanks. -/
def write : Json → List Char
  | .null => ['n', 'u', 'l', 'l']
  | .bool true => ['t', 'r', 'u', 'e']
  | .bool false => ['f', 'a', 'l', 's', 'e']
  | .number value => value.write
  | .string value => writeString value
  | .array items => '[' :: writeItems items ++ [']']
  | .object members => '\x7b' :: writeMembers members ++ ['\x7d']

/-- Items with commas between them. -/
def writeItems : List Json → List Char
  | [] => []
  | [item] => item.write
  | item :: more => item.write ++ ',' :: writeItems more

/-- Members with commas between them. -/
def writeMembers : List (String × Json) → List Char
  | [] => []
  | [(key, value)] => writeString key ++ ':' :: value.write
  | (key, value) :: more => writeString key ++ ':' :: value.write ++ ',' :: writeMembers more

end

/-- The text of a value. -/
def text (value : Json) : String := String.ofList value.write

end Json

end Stencil
