import Stencil.Json.Numeral
import Stencil.Json.Symbol

/-!
# Tokens of JSON

Numbers, texts and words, read from the front of the symbols. A number has no leading zeros, and at
least one digit in each of its parts; a text has no bare control characters and no surrogates but in
pairs. A byte that belongs to no character is at fault once the text around it is closed.

* `Stencil.ReadFault`: why a document cannot be read;
* `Stencil.readWord`, `Stencil.readNumber`, `Stencil.readString`: the tokens.
-/

namespace Stencil

/-! ### Outcomes -/

/-- Why a document cannot be read. -/
inductive ReadFault where
  /-- The text ends where something is still due. -/
  | truncated
  /-- The text breaks a rule of the grammar, or a limit. -/
  | malformed
  /-- The text starts a value that is not an object. -/
  | notObject
deriving DecidableEq, Repr

/-- What reads a value from the front of the symbols, and leaves those after it. -/
abbrev Reader (α : Type) := List Symbol → Except ReadFault (α × List Symbol)

/-- The fault of finding other symbols than those that are due: the text is truncated if there are
none. -/
def unexpected : List Symbol → ReadFault
  | [] => .truncated
  | _ :: _ => .malformed

/-! ### Words and numbers -/

/-- The blanks of the format. -/
def isBlank : Symbol → Bool
  | some c => c == ' ' || c == '\t' || c == '\n' || c == '\r'
  | none => false

/-- The symbols after leading blanks. -/
def skipBlanks (s : List Symbol) : List Symbol := s.dropWhile isBlank

/-- The symbols after a word that is due. -/
def readWord : List Char → List Symbol → Except ReadFault (List Symbol)
  | [], s => .ok s
  | _ :: _, [] => .error .truncated
  | c :: word, x :: s => if x = some c then readWord word s else .error .malformed

/-- Whether a symbol is a decimal digit. -/
def isDigitSymbol : Symbol → Bool
  | some c => c.isDigit
  | none => false

/-- The leading digits and the symbols after them. -/
def spanDigits (s : List Symbol) : List Char × List Symbol :=
  ((s.takeWhile isDigitSymbol).filterMap id, s.dropWhile isDigitSymbol)

/-- At least one digit, and the symbols after the last. -/
def readDigitRun (s : List Symbol) : Except ReadFault (List Char × List Symbol) :=
  match spanDigits s with
  | ([], rest) => .error (unexpected rest)
  | (digits, rest) => .ok (digits, rest)

/-- The digits of the part after a point, if there is a point. -/
def readFraction : Reader (Option (List Char))
  | some '.' :: s => do
    let (digits, rest) ← readDigitRun s
    return (some digits, rest)
  | s => .ok (none, s)

/-- The exponent, if there is one. -/
def readExponent : Reader (Option Int)
  | some 'e' :: s | some 'E' :: s => do
    let (negative, s) := match s with
      | some '+' :: rest => (false, rest)
      | some '-' :: rest => (true, rest)
      | _ => (false, s)
    let (digits, rest) ← readDigitRun s
    let magnitude : Int := digitsValue digits
    return (some (if negative then -magnitude else magnitude), rest)
  | s => .ok (none, s)

/-- A numeral, after its sign. A zero is not followed by another digit. -/
def readNumeral (negative : Bool) (s : List Symbol) :
    Except ReadFault (Numeral × List Symbol) := do
  let (whole, s) ← readDigitRun s
  if whole.head? = some '0' ∧ whole ≠ ['0'] then throw .malformed
  let (fraction, s) ← readFraction s
  let (exponent, s) ← readExponent s
  return (⟨negative, whole, fraction, exponent⟩, s)

/-- A number. -/
def readNumber (s : List Symbol) : Except ReadFault (Number × List Symbol) := do
  let (numeral, rest) ← match s with
    | some '-' :: s => readNumeral true s
    | s => readNumeral false s
  match numeral.value? with
  | some number => return (number, rest)
  | none => throw .malformed

/-! ### Texts -/

/-- The value of a symbol that is a digit of base sixteen. -/
def hexValue (x : Symbol) : Option Nat := x.bind hexDigitValue?

/-- The number that four digits of base sixteen denote. -/
def hexUnit (a b c d : Symbol) : Option Nat := do
  return (((← hexValue a) * 16 + (← hexValue b)) * 16 + (← hexValue c)) * 16 + (← hexValue d)

/-- What goes wrong when the symbols after the letter of a numeric escape are not four digits:
with fewer than four bytes left the text is truncated. -/
def hexFault (s : List Symbol) : ReadFault :=
  if byteCount s < 4 then .truncated else .malformed

/-- What goes wrong when the symbols after a leading surrogate are not another numeric escape. -/
def pairFault : List Symbol → ReadFault
  | [] => .truncated
  | [some '\\'] => .truncated
  | some '\\' :: some 'u' :: s => hexFault s
  | _ => .malformed

/-- Whether a 16-bit unit is the first half of a character beyond the basic plane. -/
def isLeadingSurrogate (unit : Nat) : Bool := 0xD800 ≤ unit && unit ≤ 0xDBFF

/-- Whether a 16-bit unit is the second half of a character beyond the basic plane. -/
def isTrailingSurrogate (unit : Nat) : Bool := 0xDC00 ≤ unit && unit ≤ 0xDFFF

/-- The character of two surrogates. -/
def surrogatePair (leading trailing : Nat) : Char :=
  Char.ofNat (0x10000 + (leading - 0xD800) * 0x400 + (trailing - 0xDC00))

/-- The character that a letter after a backslash denotes. -/
def shortEscape (c : Char) : Option Char :=
  if c = '"' ∨ c = '\\' ∨ c = '/' then some c
  else if c = 'b' then some '\x08'
  else if c = 'f' then some '\x0c'
  else if c = 'n' then some '\n'
  else if c = 'r' then some '\r'
  else if c = 't' then some '\t'
  else none

/-- Puts a symbol in front of what was read. -/
def putBefore (x : Symbol) (r : Except ReadFault (List Symbol × List Symbol)) :
    Except ReadFault (List Symbol × List Symbol) :=
  r.map fun (read, rest) => (x :: read, rest)

/-- The symbols up to the closing quotation mark, with escapes replaced. -/
def readSymbols : Reader (List Symbol)
  | [] => .error .truncated
  | some '"' :: rest => .ok ([], rest)
  | [some '\\'] => .error .truncated
  | some '\\' :: some 'u' :: a :: b :: c :: d :: rest =>
    match hexUnit a b c d with
    | none => .error .malformed
    | some unit =>
      if isTrailingSurrogate unit then .error .malformed
      else if isLeadingSurrogate unit then
        match rest with
        | some '\\' :: some 'u' :: e :: f :: g :: h :: rest =>
          match hexUnit e f g h with
          | none => .error .malformed
          | some next =>
            if isTrailingSurrogate next then
              putBefore (some (surrogatePair unit next)) (readSymbols rest)
            else .error .malformed
        | _ => .error (pairFault rest)
      else putBefore (some (Char.ofNat unit)) (readSymbols rest)
  | some '\\' :: some 'u' :: rest => .error (hexFault rest)
  | some '\\' :: some c :: rest =>
    match shortEscape c with
    | some escaped => putBefore (some escaped) (readSymbols rest)
    | none => .error .malformed
  | some '\\' :: none :: _ => .error .malformed
  | some c :: rest => if c < ' ' then .error .malformed else putBefore (some c) (readSymbols rest)
  | none :: rest => putBefore none (readSymbols rest)

/-- A text, after its opening quotation mark. -/
def readString (s : List Symbol) : Except ReadFault (String × List Symbol) := do
  let (read, rest) ← readSymbols s
  match read.mapM id with
  | some characters => return (String.ofList characters, rest)
  | none => throw .malformed

end Stencil
