import Stencil.Text.Digits

/-!
# Tokens of configuration documents

The parts of a TOML document that lie within a line: blanks and comments, keys, texts in quotation
marks, integers. Each function reads its token from the front of the characters and leaves the rest,
or fails.

* `Stencil.Toml.skipLineEnd`, `Stencil.Toml.skipLayout`: what may stand between tokens;
* `Stencil.Toml.readText`, `Stencil.Toml.readInteger`: values of one token;
* `Stencil.Toml.readPath`: keys with points between them.
-/

namespace Stencil.Toml

/-- What reads a value from the front of the characters, and leaves those after it. -/
abbrev Reader (α : Type) := List Char → Option (α × List Char)

/-! ### Blanks, line ends and comments -/

/-- The blanks within a line. -/
def isBlank (c : Char) : Bool := c == ' ' || c == '\t'

/-- The characters after leading blanks. -/
def skipBlanks (s : List Char) : List Char := s.dropWhile isBlank

/-- Whether a character may stand in a comment or a text: all but control characters, of which only
the tab may. -/
def isContent (c : Char) : Bool := c == '\t' || (' ' ≤ c && c != '\x7f')

/-- The characters after a line feed, which a carriage return may precede. -/
def skipNewline : List Char → Option (List Char)
  | '\n' :: rest => some rest
  | '\r' :: '\n' :: rest => some rest
  | _ => none

/-- The characters after a comment, if one begins here. -/
def skipComment : List Char → List Char
  | '#' :: rest => rest.dropWhile isContent
  | s => s

/-- The characters after the end of a line: blanks, perhaps a comment, and a line feed or the end of
the document. -/
def skipLineEnd (s : List Char) : Option (List Char) :=
  match skipComment (skipBlanks s) with
  | [] => some []
  | s => skipNewline s

/-- The characters after blanks, comments and line feeds. -/
def skipLayout : (rounds : Nat) → List Char → List Char
  | 0, s => s
  | rounds + 1, s =>
    let rest := skipComment (skipBlanks s)
    match skipNewline rest with
    | some rest => skipLayout rounds rest
    | none => rest

/-! ### Texts -/

/-- The character that a letter after a backslash denotes. -/
def letterEscape (c : Char) : Option Char :=
  if c = 'b' then some '\x08'
  else if c = 't' then some '\t'
  else if c = 'n' then some '\n'
  else if c = 'f' then some '\x0c'
  else if c = 'r' then some '\r'
  else if c = '"' ∨ c = '\\' then some c
  else none

/-- The character whose number is written in so many digits of base sixteen. -/
def readScalar (digits : Nat) (s : List Char) : Option (Char × List Char) := do
  let written ← (s.take digits).mapM hexDigitValue?
  let scalar := written.foldl (fun n d => 16 * n + d) 0
  if written.length = digits ∧ scalar.isValidChar then
    return (Char.ofNat scalar, s.drop digits)
  else none

/-- The character of an escape, after its backslash. -/
def readEscape : Reader Char
  | 'u' :: rest => readScalar 4 rest
  | 'U' :: rest => readScalar 8 rest
  | c :: rest => (letterEscape c).map (·, rest)
  | [] => none

/-- The characters after blanks and line feeds. -/
def skipBreaks : (rounds : Nat) → List Char → List Char
  | 0, s => s
  | rounds + 1, s =>
    let rest := skipBlanks s
    match skipNewline rest with
    | some rest => skipBreaks rounds rest
    | none => rest

/-- The characters after a line feed that a backslash hides, and after all blanks and line feeds
that follow. -/
def skipHiddenBreak (s : List Char) : Option (List Char) := do
  let rest ← skipNewline (skipBlanks s)
  return skipBreaks (rest.length + 1) rest

/-- How a text is quoted. -/
structure Quoting where
  /-- The quotation mark. -/
  mark : Char
  /-- Whether the text stands between three marks and may have line feeds. -/
  multiLine : Bool
  /-- Whether a backslash begins an escape. -/
  escapes : Bool
deriving DecidableEq, Repr

/-- The characters after the closing quotation mark or marks, if they stand here. -/
def skipClosing (quoting : Quoting) (s : List Char) : Option (List Char) :=
  let close := List.replicate (if quoting.multiLine then 3 else 1) quoting.mark
  if close.isPrefixOf s then some (s.drop close.length) else none

/-- The characters of a text up to its closing quotation mark. Every round takes at least one
character. -/
def readQuoted (quoting : Quoting) : (rounds : Nat) → Reader (List Char)
  | 0, _ => none
  | rounds + 1, s =>
    match skipClosing quoting s with
    | some rest => some ([], rest)
    | none =>
      let continueWith (c : Char) (rest : List Char) : Option (List Char × List Char) :=
        (readQuoted quoting rounds rest).map fun (cs, rest) => (c :: cs, rest)
      match skipNewline s, s with
      | some rest, _ => if quoting.multiLine then continueWith '\n' rest else none
      | none, [] => none
      | none, c :: rest =>
        if c = '\\' ∧ quoting.escapes then
          match if quoting.multiLine then skipHiddenBreak rest else none with
          | some rest => readQuoted quoting rounds rest
          | none =>
            match readEscape rest with
            | some (c, rest) => continueWith c rest
            | none => none
        else if isContent c then continueWith c rest
        else none

/-- The quotation that begins here, and the characters after its opening mark or marks. A line feed
right after three marks is not part of the text. -/
def readOpening (s : List Char) : Option (Quoting × List Char) :=
  match s with
  | '"' :: '"' :: '"' :: rest => some (⟨'"', true, true⟩, (skipNewline rest).getD rest)
  | '\'' :: '\'' :: '\'' :: rest => some (⟨'\'', true, false⟩, (skipNewline rest).getD rest)
  | '"' :: rest => some (⟨'"', false, true⟩, rest)
  | '\'' :: rest => some (⟨'\'', false, false⟩, rest)
  | _ => none

/-- A text in quotation marks of any kind. -/
def readText : Reader String := fun s => do
  let (quoting, rest) ← readOpening s
  let (characters, rest) ← readQuoted quoting (rest.length + 1) rest
  return (String.ofList characters, rest)

/-! ### Keys -/

/-- Whether a character may stand in a key without quotation marks. -/
def isBareKeyChar (c : Char) : Bool := c.isAlphanum || c == '_' || c == '-'

/-- A key, with or without quotation marks around it; there are no keys of several lines. -/
def readKey : Reader String := fun s =>
  match readOpening s with
  | some (quoting, _) => if quoting.multiLine then none else readText s
  | none =>
    match s.takeWhile isBareKeyChar with
    | [] => none
    | bare => some (String.ofList bare, s.dropWhile isBareKeyChar)

/-- Keys with points between them; blanks may stand around each. -/
def readPathFrom : (rounds : Nat) → Reader (List String)
  | 0, _ => none
  | rounds + 1, s => do
    let (key, rest) ← readKey (skipBlanks s)
    match skipBlanks rest with
    | '.' :: rest =>
      let (more, rest) ← readPathFrom rounds rest
      return (key :: more, rest)
    | rest => return ([key], rest)

/-- Keys with points between them, in as many rounds as there may be keys. -/
def readPath : Reader (List String) := fun s => readPathFrom (s.length + 1) s

/-! ### Integers -/

/-- The value of a digit in a base. -/
def digitIn? (base : Nat) (c : Char) : Option Nat :=
  (hexDigitValue? c).filter (· < base)

/-- Digits in a base, on top of `value`; single underscores may stand between them. -/
def readDigitsIn (base : Nat) (value : Nat) : List Char → Nat × List Char
  | '_' :: c :: rest =>
    match digitIn? base c with
    | some d => readDigitsIn base (base * value + d) rest
    | none => (value, '_' :: c :: rest)
  | c :: rest =>
    match digitIn? base c with
    | some d => readDigitsIn base (base * value + d) rest
    | none => (value, c :: rest)
  | [] => (value, [])

/-- At least one digit in a base. -/
def readNatural (base : Nat) : Reader Nat
  | c :: rest => (digitIn? base c).map fun d => readDigitsIn base d rest
  | [] => none

/-- A decimal number: a zero, or digits that do not begin with one. -/
def readDecimal : Reader Nat
  | '0' :: rest => some (0, rest)
  | s => readNatural 10 s

/-- An integer of 64 bits: decimal with an optional sign, or without a sign in another base. -/
def readInteger : Reader Int := fun s => do
  let (value, rest) ← match s with
    | '0' :: 'x' :: rest => (readNatural 16 rest).map fun (n, rest) => ((n : Int), rest)
    | '0' :: 'o' :: rest => (readNatural 8 rest).map fun (n, rest) => ((n : Int), rest)
    | '0' :: 'b' :: rest => (readNatural 2 rest).map fun (n, rest) => ((n : Int), rest)
    | '+' :: rest => (readDecimal rest).map fun (n, rest) => ((n : Int), rest)
    | '-' :: rest => (readDecimal rest).map fun (n, rest) => (-(n : Int), rest)
    | _ => (readDecimal s).map fun (n, rest) => ((n : Int), rest)
  if Int64.minValue.toInt ≤ value ∧ value ≤ Int64.maxValue.toInt then return (value, rest) else none

end Stencil.Toml
