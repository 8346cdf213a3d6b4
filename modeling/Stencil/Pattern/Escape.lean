/-!
# Backslashes in the fixed parts of a pattern

The lead and the trail of a pattern may hold brackets, written with a backslash in front. A
backslash is dropped when a character other than a backslash follows it; one that ends the text
stays. So of each run of backslashes before another character exactly one goes, and writing puts
exactly one back.

* `Stencil.unescape`: from the written form to the text it stands for;
* `Stencil.escape`: from a text to a written form without bare brackets.
-/

namespace Stencil

/-- The two characters that delimit a pattern's body. -/
def isBracket (c : Char) : Bool := c == '<' || c == '>'

/-- Drops every backslash that a character other than a backslash follows. -/
def unescape : List Char → List Char
  | [] => []
  | [c] => [c]
  | c :: next :: rest =>
    if c = '\\' ∧ next ≠ '\\' then unescape (next :: rest)
    else c :: unescape (next :: rest)

/-- Writes a text that stands after a backslash, if `afterBackslash`, or after another character
or nothing: a character other than a backslash gets a backslash of its own if it follows one or
is a bracket. -/
def escapeFrom (afterBackslash : Bool) : List Char → List Char
  | [] => []
  | c :: rest =>
    if c = '\\' then c :: escapeFrom true rest
    else if afterBackslash || isBracket c then '\\' :: c :: escapeFrom false rest
    else c :: escapeFrom false rest

/-- The written form of a text: `unescape` reads it back, and none of its brackets is bare. -/
def escape (text : List Char) : List Char := escapeFrom false text

end Stencil
