import Stencil.Json.Token

/-!
# Reading JSON

The reader follows the grammar of the format to the letter: no comments, no trailing commas, and at
most 127 containers around one another. A document is refused for one of three reasons: it ends too
early, it is malformed before its end, or it is well-formed up to its first token and that token
starts something else than an object.

* `Stencil.readElements`: the elements of a container, whatever they are;
* `Stencil.Json.readValue`: reads one value;
* `Stencil.Json.readObject`: reads a document, which has to be an object.
-/

namespace Stencil

/-! ### Containers and values -/

/-- What stands after an element of a container: a comma and the next element, again and again, or
the closing bracket. Every round consumes at least the comma, so no more than `rounds` of them are
needed if there are so many symbols. -/
def readMore {α : Type} (close : Char) (element : Reader α) : (rounds : Nat) → Reader (List α)
  | 0, s => .error (unexpected s)
  | rounds + 1, s =>
    match skipBlanks s with
    | [] => .error .truncated
    | x :: rest =>
      if x = some close then .ok ([], rest)
      else if x = some ',' then do
        let (first, rest) ← element rest
        let (more, rest) ← readMore close element rounds rest
        return (first :: more, rest)
      else .error .malformed

/-- The elements of a container, after its opening bracket. -/
def readElements {α : Type} (close : Char) (element : Reader α) : Reader (List α) := fun s =>
  match skipBlanks s with
  | [] => .error .truncated
  | x :: rest =>
    if x = some close then .ok ([], rest)
    else do
      let (first, rest) ← element s
      let (more, rest) ← readMore close element (rest.length + 1) rest
      return (first :: more, rest)

/-- A member of an object: its name, a colon and a value. -/
def readMember {α : Type} (value : Reader α) : Reader (String × α) := fun s =>
  match skipBlanks s with
  | some '"' :: s => do
    let (key, s) ← readString s
    match skipBlanks s with
    | some ':' :: s =>
      let (value, s) ← value s
      return ((key, value), s)
    | s => throw (unexpected s)
  | s => .error (unexpected s)

namespace Json

/-- Reads a value, with no more than `depth` containers around one another. -/
def readValue : (depth : Nat) → Reader Json
  | depth, s =>
    match skipBlanks s with
    | some 'n' :: s => do return (null, ← readWord ['u', 'l', 'l'] s)
    | some 't' :: s => do return (bool true, ← readWord ['r', 'u', 'e'] s)
    | some 'f' :: s => do return (bool false, ← readWord ['a', 'l', 's', 'e'] s)
    | some '"' :: s => do
      let (value, s) ← readString s
      return (string value, s)
    | some '[' :: s =>
      match depth with
      | 0 => .error .malformed
      | depth + 1 => do
        let (items, s) ← readElements ']' (readValue depth) s
        return (array items, s)
    | some '\x7b' :: s =>
      match depth with
      | 0 => .error .malformed
      | depth + 1 => do
        let (members, s) ← readElements '\x7d' (readMember (readValue depth)) s
        return (object members, s)
    | [] => .error .truncated
    | x :: s =>
      if x = some '-' ∨ isDigitSymbol x then do
        let (value, s) ← readNumber (x :: s)
        return (number value, s)
      else .error .malformed

/-- The most containers around one another that a document may have. -/
def maxDepth : Nat := 127

/-- Reads a document that consists of one object. A document that starts with another value is
refused for that once the value's first token is read. -/
def readObject (s : List Symbol) : Except ReadFault (List (String × Json)) :=
  match skipBlanks s with
  | some '[' :: _ => .error .notObject
  | s => do
    match ← readValue maxDepth s with
    | (object members, rest) =>
      if skipBlanks rest = [] then return members else throw .malformed
    | _ => throw .notObject

end Json

end Stencil
