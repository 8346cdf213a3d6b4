import Stencil.Toml.Token

/-!
# Configuration documents

A TOML document is a list of lines. A line `path = value` puts a value into the table of the last
header, and a line `[path]` is a header. Tables come about in three ways: by a header of their
own, by the header of a table within them, or by a key with points. No value and no table can be
given twice; a table can get its own header after those of tables within it.

The values read here are those that an option can have: texts, integers, the empty list, and
tables of no more than one entry within a line. A document with a value of another kind is refused
like one that breaks the grammar, since it says nothing that an option could be set to.

* `Stencil.Toml.Node`: values and tables;
* `Stencil.Toml.put`, `Stencil.Toml.openTable`: what the two kinds of line do;
* `Stencil.Toml.readDocument`: reads a document.
-/

namespace Stencil.Toml

/-! ### Values and tables -/

/-- How a table has come about. -/
inductive Origin where
  /-- By a header of its own, or between braces. -/
  | stated
  /-- By the header of a table within it. -/
  | implied
  /-- By a key with points. -/
  | dotted
deriving DecidableEq, Repr

/-- A value or a table. -/
inductive Node where
  /-- A text. -/
  | text (value : String)
  /-- An integer. -/
  | integer (value : Int)
  /-- The empty list. -/
  | emptyList
  /-- A table within a line, which nothing can be added to. -/
  | inlineTable (entries : List (String × Node))
  /-- Any other table. -/
  | table (origin : Origin) (entries : List (String × Node))

/-- The entries of a table. -/
abbrev Entries := List (String × Node)

/-- Replaces the entry of a key, or adds one at the end. -/
def setEntry (key : String) (node : Node) : Entries → Entries
  | [] => [(key, node)]
  | entry :: rest => if entry.1 = key then (key, node) :: rest else entry :: setEntry key node rest

/-- Changes the entries of the table at a path. Tables missing on the way are made, with the origin
`missing`, and the way leads only through tables of the origins that `passes` admits. -/
def within (missing : Origin) (passes : Origin → Bool) (change : Entries → Option Entries) :
    (path : List String) → Entries → Option Entries
  | [], entries => change entries
  | key :: path, entries => do
    let (origin, inner) ← match entries.lookup key with
      | none => some (missing, [])
      | some (.table origin inner) => if passes origin then some (origin, inner) else none
      | some _ => none
    let inner ← within missing passes change path inner
    return setEntry key (.table origin inner) entries

/-- Adds a value under a key that has none. -/
def put (key : String) (value : Node) (entries : Entries) : Option Entries :=
  match entries.lookup key with
  | some _ => none
  | none => some (setEntry key value entries)

/-- Adds a value at a path. The keys before the last one name tables that only such paths make. -/
def putAt (path : List String) (value : Node) (entries : Entries) : Option Entries := do
  let key ← path.getLast?
  within .dotted (· = .dotted) (put key value) path.dropLast entries

/-- Gives the table of a key its own header: it is new, or implied so far. -/
def openTable (key : String) (entries : Entries) : Option Entries :=
  match entries.lookup key with
  | none => some (setEntry key (.table .stated []) entries)
  | some (.table .implied inner) => some (setEntry key (.table .stated inner) entries)
  | some _ => none

/-- Gives the table at a path its own header. -/
def openAt (path : List String) (entries : Entries) : Option Entries := do
  let key ← path.getLast?
  within .implied (fun _ => true) (openTable key) path.dropLast entries

/-! ### Reading -/

/-- The characters after a character that is due. -/
def expect (c : Char) : List Char → Option (List Char)
  | x :: rest => if x = c then some rest else none
  | [] => none

/-- A value, with no more than `depth` tables around one another. -/
def readValue : (depth : Nat) → Reader Node
  | depth, s =>
    match s with
    | '[' :: rest => do
      let rest ← expect ']' (skipLayout rest.length rest)
      return (.emptyList, rest)
    | '\x7b' :: rest =>
      match depth, skipBlanks rest with
      | 0, _ => none
      | _, '\x7d' :: rest => some (.inlineTable [], rest)
      | depth + 1, rest => do
        let (key, rest) ← readKey rest
        let rest ← expect '=' (skipBlanks rest)
        let (value, rest) ← readValue depth (skipBlanks rest)
        let rest ← expect '\x7d' (skipBlanks rest)
        return (.inlineTable [(key, value)], rest)
    | c :: _ =>
      if c = '"' ∨ c = '\'' then (readText s).map fun (text, rest) => (.text text, rest)
      else (readInteger s).map fun (n, rest) => (.integer n, rest)
    | [] => none

/-- The tables within a line that an option can take: one around another. -/
def maxDepth : Nat := 2

/-- What a document has said so far. -/
structure Document where
  /-- The path of the last header. -/
  current : List String
  /-- All entries. -/
  entries : Entries

/-- Reads a header, after its opening bracket. -/
def readHeader (document : Document) (s : List Char) : Option (Document × List Char) := do
  let (path, rest) ← readPath s
  let rest ← expect ']' rest
  let entries ← openAt path document.entries
  return (⟨path, entries⟩, rest)

/-- Reads an entry and puts it into the table of the last header. -/
def readEntry (document : Document) (s : List Char) : Option (Document × List Char) := do
  let (path, rest) ← readPath s
  let rest ← expect '=' rest
  let (value, rest) ← readValue maxDepth (skipBlanks rest)
  let entries ← within .implied (fun _ => true) (putAt path value) document.current
    document.entries
  return ({ document with entries }, rest)

/-- Reads a line with a header or an entry. -/
def readLine (document : Document) (s : List Char) : Option (Document × List Char) := do
  let (document, rest) ← match s with
    | '[' :: rest => readHeader document rest
    | _ => readEntry document s
  return (document, ← skipLineEnd rest)

/-- Reads the lines of a document, one in each round, with layout before them. -/
def readLines : (rounds : Nat) → Document → List Char → Option Entries
  | 0, _, _ => none
  | rounds + 1, document, s =>
    match skipLayout s.length s with
    | [] => some document.entries
    | rest => do
      let (document, rest) ← readLine document rest
      readLines rounds document rest

/-- The mark that may stand before a text to show its encoding. -/
def byteOrderMark : Char := '\ufeff'

/-- The entries of a document. -/
def readDocument (text : String) : Option Entries :=
  let s := text.toList
  let s := if s.head? = some byteOrderMark then s.tail else s
  readLines (s.length + 1) ⟨[], []⟩ s

end Stencil.Toml
