import Stencil.Options.Basic
import Stencil.Toml.Document

/-!
# Options in a document

Options can be given in a TOML document, each under a key of its own; other keys are refused. A
choice is given by its name, or by a table whose only key is the name and whose value is empty.

* `Stencil.OptionsFault`: why a document is refused;
* `Stencil.Options.ofToml`: the options of a document;
* `Stencil.Options.ofFile`: the options of a file.
-/

namespace Stencil

/-- Why options cannot be loaded. -/
inductive OptionsFault where
  /-- There is no such file. -/
  | missing
  /-- The file is not text in UTF-8. -/
  | notText
  /-- The text is not a document that sets options. -/
  | invalid
deriving DecidableEq, Repr

open Toml (Node)

/-- A seed: a natural number below `2 ^ 63`, the largest that a document can have. -/
def seedOf? : Node → Option UInt64
  | .integer value => if 0 ≤ value then some (UInt64.ofNat value.toNat) else none
  | _ => none

/-- Whether a node holds nothing, as the value beside the name of a choice does. -/
def isEmptyNode : Node → Bool
  | .emptyList => true
  | .inlineTable entries => entries.isEmpty
  | .table _ entries => entries.isEmpty
  | _ => false

/-- The name of a choice. -/
def choiceName? : Node → Option String
  | .text name => some name
  | .inlineTable [(name, value)] => if isEmptyNode value then some name else none
  | .table _ [(name, value)] => if isEmptyNode value then some name else none
  | _ => none

/-- The kinds of identifiers, by name. -/
def uuidKinds : List (String × UuidKind) := [("v4", .random), ("legacy_timestamp", .timestamp)]

/-- The places of the marker, by name. -/
def markerPlaces : List (String × MarkerPlace) := [("anywhere", .anywhere), ("prefix", .atStart)]

namespace Options

/-- Sets the option of an entry. -/
def set (options : Options) (entry : String × Node) : Option Options :=
  match entry.1 with
  | "seed" => do
    let seed ← seedOf? entry.2
    return { options with seed := some seed }
  | "uuid_mode" => do
    let uuidKind ← uuidKinds.lookup (← choiceName? entry.2)
    return { options with uuidKind }
  | "marker_policy" => do
    let markerPlace ← markerPlaces.lookup (← choiceName? entry.2)
    return { options with markerPlace }
  | _ => none

/-- The options that a document sets, on top of the default. -/
def ofToml (text : String) : Except OptionsFault Options :=
  match (Toml.readDocument text).bind (·.foldlM set Options.default) with
  | some options => .ok options
  | none => .error .invalid

/-- The options that a file sets, given its bytes if it exists. -/
def ofFile (content : Option ByteArray) : Except OptionsFault Options :=
  match content with
  | none => .error .missing
  | some bytes =>
    match String.fromUTF8? bytes with
    | none => .error .notText
    | some text => ofToml text

end Options

end Stencil
