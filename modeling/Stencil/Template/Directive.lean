import Stencil.Json.Basic
import Stencil.Options.Basic

/-!
# Directives

A text of a template is a directive if it carries the marker, and its body says what to put in its
place. Where the marker may stand anywhere, the body still begins where it would if the marker
stood at the start: after as many whole characters as it takes to cover the marker's bytes.

* `Stencil.marker`: the marker;
* `Stencil.MarkerPlace.body?`: the body of a text, if it is a directive.
-/

namespace Stencil

/-- The marker of directives. -/
def marker : String := "_go:"

/-- Whether a text starts with the marker. -/
def startsWithMarker (text : List Char) : Bool := marker.toList.isPrefixOf text

/-- Whether a text has the marker at any position. -/
def hasMarker : List Char → Bool
  | [] => false
  | c :: rest => startsWithMarker (c :: rest) || hasMarker rest

/-- Drops the shortest run of characters that covers a number of bytes. -/
def dropBytes : (bytes : Nat) → List Char → List Char
  | 0, text => text
  | _, [] => []
  | bytes + 1, c :: rest => dropBytes (bytes + 1 - c.utf8Size) rest

namespace MarkerPlace

/-- Whether a text is a directive. -/
def admits (place : MarkerPlace) (text : List Char) : Bool :=
  match place with
  | .anywhere => hasMarker text
  | .atStart => startsWithMarker text

/-- The body of a text, if it is a directive. -/
def body? (place : MarkerPlace) (text : String) : Option String :=
  if place.admits text.toList then
    some (String.ofList (dropBytes marker.utf8ByteSize text.toList))
  else none

/-- The body of a value, if it is a text and a directive. -/
def bodyOf? (place : MarkerPlace) : Json → Option String
  | .string text => place.body? text
  | _ => none

end MarkerPlace

end Stencil
