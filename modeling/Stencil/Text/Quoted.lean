import Stencil.Text.Digits
import Stencil.Text.Visible

/-!
# Texts and sets of texts, for inspection

A text is shown between quotation marks, with an escape for each character that is not visible or
has a meaning there; a set of texts is shown between braces.

* `Stencil.showChar`, `Stencil.showText`: characters and texts;
* `Stencil.showSet`: sets of texts.
-/

namespace Stencil

/-- A character as it is shown between quotation marks. -/
def showChar (c : Char) : List Char :=
  if c = '\x00' then ['\\', '0']
  else if c = '\t' then ['\\', 't']
  else if c = '\r' then ['\\', 'r']
  else if c = '\n' then ['\\', 'n']
  else if c = '"' ∨ c = '\\' then ['\\', c]
  else if isVisible c then [c]
  else ['\\', 'u', '\x7b'] ++ hexDigits c.toNat ++ ['\x7d']

/-- A text as it is shown. -/
def showText (text : String) : List Char := '"' :: text.toList.flatMap showChar ++ ['"']

/-- A set of texts as it is shown, in the order in which it is listed. -/
def showSet (texts : List String) : String :=
  String.ofList ('\x7b' :: [',', ' '].intercalate (texts.map showText) ++ ['\x7d'])

end Stencil
