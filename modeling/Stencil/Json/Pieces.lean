import Stencil.Json.Writer

/-!
# JSON piece by piece

A value can be written in pieces, one after the other. A bracket, a comma, a colon and a quotation
mark is a piece, and so are a number, a word such as `null` and an escape. Between quotation marks
the characters that need no escape go together: each longest run of them is one piece.

* `Stencil.Json.pieces`: the pieces of a value;
* `Stencil.Json.flatten_pieces`: together they are the characters of the value.
-/

namespace Stencil

/-! ### Texts -/

/-- Whether a character stands for itself between quotation marks. -/
def isPlain (c : Char) : Bool := escapedChar c = [c]

/-- The pieces between quotation marks: longest runs of plain characters, and single escapes. -/
def insidePieces (value : List Char) : List (List Char) :=
  match value with
  | [] => []
  | c :: rest =>
    if isPlain c then (c :: rest.takeWhile isPlain) :: insidePieces (rest.dropWhile isPlain)
    else escapedChar c :: insidePieces rest
termination_by value.length
decreasing_by
  · have := (rest.dropWhile_suffix isPlain).length_le
    simp only [List.length_cons]
    omega
  · simp

/-- The pieces of a text, with its quotation marks. -/
def stringPieces (value : String) : List (List Char) :=
  ['"'] :: insidePieces value.toList ++ [['"']]

/-- Plain characters are not changed. -/
theorem flatMap_escapedChar_eq_self {l : List Char} (plain : ∀ c ∈ l, isPlain c) :
    l.flatMap escapedChar = l := by
  induction l with
  | nil => rfl
  | cons c rest ih =>
    have first : escapedChar c = [c] := by simpa [isPlain] using plain c (by simp)
    rw [List.flatMap_cons, first, ih fun d hd => plain d (by simp [hd])]
    rfl

/-- Nothing between the quotation marks is lost. -/
theorem flatten_insidePieces (value : List Char) :
    (insidePieces value).flatten = value.flatMap escapedChar := by
  fun_induction insidePieces value with
  | case1 => rfl
  | case2 c rest plain ih =>
    have run : (c :: rest.takeWhile isPlain).flatMap escapedChar = c :: rest.takeWhile isPlain :=
      flatMap_escapedChar_eq_self fun d hd => by
        obtain rfl | hd := List.mem_cons.mp hd
        · exact plain
        · exact List.all_eq_true.mp List.all_takeWhile d hd
    rw [List.flatten_cons, ih, ← run, ← List.flatMap_append, List.cons_append,
      List.takeWhile_append_dropWhile]
  | case3 c rest _ ih => rw [List.flatten_cons, ih, List.flatMap_cons]

/-- The pieces of a text are the characters of the text as it is written. -/
theorem flatten_stringPieces (value : String) :
    (stringPieces value).flatten = writeString value := by
  simp [stringPieces, writeString, flatten_insidePieces]

/-! ### Values -/

namespace Json

mutual

/-- The pieces of a value. -/
def pieces : Json → List (List Char)
  | .string value => stringPieces value
  | .array items => ['['] :: itemPieces items ++ [[']']]
  | .object members => ['\x7b'] :: memberPieces members ++ [['\x7d']]
  | value => [value.write]

/-- The pieces of items with commas between them. -/
def itemPieces : List Json → List (List Char)
  | [] => []
  | [item] => item.pieces
  | item :: more => item.pieces ++ [','] :: itemPieces more

/-- The pieces of members with commas between them. -/
def memberPieces : List (String × Json) → List (List Char)
  | [] => []
  | [(key, value)] => stringPieces key ++ [':'] :: value.pieces
  | (key, value) :: more => stringPieces key ++ [':'] :: value.pieces ++ [','] :: memberPieces more

end

mutual

/-- Together the pieces of a value are its characters. -/
theorem flatten_pieces : (value : Json) → value.pieces.flatten = value.write
  | .null | .bool _ | .number _ => by simp [pieces]
  | .string value => by simp [pieces, write, flatten_stringPieces]
  | .array items => by simp [pieces, write, flatten_itemPieces items]
  | .object members => by simp [pieces, write, flatten_memberPieces members]

/-- Together the pieces of items are their characters. -/
theorem flatten_itemPieces : (items : List Json) → (itemPieces items).flatten = writeItems items
  | [] => rfl
  | [item] => by simp [itemPieces, writeItems, flatten_pieces item]
  | item :: next :: more => by
    simp [itemPieces, writeItems, flatten_pieces item, flatten_itemPieces (next :: more)]

/-- Together the pieces of members are their characters. -/
theorem flatten_memberPieces :
    (members : List (String × Json)) → (memberPieces members).flatten = writeMembers members
  | [] => rfl
  | [(key, value)] => by
    simp [memberPieces, writeMembers, flatten_stringPieces, flatten_pieces value]
  | (key, value) :: next :: more => by
    simp [memberPieces, writeMembers, flatten_stringPieces, flatten_pieces value,
      flatten_memberPieces (next :: more)]

end

end Json

end Stencil
