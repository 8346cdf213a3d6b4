/-!
# Bytes of characters

Texts are written as bytes in UTF-8, character by character.

* `Stencil.bytesOf`: the bytes of characters.
-/

namespace Stencil

/-- The bytes of characters. -/
def bytesOf (characters : List Char) : List UInt8 := characters.flatMap String.utf8EncodeChar

@[simp] theorem bytesOf_nil : bytesOf [] = [] := rfl

@[simp] theorem bytesOf_append (l m : List Char) : bytesOf (l ++ m) = bytesOf l ++ bytesOf m :=
  List.flatMap_append

/-- The bytes of pieces, put together, are the bytes of the pieces put together. -/
theorem flatten_map_bytesOf (pieces : List (List Char)) :
    (pieces.map bytesOf).flatten = bytesOf pieces.flatten := by
  induction pieces with
  | nil => rfl
  | cons piece more ih => simp [ih]

end Stencil
