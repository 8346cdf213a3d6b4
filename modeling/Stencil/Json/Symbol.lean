/-!
# Symbols of a document

A document is read symbol by symbol. A symbol is a character, or a byte that belongs to no character
of the encoding; such a byte stands as a symbol of its own, so that a reader can decide what to make
of it.

* `Stencil.Symbol`, `Stencil.symbols`: the symbols of a sequence of bytes;
* `Stencil.symbols_toUTF8`: the symbols of an encoded text are its characters.
-/

namespace Stencil

/-- A character of a document, or nothing for a byte that belongs to no character. -/
abbrev Symbol := Option Char

/-- The symbols of a sequence of bytes from a position on. -/
def symbolsFrom (bytes : ByteArray) (start : Nat) : List Symbol :=
  if start < bytes.size then
    match bytes.utf8DecodeChar? start with
    | some c => some c :: symbolsFrom bytes (start + c.utf8Size)
    | none => none :: symbolsFrom bytes (start + 1)
  else []
termination_by bytes.size - start
decreasing_by
  · have := c.utf8Size_pos
    omega
  · omega

/-- The symbols of a sequence of bytes. -/
def symbols (bytes : ByteArray) : List Symbol := symbolsFrom bytes 0

/-- The number of bytes of a list of symbols. -/
def byteCount (s : List Symbol) : Nat :=
  s.foldl (fun n x => n + (x.map Char.utf8Size).getD 1) 0

/-- After any bytes, the encoding of a text gives the characters of the text. -/
theorem symbolsFrom_append_utf8Encode (before : ByteArray) (text : List Char) :
    symbolsFrom (before ++ text.utf8Encode) before.size = text.map some := by
  induction text generalizing before with
  | nil => simp [symbolsFrom]
  | cons c rest ih =>
    have first : (before ++ (c :: rest).utf8Encode).utf8DecodeChar? before.size = some c := by
      rw [ByteArray.utf8DecodeChar?_eq_utf8DecodeChar?_extract,
        ByteArray.extract_append_eq_right rfl ByteArray.size_append,
        List.utf8DecodeChar?_utf8Encode_cons]
    have inside := ByteArray.le_size_of_utf8DecodeChar?_eq_some first
    have positive := c.utf8Size_pos
    have split : before ++ (c :: rest).utf8Encode =
        (before ++ [c].utf8Encode) ++ rest.utf8Encode := by
      rw [ByteArray.append_assoc, ← List.utf8Encode_append]
      rfl
    have size : before.size + c.utf8Size = (before ++ [c].utf8Encode).size := by
      simp [List.utf8Encode_singleton, String.length_utf8EncodeChar]
    rw [symbolsFrom, if_pos (by omega), first]
    show some c :: symbolsFrom _ (before.size + c.utf8Size) = _
    rw [size, split]
    exact congrArg (some c :: ·) (ih _)

/-- The symbols of an encoded text are its characters. -/
theorem symbols_toUTF8 (text : String) : symbols text.toUTF8 = text.toList.map some := by
  have h := symbolsFrom_append_utf8Encode ByteArray.empty text.toList
  rw [String.utf8Encode_toList, ByteArray.empty_append] at h
  exact h

end Stencil
