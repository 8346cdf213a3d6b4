import Stencil.Proofs.Pattern.Bare
import Stencil.Text.Bytes

/-!
# Byte offsets of brackets

A text can be cut by the bytes of its encoding as well: the brackets are found at byte offsets, a
bracket is passed over if the **byte** right before it is a backslash, and the parts are the bytes
between the offsets. Looking at a byte in place of a character is safe only because no other
character has the byte of a backslash in its encoding, at its end or anywhere else; cutting between
bytes is safe only because a bracket is one byte long. This file does the cutting that way and
shows that it is `Stencil.cut?`, with every cut between two characters.

* `Stencil.bracketOffsets?`: the byte offsets of the two brackets of the body;
* `Stencil.bracketOffsets?_eq_map_cut?`: they are the byte lengths of the parts of `Stencil.cut?`;
* `Stencil.isValid_bracketOffsets`: no cut divides a character.
-/

namespace Stencil

/-! ### Encoded texts -/

/-- The number of bytes of a text. -/
def byteLength (text : List Char) : ℕ := (bytesOf text).length

@[simp] theorem byteLength_nil : byteLength [] = 0 := rfl

@[simp] theorem byteLength_append (l m : List Char) :
    byteLength (l ++ m) = byteLength l + byteLength m := by
  simp [byteLength]

@[simp] theorem byteLength_cons (c : Char) (l : List Char) :
    byteLength (c :: l) = c.utf8Size + byteLength l := by
  simp [byteLength, bytesOf]

theorem utf8ByteSize_ofList (l : List Char) : (String.ofList l).utf8ByteSize = byteLength l := by
  rw [String.utf8ByteSize, String.toByteArray_ofList, List.utf8Encode, List.size_toByteArray]
  rfl

theorem byteLength_take_le {text : List Char} {i j : ℕ} (h : i ≤ j) :
    byteLength (text.take i) ≤ byteLength (text.take j) := by
  obtain ⟨k, rfl⟩ := Nat.exists_eq_add_of_le h
  rw [List.take_add, byteLength_append]
  exact Nat.le_add_right _ _

/-- **Only a backslash ends in the byte of a backslash**: the bytes of a character outside ASCII
are all 128 or more. -/
theorem getLast?_utf8EncodeChar {c : Char} :
    (String.utf8EncodeChar c).getLast? = some 0x5c ↔ c = '\\' := by
  have hval : c.val.toNat = 0x5c ↔ c = '\\' := by
    rw [← Char.toNat_inj]
    rfl
  have hbyte : ∀ n : ℕ, n < 256 → (UInt8.ofNat n = 0x5c ↔ n = 0x5c) := by
    intro n hn
    rw [← UInt8.toNat_inj, UInt8.toNat_ofNat', Nat.mod_eq_of_lt hn]
    rfl
  have htail : ∀ n : ℕ, UInt8.ofNat (n % 0x40 + 0x80) ≠ 0x5c := by
    intro n hn
    have := (hbyte _ (by omega)).mp hn
    omega
  rw [← hval]
  fun_cases String.utf8EncodeChar c with
  | case1 v hv =>
    rw [List.getLast?_singleton, Option.some.injEq]
    exact hbyte _ (by omega)
  | case2 v h1 h2 =>
    simp only [List.getLast?_cons_cons, List.getLast?_singleton, Option.some.injEq]
    exact iff_of_false (htail _) (by omega)
  | case3 v h1 h2 h3 =>
    simp only [List.getLast?_cons_cons, List.getLast?_singleton, Option.some.injEq]
    exact iff_of_false (htail _) (by omega)
  | case4 v h1 h2 h3 =>
    simp only [List.getLast?_cons_cons, List.getLast?_singleton, Option.some.injEq]
    exact iff_of_false (htail _) (by omega)

/-- The byte right before an offset is a backslash if the character right before it is. -/
theorem escapedAfter_iff_byte (before after : List Char) :
    escapedAfter false before = true ↔
      byteLength before ≠ 0 ∧
        (bytesOf (before ++ after))[byteLength before - 1]? = some 0x5c := by
  rw [escapedAfter_false_iff]
  rcases List.eq_nil_or_concat before with rfl | ⟨earlier, c, rfl⟩
  · simp
  · rw [List.concat_eq_append, List.getLast?_concat, Option.some.injEq]
    have hpos : byteLength (earlier ++ [c]) ≠ 0 := by
      have := c.utf8Size_pos
      rw [byteLength_append, byteLength_cons]
      omega
    have hbyte : (bytesOf (earlier ++ [c] ++ after))[byteLength (earlier ++ [c]) - 1]? =
        (String.utf8EncodeChar c).getLast? := by
      rw [bytesOf_append, List.getElem?_append_left (by unfold byteLength at hpos ⊢; omega)]
      rw [byteLength, ← List.getLast?_eq_getElem?, bytesOf_append, List.getLast?_append]
      have hc : bytesOf [c] = String.utf8EncodeChar c := by simp [bytesOf]
      rw [hc]
      cases h : (String.utf8EncodeChar c).getLast? with
      | some b => rfl
      | none => exact absurd (List.getLast?_eq_none_iff.mp h) String.utf8EncodeChar_ne_nil
    rw [hbyte, getLast?_utf8EncodeChar]
    exact ⟨fun h => ⟨hpos, h⟩, And.right⟩

/-! ### Finding brackets by bytes -/

/-- The byte offsets of a bracket in characters that start at an offset of the given bytes. A
character is passed over if the byte right before it is a backslash. -/
def bareOffsets (bracket : Char) (bytes : List UInt8) (offset : ℕ) : List Char → List ℕ
  | [] => []
  | c :: rest =>
    let later := bareOffsets bracket bytes (offset + c.utf8Size) rest
    if offset ≠ 0 ∧ bytes[offset - 1]? = some 0x5c then later
    else if c = bracket then offset :: later
    else later

/-- The byte offsets of the two brackets of the body, if both are left standing and in order. -/
def bracketOffsets? (text : List Char) : Option (ℕ × ℕ) :=
  match standing (bareOffsets '<' (bytesOf text) 0 text),
    standing (bareOffsets '>' (bytesOf text) 0 text) with
  | some start, some stop => if start < stop then some (start, stop) else none
  | _, _ => none

variable {bracket : Char}

theorem bareOffsets_append (before after : List Char) :
    bareOffsets bracket (bytesOf (before ++ after)) (byteLength before) after =
      (barePositions bracket (escapedAfter false before) before.length after).map
        fun i => byteLength ((before ++ after).take i) := by
  -- the text before grows by one character at a time, and its flag by the byte it ends in
  induction after generalizing before with
  | nil => rfl
  | cons c after ih =>
    have hstep := ih (before ++ [c])
    rw [← List.append_cons, byteLength_append, byteLength_cons, byteLength_nil, Nat.add_zero,
      List.length_append, List.length_singleton] at hstep
    have hflag : escapedAfter false (before ++ [c]) = (c == '\\') := by
      simp [escapedAfter]
    rw [hflag] at hstep
    rw [bareOffsets, barePositions, hstep]
    cases hesc : escapedAfter false before with
    | true =>
      rw [if_pos ((escapedAfter_iff_byte before (c :: after)).mp hesc)]
      simp
    | false =>
      rw [if_neg fun hcon => by
        rw [(escapedAfter_iff_byte before (c :: after)).mpr hcon] at hesc
        cases hesc]
      by_cases hc : c = bracket <;> simp [hc]

/-- **Bare brackets are found at the byte offsets of their positions.** -/
theorem bareOffsets_eq_map (text : List Char) :
    bareOffsets bracket (bytesOf text) 0 text =
      (barePositions bracket false 0 text).map fun i => byteLength (text.take i) :=
  bareOffsets_append [] text

theorem standing_map (f : ℕ → ℕ) (positions : List ℕ) :
    standing (positions.map f) = (standing positions).map f := by
  induction positions using List.reverseRecOn with
  | nil => rfl
  | append_singleton positions i ih =>
    rw [List.map_append, List.map_singleton, standing_concat, standing_concat, ih]
    cases standing positions <;> rfl

/-- **Cutting by bytes is cutting by characters**: the offsets are the byte lengths of the text
before either bracket. -/
theorem bracketOffsets?_eq_map_cut? (text : List Char) :
    bracketOffsets? text = (cut? text).map fun cut =>
      (byteLength cut.before, byteLength (cut.before ++ '<' :: cut.body)) := by
  rw [bracketOffsets?, bareOffsets_eq_map, bareOffsets_eq_map, standing_map, standing_map]
  cases hcut : cut? text with
  | some cut =>
    obtain ⟨rfl, hopen, hclose⟩ := cut?_eq_some_iff.mp hcut
    have hbefore : cut.text.take cut.before.length = cut.before := by
      rw [cut.text_eq, List.take_left]
    have hbody : cut.text.take (cut.before ++ '<' :: cut.body).length =
        cut.before ++ '<' :: cut.body := by
      rw [Cut.text, List.take_left]
    have hlt : byteLength cut.before < byteLength (cut.before ++ '<' :: cut.body) := by
      have : ('<' : Char).utf8Size = 1 := rfl
      rw [byteLength_append, byteLength_cons]
      omega
    simp only [Cut.standing_opening hopen, Cut.standing_closing hclose, Option.map_some, hbefore,
      hbody, if_pos hlt]
  | none =>
    unfold cut? at hcut
    cases hstart : standing (barePositions '<' false 0 text) with
    | none => rfl
    | some start =>
      cases hstop : standing (barePositions '>' false 0 text) with
      | none => rfl
      | some stop =>
        rw [hstart, hstop] at hcut
        -- brackets that are out of order by position are so by offset
        have hle : stop ≤ start := by
          by_contra hcon
          simp [Nat.lt_of_not_le hcon] at hcut
        have hbytes : byteLength (text.take stop) ≤ byteLength (text.take start) :=
          byteLength_take_le hle
        simp only [Option.map_some, Option.map_none]
        rw [if_neg (Nat.not_lt.mpr hbytes)]

/-- An offset at which a part of a text ends lies between two characters. -/
theorem isValid_byteLength {text before after : List Char} (h : text = before ++ after) :
    (⟨byteLength before⟩ : String.Pos.Raw).IsValid (String.ofList text) := by
  refine String.Pos.Raw.isValid_ofList.mpr ⟨before.length, ?_⟩
  rw [h, List.take_left, utf8ByteSize_ofList]

/-- **No cut divides a character**: the offsets of both brackets, and those right after them, lie
between two characters. -/
theorem isValid_bracketOffsets {text : List Char} {start stop : ℕ}
    (h : bracketOffsets? text = some (start, stop)) :
    ∀ offset ∈ [start, start + 1, stop, stop + 1],
      (⟨offset⟩ : String.Pos.Raw).IsValid (String.ofList text) := by
  rw [bracketOffsets?_eq_map_cut?, Option.map_eq_some_iff] at h
  obtain ⟨cut, hcut, heq⟩ := h
  obtain ⟨rfl, -, -⟩ := cut?_eq_some_iff.mp hcut
  obtain ⟨rfl, rfl⟩ := Prod.mk.inj heq
  have hone : ∀ (l : List Char) (b : Char), b.utf8Size = 1 →
      byteLength l + 1 = byteLength (l ++ [b]) := by
    intro l b hb
    rw [byteLength_append, byteLength_cons, byteLength_nil, hb]
  intro offset hmem
  simp only [List.mem_cons, List.not_mem_nil, or_false] at hmem
  rcases hmem with rfl | rfl | rfl | rfl
  · exact isValid_byteLength cut.text_eq
  · rw [hone _ '<' rfl]
    exact isValid_byteLength (cut.text_eq.trans (List.append_cons ..))
  · exact isValid_byteLength rfl
  · rw [hone _ '>' rfl]
    exact isValid_byteLength (List.append_cons ..)

end Stencil
