import Mathlib.Algebra.GroupWithZero.Nat
import Mathlib.Data.Finset.Prod
import Mathlib.Data.Fintype.Prod
import Mathlib.Tactic.Common
import Stencil.Field.Fill
import Stencil.Proofs.Json.Spelling

/-!
# What an identifier shows of its draw

An identifier is written from sixteen bytes, of which six bits are not drawn but set. The written
form loses nothing: without its hyphens it is read back as the bytes it was written from, and where
the hyphens stand is settled by the sizes of the groups alone. So two identifiers are the same if
and only if their draws agree on the bits that are left as they were drawn. There are 122 of them.

The groups are cut out of the bytes by their positions. That they put together all of the bytes, in
order and none twice, is the one fact here that holds of sixteen bytes only.

* `Stencil.hexBytes?`, `Stencil.hexBytes?_hexText`: bytes in base sixteen are read back;
* `Stencil.hexBytes?_uuidText`, `Stencil.uuidText_eq_hyphen_iff`: the written form, with and without
  its hyphens;
* `Stencil.bitOf_stampUuid`: the bits that are set, and the others;
* `Stencil.drawUuid_text`: what an identifier shows of its draw.
-/

namespace Stencil

/-! ### Bytes in base sixteen -/

/-- The bytes that digits of base sixteen denote, two digits each. -/
def hexBytes? : List Char → Option (List UInt8)
  | [] => some []
  | [_] => none
  | high :: low :: rest => do
    let first := UInt8.ofNat (16 * (← hexDigitValue? high) + (← hexDigitValue? low))
    return first :: (← hexBytes? rest)

/-- **Bytes in base sixteen are read back.** -/
theorem hexBytes?_hexText (bytes : List UInt8) : hexBytes? (hexText bytes) = some bytes := by
  induction bytes with
  | nil => rfl
  | cons b rest ih =>
    have halves : 16 * (b.toNat / 16 % 16) + b.toNat % 16 = b.toNat := by
      have := b.toNat_lt
      omega
    have others : hexBytes? (rest.flatMap hexByte) = some rest := ih
    simp only [hexText, hexByte, List.flatMap_cons, List.cons_append, List.nil_append, hexBytes?,
      hexDigitValue?_hexDigit, Option.bind_eq_bind, Option.bind_some, halves, others,
      UInt8.ofNat_toNat, Option.pure_def]

/-- The digits of base sixteen, in lower case. -/
def lowerHexDigits : List Char := "0123456789abcdef".toList

theorem hexDigit_mem_lowerHexDigits (n : ℕ) : hexDigit n ∈ lowerHexDigits := by
  have each : ∀ k < 16, Nat.digitChar k ∈ lowerHexDigits := by decide
  exact each (n % 16) (Nat.mod_lt _ (by decide))

theorem mem_lowerHexDigits_of_mem_hexText {bytes : List UInt8} {c : Char}
    (mem : c ∈ hexText bytes) : c ∈ lowerHexDigits := by
  obtain ⟨b, -, digit⟩ := List.mem_flatMap.mp mem
  rcases List.mem_pair.mp digit with rfl | rfl <;> exact hexDigit_mem_lowerHexDigits _

theorem hyphen_notMem_hexText (bytes : List UInt8) : '-' ∉ hexText bytes := by
  have other : '-' ∉ lowerHexDigits := by decide
  exact fun mem => other (mem_lowerHexDigits_of_mem_hexText mem)

theorem length_hexText (bytes : List UInt8) : (hexText bytes).length = 2 * bytes.length := by
  simp only [hexText, List.length_flatMap, hexByte, List.length_cons, List.length_nil,
    List.map_const', List.sum_replicate_nat]
  omega

/-! ### Groups -/

/-- Groups of bytes in base sixteen, with hyphens between them. -/
def groupsText (groups : List (List UInt8)) : List Char :=
  ['-'].intercalate (groups.map hexText)

theorem groupsText_singleton (group : List UInt8) : groupsText [group] = hexText group := by
  simp [groupsText]

theorem groupsText_cons_cons (first second : List UInt8) (more : List (List UInt8)) :
    groupsText (first :: second :: more) = hexText first ++ '-' :: groupsText (second :: more) := by
  simp [groupsText, List.intercalate_cons_cons]

/-- What groups are written with. -/
theorem mem_groupsText {groups : List (List UInt8)} {c : Char} (mem : c ∈ groupsText groups) :
    c = '-' ∨ c ∈ lowerHexDigits := by
  induction groups with
  | nil => cases mem
  | cons first more ih =>
    cases more with
    | nil =>
      rw [groupsText_singleton] at mem
      exact .inr (mem_lowerHexDigits_of_mem_hexText mem)
    | cons second more =>
      rw [groupsText_cons_cons, List.mem_append, List.mem_cons] at mem
      rcases mem with mem | rfl | mem
      · exact .inr (mem_lowerHexDigits_of_mem_hexText mem)
      · exact .inl rfl
      · exact ih mem

/-- **Without the hyphens, groups are the bytes put together.** -/
theorem filter_groupsText (groups : List (List UInt8)) :
    (groupsText groups).filter (· ≠ '-') = hexText groups.flatten := by
  have digits : ∀ bytes, (hexText bytes).filter (· ≠ '-') = hexText bytes := by
    intro bytes
    refine List.filter_eq_self.mpr fun c mem => decide_eq_true ?_
    rintro rfl
    exact hyphen_notMem_hexText bytes mem
  induction groups with
  | nil => rfl
  | cons first more ih =>
    cases more with
    | nil => rw [groupsText_singleton, digits, List.flatten_singleton]
    | cons second more =>
      rw [groupsText_cons_cons, List.filter_append, digits, List.filter_cons_of_neg (by simp), ih,
        List.flatten_cons (l := first), hexText, hexText, hexText, List.flatMap_append]

/-- **Where the hyphens stand is settled by the sizes of the groups.** -/
theorem map_groupsText (groups : List (List UInt8)) :
    (groupsText groups).map (· == '-') =
      [true].intercalate (groups.map fun group => List.replicate (2 * group.length) false) := by
  have digits : ∀ bytes, (hexText bytes).map (· == '-') =
      List.replicate (2 * bytes.length) false := by
    intro bytes
    rw [List.eq_replicate_iff, List.length_map, length_hexText]
    refine ⟨rfl, List.forall_mem_map.mpr fun c mem => beq_eq_false_iff_ne.mpr ?_⟩
    rintro rfl
    exact hyphen_notMem_hexText bytes mem
  induction groups with
  | nil => rfl
  | cons first more ih =>
    cases more with
    | nil => rw [groupsText_singleton, digits, List.map_singleton, List.intercalate_singleton]
    | cons second more =>
      rw [groupsText_cons_cons, List.map_append, digits, List.map_cons, ih]
      simp [List.intercalate_cons_cons]

/-! ### The written form -/

/-- The groups of sixteen bytes. -/
def groupsOf (bytes : List UInt8) : List (List UInt8) :=
  uuidGroups.map fun (start, count) => (bytes.drop start).take count

theorem toList_uuidText (bytes : Vector UInt8 16) :
    (uuidText bytes).toList = groupsText (groupsOf bytes.toList) := by
  rw [uuidText, String.toList_ofList, groupsText, groupsOf, List.map_map]
  rfl

/-- The groups put together all of the bytes. -/
theorem flatten_groupsOf {bytes : List UInt8} (size : bytes.length = 16) :
    (groupsOf bytes).flatten = bytes := by
  match bytes, size with
  | [_, _, _, _, _, _, _, _, _, _, _, _, _, _, _, _], _ => rfl

theorem map_length_groupsOf {bytes : List UInt8} (size : bytes.length = 16) :
    (groupsOf bytes).map List.length = [4, 2, 2, 2, 6] := by
  match bytes, size with
  | [_, _, _, _, _, _, _, _, _, _, _, _, _, _, _, _], _ => rfl

/-- Where the hyphens stand in an identifier. -/
def hyphenPlaces : List Bool :=
  [true].intercalate ([4, 2, 2, 2, 6].map fun size => List.replicate (2 * size) false)

theorem map_uuidText (bytes : Vector UInt8 16) :
    (uuidText bytes).toList.map (· == '-') = hyphenPlaces := by
  rw [toList_uuidText, map_groupsText, hyphenPlaces, ← map_length_groupsOf bytes.length_toList,
    List.map_map]
  rfl

theorem length_uuidText (bytes : Vector UInt8 16) : (uuidText bytes).length = 36 := by
  rw [← String.length_toList, ← List.length_map (· == '-'), map_uuidText]
  rfl

/-- **The hyphens stand at four places**, and nowhere else. -/
theorem uuidText_eq_hyphen_iff (bytes : Vector UInt8 16) (i : ℕ) :
    (uuidText bytes).toList[i]? = some '-' ↔ i = 8 ∨ i = 13 ∨ i = 18 ∨ i = 23 := by
  have place : (uuidText bytes).toList[i]? = some '-' ↔ hyphenPlaces[i]? = some true := by
    rw [← map_uuidText bytes, List.getElem?_map, Option.map_eq_some_iff]
    simp
  rw [place]
  rcases Nat.lt_or_ge i 36 with inside | beyond
  · have each : ∀ i < 36, hyphenPlaces[i]? = some true ↔ i = 8 ∨ i = 13 ∨ i = 18 ∨ i = 23 := by
      decide
    exact each i inside
  · have nothing : hyphenPlaces[i]? = none := List.getElem?_eq_none beyond
    rw [nothing]
    exact iff_of_false (fun h => by cases h) (by omega)

/-- **The written form loses nothing**: without its hyphens it is read back as the bytes. -/
theorem hexBytes?_uuidText (bytes : Vector UInt8 16) :
    hexBytes? ((uuidText bytes).toList.filter (· ≠ '-')) = some bytes.toList := by
  rw [toList_uuidText, filter_groupsText, flatten_groupsOf bytes.length_toList, hexBytes?_hexText]

theorem uuidText_injective : Function.Injective uuidText := by
  intro bytes other same
  have read := hexBytes?_uuidText bytes
  rw [same, hexBytes?_uuidText] at read
  exact (Vector.toList_inj.mp (Option.some.inj read)).symm

/-! ### Bits -/

/-- A bit of sixteen bytes, counted from the lowest bit of its byte. -/
def bitOf (bytes : Vector UInt8 16) (place : Fin 16 × Fin 8) : Bool :=
  bytes[place.1].toNat.testBit place.2

/-- Places of bytes are counted modulo sixteen. -/
theorem neZero_sixteen : NeZero 16 := ⟨by decide⟩

attribute [local instance] neZero_sixteen

/-- The bits that are left as they were drawn: all but the high four bits of byte 6 and the high two
of byte 8. -/
def drawnBits : Finset (Fin 16 × Fin 8) :=
  Finset.univ.filter fun place => ¬(place.1 = 6 ∧ 4 ≤ place.2) ∧ ¬(place.1 = 8 ∧ 6 ≤ place.2)

theorem card_drawnBits : drawnBits.card = 122 := by decide +kernel

/-- Bytes are the same if their bits are. -/
theorem eq_of_bitOf {bytes other : Vector UInt8 16} (h : ∀ place, bitOf bytes place =
    bitOf other place) : bytes = other := by
  refine Vector.ext fun i inside => UInt8.toNat_inj.mp (Nat.eq_of_testBit_eq fun j => ?_)
  rcases Nat.lt_or_ge j 8 with low | high
  · exact h (⟨i, inside⟩, ⟨j, low⟩)
  · have small : ∀ b : UInt8, b.toNat < 2 ^ j := fun b =>
      Nat.lt_of_lt_of_le b.toNat_lt (Nat.pow_le_pow_right (by decide) high)
    rw [Nat.testBit_lt_two_pow (small _), Nat.testBit_lt_two_pow (small _)]

/-- Setting bits of a byte by two masks: the bits of the first are kept, those of the second set. -/
theorem testBit_masked (b keep set : UInt8) (j : ℕ) :
    (b &&& keep ||| set).toNat.testBit j =
      (b.toNat.testBit j && keep.toNat.testBit j || set.toNat.testBit j) := by
  rw [UInt8.toNat_or, UInt8.toNat_and, Nat.testBit_or, Nat.testBit_and]

/-- **The bits of a stamped identifier**: of the high four bits of byte 6 only the second is set, of
the high two bits of byte 8 only the first, and all others are as they were. -/
theorem bitOf_stampUuid (bytes : Vector UInt8 16) (i : Fin 16) (j : Fin 8) :
    bitOf (stampUuid bytes) (i, j) =
      if i = 6 ∧ 4 ≤ j then decide (j = 6)
      else if i = 8 ∧ 6 ≤ j then decide (j = 7)
      else bitOf bytes (i, j) := by
  have version : ∀ j : Fin 8, (0x0f : UInt8).toNat.testBit j = decide (¬4 ≤ j) ∧
      (0x40 : UInt8).toNat.testBit j = decide (j = 6) := by decide
  have variant : ∀ j : Fin 8, (0x3f : UInt8).toNat.testBit j = decide (¬6 ≤ j) ∧
      (0x80 : UInt8).toNat.testBit j = decide (j = 7) := by decide
  have below : ∀ j : Fin 8, (¬4 ≤ j → j ≠ 6) ∧ (¬6 ≤ j → j ≠ 7) := by decide
  rcases eq_or_ne i 6 with rfl | six
  · have byte : (stampUuid bytes)[(6 : Fin 16)] = bytes[6] &&& 0x0f ||| 0x40 := by
      simp [stampUuid]
    rw [bitOf, byte, testBit_masked, (version j).1, (version j).2]
    by_cases high : 4 ≤ j
    · simp [high]
    · simp [high, (below j).1 high, bitOf]
  · rcases eq_or_ne i 8 with rfl | eight
    · have byte : (stampUuid bytes)[(8 : Fin 16)] = bytes[8] &&& 0x3f ||| 0x80 := by
        simp [stampUuid]
      rw [bitOf, byte, testBit_masked, (variant j).1, (variant j).2]
      by_cases high : 6 ≤ j
      · simp [high]
      · simp [high, (below j).2 high, bitOf]
    · have byte : (stampUuid bytes)[i] = bytes[i] := by
        have notSix : 6 ≠ i.val := fun same => six (Fin.ext same.symm)
        have notEight : 8 ≠ i.val := fun same => eight (Fin.ext same.symm)
        simp [stampUuid, Fin.getElem_fin, notSix, notEight]
      rw [bitOf, byte, if_neg (fun h => six h.1), if_neg (fun h => eight h.1), bitOf]

theorem bitOf_stampUuid_of_mem {place : Fin 16 × Fin 8} (drawn : place ∈ drawnBits)
    (bytes : Vector UInt8 16) : bitOf (stampUuid bytes) place = bitOf bytes place := by
  obtain ⟨-, notVersion, notVariant⟩ := Finset.mem_filter.mp drawn
  rw [bitOf_stampUuid, if_neg notVersion, if_neg notVariant]

/-- **Stamped identifiers are the same if they were drawn the same.** -/
theorem stampUuid_eq_iff {bytes other : Vector UInt8 16} :
    stampUuid bytes = stampUuid other ↔ ∀ place ∈ drawnBits, bitOf bytes place =
      bitOf other place := by
  constructor
  · intro same place drawn
    rw [← bitOf_stampUuid_of_mem drawn, same, bitOf_stampUuid_of_mem drawn]
  · intro agree
    refine eq_of_bitOf fun ⟨i, j⟩ => ?_
    rw [bitOf_stampUuid, bitOf_stampUuid]
    split
    · rfl
    · split
      · rfl
      next notVersion notVariant =>
        exact agree _ (Finset.mem_filter.mpr ⟨Finset.mem_univ _, notVersion, notVariant⟩)

/-! ### Draws -/

section Draws

variable {γ : Type} [WordSource γ]

/-- **What an identifier shows of its draw.** Whatever bytes a source gives, an identifier is a text
of 36 characters, with hyphens at the places 8, 13, 18 and 23 and lower-case digits of base sixteen
everywhere else. Without the hyphens it is read back as sixteen bytes. Their high four bits of byte
6 are 0100 and the high two of byte 8 are 10, and the other 122 bits are those of the draw. So two
draws, from whatever sources, give the same identifier if and only if they agree on these 122 bits.
A field for random identifiers shows this text, and nothing is consumed but the sixteen bytes. -/
theorem drawUuid_text (words : γ) :
    let draw := (WordSource.bytes 16).run words
    let text := (drawUuid.run words).1
    text.length = 36 ∧
    (∀ i, text.toList[i]? = some '-' ↔ i = 8 ∨ i = 13 ∨ i = 18 ∨ i = 23) ∧
    (∀ c ∈ text.toList, c = '-' ∨ c ∈ lowerHexDigits) ∧
    (∃ bytes : Vector UInt8 16,
      hexBytes? (text.toList.filter (· ≠ '-')) = some bytes.toList ∧
      [bitOf bytes (6, 7), bitOf bytes (6, 6), bitOf bytes (6, 5), bitOf bytes (6, 4)] =
        [false, true, false, false] ∧
      [bitOf bytes (8, 7), bitOf bytes (8, 6)] = [true, false] ∧
      ∀ place ∈ drawnBits, bitOf bytes place = bitOf draw.1 place) ∧
    drawnBits.card = 122 ∧
    (∀ {δ : Type} [WordSource δ] (others : δ), (drawUuid.run others).1 = text ↔
      ∀ place ∈ drawnBits, bitOf ((WordSource.bytes 16).run others).1 place =
        bitOf draw.1 place) ∧
    ∀ {σ : Type} [ValueSource σ] (clock : Clock),
      (Content.uuid .random : Content σ).fill ⟨words, clock⟩ =
        ((some (.string text), .uuid .random), ⟨draw.2, clock⟩) := by
  intro draw text
  have written : text = uuidText (stampUuid draw.1) := rfl
  refine ⟨?_, ?_, ?_, ⟨stampUuid draw.1, ?_, ?_, ?_, ?_⟩, card_drawnBits, ?_, ?_⟩
  · rw [written, length_uuidText]
  · rw [written]
    exact uuidText_eq_hyphen_iff _
  · rw [written, toList_uuidText]
    exact fun c mem => mem_groupsText mem
  · rw [written, hexBytes?_uuidText]
  · simp only [bitOf_stampUuid]
    rfl
  · simp only [bitOf_stampUuid]
    rfl
  · exact fun place drawn => bitOf_stampUuid_of_mem drawn _
  · intro δ _ others
    rw [← stampUuid_eq_iff, ← uuidText_injective.eq_iff]
    rfl
  · intro σ _ clock
    rfl

end Draws

/-- Of a draw without any bits set, the identifier shows those that are set. -/
example : (drawUuid.run (⟨[0], 0⟩ : WordCycle)).1 = "00000000-0000-4000-8000-000000000000" := by
  cbv

end Stencil
