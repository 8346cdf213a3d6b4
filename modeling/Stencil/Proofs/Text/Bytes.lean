import Mathlib.Order.Basic
import Mathlib.Tactic.Common
import Stencil.Table.Basic
import Stencil.Text.Bytes

/-!
# Texts as bytes

Two things about texts can be seen on their bytes alone. The first is the order: the encodings of
two characters differ first at a byte that tells which character is the greater, so comparing texts
character by character is comparing their bytes. The second is the end of a line: a line feed is one
byte, and no other character has that byte in its encoding.

* `Stencil.bytesOf_lt_iff`: texts are in the order of their bytes;
* `Stencil.Table.pairwise_keys`: so are the keys of a table;
* `Stencil.lineFeed_mem_bytesOf`: the byte of a line feed comes from a line feed.
-/

namespace Stencil

/-- The bytes of the characters of a text are those of the text. -/
theorem bytesOf_toList (text : String) : bytesOf text.toList = text.toUTF8.data.toList := by
  have encoded : text.toUTF8 = text.toList.utf8Encode := (String.utf8Encode_toList ..).symm
  rw [encoded, List.utf8Encode, List.toList_data_toByteArray]
  rfl

/-! ### Order -/

/-- The bytes of a smaller character come first, whatever bytes follow on either side: the two
encodings differ, and neither is the front of the other. -/
theorem utf8EncodeChar_append_lt {c d : Char} (h : c < d) (l m : List UInt8) :
    String.utf8EncodeChar c ++ l < String.utf8EncodeChar d ++ m := by
  have value : c.val.toNat < d.val.toNat := h
  have bound : d.val.toNat < 0x110000 := by
    rcases d.valid with low | high <;> omega
  -- the groups of six bits are taken off one after the other
  have second : ∀ n, n / 4096 = n / 64 / 64 := fun n => (Nat.div_div_eq_div_mul n 64 64).symm
  have third : ∀ n, n / 262144 = n / 64 / 64 / 64 := fun n => by
    rw [Nat.div_div_eq_div_mul, Nat.div_div_eq_div_mul]
  fun_cases String.utf8EncodeChar c <;> fun_cases String.utf8EncodeChar d
  all_goals
    simp only [List.cons_append, List.nil_append, List.cons_lt_cons_iff, UInt8.lt_iff_toNat_lt,
      ← UInt8.toNat_inj, UInt8.toNat_ofNat', second, third]
    omega

theorem bytesOf_lt {l m : List Char} (h : l < m) : bytesOf l < bytesOf m := by
  induction m generalizing l with
  | nil => exact absurd h (List.not_lt_nil _)
  | cons d m ih =>
    cases l with
    | nil =>
      obtain ⟨byte, more, some_byte⟩ :=
        List.exists_cons_of_ne_nil (String.utf8EncodeChar_ne_nil (c := d))
      rw [bytesOf, bytesOf, List.flatMap_cons, some_byte]
      exact List.nil_lt_cons _ _
    | cons c l =>
      rw [bytesOf, bytesOf, List.flatMap_cons, List.flatMap_cons]
      rcases List.cons_lt_cons_iff.mp h with first | ⟨rfl, rest⟩
      · exact utf8EncodeChar_append_lt first _ _
      · exact List.append_left_lt (ih rest)

/-- **Texts are in the order of their bytes.** -/
theorem bytesOf_lt_iff {l m : List Char} : bytesOf l < bytesOf m ↔ l < m := by
  refine ⟨fun h => ?_, bytesOf_lt⟩
  by_contra notBelow
  rcases List.le_iff_lt_or_eq.mp (List.not_lt.mp notBelow) with above | rfl
  · exact List.lt_asymm h (bytesOf_lt above)
  · exact List.lt_irrefl _ h

/-- **The keys of a table increase in the order of their bytes.** -/
theorem Table.pairwise_keys {α : Type} (t : Table α) :
    t.keys.Pairwise fun a b => a.toUTF8.data.toList < b.toUTF8.data.toList := by
  refine (List.pairwise_map.mpr t.ordered).imp fun {a b} below => ?_
  rw [← bytesOf_toList, ← bytesOf_toList, bytesOf_lt_iff]
  exact String.lt_iff.mp below

/-! ### Line feeds -/

/-- **Only a line feed has the byte of a line feed.** -/
theorem lineFeed_mem_bytesOf {l : List Char} : (10 : UInt8) ∈ bytesOf l ↔ '\n' ∈ l := by
  have value : ∀ c : Char, c.val.toNat = 10 ↔ c = '\n' := fun c => by
    rw [← Char.toNat_inj]
    rfl
  have ten : (10 : UInt8).toNat = 10 := rfl
  have each : ∀ c : Char, (10 : UInt8) ∈ String.utf8EncodeChar c ↔ c = '\n' := by
    intro c
    have bound : c.val.toNat < 0x110000 := by
      rcases c.valid with low | high <;> omega
    rw [← value]
    fun_cases String.utf8EncodeChar c
    all_goals
      simp only [List.mem_cons, List.not_mem_nil, or_false, ← UInt8.toNat_inj, UInt8.toNat_ofNat',
        ten]
      omega
  simp [bytesOf, List.mem_flatMap, each]

end Stencil
