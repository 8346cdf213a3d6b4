import Mathlib.Tactic.Common
import Stencil.Form.Fill
import Stencil.Proofs.Json.RoundTrip
import Stencil.Table.Lemmas
import Stencil.Template.Basic

/-!
# Decoded values

A value that comes out of a document is not just any value. The members of its objects are in key
order, since the document was brought into its canonical form, and its nesting is limited, since the
reader accepts no more. Both are what it takes for a value to be the same after it was written and
read again.

* `Stencil.Json.Ordered`: values in canonical form;
* `Stencil.readElements_eq_ok_iff`, `Stencil.readMember_eq_ok_iff`: what the readers of containers
  accept;
* `Stencil.Json.within_of_readValue`: the nesting of values that were read;
* `Stencil.Json.Legible`: values of integers that templates can have;
* `Stencil.Template.decode_text`: records of such values are decoded from their texts.
-/

namespace Stencil

/-! ### Key order -/

/-- The entries of a table come from the list that it was made of. -/
theorem Table.mem_of_mem_ofList {α : Type} {entries : List (String × α)} {entry : String × α}
    (mem : entry ∈ (Table.ofList entries).entries) : entry ∈ entries := by
  have found := Table.get?_of_mem mem
  rw [Table.get?_ofList] at found
  obtain ⟨before, after, split, -⟩ := List.lookup_eq_some_iff.mp found
  rw [← List.mem_reverse, split]
  exact List.mem_append_right _ List.mem_cons_self

namespace Json

theorem canonicalItems_eq_map (items : List Json) : canonicalItems items = items.map canonical := by
  induction items with
  | nil => rfl
  | cons item rest ih => rw [canonicalItems, ih, List.map_cons]

theorem canonicalMembers_eq_map (members : List (String × Json)) :
    canonicalMembers members = members.map fun member => (member.1, member.2.canonical) := by
  induction members with
  | nil => rfl
  | cons member rest ih => rw [canonicalMembers, ih, List.map_cons]

/-- The members of every object within a value are in key order. -/
inductive Ordered : Json → Prop where
  /-- There are no objects. -/
  | null : Ordered null
  /-- There are no objects. -/
  | bool (value : Bool) : Ordered (bool value)
  /-- There are no objects. -/
  | number (value : Number) : Ordered (number value)
  /-- There are no objects. -/
  | string (value : String) : Ordered (string value)
  /-- So it is for each item. -/
  | array {items : List Json} (each : ∀ item ∈ items, Ordered item) : Ordered (array items)
  /-- The members are in key order, and so are those of their values. -/
  | object {members : List (String × Json)} (ordered : InKeyOrder members)
    (each : ∀ member ∈ members, Ordered member.2) : Ordered (object members)

/-- Members in key order with canonical values are canonical. -/
theorem canonicalMembers_eq_self {members : List (String × Json)}
    (each : ∀ member ∈ members, member.2.canonical = member.2) :
    canonicalMembers members = members := by
  rw [canonicalMembers_eq_map]
  conv_rhs => rw [← List.map_id members]
  exact List.map_congr_left fun member mem => Prod.ext rfl (each member mem)

/-- **A value in key order is canonical.** -/
theorem Ordered.canonical_eq {value : Json} (ordered : value.Ordered) :
    value.canonical = value := by
  induction ordered with
  | @array items each ih =>
    rw [canonical, canonicalItems_eq_map, List.map_congr_left ih, List.map_id']
  | @object members ordered each ih =>
    rw [canonical, canonicalMembers_eq_self ih, Table.entries_ofList ordered]
  | _ => rfl

mutual

/-- **The canonical form of a value is in key order.** -/
theorem ordered_canonical : (value : Json) → value.canonical.Ordered
  | .null => .null
  | .bool value => .bool value
  | .number value => .number value
  | .string value => .string value
  | .array items => .array (ordered_of_mem_canonicalItems items)
  | .object members => .object (Table.ofList (canonicalMembers members)).ordered fun _ mem =>
      ordered_of_mem_canonicalMembers members _ (Table.mem_of_mem_ofList mem)

theorem ordered_of_mem_canonicalItems :
    (items : List Json) → ∀ item ∈ canonicalItems items, item.Ordered
  | [] => by simp [canonicalItems]
  | item :: rest => by
    rw [canonicalItems]
    exact List.forall_mem_cons.mpr
      ⟨ordered_canonical item, ordered_of_mem_canonicalItems rest⟩

theorem ordered_of_mem_canonicalMembers :
    (members : List (String × Json)) → ∀ member ∈ canonicalMembers members, member.2.Ordered
  | [] => by simp [canonicalMembers]
  | (key, value) :: rest => by
    rw [canonicalMembers]
    exact List.forall_mem_cons.mpr
      ⟨ordered_canonical value, ordered_of_mem_canonicalMembers rest⟩

end

/-! ### Nesting -/

/-- Bringing a value into its canonical form does not nest it deeper. -/
theorem Within.canonical {depth : ℕ} {value : Json} (h : value.Within depth) :
    value.canonical.Within depth := by
  induction h with
  | null => exact .null
  | bool value => exact .bool value
  | number value => exact .number value
  | string value => exact .string value
  | array each ih =>
    rw [Json.canonical, canonicalItems_eq_map]
    exact .array (List.forall_mem_map.mpr ih)
  | object each ih =>
    rw [Json.canonical]
    refine .object fun member mem => ?_
    have listed := Table.mem_of_mem_ofList mem
    rw [canonicalMembers_eq_map] at listed
    obtain ⟨source, member_source, rfl⟩ := List.mem_map.mp listed
    exact ih source member_source

end Json

section Readers

variable {ε α β : Type}

/-- If one step after another succeeds, so do both. -/
theorem exists_of_bind_eq_ok {first : Except ε α} {next : α → Except ε β} {b : β}
    (h : first >>= next = .ok b) : ∃ a, first = .ok a ∧ next a = .ok b := by
  cases first with
  | error fault => cases h
  | ok a => exact ⟨a, rfl, h⟩

variable {P : α → Prop} {close : Char} {element : Reader α} {s rest : List Symbol}
  {elements : List α}

/-- **What stands after an element of a container**: the closing bracket, or a comma, an element
and what stands after that. -/
theorem readMore_succ_eq_ok_iff {rounds : ℕ} :
    readMore close element (rounds + 1) s = .ok (elements, rest) ↔
      (skipBlanks s = some close :: rest ∧ elements = []) ∨
      ∃ after a middle more, ',' ≠ close ∧ skipBlanks s = some ',' :: after ∧
        element after = .ok (a, middle) ∧
        readMore close element rounds middle = .ok (more, rest) ∧ elements = a :: more := by
  constructor
  · intro read
    unfold readMore at read
    split at read
    next => cases read
    next x after skipped =>
      split at read
      next closed =>
        obtain ⟨rfl, rfl⟩ := Prod.mk.inj (Except.ok.inj read)
        exact .inl ⟨closed ▸ skipped, rfl⟩
      next opened =>
        split at read
        next comma =>
          obtain ⟨⟨a, middle⟩, first, read⟩ := exists_of_bind_eq_ok read
          obtain ⟨⟨more, last⟩, later, read⟩ := exists_of_bind_eq_ok read
          obtain ⟨rfl, rfl⟩ := Prod.mk.inj (Except.ok.inj read)
          subst comma
          exact .inr ⟨after, a, middle, more, fun same => opened (congrArg some same), skipped,
            first, later, rfl⟩
        next => cases read
  · rintro (⟨skipped, rfl⟩ | ⟨after, a, middle, more, opened, skipped, first, later, rfl⟩)
    · rw [readMore, skipped]
      exact if_pos rfl
    · have opened : (some ',' : Symbol) ≠ some close := fun same => opened (Option.some.inj same)
      rw [readMore, skipped]
      simp only [if_neg opened, if_true, bind, Except.bind, first, later]
      rfl

/-- **What stands in a container**: nothing, or an element and what stands after that. -/
theorem readElements_eq_ok_iff :
    readElements close element s = .ok (elements, rest) ↔
      (skipBlanks s = some close :: rest ∧ elements = []) ∨
      ∃ x after a middle more, x ≠ some close ∧ skipBlanks s = x :: after ∧
        element s = .ok (a, middle) ∧
        readMore close element (middle.length + 1) middle = .ok (more, rest) ∧
        elements = a :: more := by
  constructor
  · intro read
    unfold readElements at read
    split at read
    next => cases read
    next x after skipped =>
      split at read
      next closed =>
        obtain ⟨rfl, rfl⟩ := Prod.mk.inj (Except.ok.inj read)
        exact .inl ⟨closed ▸ skipped, rfl⟩
      next opened =>
        obtain ⟨⟨a, middle⟩, first, read⟩ := exists_of_bind_eq_ok read
        obtain ⟨⟨more, last⟩, later, read⟩ := exists_of_bind_eq_ok read
        obtain ⟨rfl, rfl⟩ := Prod.mk.inj (Except.ok.inj read)
        exact .inr ⟨x, after, a, middle, more, opened, skipped, first, later, rfl⟩
  · rintro (⟨skipped, rfl⟩ | ⟨x, after, a, middle, more, opened, skipped, first, later, rfl⟩)
    · rw [readElements, skipped]
      exact if_pos rfl
    · rw [readElements, skipped]
      simp only [if_neg opened, bind, Except.bind, first, later]
      rfl

/-- **What a member consists of**: a name, a colon and a value. -/
theorem readMember_eq_ok_iff {member : String × α} :
    readMember element s = .ok (member, rest) ↔
      ∃ after middle more, skipBlanks s = some '"' :: after ∧
        readString after = .ok (member.1, middle) ∧ skipBlanks middle = some ':' :: more ∧
        element more = .ok (member.2, rest) := by
  constructor
  · intro read
    unfold readMember at read
    split at read
    next after opened =>
      obtain ⟨⟨key, middle⟩, name, read⟩ := exists_of_bind_eq_ok read
      dsimp only at read
      split at read
      next more colon =>
        obtain ⟨⟨value, last⟩, inner, read⟩ := exists_of_bind_eq_ok read
        obtain ⟨rfl, rfl⟩ := Prod.mk.inj (Except.ok.inj read)
        exact ⟨after, middle, more, opened, name, colon, inner⟩
      next => cases read
    next => cases read
  · rintro ⟨after, middle, more, opened, name, colon, inner⟩
    rw [readMember, opened]
    simp only [name, bind, Except.bind, colon, inner]
    rfl

/-- What holds of all that the reader of elements reads holds of the elements after the first. -/
theorem forall_of_readMore (each : ∀ {s a rest}, element s = .ok (a, rest) → P a) {rounds : ℕ}
    (read : readMore close element rounds s = .ok (elements, rest)) : ∀ a ∈ elements, P a := by
  induction rounds generalizing s elements rest with
  | zero => cases read
  | succ rounds ih =>
    rcases readMore_succ_eq_ok_iff.mp read with ⟨-, rfl⟩ |
      ⟨_, _, _, _, -, -, first, later, rfl⟩
    · exact List.forall_mem_nil _
    · exact List.forall_mem_cons.mpr ⟨each first, ih later⟩

/-- What holds of all that the reader of elements reads holds of the elements of a container. -/
theorem forall_of_readElements (each : ∀ {s a rest}, element s = .ok (a, rest) → P a)
    (read : readElements close element s = .ok (elements, rest)) : ∀ a ∈ elements, P a := by
  rcases readElements_eq_ok_iff.mp read with ⟨-, rfl⟩ |
    ⟨_, _, _, _, _, -, -, first, later, rfl⟩
  · exact List.forall_mem_nil _
  · exact List.forall_mem_cons.mpr ⟨each first, forall_of_readMore each later⟩

/-- What holds of all that the reader of values reads holds of the value of a member. -/
theorem of_readMember (each : ∀ {s a rest}, element s = .ok (a, rest) → P a)
    {member : String × α} (read : readMember element s = .ok (member, rest)) : P member.2 := by
  obtain ⟨_, _, _, -, -, -, inner⟩ := readMember_eq_ok_iff.mp read
  exact each inner

end Readers

namespace Json

/-- A value that was read is no container, or its elements were read with less nesting. -/
theorem readValue_eq_ok {depth : ℕ} {s rest : List Symbol} {value : Json}
    (read : readValue depth s = .ok (value, rest)) :
    (∀ depth, value.Within depth) ∨
    (∃ less items s', depth = less + 1 ∧ value = array items ∧
      readElements ']' (readValue less) s' = .ok (items, rest)) ∨
    ∃ less members s', depth = less + 1 ∧ value = object members ∧
      readElements '\x7d' (readMember (readValue less)) s' = .ok (members, rest) := by
  unfold readValue at read
  dsimp only at read
  split at read
  case h_1 =>
    obtain ⟨_, -, read⟩ := exists_of_bind_eq_ok read
    obtain ⟨rfl, -⟩ := Prod.mk.inj (Except.ok.inj read)
    exact .inl fun _ => .null
  case h_2 | h_3 =>
    obtain ⟨_, -, read⟩ := exists_of_bind_eq_ok read
    obtain ⟨rfl, -⟩ := Prod.mk.inj (Except.ok.inj read)
    exact .inl fun _ => .bool _
  case h_4 =>
    obtain ⟨_, -, read⟩ := exists_of_bind_eq_ok read
    obtain ⟨rfl, -⟩ := Prod.mk.inj (Except.ok.inj read)
    exact .inl fun _ => .string _
  case h_5 =>
    split at read
    next => cases read
    next less =>
      obtain ⟨⟨items, last⟩, elements, read⟩ := exists_of_bind_eq_ok read
      obtain ⟨rfl, rfl⟩ := Prod.mk.inj (Except.ok.inj read)
      exact .inr (.inl ⟨less, items, _, rfl, rfl, elements⟩)
  case h_6 =>
    split at read
    next => cases read
    next less =>
      obtain ⟨⟨members, last⟩, elements, read⟩ := exists_of_bind_eq_ok read
      obtain ⟨rfl, rfl⟩ := Prod.mk.inj (Except.ok.inj read)
      exact .inr (.inr ⟨less, members, _, rfl, rfl, elements⟩)
  case h_7 => cases read
  case h_8 =>
    split at read
    next =>
      obtain ⟨_, -, read⟩ := exists_of_bind_eq_ok read
      obtain ⟨rfl, -⟩ := Prod.mk.inj (Except.ok.inj read)
      exact .inl fun _ => .number _
    next => cases read

/-- **A value that was read is not nested deeper than the reader allows.** -/
theorem within_of_readValue {depth : ℕ} {s rest : List Symbol} {value : Json}
    (read : readValue depth s = .ok (value, rest)) : value.Within depth := by
  induction depth generalizing s rest value with
  | zero =>
    rcases readValue_eq_ok read with scalar | ⟨_, _, _, none, -⟩ | ⟨_, _, _, none, -⟩
    · exact scalar 0
    · cases none
    · cases none
  | succ depth ih =>
    rcases readValue_eq_ok read with scalar | ⟨less, items, s', same, rfl, elements⟩ |
      ⟨less, members, s', same, rfl, elements⟩
    · exact scalar _
    · obtain rfl := Nat.succ.inj same
      exact .array (forall_of_readElements ih elements)
    · obtain rfl := Nat.succ.inj same
      exact .object (forall_of_readElements (of_readMember ih) elements)

/-- The members of a document leave room for the object around them. -/
theorem within_of_readObject {s : List Symbol} {members : List (String × Json)}
    (read : readObject s = .ok members) : ∀ member ∈ members, member.2.Within (maxDepth - 1) := by
  unfold readObject at read
  split at read
  next => cases read
  next =>
    obtain ⟨⟨value, rest⟩, document, read⟩ := exists_of_bind_eq_ok read
    have within := within_of_readValue document
    split at read
    next same =>
      obtain ⟨rfl, rfl⟩ := Prod.mk.inj same
      split at read
      next =>
        obtain rfl := Except.ok.inj read
        cases within with
        | object each => exact each
      next => cases read
    next => cases read

/-! ### Templates -/

/-- A value is legible if all its numbers are integers, it is in canonical form, and a template can
have it for the value of an entry. -/
structure Legible (value : Json) : Prop where
  /-- All its numbers are integers. -/
  integral : value.Integral
  /-- Its objects list their members in key order. -/
  ordered : value.Ordered
  /-- With the template around it, it is not nested too deep. -/
  within : value.Within (maxDepth - 1)

theorem legible_null : Legible null := ⟨.null, .null, .null⟩

theorem legible_string (value : String) : Legible (string value) :=
  ⟨.string _, .string _, .string _⟩

theorem legible_ofSeconds (seconds : Int64) : Legible (ofSeconds seconds) :=
  ⟨.integer _ _, .number _, .number _⟩

end Json

/-- The values of a template are legible if they are integral. -/
theorem Template.legible_of_decode {bytes : ByteArray} {template : Template}
    (decoded : Template.decode bytes = .ok template) {key : String} {value : Json}
    (entry : (key, value) ∈ template.entries) (integral : value.Integral) : value.Legible := by
  unfold Template.decode at decoded
  cases read : Json.readObject (symbols bytes) with
  | error fault =>
    rw [read] at decoded
    cases decoded
  | ok members =>
    rw [read] at decoded
    obtain rfl := Except.ok.inj decoded
    have listed := Table.mem_of_mem_ofList entry
    rw [Json.canonicalMembers_eq_map] at listed
    obtain ⟨source, mem, same⟩ := List.mem_map.mp listed
    obtain ⟨rfl, rfl⟩ := Prod.mk.inj same
    exact ⟨integral, Json.ordered_canonical _,
      (Json.within_of_readObject read source mem).canonical⟩

/-- **A record of legible values is decoded from its text.** -/
theorem Template.decode_text {record : Record}
    (legible : ∀ member ∈ record.entries, member.2.Legible) :
    Template.decode record.text.toUTF8 = .ok record := by
  have read := Json.readObject_write (fun member mem => (legible member mem).integral)
    fun member mem => (legible member mem).within
  have canonical : Json.canonicalMembers record.entries = record.entries :=
    Json.canonicalMembers_eq_self fun member mem => (legible member mem).ordered.canonical_eq
  rw [Template.decode, symbols_toUTF8, Record.text, Json.text, String.toList_ofList, read]
  show Except.ok (Table.ofList (Json.canonicalMembers record.entries)) = _
  rw [canonical, Table.ofList_entries]

end Stencil
