import Mathlib.Tactic.Common
import Stencil.Json.Reader
import Stencil.Proofs.Json.Spelling

/-!
# Values are read as they were written

A value is written by putting the spellings of its parts between brackets, with commas between
them. The reader takes such a text apart again if it takes each part apart, and for that the parts
have only to begin with something else than a blank or a bracket that closes. So by induction on the
value the reader gives back what was written, as long as it allows for the nesting of the value and
all its numbers are integers.

* `Stencil.readElements_separated`: the elements of a container;
* `Stencil.Json.Integral`, `Stencil.Json.Within`: values of integers, and with limited nesting;
* `Stencil.Json.readValue_write`: values;
* `Stencil.Json.readObject_write`: documents.
-/

namespace Stencil

/-! ### Containers -/

section Containers

variable {α : Type}

/-- The spellings of elements with commas between them. -/
def separated (spell : α → List Char) : List α → List Char
  | [] => []
  | first :: more => spell first ++ more.flatMap fun a => ',' :: spell a

/-- Every element after the first has at least the character of its comma. -/
theorem length_le_length_separated (spell : α → List Char) (more : List α) :
    more.length ≤ (more.flatMap fun a => ',' :: spell a).length := by
  induction more with
  | nil => exact Nat.le_refl _
  | cons a more ih =>
    simp only [List.flatMap_cons, List.length_append, List.length_cons]
    omega

/-- A spelling begins a value: its first character is neither a blank nor a bracket that closes. -/
def Begins (spelling : List Char) : Prop :=
  ∃ c more, spelling = c :: more ∧ isBlank (some c) = false ∧ c ≠ ']' ∧ c ≠ '\x7d'

/-- Blanks are not skipped where there are none. -/
theorem skipBlanks_cons {x : Symbol} (h : isBlank x = false) (rest : List Symbol) :
    skipBlanks (x :: rest) = x :: rest := by
  simp [skipBlanks, h]

variable {close : Char} {element : Reader α} {spell : α → List Char} {elements : List α}

/-- A number has ended before the elements that follow it. -/
theorem delimits_separated (closes : close = ']' ∨ close = '\x7d') (more : List α)
    (rest : List Symbol) :
    Delimits ((more.flatMap fun a => ',' :: spell a).map some ++ some close :: rest) := by
  cases more with
  | nil => exact delimits_cons (by rcases closes with rfl | rfl <;> simp) _
  | cons => exact delimits_cons (by simp) _

/-- After an element, commas lead to the next elements and a bracket ends them. -/
theorem readMore_separated (closes : close = ']' ∨ close = '\x7d')
    (reads : ∀ a ∈ elements, ∀ rest, Delimits rest →
      element ((spell a).map some ++ rest) = .ok (a, rest))
    {rounds : ℕ} (enough : elements.length < rounds) (rest : List Symbol) :
    readMore close element rounds
        ((elements.flatMap fun a => ',' :: spell a).map some ++ some close :: rest) =
      .ok (elements, rest) := by
  induction elements generalizing rounds with
  | nil =>
    obtain ⟨rounds, rfl⟩ := Nat.exists_eq_succ_of_ne_zero (Nat.ne_of_gt enough)
    have visible : isBlank (some close) = false := by
      rcases closes with rfl | rfl <;> rfl
    simp only [List.flatMap_nil, List.map_nil, List.nil_append, readMore, skipBlanks_cons visible,
      if_true]
  | cons a more ih =>
    obtain ⟨rounds, rfl⟩ := Nat.exists_eq_succ_of_ne_zero (Nat.ne_of_gt (Nat.zero_lt_of_lt enough))
    obtain ⟨first, others⟩ := List.forall_mem_cons.mp reads
    have tail := ih others (Nat.lt_of_succ_lt_succ enough)
    have delimited := @delimits_separated _ _ spell closes more rest
    have comma : (some ',' : Symbol) ≠ some close := by
      rcases closes with rfl | rfl <;> decide
    have spelled : ((a :: more).flatMap fun a => ',' :: spell a).map some ++ some close :: rest =
        some ',' :: ((spell a).map some ++
          ((more.flatMap fun a => ',' :: spell a).map some ++ some close :: rest)) := by
      simp
    rw [spelled, readMore, skipBlanks_cons rfl]
    simp only [if_neg comma, if_true, bind, Except.bind, first _ delimited, tail]
    rfl

/-- **The elements of a container are read as they were written**, each as the reader of elements
reads it. -/
theorem readElements_separated (closes : close = ']' ∨ close = '\x7d')
    (reads : ∀ a ∈ elements, ∀ rest, Delimits rest →
      element ((spell a).map some ++ rest) = .ok (a, rest))
    (begins : ∀ a ∈ elements, Begins (spell a)) (rest : List Symbol) :
    readElements close element ((separated spell elements).map some ++ some close :: rest) =
      .ok (elements, rest) := by
  cases elements with
  | nil =>
    have visible : isBlank (some close) = false := by
      rcases closes with rfl | rfl <;> rfl
    simp only [separated, List.map_nil, List.nil_append, readElements, skipBlanks_cons visible,
      if_true]
  | cons a more =>
    obtain ⟨first, others⟩ := List.forall_mem_cons.mp reads
    obtain ⟨c, spelling, spelled, visible, noBracket, noBrace⟩ := begins a List.mem_cons_self
    have delimited := @delimits_separated _ _ spell closes more rest
    have opened : (some c : Symbol) ≠ some close := by
      rcases closes with rfl | rfl
      · simpa using noBracket
      · simpa using noBrace
    have enough : more.length <
        ((more.flatMap fun a => ',' :: spell a).map some ++ some close :: rest).length + 1 := by
      have commas := length_le_length_separated spell more
      simp only [List.length_append, List.length_map, List.length_cons]
      omega
    have head := first _ delimited
    have tail := readMore_separated closes others enough rest
    rw [separated, List.map_append, List.append_assoc]
    rw [spelled] at head ⊢
    rw [readElements, List.map_cons, List.cons_append, skipBlanks_cons visible]
    rw [List.map_cons, List.cons_append] at head
    simp only [if_neg opened, bind, Except.bind, head, tail]
    rfl

end Containers

namespace Json

/-- Items are written with commas between them. -/
theorem writeItems_eq (items : List Json) : writeItems items = separated write items := by
  induction items with
  | nil => rfl
  | cons item more ih =>
    cases more with
    | nil => simp [writeItems, separated]
    | cons next more =>
      rw [writeItems, ih]
      · simp [separated]
      · simp

/-- A member as it is written. -/
def writeMember (member : String × Json) : List Char :=
  writeString member.1 ++ ':' :: member.2.write

/-- Members are written with commas between them. -/
theorem writeMembers_eq (members : List (String × Json)) :
    writeMembers members = separated writeMember members := by
  induction members with
  | nil => rfl
  | cons member more ih =>
    cases more with
    | nil => simp [writeMembers, separated, writeMember]
    | cons next more =>
      rw [writeMembers, ih]
      · simp [separated, writeMember]
      · simp

/-! ### Values -/

/-- All numbers within a value are integers that 64 bits hold. -/
inductive Integral : Json → Prop where
  /-- There are no numbers. -/
  | null : Integral null
  /-- There are no numbers. -/
  | bool (value : Bool) : Integral (bool value)
  /-- The value is such a number. -/
  | integer (value : Int) (fits : InWordRange value) : Integral (number (.integer value fits))
  /-- There are no numbers. -/
  | string (value : String) : Integral (string value)
  /-- So it is for each item. -/
  | array {items : List Json} (each : ∀ item ∈ items, Integral item) : Integral (array items)
  /-- So it is for the value of each member. -/
  | object {members : List (String × Json)} (each : ∀ member ∈ members, Integral member.2) :
    Integral (object members)

/-- There are no more than so many containers around one another. -/
inductive Within : ℕ → Json → Prop where
  /-- There are none. -/
  | null {depth : ℕ} : Within depth null
  /-- There are none. -/
  | bool {depth : ℕ} (value : Bool) : Within depth (bool value)
  /-- There are none. -/
  | number {depth : ℕ} (value : Number) : Within depth (number value)
  /-- There are none. -/
  | string {depth : ℕ} (value : String) : Within depth (string value)
  /-- The items have fewer. -/
  | array {depth : ℕ} {items : List Json} (each : ∀ item ∈ items, Within depth item) :
    Within (depth + 1) (array items)
  /-- The values of the members have fewer. -/
  | object {depth : ℕ} {members : List (String × Json)}
    (each : ∀ member ∈ members, Within depth member.2) : Within (depth + 1) (object members)

/-- What begins an integer is a digit or a minus sign. -/
theorem exists_signedDigits (n : Int) :
    ∃ c more, signedDigits n = c :: more ∧ (c = '-' ∨ c.isDigit) := by
  unfold signedDigits
  split
  · exact ⟨'-', _, rfl, .inl rfl⟩
  · obtain ⟨d, more, spelled, digit⟩ := exists_decimalDigits n.natAbs
    exact ⟨d, more, spelled, .inr digit⟩

/-- A digit or a minus sign is not one of these characters. -/
theorem ne_of_startsNumber {c d : Char} (h : c = '-' ∨ c.isDigit)
    (other : d ≠ '-' ∧ d.isDigit = false) : c ≠ d := by
  rintro rfl
  rcases h with minus | digit
  · exact other.1 minus
  · rw [other.2] at digit
    cases digit

theorem isBlank_startsNumber {c : Char} (h : c = '-' ∨ c.isDigit) : isBlank (some c) = false := by
  have ne := fun d other => ne_of_startsNumber (d := d) h other
  simp only [isBlank, ne ' ' (by decide), ne '\t' (by decide), ne '\n' (by decide),
    ne '\r' (by decide), Bool.or_eq_false_iff, beq_eq_false_iff_ne, not_false_eq_true,
    ne_eq, and_self]

/-- A value of integers begins as the reader of containers wants its elements to begin. -/
theorem begins_write {value : Json} (integral : value.Integral) : Begins value.write := by
  cases integral with
  | null => exact ⟨_, _, rfl, by decide⟩
  | bool value => cases value <;> exact ⟨_, _, rfl, by decide⟩
  | integer n fits =>
    obtain ⟨c, more, spelled, starts⟩ := exists_signedDigits n
    exact ⟨c, more, spelled, isBlank_startsNumber starts, ne_of_startsNumber starts (by decide),
      ne_of_startsNumber starts (by decide)⟩
  | string value => exact ⟨_, _, rfl, by decide⟩
  | array each => exact ⟨_, _, rfl, by decide⟩
  | object each => exact ⟨_, _, rfl, by decide⟩

/-- What begins with a digit or a minus sign is read as a number. -/
theorem readValue_number {c : Char} (starts : c = '-' ∨ c.isDigit) {s rest : List Symbol}
    {value : Number} (read : readNumber (some c :: s) = .ok (value, rest)) (depth : ℕ) :
    readValue depth (some c :: s) = .ok (number value, rest) := by
  have ne := fun d other => ne_of_startsNumber (d := d) starts other
  have symbol : (some c : Symbol) = some '-' ∨ isDigitSymbol (some c) = true :=
    starts.imp (congrArg some) id
  unfold readValue
  dsimp only
  rw [skipBlanks_cons (isBlank_startsNumber starts)]
  split
  case h_8 x s' same =>
    obtain ⟨rfl, rfl⟩ := List.cons.inj same
    rw [if_pos symbol, read]
    rfl
  case h_7 same => cases same
  all_goals
    next same => exact absurd (Option.some.inj (List.cons.inj same).1) (ne _ (by decide))

/-- What begins with a quotation mark is read as a text. -/
theorem readValue_string {s rest : List Symbol} {value : String}
    (read : readString s = .ok (value, rest)) (depth : ℕ) :
    readValue depth (some '"' :: s) = .ok (string value, rest) := by
  unfold readValue
  dsimp only
  rw [skipBlanks_cons rfl]
  simp only [read, bind, Except.bind]
  rfl

/-- What begins with a bracket is read as an array, if the reader allows for one more container. -/
theorem readValue_array {depth : ℕ} {s rest : List Symbol} {items : List Json}
    (read : readElements ']' (readValue depth) s = .ok (items, rest)) :
    readValue (depth + 1) (some '[' :: s) = .ok (array items, rest) := by
  unfold readValue
  dsimp only
  rw [skipBlanks_cons rfl]
  simp only [read, bind, Except.bind]
  rfl

/-- What begins with a brace is read as an object, if the reader allows for one more container. -/
theorem readValue_object {depth : ℕ} {s rest : List Symbol} {members : List (String × Json)}
    (read : readElements '\x7d' (readMember (readValue depth)) s = .ok (members, rest)) :
    readValue (depth + 1) (some '\x7b' :: s) = .ok (object members, rest) := by
  unfold readValue
  dsimp only
  rw [skipBlanks_cons rfl]
  simp only [read, bind, Except.bind]
  rfl

/-- A member is read as it was written, if its value is. -/
theorem readMember_writeMember {reader : Reader Json} {member : String × Json} {rest : List Symbol}
    (reads : reader (member.2.write.map some ++ rest) = .ok (member.2, rest)) :
    readMember reader ((writeMember member).map some ++ rest) = .ok (member, rest) := by
  obtain ⟨key, value⟩ := member
  have spelled : (writeMember (key, value)).map some ++ rest =
      some '"' :: ((writeString key).tail.map some ++
        some ':' :: (value.write.map some ++ rest)) := by
    simp [writeMember, writeString]
  rw [spelled, readMember, skipBlanks_cons rfl]
  simp only [readString_writeString, bind, Except.bind, skipBlanks_cons (x := some ':') rfl, reads]
  rfl

/-- **A value of integers is read as it was written**, if the reader allows for its nesting. -/
theorem readValue_write {value : Json} (integral : value.Integral) {depth : ℕ}
    (within : value.Within depth) {rest : List Symbol} (ends : Delimits rest) :
    readValue depth (value.write.map some ++ rest) = .ok (value, rest) := by
  induction integral generalizing depth rest with
  | null =>
    unfold readValue
    rfl
  | bool value =>
    unfold readValue
    cases value <;> rfl
  | integer n fits =>
    obtain ⟨c, more, spelled, starts⟩ := exists_signedDigits n
    have read := readNumber_signedDigits fits ends
    rw [spelled] at read
    rw [write, Number.write, spelled]
    exact readValue_number starts read depth
  | string value =>
    have spelled : (write (string value)).map some ++ rest =
        some '"' :: ((writeString value).tail.map some ++ rest) := by
      simp [write, writeString]
    rw [spelled]
    exact readValue_string (readString_writeString value rest) depth
  | @array items each ih =>
    cases within with
    | @array depth _ nested =>
      have spelled : (write (array items)).map some ++ rest =
          some '[' :: ((separated write items).map some ++ some ']' :: rest) := by
        simp [write, writeItems_eq]
      have read := readElements_separated (.inl rfl)
        (fun item mem _ ends => ih item mem (nested item mem) ends)
        (fun item mem => begins_write (each item mem)) rest
      rw [spelled]
      exact readValue_array read
  | @object members each ih =>
    cases within with
    | @object depth _ nested =>
      have spelled : (write (object members)).map some ++ rest =
          some '\x7b' :: ((separated writeMember members).map some ++ some '\x7d' :: rest) := by
        simp [write, writeMembers_eq]
      have read := readElements_separated (.inr rfl)
        (fun member mem _ ends => readMember_writeMember (ih member mem (nested member mem) ends))
        (fun member _ => ⟨_, _, rfl, by decide⟩) rest
      rw [spelled]
      exact readValue_object read

/-- **An object of integers is read as it was written**, if its members leave room for one more
container around them. -/
theorem readObject_write {members : List (String × Json)}
    (integral : ∀ member ∈ members, member.2.Integral)
    (nested : ∀ member ∈ members, member.2.Within (maxDepth - 1)) :
    readObject ((object members).write.map some) = .ok members := by
  have read : readValue maxDepth ((object members).write.map some) = .ok (object members, []) := by
    rw [← List.append_nil ((object members).write.map some)]
    exact readValue_write (.object integral) (.object nested) delimits_nil
  have opened : skipBlanks ((object members).write.map some) = (object members).write.map some :=
    skipBlanks_cons rfl _
  unfold readObject
  rw [opened]
  split
  next same => cases (List.cons.inj same).1
  next =>
    simp only [read, bind, Except.bind]
    rfl

end Json

end Stencil
