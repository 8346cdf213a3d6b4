/-!
# Tables in key order

A table maps texts to values and lists its entries by key, each key once. Texts are compared
character by character, which is also the order of their UTF-8 bytes. Everything that the library
keeps by name is such a table: templates, field sets, records and registries.

* `Stencil.Table`: the type;
* `Stencil.Table.insert`: binds a key, replacing its entry if it has one;
* `Stencil.Table.ofList`: binds keys one after the other, so that the last entry of a key counts.
-/

namespace Stencil

variable {α β : Type}

/-- Entries stand in increasing order of their keys, so no key occurs twice. -/
def InKeyOrder (entries : List (String × α)) : Prop :=
  entries.Pairwise fun a b => a.1 < b.1

/-- Binds `key` in a list of entries in key order. -/
def insertEntry (key : String) (value : α) : List (String × α) → List (String × α)
  | [] => [(key, value)]
  | entry :: rest =>
    if key < entry.1 then (key, value) :: entry :: rest
    else if key = entry.1 then (key, value) :: rest
    else entry :: insertEntry key value rest

/-- What an entry of the new list is: the new one, or one of the old. -/
theorem mem_insertEntry {key : String} {value : α} {entries : List (String × α)}
    {e : String × α} (h : e ∈ insertEntry key value entries) : e = (key, value) ∨ e ∈ entries := by
  induction entries with
  | nil => simpa [insertEntry] using h
  | cons entry rest ih =>
    unfold insertEntry at h
    split at h
    · simpa using h
    · split at h
      · rcases List.mem_cons.1 h with h | h
        · exact .inl h
        · exact .inr (List.mem_cons_of_mem _ h)
      · rcases List.mem_cons.1 h with h | h
        · exact .inr (by simp [h])
        · exact (ih h).imp_right (List.mem_cons_of_mem _)

/-- Binding a key keeps the entries in key order. -/
theorem InKeyOrder.insertEntry {key : String} {value : α} {entries : List (String × α)}
    (h : InKeyOrder entries) : InKeyOrder (insertEntry key value entries) := by
  induction entries with
  | nil => exact List.pairwise_singleton ..
  | cons entry rest ih =>
    obtain ⟨above, ordered⟩ := List.pairwise_cons.1 h
    unfold Stencil.insertEntry
    split
    next below =>
      refine List.pairwise_cons.2 ⟨fun e he => ?_, h⟩
      rcases List.mem_cons.1 he with rfl | he
      · exact below
      · exact String.lt_trans below (above e he)
    next notBelow =>
      split
      next same => exact List.pairwise_cons.2 ⟨fun e he => same ▸ above e he, ordered⟩
      next different =>
        refine List.pairwise_cons.2 ⟨fun e he => ?_, ih ordered⟩
        rcases mem_insertEntry he with rfl | he
        · exact Std.lt_of_le_of_ne (String.not_lt.1 notBelow) (Ne.symm different)
        · exact above e he

/-- A finite map from texts to values, with its entries in key order. -/
structure Table (α : Type) where
  /-- The entries. -/
  entries : List (String × α)
  /-- They are in key order. -/
  ordered : InKeyOrder entries

namespace Table

/-- The table without entries. -/
def empty : Table α := ⟨[], List.Pairwise.nil⟩

instance : Inhabited (Table α) := ⟨empty⟩

/-- The number of entries. -/
def size (t : Table α) : Nat := t.entries.length

/-- The keys, in order. -/
def keys (t : Table α) : List String := t.entries.map (·.1)

/-- The value bound to a key. -/
def get? (t : Table α) (key : String) : Option α := t.entries.lookup key

/-- Whether a key is bound. -/
def contains (t : Table α) (key : String) : Bool := (t.get? key).isSome

/-- Binds a key to a value, in place of the value that it was bound to. -/
def insert (t : Table α) (key : String) (value : α) : Table α :=
  ⟨insertEntry key value t.entries, t.ordered.insertEntry⟩

/-- Binds every key of `other` as `other` does. -/
def merge (t other : Table α) : Table α :=
  other.entries.foldl (fun t e => t.insert e.1 e.2) t

/-- Binds the keys of a list one after the other. -/
def ofList (entries : List (String × α)) : Table α :=
  entries.foldl (fun t e => t.insert e.1 e.2) empty

end Table

end Stencil
