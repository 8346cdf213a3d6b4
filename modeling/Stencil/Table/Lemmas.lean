import Stencil.Table.Basic

/-!
# Looking up in tables

What a table holds is told by its lookups: each operation is described by what it does to them, and
two tables that agree on every key are equal.

* `Stencil.Table.get?_insert`: a binding replaces what was bound before;
* `Stencil.Table.get?_ofList`: of several bindings the last one counts;
* `Stencil.Table.get?_merge`: the bindings of the merged table count first;
* `Stencil.Table.get?_eq_some_iff`: what is looked up for a key is its entry;
* `Stencil.Table.ext_get?`: a table is determined by its lookups;
* `Stencil.Table.ofList_entries`: a table is the table of its entries.
-/

namespace Stencil

variable {α : Type}

/-! ### Lists of entries -/

/-- A key is looked up entry by entry. -/
theorem lookup_cons_eq_ite (key : String) (entry : String × α) (rest : List (String × α)) :
    (entry :: rest).lookup key = if key = entry.1 then some entry.2 else rest.lookup key := by
  obtain ⟨k, v⟩ := entry
  by_cases h : key = k
  · simp [h]
  · simp [List.lookup_cons, beq_eq_false_iff_ne.2 h, h]

/-- Binding a key changes what is looked up for that key and for no other. -/
theorem lookup_insertEntry (key key' : String) (value : α) (entries : List (String × α)) :
    (insertEntry key value entries).lookup key' =
      if key' = key then some value else entries.lookup key' := by
  induction entries with
  | nil => simp [insertEntry, lookup_cons_eq_ite]
  | cons entry rest ih =>
    unfold insertEntry
    split
    · simp [lookup_cons_eq_ite]
    · split
      · simp only [lookup_cons_eq_ite]
        grind
      · simp only [lookup_cons_eq_ite, ih]
        grind

/-- The keys of a list are those that are found in it. -/
theorem isSome_lookup_iff {key : String} {entries : List (String × α)} :
    (entries.lookup key).isSome ↔ key ∈ entries.map (·.1) := by
  induction entries with
  | nil => simp
  | cons entry rest ih =>
    rw [lookup_cons_eq_ite]
    by_cases h : key = entry.1 <;> simp [h, ih]

/-- In key order a key is not found in the entries after those of a smaller one. -/
theorem InKeyOrder.lookup_eq_none {entry : String × α} {rest : List (String × α)}
    (h : InKeyOrder (entry :: rest)) {key : String} (le : key ≤ entry.1) :
    rest.lookup key = none := by
  refine Option.not_isSome_iff_eq_none.1 fun found => ?_
  obtain ⟨e, mem, rfl⟩ := List.mem_map.1 (isSome_lookup_iff.1 found)
  exact String.not_lt.2 le ((List.pairwise_cons.1 h).1 e mem)

/-- Lists in key order that agree on every key are equal. -/
theorem InKeyOrder.eq_of_lookup {l m : List (String × α)} (hl : InKeyOrder l) (hm : InKeyOrder m)
    (h : ∀ key, l.lookup key = m.lookup key) : l = m := by
  induction l generalizing m with
  | nil =>
    cases m with
    | nil => rfl
    | cons e m => simpa [lookup_cons_eq_ite] using h e.1
  | cons d l ih =>
    cases m with
    | nil => simpa [lookup_cons_eq_ite] using h d.1
    | cons e m =>
      have same : d.1 = e.1 := by
        refine Decidable.byContradiction fun ne => ?_
        rcases String.le_total d.1 e.1 with le | le
        · have := h d.1
          simp [lookup_cons_eq_ite, ne, hm.lookup_eq_none le] at this
        · have := h e.1
          simp [lookup_cons_eq_ite, Ne.symm ne, hl.lookup_eq_none le] at this
      have value : d.2 = e.2 := by simpa [lookup_cons_eq_ite, same] using h d.1
      have rest : l = m := by
        refine ih (List.pairwise_cons.1 hl).2 (List.pairwise_cons.1 hm).2 fun key => ?_
        by_cases at_head : key = d.1
        · rw [hl.lookup_eq_none (at_head ▸ String.le_refl _),
            hm.lookup_eq_none (at_head ▸ same ▸ String.le_refl _)]
        · have := h key
          rwa [lookup_cons_eq_ite, if_neg at_head, lookup_cons_eq_ite,
            if_neg (same ▸ at_head)] at this
      rw [rest, Prod.ext same value]

/-- Binding a key that is bound puts the new entry in the place of the old one. -/
theorem insertEntry_append {key : String} {value value' : α} {before after : List (String × α)}
    (h : InKeyOrder (before ++ (key, value) :: after)) :
    insertEntry key value' (before ++ (key, value) :: after) =
      before ++ (key, value') :: after := by
  induction before with
  | nil => rw [List.nil_append, insertEntry, if_neg (String.lt_irrefl key), if_pos rfl]; rfl
  | cons entry before ih =>
    obtain ⟨above, ordered⟩ := List.pairwise_cons.1 h
    have below : entry.1 < key := above _ (List.mem_append_right _ List.mem_cons_self)
    rw [List.cons_append, insertEntry, if_neg (String.lt_asymm below),
      if_neg (String.ne_of_lt below).symm, ih ordered]
    rfl

/-- Binding the entries of a list one after the other. -/
theorem get?_foldl_insert (entries : List (String × α)) (t : Table α) (key : String) :
    (entries.foldl (fun t e => t.insert e.1 e.2) t).get? key =
      (entries.reverse.lookup key).or (t.get? key) := by
  induction entries generalizing t with
  | nil => rfl
  | cons entry rest ih =>
    have h : (t.insert entry.1 entry.2).get? key = _ := lookup_insertEntry ..
    rw [List.foldl_cons, ih, List.reverse_cons, List.lookup_append, lookup_cons_eq_ite, h]
    by_cases same : key = entry.1 <;> simp [same, Table.get?]

/-- In key order it does not matter from which end a key is looked up. -/
theorem InKeyOrder.lookup_reverse {entries : List (String × α)} (h : InKeyOrder entries)
    (key : String) : entries.reverse.lookup key = entries.lookup key := by
  induction entries with
  | nil => rfl
  | cons entry rest ih =>
    rw [List.reverse_cons, List.lookup_append, ih (List.pairwise_cons.1 h).2, lookup_cons_eq_ite,
      lookup_cons_eq_ite]
    by_cases same : key = entry.1
    · simp [same, h.lookup_eq_none (String.le_refl _)]
    · simp [same]

/-! ### Tables -/

namespace Table

/-- Nothing is bound in the empty table. -/
@[simp]
theorem get?_empty (key : String) : (empty : Table α).get? key = none := rfl

/-- A binding replaces what its key was bound to and leaves other keys alone. -/
theorem get?_insert (t : Table α) (key key' : String) (value : α) :
    (t.insert key value).get? key' = if key' = key then some value else t.get? key' :=
  lookup_insertEntry ..

/-- Of several entries for a key the last one counts. -/
theorem get?_ofList (entries : List (String × α)) (key : String) :
    (ofList entries).get? key = entries.reverse.lookup key := by
  simp [ofList, get?_foldl_insert]

/-- What the merged table binds counts first. -/
theorem get?_merge (t other : Table α) (key : String) :
    (t.merge other).get? key = (other.get? key).or (t.get? key) := by
  rw [merge, get?_foldl_insert, other.ordered.lookup_reverse]
  rfl

/-- A key is bound if and only if it is listed. -/
theorem contains_iff_mem_keys {t : Table α} {key : String} : t.contains key ↔ key ∈ t.keys :=
  isSome_lookup_iff

/-- What is looked up is an entry. -/
theorem mem_of_get?_eq_some {t : Table α} {key : String} {value : α}
    (h : t.get? key = some value) : (key, value) ∈ t.entries := by
  obtain ⟨before, after, split, -⟩ := List.lookup_eq_some_iff.mp h
  rw [split]
  exact List.mem_append_right _ List.mem_cons_self

/-- An entry is what is looked up for its key. -/
theorem get?_of_mem {t : Table α} {key : String} {value : α} (h : (key, value) ∈ t.entries) :
    t.get? key = some value := by
  obtain ⟨before, after, split⟩ := List.append_of_mem h
  have ordered := t.ordered
  have absent : before.lookup key = none := by
    refine Option.not_isSome_iff_eq_none.1 fun found => ?_
    obtain ⟨entry, mem, same⟩ := List.mem_map.1 (isSome_lookup_iff.1 found)
    rw [split] at ordered
    have below := (List.pairwise_append.1 ordered).2.2 entry mem _ List.mem_cons_self
    exact String.lt_irrefl _ (same ▸ below)
  rw [get?, split, List.lookup_append, absent, lookup_cons_eq_ite]
  simp

/-- What is looked up for a key is the entry of that key. -/
theorem get?_eq_some_iff {t : Table α} {key : String} {value : α} :
    t.get? key = some value ↔ (key, value) ∈ t.entries :=
  ⟨mem_of_get?_eq_some, get?_of_mem⟩

/-- Tables that agree on every key are equal. -/
theorem ext_get? {t u : Table α} (h : ∀ key, t.get? key = u.get? key) : t = u := by
  obtain ⟨l, hl⟩ := t
  obtain ⟨m, hm⟩ := u
  congr
  exact hl.eq_of_lookup hm h

/-- Tables with the same entries are equal. -/
theorem ext_entries {t u : Table α} (h : t.entries = u.entries) : t = u := by
  obtain ⟨l, hl⟩ := t
  obtain ⟨m, hm⟩ := u
  congr

/-- Entries in key order are the entries of their table. -/
theorem entries_ofList {entries : List (String × α)} (h : InKeyOrder entries) :
    (ofList entries).entries = entries := by
  have same : ofList entries = ⟨entries, h⟩ := ext_get? fun key => by
    rw [get?_ofList, h.lookup_reverse]
    rfl
  rw [same]

/-- A table is the table of its entries. -/
@[simp]
theorem ofList_entries (t : Table α) : ofList t.entries = t :=
  ext_entries (entries_ofList t.ordered)

/-- Binding a key to what it is bound to changes nothing. -/
theorem insert_eq_self {t : Table α} {key : String} {value : α} (h : t.get? key = some value) :
    t.insert key value = t := by
  refine ext_get? fun other => ?_
  rw [get?_insert]
  split
  next same => rw [same, h]
  next => rfl

end Table

end Stencil
