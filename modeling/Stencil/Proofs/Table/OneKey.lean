import Mathlib.Data.Option.Basic
import Stencil.Proofs.Table.Entrywise

/-!
# One key more or less

Two tables that differ in one key are the same wherever else they are looked at. A key is taken out
by leaving out its entry, and that undoes binding a key that was not bound.

* `Stencil.Table.without`: a table without a key;
* `Stencil.Table.without_insert`: a new key is taken out again;
* `Stencil.Table.eq_insert_of_entries`: a table with one entry more;
* `Stencil.Table.entrywise_iff`: two tables are compared by looking up every key.
-/

namespace Stencil

namespace Table

variable {α β : Type}

/-- A key is not bound if nothing is looked up for it. -/
theorem contains_eq_false_iff {t : Table α} {key : String} :
    t.contains key = false ↔ t.get? key = none := by
  rw [contains, Option.isSome_eq_false_iff, Option.isNone_iff_eq_none]

/-- A binding adds its key to those that are bound. -/
theorem contains_insert_iff {t : Table α} {key other : String} {value : α} :
    (t.insert key value).contains other = true ↔ other = key ∨ t.contains other = true := by
  rw [contains, contains, get?_insert]
  split
  next same => simp [same]
  next different => simp [different]

/-- A table without the entry of a key. -/
def without (t : Table α) (key : String) : Table α :=
  ⟨t.entries.filter fun entry => entry.1 ≠ key, t.ordered.sublist List.filter_sublist⟩

/-- Nothing but that key is missing. -/
theorem get?_without (t : Table α) (key other : String) :
    (t.without key).get? other = if other = key then none else t.get? other := by
  have each : ∀ entries : List (String × α),
      (entries.filter fun entry => entry.1 ≠ key).lookup other =
        if other = key then none else entries.lookup other := by
    intro entries
    induction entries with
    | nil => simp
    | cons entry rest ih =>
      rw [List.filter_cons]
      by_cases same : entry.1 = key
      · rw [if_neg (by simpa using same), ih, lookup_cons_eq_ite]
        grind
      · rw [if_pos (by simpa using same), lookup_cons_eq_ite, ih, lookup_cons_eq_ite]
        grind
  exact each t.entries

/-- **A key that was not bound is taken out again.** -/
theorem without_insert {t : Table α} {key : String} (fresh : t.get? key = none) (value : α) :
    (t.insert key value).without key = t := by
  refine ext_get? fun other => ?_
  rw [get?_without, get?_insert]
  split
  next same => rw [same, fresh]
  next => rfl

/-- A table with one entry more, wherever it stands. -/
theorem eq_insert_of_entries {t u : Table α} {before after : List (String × α)} {key : String}
    {value : α} (fewer : t.entries = before ++ after)
    (more : u.entries = before ++ (key, value) :: after) : u = t.insert key value := by
  refine ext_get? fun other => ?_
  rw [get?_insert]
  split
  next same =>
    rw [same]
    exact get?_of_mem (more ▸ List.mem_append_right _ List.mem_cons_self)
  next different =>
    rw [get?, get?, more, fewer, List.lookup_append, List.lookup_append, lookup_cons_eq_ite,
      if_neg different]

/-- Binding a key that was not bound puts its entry somewhere among the others. -/
theorem exists_entries_insert {t : Table α} {key : String} (fresh : t.get? key = none)
    (value : α) : ∃ before after, t.entries = before ++ after ∧
      (t.insert key value).entries = before ++ (key, value) :: after := by
  have mem : (key, value) ∈ (t.insert key value).entries :=
    mem_of_get?_eq_some (by rw [get?_insert, if_pos rfl])
  obtain ⟨before, after, split⟩ := List.append_of_mem mem
  refine ⟨before, after, ?_, split⟩
  have ordered := (t.insert key value).ordered
  rw [split] at ordered
  obtain ⟨front, back, apart⟩ := List.pairwise_append.mp ordered
  obtain ⟨above, back⟩ := List.pairwise_cons.mp back
  -- the other entries have other keys, so taking out the key leaves just them
  have earlier : ∀ entry ∈ before, decide (entry.1 ≠ key) = true := fun entry mem =>
    decide_eq_true (String.ne_of_lt (apart entry mem _ List.mem_cons_self))
  have later : ∀ entry ∈ after, decide (entry.1 ≠ key) = true := fun entry mem =>
    decide_eq_true (String.ne_of_lt (above entry mem)).symm
  have rest : (t.insert key value).entries.filter (fun entry => entry.1 ≠ key) = t.entries :=
    congrArg entries (without_insert fresh value)
  rw [← rest, split, List.filter_append, List.filter_cons_of_neg (by simp),
    List.filter_eq_self.mpr earlier, List.filter_eq_self.mpr later]

section Entrywise

variable {R : String → α → β → Prop} {t : Table α} {u : Table β}

/-- What the two tables hold for a key is related. -/
theorem Entrywise.rel_get? (matching : t.Entrywise R u) (key : String) :
    Option.Rel (R key) (t.get? key) (u.get? key) := by
  cases found : t.get? key with
  | some a =>
    obtain ⟨b, held, related⟩ := matching.exists_right found
    rw [held]
    exact .some related
  | none =>
    cases held : u.get? key with
    | none => exact .none
    | some b =>
      obtain ⟨a, contra, -⟩ := matching.exists_left held
      rw [found] at contra
      cases contra

/-- The two tables bind the same keys. -/
theorem Entrywise.contains_eq (matching : t.Entrywise R u) (key : String) :
    u.contains key = t.contains key := by
  have rel := matching.rel_get? key
  rw [contains, contains]
  generalize t.get? key = found at rel ⊢
  generalize u.get? key = held at rel ⊢
  cases rel <;> rfl

/-- **Two tables are compared by looking up every key.** -/
theorem entrywise_iff :
    t.Entrywise R u ↔ ∀ key, Option.Rel (R key) (t.get? key) (u.get? key) := by
  refine ⟨Entrywise.rel_get?, fun related => ?_⟩
  obtain ⟨v, matching⟩ :
      ∃ v, t.Entrywise (fun key a b => R key a b ∧ u.get? key = some b) v := by
    refine exists_entrywise fun key a found => ?_
    have rel := related key
    rw [found] at rel
    generalize u.get? key = held at rel
    cases rel with
    | some r => exact ⟨_, r, rfl⟩
  have same : v = u := by
    refine ext_get? fun key => ?_
    have rel := related key
    have rel' := matching.rel_get? key
    generalize t.get? key = found at rel rel'
    generalize v.get? key = held at rel'
    generalize u.get? key = held' at rel rel'
    cases rel' with
    | none =>
      cases rel
      rfl
    | some both => exact both.2.symm
  rw [← same]
  exact List.Forall₂.imp (fun _ _ both => ⟨both.1, both.2.1⟩) matching

end Entrywise

end Table

end Stencil
