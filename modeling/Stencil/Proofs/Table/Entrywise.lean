import Mathlib.Data.List.Forall2
import Mathlib.Tactic.Common
import Stencil.Table.Lemmas

/-!
# Tables compared entry by entry

Much of what is said of tables compares two of them that have the same keys: a template and the form
that is made from it, a form before and after a record. The comparison is a relation between the
values of each key, and it can be read off the lists of entries or off the lookups.

* `Stencil.Table.Entrywise`: two tables with the same keys and related values;
* `Stencil.Table.exists_entrywise`: when there is such a table beside a given one;
* `Stencil.Table.Entrywise.keys_eq`: their keys;
* `Stencil.Table.Entrywise.exists_right`, `Stencil.Table.Entrywise.exists_left`: their lookups.
-/

namespace Stencil

variable {α β δ : Type}

/-- Lists that are related by way of a third one. -/
theorem forall₂_comp {R : α → β → Prop} {S : β → δ → Prop} {l : List α} {m : List β} {n : List δ}
    (h : List.Forall₂ R l m) (k : List.Forall₂ S m n) :
    List.Forall₂ (fun a c => ∃ b, R a b ∧ S b c) l n := by
  induction h generalizing n with
  | nil =>
    cases k
    exact .nil
  | cons first _ ih =>
    obtain ⟨c, n, second, rest, rfl⟩ := List.forall₂_cons_left_iff.mp k
    exact .cons ⟨_, first, second⟩ (ih rest)

namespace Table

/-- Entries of the same key with related values. -/
def Matches (R : String → α → β → Prop) (a : String × α) (b : String × β) : Prop :=
  a.1 = b.1 ∧ R a.1 a.2 b.2

/-- Two tables have the same keys, and the values of each key are related. -/
def Entrywise (R : String → α → β → Prop) (t : Table α) (u : Table β) : Prop :=
  List.Forall₂ (Matches R) t.entries u.entries

variable {R : String → α → β → Prop}

/-- Lists of entries that match have the same keys. -/
theorem map_fst_eq {l : List (String × α)} {m : List (String × β)}
    (h : List.Forall₂ (Matches R) l m) : l.map (·.1) = m.map (·.1) := by
  induction h with
  | nil => rfl
  | cons same _ ih => rw [List.map_cons, List.map_cons, same.1, ih]

/-- An entry of the one list matches one of the other. -/
theorem exists_mem_matches {l : List (String × α)} {m : List (String × β)}
    (h : List.Forall₂ (Matches R) l m) {key : String} {a : α} (mem : (key, a) ∈ l) :
    ∃ b, (key, b) ∈ m ∧ R key a b := by
  induction h with
  | nil => cases mem
  | cons same _ ih =>
    rcases List.mem_cons.mp mem with rfl | mem
    · obtain ⟨rfl, related⟩ := same
      exact ⟨_, List.mem_cons_self, related⟩
    · obtain ⟨b, later, related⟩ := ih mem
      exact ⟨b, List.mem_cons_of_mem _ later, related⟩

/-- Each entry of a list has one that matches it if there is a related value for each of them. -/
theorem exists_matches {l : List (String × α)} (h : ∀ entry ∈ l, ∃ b, R entry.1 entry.2 b) :
    ∃ m, List.Forall₂ (Matches R) l m := by
  induction l with
  | nil => exact ⟨[], .nil⟩
  | cons entry rest ih =>
    obtain ⟨⟨b, related⟩, others⟩ := List.forall_mem_cons.mp h
    obtain ⟨m, matching⟩ := ih others
    exact ⟨(entry.1, b) :: m, .cons ⟨rfl, related⟩ matching⟩

/-- Entries that match those of a table are in key order. -/
theorem inKeyOrder_of_matches {l : List (String × α)} {m : List (String × β)}
    (h : List.Forall₂ (Matches R) l m) (ordered : InKeyOrder l) : InKeyOrder m := by
  have keys : (m.map (·.1)).Pairwise (· < ·) := by
    rw [← map_fst_eq h]
    exact List.pairwise_map.mpr ordered
  exact List.pairwise_map.mp keys

/-- **A table can be compared with some other** if there is a related value for each of its keys. -/
theorem exists_entrywise {t : Table α}
    (h : ∀ key a, t.get? key = some a → ∃ b, R key a b) : ∃ u : Table β, t.Entrywise R u := by
  obtain ⟨m, matching⟩ := exists_matches fun entry mem => h entry.1 entry.2 (get?_of_mem mem)
  exact ⟨⟨m, inKeyOrder_of_matches matching t.ordered⟩, matching⟩

/-- Lists of entries that match those that match others. -/
theorem matches_trans {S : String → β → δ → Prop} {Q : String → α → δ → Prop}
    (compose : ∀ key a b c, R key a b → S key b c → Q key a c) {l : List (String × α)}
    {m : List (String × β)} {n : List (String × δ)} (h : List.Forall₂ (Matches R) l m)
    (k : List.Forall₂ (Matches S) m n) : List.Forall₂ (Matches Q) l n := by
  refine (forall₂_comp h k).imp fun a c => ?_
  rintro ⟨b, same, also⟩
  exact ⟨same.1.trans also.1, compose _ _ _ _ same.2 (same.1 ▸ also.2)⟩

/-- Entries match those that are left when a key is bound to a related value. -/
theorem matches_insertEntry {R : String → α → α → Prop} (refl : ∀ key a, R key a a)
    {entries : List (String × α)} (ordered : InKeyOrder entries) {key : String} {a b : α}
    (found : entries.lookup key = some a) (related : R key a b) :
    List.Forall₂ (Matches R) entries (insertEntry key b entries) := by
  induction entries with
  | nil => cases found
  | cons entry rest ih =>
    have above : key ≤ entry.1 → rest.lookup key = none := ordered.lookup_eq_none
    have later := (List.pairwise_cons.mp ordered).2
    rw [lookup_cons_eq_ite] at found
    unfold insertEntry
    split
    next below =>
      -- the key would be in front of all others, but it is one of them
      rw [if_neg (String.ne_of_lt below), above (Std.le_of_lt below)] at found
      cases found
    next =>
      split
      next same =>
        rw [if_pos same] at found
        obtain rfl := Option.some.inj found
        refine .cons ⟨same.symm, same ▸ related⟩ (List.forall₂_same.mpr fun _ _ => ⟨rfl, refl _ _⟩)
      next different =>
        rw [if_neg different] at found
        exact .cons ⟨rfl, refl _ _⟩ (ih later found)

namespace Entrywise

variable {t : Table α} {u : Table β}

/-- The tables have the same keys. -/
theorem keys_eq (h : t.Entrywise R u) : t.keys = u.keys := map_fst_eq h

/-- The comparison read from the other side. -/
theorem swap (h : t.Entrywise R u) : u.Entrywise (fun key b a => R key a b) t := by
  refine List.Forall₂.flip (h.imp fun a b same => ?_)
  exact ⟨same.1.symm, same.1 ▸ same.2⟩

/-- **What the one table holds has a counterpart in the other.** -/
theorem exists_right (h : t.Entrywise R u) {key : String} {a : α} (found : t.get? key = some a) :
    ∃ b, u.get? key = some b ∧ R key a b := by
  obtain ⟨b, mem, related⟩ := exists_mem_matches h (mem_of_get?_eq_some found)
  exact ⟨b, get?_of_mem mem, related⟩

theorem exists_left (h : t.Entrywise R u) {key : String} {b : β} (found : u.get? key = some b) :
    ∃ a, t.get? key = some a ∧ R key a b :=
  h.swap.exists_right found

/-- Two comparisons one after the other. -/
theorem trans {S : String → β → δ → Prop} {Q : String → α → δ → Prop} {v : Table δ}
    (compose : ∀ key a b c, R key a b → S key b c → Q key a c) (h : t.Entrywise R u)
    (k : u.Entrywise S v) : t.Entrywise Q v :=
  matches_trans compose h k

/-- Binding a key of a table to a related value. -/
theorem insert {R : String → α → α → Prop} (refl : ∀ key a, R key a a) {t : Table α} {key : String}
    {a b : α} (found : t.get? key = some a) (related : R key a b) :
    t.Entrywise R (t.insert key b) :=
  matches_insertEntry refl t.ordered found related

end Entrywise

end Table

end Stencil
