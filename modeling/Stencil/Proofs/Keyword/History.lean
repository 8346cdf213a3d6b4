import Mathlib.Tactic.Common
import Stencil.Field.StockSource
import Stencil.Keyword.Basic
import Stencil.Proofs.Table.OneKey
import Stencil.Proofs.Text.Bytes

/-!
# How keywords came about

Keywords are bound one by one, and the keywords that were gathered elsewhere can be merged into
others. What was gathered has a history of its own, with merges in it, so histories nest. Whatever a
history is like, a keyword has the maker that it was bound to last. To say this, a history is laid
out as a sequence of moments. A registration binds one keyword at its moment, and a merge binds all
keywords of the merged history at once, each to the maker that it was bound to last in there.

* `Stencil.Keywords.History`, `Stencil.Keywords.History.outcome`: histories, and the keywords that
  they lead to;
* `Stencil.Keywords.History.Mentions`: the keywords that occur in a history;
* `Stencil.Keywords.History.moments`, `Stencil.Keywords.BoundLast`: what was bound last;
* `Stencil.Keywords.History.get?_outcome`: the keywords hold what was bound last;
* `Stencil.Keywords.History.outcome_lastBinding`: what holds of every history.
-/

namespace Stencil

/-! ### Merging tables -/

namespace Table

variable {α : Type}

/-- A merge does not depend on how it is bracketed. -/
theorem merge_assoc (t u v : Table α) : (t.merge u).merge v = t.merge (u.merge v) := by
  refine ext_get? fun key => ?_
  rw [get?_merge, get?_merge, get?_merge, get?_merge, Option.or_assoc]

/-- To merge a table a second time changes nothing. -/
theorem merge_merge_self (t u : Table α) : (t.merge u).merge u = t.merge u := by
  refine ext_get? fun key => ?_
  rw [get?_merge, get?_merge, ← Option.or_assoc, Option.or_self]

end Table

namespace Keywords

variable {σ : Type}

/-! ### Moments -/

/-- What is bound at one moment: makers by keyword. -/
abbrev Moment (σ : Type) := String → Option (Maker σ)

/-- The moment at which one keyword is bound. -/
def Moment.single (keyword : String) (maker : Maker σ) : Moment σ := fun other =>
  if other = keyword then some maker else none

/-- The maker that a keyword is bound to last, if it is bound at all. -/
def lastBound? (moments : List (Moment σ)) : Moment σ := fun keyword =>
  moments.reverse.findSome? fun moment => moment keyword

/-- **A keyword is bound to a maker last**: it is so at some moment, and at no moment after that is
it bound again. -/
def BoundLast (moments : List (Moment σ)) (keyword : String) (maker : Maker σ) : Prop :=
  ∃ earlier moment later, moments = earlier ++ moment :: later ∧ moment keyword = some maker ∧
    ∀ other ∈ later, other keyword = none

/-- The last moment counts first. -/
theorem lastBound?_concat (moments : List (Moment σ)) (moment : Moment σ) (keyword : String) :
    lastBound? (moments ++ [moment]) keyword =
      (moment keyword).or (lastBound? moments keyword) := by
  rw [lastBound?, List.reverse_concat, List.findSome?_cons]
  cases moment keyword <;> rfl

theorem lastBound?_eq_some_iff {moments : List (Moment σ)} {keyword : String} {maker : Maker σ} :
    lastBound? moments keyword = some maker ↔ BoundLast moments keyword maker := by
  rw [lastBound?, List.findSome?_eq_some_iff]
  constructor
  · rintro ⟨later, moment, earlier, split, bound, unbound⟩
    refine ⟨earlier.reverse, moment, later.reverse, ?_, bound, ?_⟩
    · rw [← List.reverse_reverse moments, split, List.reverse_append, List.reverse_cons,
        List.append_assoc]
      rfl
    · exact fun other mem => unbound other (List.mem_reverse.mp mem)
  · rintro ⟨earlier, moment, later, rfl, bound, unbound⟩
    refine ⟨later.reverse, moment, earlier.reverse, ?_, bound, ?_⟩
    · rw [List.reverse_append, List.reverse_cons, List.append_assoc]
      rfl
    · exact fun other mem => unbound other (List.mem_reverse.mp mem)

/-! ### Histories -/

/-- How keywords came about. -/
inductive History (σ : Type) where
  /-- It begins without any keyword. -/
  | empty
  /-- It begins with the built-in keywords. -/
  | builtin (kind : UuidKind)
  /-- A keyword is bound to a maker. -/
  | register (before : History σ) (keyword : String) (maker : Maker σ)
  /-- Keywords are merged that have a history of their own. -/
  | merge (before merged : History σ)

namespace History

/-- The keywords that a history leads to. -/
def outcome : History σ → Keywords σ
  | empty => .empty
  | builtin kind => .builtin kind
  | register before keyword maker => before.outcome.insert keyword maker
  | merge before merged => before.outcome.merge merged.outcome

/-- **A keyword occurs in a history**: it is built in, or it was bound, be it there or in a history
that was merged. -/
inductive Mentions : History σ → String → Prop
  /-- The time is built in. -/
  | timestamp (kind : UuidKind) : Mentions (builtin kind) "timestamp"
  /-- Identifiers are built in. -/
  | uuid (kind : UuidKind) : Mentions (builtin kind) "uuid"
  /-- It is bound now. -/
  | registered (before : History σ) (keyword : String) (maker : Maker σ) :
    Mentions (register before keyword maker) keyword
  /-- It occurred before another keyword was bound, or the same. -/
  | beforeRegister {before : History σ} {keyword : String} (mentions : Mentions before keyword)
    (other : String) (maker : Maker σ) : Mentions (register before other maker) keyword
  /-- It occurred before a merge. -/
  | beforeMerge {before : History σ} {keyword : String} (mentions : Mentions before keyword)
    (merged : History σ) : Mentions (merge before merged) keyword
  /-- It occurs in the history that is merged. -/
  | merged {merged : History σ} {keyword : String} (before : History σ)
    (mentions : Mentions merged keyword) : Mentions (merge before merged) keyword

/-- The moments of a history, in order. A merge is one moment, which binds every keyword of the
merged history to the maker that it was bound to last in there. -/
def moments : History σ → List (Moment σ)
  | empty => []
  | builtin kind =>
    [.single "timestamp" fun name _ => .ok ⟨name, .timestamp⟩,
      .single "uuid" fun name _ => .ok ⟨name, .uuid kind⟩]
  | register before keyword maker => before.moments ++ [.single keyword maker]
  | merge before merged => before.moments ++ [lastBound? merged.moments]

/-- The built-in keywords are bound one after the other. -/
theorem get?_builtin (kind : UuidKind) (keyword : String) :
    (Keywords.builtin kind : Keywords σ).get? keyword =
      lastBound? (builtin kind : History σ).moments keyword := by
  have concat : (builtin kind : History σ).moments = _ ++ [_] :=
    (List.singleton_append (l := [_])).symm
  rw [concat, lastBound?_concat, ← List.nil_append [_], lastBound?_concat, Keywords.builtin,
    Table.get?_ofList, List.reverse_cons, List.reverse_singleton, List.singleton_append,
    lookup_cons_eq_ite, lookup_cons_eq_ite, Moment.single, Moment.single]
  split
  · rfl
  · split <;> rfl

/-- **The keywords hold what was bound last.** -/
theorem get?_outcome (history : History σ) (keyword : String) :
    history.outcome.get? keyword = lastBound? history.moments keyword := by
  induction history with
  | empty => rfl
  | builtin kind => exact get?_builtin kind keyword
  | register before other maker ih =>
    rw [outcome, moments, Table.get?_insert, lastBound?_concat, ih, Moment.single]
    split <;> rfl
  | merge before merged ih ih' =>
    rw [outcome, moments, Table.get?_merge, lastBound?_concat, ih, ih']

/-- A keyword is bound after it is registered, and if it was bound before. -/
theorem contains_outcome_register {before : History σ} {other keyword : String}
    {maker : Maker σ} :
    (register before other maker).outcome.contains keyword ↔
      keyword = other ∨ before.outcome.contains keyword :=
  Table.contains_insert_iff

/-- A keyword is bound after a merge if it was bound on either side. -/
theorem contains_outcome_merge {before merged : History σ} {keyword : String} :
    (merge before merged).outcome.contains keyword ↔
      merged.outcome.contains keyword ∨ before.outcome.contains keyword := by
  rw [outcome, Table.contains, Table.contains, Table.contains, Table.get?_merge]
  cases merged.outcome.get? keyword <;> simp

/-- **The keywords are those that occur in the history.** -/
theorem contains_outcome_iff {history : History σ} {keyword : String} :
    history.outcome.contains keyword ↔ history.Mentions keyword := by
  induction history with
  | empty => exact iff_of_false (by simp [outcome, Table.contains]) (fun h => by cases h)
  | builtin kind =>
    have inserted : (builtin kind : History σ).outcome.contains keyword ↔
        keyword = "uuid" ∨ keyword = "timestamp" ∨ (Table.empty : Keywords σ).contains keyword :=
      Table.contains_insert_iff.trans (or_congr_right Table.contains_insert_iff)
    rw [inserted]
    constructor
    · rintro (rfl | rfl | unbound)
      · exact .uuid kind
      · exact .timestamp kind
      · cases unbound
    · intro mentions
      cases mentions with
      | timestamp => exact .inr (.inl rfl)
      | uuid => exact .inl rfl
  | register before other maker ih =>
    rw [contains_outcome_register, ih]
    constructor
    · rintro (rfl | mentions)
      · exact .registered ..
      · exact .beforeRegister mentions ..
    · intro h
      cases h with
      | registered => exact .inl rfl
      | beforeRegister mentions => exact .inr mentions
  | merge before merged ih ih' =>
    rw [contains_outcome_merge, ih, ih']
    constructor
    · rintro (mentions | mentions)
      · exact .merged _ mentions
      · exact .beforeMerge mentions _
    · intro h
      cases h with
      | merged _ mentions => exact .inl mentions
      | beforeMerge mentions _ => exact .inr mentions

/-- **Keywords hold what was bound last**, whatever their history is. They are listed in the order
of their bytes, each once, and they are those that occur in the history. Neither a registration nor
a merge takes a keyword away. A keyword that does not occur makes nothing. One that occurs was bound
to exactly one maker last, where a merge binds all keywords of the merged history at once, and it
makes what that maker makes. So it does not matter how merges are bracketed, and to merge the same
keywords a second time changes nothing. -/
theorem outcome_lastBinding (history : History σ) :
    (history.outcome.keys.Pairwise fun a b => a.toUTF8.data.toList < b.toUTF8.data.toList) ∧
    (∀ keyword, keyword ∈ history.outcome.keys ↔ history.Mentions keyword) ∧
    (∀ keyword, history.outcome.contains keyword ↔ history.Mentions keyword) ∧
    (∀ keyword, history.outcome.contains keyword →
      (∀ other maker, (register history other maker).outcome.contains keyword) ∧
      ∀ merged, (merge history merged).outcome.contains keyword) ∧
    (∀ name keyword, ¬history.Mentions keyword → history.outcome.make? name keyword = none) ∧
    (∀ keyword, history.Mentions keyword → ∃ maker,
      (∀ other, BoundLast history.moments keyword other ↔ other = maker) ∧
      ∀ name, history.outcome.make? name keyword = some (maker name keyword)) ∧
    (∀ second third : History σ, (merge (merge history second) third).outcome =
      (merge history (merge second third)).outcome) ∧
    ∀ merged : History σ, (merge (merge history merged) merged).outcome =
      (merge history merged).outcome := by
  refine ⟨history.outcome.pairwise_keys, ?_, fun _ => contains_outcome_iff, ?_, ?_, ?_, ?_, ?_⟩
  · intro keyword
    rw [← Table.contains_iff_mem_keys, contains_outcome_iff]
  · intro keyword bound
    exact ⟨fun other maker => contains_outcome_register.mpr (.inr bound),
      fun merged => contains_outcome_merge.mpr (.inr bound)⟩
  · intro name keyword absent
    rw [← contains_outcome_iff, Table.contains, Bool.not_eq_true, Option.isSome_eq_false_iff,
      Option.isNone_iff_eq_none] at absent
    rw [make?, absent, Option.map_none]
  · intro keyword mentions
    obtain ⟨maker, found⟩ := Option.isSome_iff_exists.mp (contains_outcome_iff.mpr mentions)
    refine ⟨maker, fun other => ?_, fun name => ?_⟩
    · rw [← lastBound?_eq_some_iff, ← get?_outcome, found, Option.some.injEq, eq_comm]
    · rw [make?, found, Option.map_some]
  · intro second third
    exact Table.merge_assoc ..
  · intro merged
    exact Table.merge_merge_self ..

/-- A keyword that is built in, and was bound twice in a merged history, has the last maker of that
history. -/
example :
    let first : History StockSource :=
      register empty "uuid" fun _ _ => .error (.configuration "too early")
    let second := register first "uuid" fun name _ => .ok ⟨name, .timestamp⟩
    (merge (builtin .random) second).outcome.make? "id" "uuid" = some (.ok ⟨"id", .timestamp⟩) := by
  cbv

end History

end Keywords

end Stencil
