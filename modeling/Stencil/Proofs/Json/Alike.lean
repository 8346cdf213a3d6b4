import Mathlib.Data.List.Forall2
import Mathlib.Data.List.Nodup
import Mathlib.Tactic.Common
import Stencil.Proofs.Json.Decoded

/-!
# Values with the same contents

A document can list the same contents in many ways: the members of an object can stand in any order,
and a member counts for nothing if another of its name comes later. This file says what it is for
two listed values to differ in nothing else, without a word about tables or about key order, and
shows that these are the values with the same canonical form.

* `Stencil.Json.member?`: the member that counts for a name;
* `Stencil.Json.Alike`: values with the same contents;
* `Stencil.Json.alike_iff`: they are those with the same canonical form;
* `Stencil.Json.alike_of_perm`, `Stencil.Json.alike_of_superseded`: members in another order, and
  members that count for nothing.
-/

namespace Stencil

namespace Json

/-- The value of the last member of a name, which is the one that counts. -/
def member? (members : List (String × Json)) (name : String) : Option Json :=
  members.reverse.lookup name

/-- **Two values have the same contents**: at every level of nesting, lists have the same items in
the same order, and objects have members for the same names, of which the last ones agree. -/
inductive Alike : Json → Json → Prop where
  /-- There are no contents. -/
  | null : Alike null null
  /-- The truth values are equal. -/
  | bool (value : Bool) : Alike (bool value) (bool value)
  /-- The numbers are equal. -/
  | number (value : Number) : Alike (number value) (number value)
  /-- The texts are equal. -/
  | string (value : String) : Alike (string value) (string value)
  /-- The items agree one by one. -/
  | array {items items' : List Json} (lengths : items.length = items'.length)
    (each : ∀ item item', (item, item') ∈ items.zip items' → Alike item item') :
    Alike (array items) (array items')
  /-- The members that count agree, whatever their order. -/
  | object {members members' : List (String × Json)}
    (names : ∀ name, (member? members name).isSome = (member? members' name).isSome)
    (each : ∀ name value value', member? members name = some value →
      member? members' name = some value' → Alike value value') :
    Alike (object members) (object members')

/-! ### Canonical forms -/

/-- **The canonical form of an object holds the members that count.** -/
theorem get?_canonicalMembers (members : List (String × Json)) (name : String) :
    (Table.ofList (canonicalMembers members)).get? name =
      (member? members name).map canonical := by
  have each : ∀ members : List (String × Json),
      (members.map fun member => (member.1, member.2.canonical)).lookup name =
        (members.lookup name).map canonical := by
    intro members
    induction members with
    | nil => rfl
    | cons member rest ih =>
      rw [List.map_cons, lookup_cons_eq_ite, lookup_cons_eq_ite, ih]
      split <;> rfl
  rw [Table.get?_ofList, canonicalMembers_eq_map, ← List.map_reverse, each, member?]

/-- Lists have the same canonical form if their items have. -/
theorem map_canonical_eq_iff {items items' : List Json} :
    items.map canonical = items'.map canonical ↔ items.length = items'.length ∧
      ∀ item item', (item, item') ∈ items.zip items' → item.canonical = item'.canonical := by
  rw [← List.forall₂_eq_eq_eq, List.forall₂_map_left_iff, List.forall₂_map_right_iff,
    List.forall₂_iff_zip]

/-- Objects have the same canonical form if the members that count have. -/
theorem canonical_object_eq_iff {members members' : List (String × Json)} :
    (object members).canonical = (object members').canonical ↔
      ∀ name, (member? members name).map canonical = (member? members' name).map canonical := by
  rw [canonical, canonical, object.injEq]
  constructor
  · intro same name
    rw [← get?_canonicalMembers, ← get?_canonicalMembers, Table.ext_entries same]
  · intro same
    refine congrArg Table.entries (Table.ext_get? fun name => ?_)
    rw [get?_canonicalMembers, get?_canonicalMembers, same]

theorem Alike.canonical_eq {value value' : Json} (alike : value.Alike value') :
    value.canonical = value'.canonical := by
  induction alike with
  | array lengths _ ih =>
    rw [canonical, canonical, canonicalItems_eq_map, canonicalItems_eq_map,
      map_canonical_eq_iff.mpr ⟨lengths, ih⟩]
  | @object members members' names _ ih =>
    refine canonical_object_eq_iff.mpr fun name => ?_
    have names := names name
    have agree := ih name
    generalize member? members name = counted at names agree
    generalize member? members' name = counted' at names agree
    cases counted <;> cases counted'
    · rfl
    · cases names
    · cases names
    · exact congrArg some (agree _ _ rfl rfl)
  | _ => rfl

/-- The member that counts is one of the members. -/
theorem mem_of_member? {members : List (String × Json)} {name : String} {value : Json}
    (counted : member? members name = some value) : (name, value) ∈ members := by
  obtain ⟨before, after, split, -⟩ := List.lookup_eq_some_iff.mp counted
  rw [← List.mem_reverse, split]
  exact List.mem_append_right _ List.mem_cons_self

theorem alike_of_canonical_eq (value value' : Json) (same : value.canonical = value'.canonical) :
    value.Alike value' := by
  cases value with
  | array items =>
    cases value' with
    | array items' =>
      rw [canonical, canonical, array.injEq, canonicalItems_eq_map, canonicalItems_eq_map] at same
      obtain ⟨lengths, agree⟩ := map_canonical_eq_iff.mp same
      refine .array lengths fun item item' mem => ?_
      have within : item ∈ items := (List.of_mem_zip mem).1
      exact alike_of_canonical_eq item item' (agree item item' mem)
    | _ => cases same
  | object members =>
    cases value' with
    | object members' =>
      have agree := canonical_object_eq_iff.mp same
      refine .object (fun name => ?_) fun name value value' counted counted' => ?_
      · simpa using congrArg Option.isSome (agree name)
      · have within : (name, value) ∈ members := mem_of_member? counted
        have equal := agree name
        rw [counted, counted', Option.map_some, Option.map_some, Option.some.injEq] at equal
        exact alike_of_canonical_eq value value' equal
    | _ => cases same
  | null =>
    cases value' <;> cases same
    exact .null
  | bool value =>
    cases value' <;> cases same
    exact .bool value
  | number value =>
    cases value' <;> cases same
    exact .number value
  | string value =>
    cases value' <;> cases same
    exact .string value
termination_by sizeOf value
decreasing_by
  · have smaller := List.sizeOf_lt_of_mem within
    subst_vars
    rw [array.sizeOf_spec]
    omega
  · have smaller := List.sizeOf_lt_of_mem within
    rw [Prod.mk.sizeOf_spec] at smaller
    subst_vars
    rw [object.sizeOf_spec]
    omega

/-- **Values have the same contents if and only if they have the same canonical form.** -/
theorem alike_iff {value value' : Json} :
    value.Alike value' ↔ value.canonical = value'.canonical :=
  ⟨Alike.canonical_eq, alike_of_canonical_eq value value'⟩

/-! ### Other listings -/

/-- Objects have the same contents if the same members count. -/
theorem alike_of_member?_eq {members members' : List (String × Json)}
    (same : ∀ name, member? members name = member? members' name) :
    Alike (object members) (object members') :=
  alike_iff.mpr (canonical_object_eq_iff.mpr fun name => congrArg _ (same name))

/-- **Members can be listed in any order**, if there is one of each name. -/
theorem alike_of_perm {members members' : List (String × Json)} (perm : members.Perm members')
    (once : (members.map (·.1)).Nodup) : Alike (object members) (object members') := by
  have counts : ∀ {members : List (String × Json)}, (members.map (·.1)).Nodup →
      ∀ name value, member? members name = some value ↔ (name, value) ∈ members := by
    intro members once name value
    refine ⟨mem_of_member?, fun mem => ?_⟩
    obtain ⟨counted, found⟩ : ∃ counted, member? members name = some counted :=
      Option.isSome_iff_exists.mp (isSome_lookup_iff.mpr
        (List.mem_map_of_mem (f := Prod.fst) (List.mem_reverse.mpr mem)))
    have same := List.inj_on_of_nodup_map once (mem_of_member? found) mem rfl
    rw [found, (Prod.mk.inj same).2]
  have once' : (members'.map (·.1)).Nodup := (perm.map _).nodup_iff.mp once
  refine alike_of_member?_eq fun name => Option.ext fun value => ?_
  rw [counts once, counts once', perm.mem_iff]

/-- **A member counts for nothing** if another of its name comes later. -/
theorem alike_of_superseded {before after : List (String × Json)} {name : String} {value : Json}
    (later : name ∈ after.map (·.1)) :
    Alike (object (before ++ (name, value) :: after)) (object (before ++ after)) := by
  refine alike_of_member?_eq fun other => ?_
  have found : (after.reverse.lookup name).isSome :=
    isSome_lookup_iff.mpr (by rwa [List.map_reverse, List.mem_reverse])
  rw [member?, member?, List.reverse_append, List.reverse_append, List.reverse_cons,
    List.append_assoc, List.lookup_append, List.lookup_append, List.lookup_append,
    lookup_cons_eq_ite]
  split
  next same =>
    rw [same, Option.or_of_isSome found, Option.or_of_isSome found]
  next => rfl

end Json

end Stencil
