import Mathlib.Tactic.Common
import Stencil.Field.StockSource
import Stencil.Form.OfTemplate
import Stencil.Proofs.Table.Entrywise
import Stencil.Proofs.Text.Bytes

/-!
# What the form of a template is

A form is made entry by entry, and makers of callers may return whatever they like. Two checks make
up for that. A field has to be named after the key of its entry, so no field takes the place of
another, and the form has one field for each entry. The references are looked at once more when all
fields are there, so each of them leads to a field that has a value of its own.

* `Stencil.Rules.Makes`, `Stencil.Rules.Makes.cases`: what the rules make of an entry;
* `Stencil.Form.ofTemplate_eq_ok_iff`: which form a template has, and when it has one;
* `Stencil.Form.exists_target`: where its references lead;
* `Stencil.Form.ofTemplate_fields`: what holds of every form of a template.
-/

namespace Stencil

variable {σ ε α β : Type}

/-! ### Values of logged actions -/

/-- The value of one step after another; the events do not matter for it. -/
theorem Logged.value_bind (first : ExceptT ε Logged α) (next : α → ExceptT ε Logged β) :
    (first >>= next).run.value = first.run.value.bind fun a => (next a).run.value := by
  rw [ExceptT.run_bind]
  obtain ⟨value, events⟩ := first.run
  cases value <;> rfl

/-! ### Entries -/

namespace Rules

/-- The rules make a field with this content, named after its key, of an entry of a template. -/
def Makes (rules : Rules σ) (template : Template) (key : String) (value : Json)
    (content : Content σ) : Prop :=
  rules.fieldOfValue template key value = .ok ⟨key, content⟩

variable {rules : Rules σ} {template : Template} {key : String} {value : Json}

/-- A value that is no directive makes a field that always has that value. -/
theorem makes_of_plain
    (plain : ∀ text, value = .string text → rules.place.admits text.toList = false) :
    rules.Makes template key value (.static value) := by
  have noBody : rules.place.bodyOf? value = none := by
    cases value with
    | string text => rw [MarkerPlace.bodyOf?, MarkerPlace.body?, plain text rfl]; rfl
    | _ => rfl
  unfold Makes fieldOfValue
  rw [noBody]

/-- The rules make one content of an entry at most. -/
theorem Makes.unique {content content' : Content σ}
    (makes : rules.Makes template key value content)
    (also : rules.Makes template key value content') : content = content' :=
  (Field.mk.inj (Except.ok.inj (makes.symm.trans also))).2

/-- **What the rules can make of an entry**: its value as it is, what a keyword makes, a reference
or a pattern. -/
theorem Makes.cases {content : Content σ} (makes : rules.Makes template key value content) :
    content = .static value ∨
    (∃ body, rules.keywords.make? key body = some (.ok ⟨key, content⟩)) ∨
    (∃ target, content = .reference target) ∨ ∃ shape, content = .pattern shape := by
  unfold Makes fieldOfValue at makes
  split at makes
  next => exact .inl (Field.mk.inj (Except.ok.inj makes)).2.symm
  next body _ =>
    unfold fieldOfBody at makes
    split at makes
    next made found => exact .inr (.inl ⟨body, makes ▸ found⟩)
    next =>
      split at makes
      next target _ =>
        split at makes
        next =>
          exact .inr (.inr (.inl ⟨target, (Field.mk.inj (Except.ok.inj makes)).2.symm⟩))
        next => cases makes
      next =>
        unfold fieldOfPattern at makes
        split at makes
        next shape _ =>
          exact .inr (.inr (.inr ⟨shape, (Field.mk.inj (Except.ok.inj makes)).2.symm⟩))
        next => split at makes <;> cases makes

/-- A field is accepted if the rules make it and it is named after its key. -/
theorem fieldOf_eq_ok_iff {field : Field σ} :
    rules.fieldOf template key value = .ok field ↔
      field.name = key ∧ rules.Makes template key value field.content := by
  obtain ⟨name, content⟩ := field
  unfold fieldOf Makes
  cases rules.fieldOfValue template key value with
  | error fault => simp
  | ok made =>
    obtain ⟨name', content'⟩ := made
    by_cases named : name' = key
    · simp only [named, if_true, Except.ok.injEq, Field.mk.injEq, true_and]
      exact and_congr_left fun _ => eq_comm
    · simp [named]

theorem value_recognize :
    (rules.recognize template key value).run.value = rules.fieldOf template key value := by
  unfold recognize
  cases rules.fieldOf template key value <;> rfl

end Rules

/-! ### Forms -/

namespace Form

variable {rules : Rules σ} {template : Template} {form : Form σ}

/-- Entries are added if each of them makes a field, and then these are the fields that are added.
-/
theorem value_addEntries_eq_ok_iff {entries : List (String × Json)} {start : Form σ} :
    (addEntries rules template entries start).run.value = .ok form ↔
      ∃ slots, List.Forall₂ (Table.Matches (rules.Makes template)) entries slots ∧
        form = slots.foldl (fun form slot => form.insert slot.1 slot.2) start := by
  induction entries generalizing start with
  | nil =>
    simp only [List.forall₂_nil_left_iff, exists_eq_left]
    exact ⟨fun h => (Except.ok.inj h).symm, fun h => congrArg Except.ok h.symm⟩
  | cons entry rest ih =>
    obtain ⟨key, value⟩ := entry
    rw [addEntries, Logged.value_bind, Rules.value_recognize]
    constructor
    · intro added
      cases made : rules.fieldOf template key value with
      | error fault =>
        rw [made] at added
        cases added
      | ok field =>
        rw [made] at added
        obtain ⟨slots, matching, rfl⟩ := ih.mp added
        obtain ⟨named, makes⟩ := Rules.fieldOf_eq_ok_iff.mp made
        exact ⟨(key, field.content) :: slots, .cons ⟨rfl, makes⟩ matching, by rw [← named]; rfl⟩
    · rintro ⟨slots, matching, rfl⟩
      obtain ⟨⟨name, content⟩, slots, ⟨named, makes⟩, rest, rfl⟩ :=
        List.forall₂_cons_left_iff.mp matching
      obtain rfl : key = name := named
      have made : rules.fieldOf template key value = .ok ⟨key, content⟩ :=
        Rules.fieldOf_eq_ok_iff.mpr ⟨rfl, makes⟩
      rw [made]
      exact ih.mpr ⟨slots, rest, rfl⟩

/-- Entries in key order make a form with one field for each of them. -/
theorem value_addEntries_empty_eq_ok_iff :
    (addEntries rules template template.entries .empty).run.value = .ok form ↔
      template.Entrywise (rules.Makes template) form := by
  rw [value_addEntries_eq_ok_iff]
  constructor
  · rintro ⟨slots, matching, rfl⟩
    have ordered := Table.inKeyOrder_of_matches matching template.ordered
    show List.Forall₂ _ template.entries (Table.ofList slots).entries
    rw [Table.entries_ofList ordered]
    exact matching
  · intro matching
    exact ⟨form.entries, matching, (Table.ofList_entries form).symm⟩

/-- The references are checked when all entries have been added. -/
theorem value_ofTemplate :
    (ofTemplate rules template).run.value =
      (addEntries rules template template.entries .empty).run.value.bind fun form =>
        (badReference? template form).elim (.ok form) .error := by
  rw [ofTemplate, Logged.value_bind]
  congr 1
  funext form
  cases badReference? template form <;> rfl

/-- **A template has a form if its entries make the fields of that form and every reference passes
the check.** -/
theorem ofTemplate_eq_ok_iff :
    (ofTemplate rules template).run.value = .ok form ↔
      template.Entrywise (rules.Makes template) form ∧ badReference? template form = none := by
  rw [← value_addEntries_empty_eq_ok_iff, value_ofTemplate]
  cases (addEntries rules template template.entries .empty).run.value with
  | error fault => exact iff_of_false (fun h => by cases h) (fun h => by cases h.1)
  | ok added =>
    rw [Except.bind, Except.ok.injEq]
    cases bad : badReference? template added with
    | some fault =>
      refine iff_of_false (fun h => by cases h) ?_
      rintro ⟨rfl, fine⟩
      rw [fine] at bad
      cases bad
    | none =>
      rw [Option.elim_none, Except.ok.injEq]
      exact ⟨fun h => ⟨h, h ▸ bad⟩, And.left⟩

/-! ### References -/

/-- The references of a form are its fields that refer to others. -/
theorem mem_references_iff {name target : String} :
    (name, target) ∈ form.references ↔ form.get? name = some (.reference target) := by
  rw [Table.get?_eq_some_iff, references, List.mem_filterMap]
  constructor
  · rintro ⟨⟨key, content⟩, mem, refers⟩
    cases content with
    | reference target' =>
      obtain ⟨rfl, rfl⟩ : key = name ∧ target' = target := by simpa [Content.target?] using refers
      exact mem
    | _ => cases refers
  · intro mem
    exact ⟨_, mem, rfl⟩

/-- **The check of references asks that each leads to an entry whose field is no reference.** -/
theorem badReference?_eq_none_iff :
    badReference? template form = none ↔
      ∀ name target, (name, target) ∈ form.references →
        template.contains target ∧ ∀ content, form.get? target = some content →
          content.isReference = false := by
  have each : ∀ name target, referenceFault? template form name target = none ↔
      template.contains target ∧ ∀ content, form.get? target = some content →
        content.isReference = false := by
    intro name target
    unfold referenceFault?
    cases template.contains target <;> cases form.get? target with
    | none => simp
    | some content => cases content.isReference <;> simp
  simp only [badReference?, List.findSome?_eq_none_iff, Prod.forall, each]

/-- **In the form of a template a reference leads to a field that is none.** -/
theorem exists_target (made : (ofTemplate rules template).run.value = .ok form)
    {name target : String} (refers : (name, target) ∈ form.references) :
    ∃ content, form.get? target = some content ∧ content.isReference = false := by
  obtain ⟨matching, checked⟩ := ofTemplate_eq_ok_iff.mp made
  obtain ⟨present, plain⟩ := badReference?_eq_none_iff.mp checked name target refers
  obtain ⟨value, entry⟩ := Option.isSome_iff_exists.mp present
  obtain ⟨content, held, -⟩ := matching.exists_right entry
  exact ⟨content, held, plain content held⟩

/-- **What holds of every form of a template**, whatever the makers of keywords return. The names of
the fields are the keys of the template, in the order of their bytes. The field of a key is what the
rules make of its entry, and has the key for a name. A reference leads to a field of another name
that is no reference, so no reference leads on from there. -/
theorem ofTemplate_fields (rules : Rules σ) (template : Template) (form : Form σ)
    (made : (ofTemplate rules template).run.value = .ok form) :
    form.keys = template.keys ∧
    (form.keys.Pairwise fun a b => a.toUTF8.data.toList < b.toUTF8.data.toList) ∧
    (∀ key value, template.get? key = some value → ∃ field,
      rules.fieldOfValue template key value = .ok field ∧ field.name = key ∧
        form.field? key = some field) ∧
    ∀ name target, (name, target) ∈ form.references → ∃ content,
      form.get? target = some content ∧ content.isReference = false ∧ target ≠ name ∧
        ∀ further, (target, further) ∉ form.references := by
  obtain ⟨matching, -⟩ := ofTemplate_eq_ok_iff.mp made
  refine ⟨matching.keys_eq.symm, form.pairwise_keys, ?_, ?_⟩
  · intro key value found
    obtain ⟨content, held, makes⟩ := matching.exists_right found
    exact ⟨⟨key, content⟩, makes, rfl, by rw [field?, held]; rfl⟩
  · intro name target refers
    obtain ⟨content, held, own⟩ := exists_target made refers
    have noReference : ∀ further, (target, further) ∉ form.references := by
      intro further leads
      obtain rfl := Option.some.inj (held.symm.trans (mem_references_iff.mp leads))
      cases own
    refine ⟨content, held, own, ?_, noReference⟩
    rintro rfl
    exact noReference target refers

/-- Rules with a keyword that refers to the entry `z`. -/
def aliasRules : Rules StockSource :=
  ⟨.ofList [("last", fun name _ => .ok ⟨name, .reference "z"⟩)], .atStart⟩

/-- A template in which a keyword and a directive refer to an entry after them. -/
def aliased : Template :=
  ⟨[("a", .string "_go:last"), ("b", .string "_go:_z"), ("z", .bool true)], by
    unfold InKeyOrder
    decide⟩

/-- The form of that template. -/
def aliasedForm : Form StockSource :=
  ⟨[("a", .reference "z"), ("b", .reference "z"), ("z", .static (.bool true))], by
    unfold InKeyOrder
    decide⟩

/-- The reference of the keyword leads to the last entry, which leads on to none. -/
theorem ofTemplate_fields_aliased :
    (ofTemplate aliasRules aliased).run.value = .ok aliasedForm ∧
    aliasedForm.keys = ["a", "b", "z"] ∧
    ∃ content, aliasedForm.get? "z" = some content ∧ content.isReference = false ∧
      "z" ≠ "a" ∧ ∀ further, ("z", further) ∉ aliasedForm.references := by
  have made : (ofTemplate aliasRules aliased).run.value = .ok aliasedForm := rfl
  obtain ⟨keys, -, -, leads⟩ := ofTemplate_fields aliasRules aliased aliasedForm made
  have refers : ("a", "z") ∈ aliasedForm.references :=
    mem_references_iff.mpr rfl
  exact ⟨made, keys, leads "a" "z" refers⟩

end Form

end Stencil
