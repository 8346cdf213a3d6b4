import Mathlib.Tactic.Common
import Stencil.Proofs.Form.Classification
import Stencil.Proofs.Form.Silent
import Stencil.Proofs.Json.Decoded
import Stencil.Random.ChaCha8

/-!
# An unrelated entry

The keys of a template decide about all references in it, so another entry could change what becomes
of those that are there. It does not, unless a reference leads to it: an entry that stands for a
field goes on to stand for that field, and what the check of references looks at is the same. Thus
an entry with a fixed value can be added to any template that has a form, and an entry that no
reference leads to can be taken out.

What the fields draw could change as well, because the new one stands somewhere between the others.
If it is quiet, and reads no clock but a fixed one, the records are the same but for the new name.

Two things are left that an entry can disturb: the document that it stands in, which may nest no
deeper than the reader allows, and a running clock that a source has put in the place of a fixed
one.

* `Stencil.Rules.Makes.of_contains`: what an entry stands for among other entries;
* `Stencil.Form.ofTemplate_insert_static`, `Stencil.Form.ofTemplate_of_insert`: an entry more, and
  one less;
* `Stencil.Form.ofTemplate_unrelated`: both, with the records of the two forms;
* `Stencil.Form.unrelated_disturbed`: the document and the clock.
-/

namespace Stencil

variable {γ σ : Type}

/-! ### Entries -/

/-- **An entry stands for the same field among other entries**, if the field it may refer to is
there. -/
theorem Rules.Makes.of_contains {rules : Rules σ} {template other : Template} {key : String}
    {value : Json} {content : Content σ} (makes : rules.Makes template key value content)
    (present : ∀ target, content = .reference target → template.contains target = true →
      other.contains target = true) :
    rules.Makes other key value content := by
  unfold Makes at makes ⊢
  unfold fieldOfValue at makes ⊢
  generalize rules.place.bodyOf? value = directive at makes ⊢
  rcases directive with _ | body
  · exact makes
  dsimp only at makes ⊢
  rcases bound : rules.keywords.get? body with _ | maker
  · by_cases marked : ∃ target, body = referenceTo target
    · obtain ⟨target, rfl⟩ := marked
      rw [fieldOfBody_referenceTo bound] at makes ⊢
      split at makes
      next there =>
        have refers := (Field.mk.inj (Except.ok.inj makes)).2.symm
        rw [if_pos (present target refers there), refers]
      next => cases makes
    · rw [fieldOfBody_of_unmarked bound (not_exists.mp marked)] at makes ⊢
      exact makes
  · rw [fieldOfBody_of_bound bound] at makes ⊢
    exact makes

namespace Form

variable {rules : Rules σ} {template : Template} {form larger : Form σ} {key : String}
  {value : Json}

/-- The form of a template ignores what is no key of the template. -/
theorem ignores_of_ofTemplate (made : (ofTemplate rules template).run.value = .ok form)
    (fresh : template.contains key = false) : form.Ignores key := by
  intro name refers
  obtain ⟨-, checked⟩ := ofTemplate_eq_ok_iff.mp made
  have present := (badReference?_eq_none_iff.mp checked name key refers).1
  rw [fresh] at present
  cases present

/-- A template has a key if its form does. -/
theorem contains_of_ofTemplate (made : (ofTemplate rules template).run.value = .ok form)
    (name : String) : form.contains name = template.contains name := by
  obtain ⟨matching, -⟩ := ofTemplate_eq_ok_iff.mp made
  exact matching.contains_eq name

/-- **An entry with a fixed value can be added** to a template that has a form. The form gets the
field of that entry, whatever the entry stood among when it was found to stand for it. -/
theorem ofTemplate_insert_static {among : Template} {fixed : Json}
    (made : (ofTemplate rules template).run.value = .ok form)
    (makes : rules.Makes among key value (.static fixed)) (fresh : template.contains key = false) :
    (ofTemplate rules (template.insert key value)).run.value =
      .ok (form.insert key (.static fixed)) := by
  obtain ⟨matching, checked⟩ := ofTemplate_eq_ok_iff.mp made
  refine ofTemplate_eq_ok_iff.mpr ⟨Table.entrywise_iff.mpr fun name => ?_,
    badReference?_eq_none_iff.mpr fun name target refers => ?_⟩
  · rw [Table.get?_insert, Table.get?_insert]
    split
    next same =>
      subst same
      exact .some (makes.of_contains (by simp))
    next =>
      have rel := matching.rel_get? name
      generalize template.get? name = entry at rel
      generalize form.get? name = held at rel
      cases rel with
      | none => exact .none
      | some makes' =>
        exact .some (makes'.of_contains fun _ _ there => Table.contains_insert_iff.mpr (.inr there))
  · have found := mem_references_iff.mp refers
    rw [Table.get?_insert] at found
    split at found
    next => cases found
    next =>
      have earlier := mem_references_iff.mpr found
      obtain ⟨present, plain⟩ := badReference?_eq_none_iff.mp checked name target earlier
      refine ⟨Table.contains_insert_iff.mpr (.inr present), fun content held => ?_⟩
      have different : target ≠ key := by
        rintro rfl
        exact ignores_of_ofTemplate made fresh name earlier
      rw [Table.get?_insert, if_neg different] at held
      exact plain content held

/-- **An entry that no reference leads to can be taken out** of a template that has a form. The form
loses the field of that entry. -/
theorem ofTemplate_of_insert
    (made : (ofTemplate rules (template.insert key value)).run.value = .ok larger)
    (ignores : larger.Ignores key) (fresh : template.contains key = false) :
    (ofTemplate rules template).run.value = .ok (larger.without key) := by
  obtain ⟨matching, checked⟩ := ofTemplate_eq_ok_iff.mp made
  have absent : template.get? key = none := Table.contains_eq_false_iff.mp fresh
  -- what stands for a reference does not refer to the key that is taken out
  have elsewhere : ∀ {name target}, larger.get? name = some (.reference target) → target ≠ key := by
    rintro name target found rfl
    exact ignores name (mem_references_iff.mpr found)
  refine ofTemplate_eq_ok_iff.mpr ⟨Table.entrywise_iff.mpr fun name => ?_,
    badReference?_eq_none_iff.mpr fun name target refers => ?_⟩
  · have rel := matching.rel_get? name
    rw [Table.get?_insert] at rel
    rw [Table.get?_without]
    split
    next same =>
      rw [same, absent]
      exact .none
    next different =>
      rw [if_neg different] at rel
      generalize template.get? name = entry at rel
      cases held : larger.get? name with
      | none =>
        rw [held] at rel
        cases rel
        exact .none
      | some content =>
        rw [held] at rel
        cases rel with
        | some makes =>
          refine .some (makes.of_contains fun target refers there => ?_)
          exact (Table.contains_insert_iff.mp there).resolve_left (elsewhere (refers ▸ held))
  · have found := mem_references_iff.mp refers
    rw [Table.get?_without] at found
    split at found
    next => cases found
    next =>
      obtain ⟨present, plain⟩ :=
        badReference?_eq_none_iff.mp checked name target (mem_references_iff.mpr found)
      have there := (Table.contains_insert_iff.mp present).resolve_left (elsewhere found)
      refine ⟨there, fun content held => ?_⟩
      rw [Table.get?_without, if_neg (elsewhere found)] at held
      exact plain content held

/-- A form that resembles the form of a template has the keys of the template. -/
theorem Resembles.contains_of_ofTemplate {states : Form σ} (alike : form.Resembles states)
    (made : (ofTemplate rules template).run.value = .ok form) (name : String) :
    states.contains name = template.contains name :=
  (Table.Entrywise.contains_eq alike name).trans (Form.contains_of_ofTemplate made name)

/-- Sources in equal states, where the smaller template has them, leave no difference but the new
field. -/
theorem eq_insert_of_resembles {states states' : Form σ} {content : Content σ}
    (made : (ofTemplate rules template).run.value = .ok form)
    (made' : (ofTemplate rules (template.insert key value)).run.value = .ok larger)
    (held : larger.get? key = some content) (plain : ∀ source, content ≠ .custom source)
    (alike : form.Resembles states) (alike' : larger.Resembles states')
    (equal : ∀ name, template.contains name = true → states'.get? name = states.get? name) :
    states' = states.insert key content := by
  refine Table.ext_get? fun name => ?_
  rw [Table.get?_insert]
  split
  next same =>
    obtain ⟨content', there, related⟩ := alike'.exists_right held
    rw [same, there, related.eq_left plain]
  next different =>
    by_cases present : template.contains name = true
    · exact equal name present
    · have absent : states.contains name = false := by
        rw [alike.contains_of_ofTemplate made, Bool.eq_false_iff]
        exact present
      have absent' : states'.contains name = false := by
        rw [alike'.contains_of_ofTemplate made', Bool.eq_false_iff]
        exact fun there => (Table.contains_insert_iff.mp there).elim different present
      rw [Table.contains_eq_false_iff.mp absent, Table.contains_eq_false_iff.mp absent']

/-- **An unrelated entry disturbs nothing.** Take a template and a key that it does not have. If the
template has a form and the entry stands for a fixed value, the template with the entry has the form
with that field more. If the template with the entry has a form in which no reference leads to the
key, the template has the form without that field.

When both have forms and the field of the entry is a fixed value, a reference or the time, records
that are made from the two forms one after the other, with any sources of the caller in equal
states, are equal for all keys of the template, and they leave equal words, clocks and states. It
does not matter how the context is renewed between two records. For a field that shows the time the
clock has to be fixed while the records of the smaller form are made.
It is if it is fixed in the beginning, unless a source puts a running clock in its place, of which
the new field would take a reading (`Stencil.ValueSource.KeepsFixed.clockFixed`). -/
theorem ofTemplate_unrelated [ValueSource σ] (rules : Rules σ) (template : Template) (key : String)
    (value : Json) (fresh : template.contains key = false) :
    (∀ among form fixed, (ofTemplate rules template).run.value = .ok form →
      rules.fieldOfValue among key value = .ok ⟨key, .static fixed⟩ →
        (ofTemplate rules (template.insert key value)).run.value =
          .ok (form.insert key (.static fixed))) ∧
    (∀ larger, (ofTemplate rules (template.insert key value)).run.value = .ok larger →
      (∀ name, (name, key) ∉ larger.references) →
        (ofTemplate rules template).run.value = .ok (larger.without key)) ∧
    ∀ form larger content, (ofTemplate rules template).run.value = .ok form →
      (ofTemplate rules (template.insert key value)).run.value = .ok larger →
      larger.get? key = some content →
      content.Quiet →
      ∀ {γ : Type} [WordSource γ] (renew : Context γ → Context γ) (context : Context γ)
        states states',
      form.Resembles states → larger.Resembles states' →
      (∀ name, template.contains name = true → states'.get? name = states.get? name) →
      ∀ count, (content.showsTime = true → states.ClockFixed renew context count) →
        let run := states.series renew count context
        let run' := states'.series renew count context
        List.Forall₂ (fun record record' : Record =>
            ∀ name, template.contains name = true → record'.get? name = record.get? name)
          run.1.1 run'.1.1 ∧
        (∀ name, template.contains name = true → run'.1.2.get? name = run.1.2.get? name) ∧
        run'.2 = run.2 := by
  refine ⟨fun among form fixed made makes => ofTemplate_insert_static made makes fresh,
    fun larger made ignores => ofTemplate_of_insert made ignores fresh, ?_⟩
  intro form larger content made made' held quiet γ _ renew context states states' alike alike'
    equal count fixed
  have ignores : states.Ignores key := alike.ignores (ignores_of_ofTemplate made fresh)
  have absent : states.get? key = none := by
    rw [← Table.contains_eq_false_iff, alike.contains_of_ofTemplate made, fresh]
  obtain rfl : states' = states.insert key content :=
    eq_insert_of_resembles made made' held quiet.ne_custom alike alike' equal
  obtain ⟨records, last, left⟩ := series_insert absent ignores quiet fixed
  -- what is bound for another key than the new one is what was bound before
  have other : ∀ {α : Type} (t : Table α) (shown : α) name, template.contains name = true →
      (t.insert key shown).get? name = t.get? name := by
    intro α t shown name present
    rw [Table.get?_insert, if_neg]
    rintro rfl
    rw [fresh] at present
    cases present
  refine ⟨records.imp fun record record' differs => ?_, fun name present => ?_, left⟩
  · obtain ⟨shown, rfl⟩ := differs
    exact other record shown
  · rw [last]
    exact other _ content name present

/-- Rules with a counter, and with identifiers that show the time. -/
def meterRules : Rules StockSource :=
  ⟨(Keywords.builtin .timestamp).merge
    (.ofList [("count", fun name _ => .ok ⟨name, .custom (.sequence 7)⟩)]), .anywhere⟩

/-- A template with a counter, which stands twice, and a pattern. -/
def metered : Template :=
  ⟨[("a", .string "_go:_d"), ("d", .string "_go:count"), ("z", .string "_go:<2>")], by
    unfold InKeyOrder
    decide⟩

/-- The form of that template. -/
def meteredForm : Form StockSource :=
  ⟨[("a", .reference "d"), ("d", .custom (.sequence 7)),
    ("z", .pattern ⟨"", "", 2, 0, 0, Pattern.two_letters_le⟩)], by
    have keys : ["a", "d", "z"].Pairwise (· < ·) := by decide
    exact List.pairwise_map.mp keys⟩

/-- A form that counts and shows an identifier between the counter and the pattern. -/
def stampedForm : Form StockSource := meteredForm.insert "m" (.uuid .timestamp)

/-- An identifier that shows the time, and a fixed value, come and go in the middle. -/
theorem ofTemplate_unrelated_metered :
    (ofTemplate meterRules (metered.insert "m" .null)).run.value =
      .ok (meteredForm.insert "m" (.static .null)) ∧
    (ofTemplate meterRules (metered.insert "m" (.string "_go:uuid"))).run.value = .ok stampedForm ∧
    (ofTemplate meterRules metered).run.value = .ok (stampedForm.without "m") ∧
    ∀ count,
      let context : Context ChaCha8 := ⟨.ofSeed 1, .frozen 5⟩
      let renew := fun context : Context ChaCha8 => ⟨context.words, .frozen 5⟩
      let run := meteredForm.series renew count context
      let run' := stampedForm.series renew count context
      List.Forall₂ (fun record record' : Record =>
          record'.get? "a" = record.get? "a" ∧ record'.get? "z" = record.get? "z")
        run.1.1 run'.1.1 ∧
      run'.1.2.get? "d" = run.1.2.get? "d" ∧ run'.2 = run.2 := by
  have made : (ofTemplate meterRules metered).run.value = .ok meteredForm := rfl
  have made' : (ofTemplate meterRules (metered.insert "m" (.string "_go:uuid"))).run.value =
      .ok stampedForm := rfl
  obtain ⟨added, -, -⟩ := ofTemplate_unrelated meterRules metered "m" .null rfl
  obtain ⟨-, removed, records⟩ :=
    ofTemplate_unrelated meterRules metered "m" (.string "_go:uuid") rfl
  have ignored : ∀ name, (name, "m") ∉ stampedForm.references := by
    have refers : stampedForm.references = [("a", "d")] := by rfl
    simp [refers]
  have equal : ∀ name, metered.contains name = true →
      stampedForm.get? name = meteredForm.get? name := by
    intro name present
    rw [stampedForm, Table.get?_insert, if_neg]
    rintro rfl
    cases present
  refine ⟨added metered meteredForm .null made rfl, made', removed stampedForm made' ignored, ?_⟩
  intro count context renew
  have fixed : meteredForm.ClockFixed renew context count :=
    StockSource.keepsFixed.clockFixed (fun _ _ => .frozen 5) meteredForm (.frozen 5) count
  obtain ⟨alike, last, left⟩ := records meteredForm stampedForm _ made made' rfl .uuid renew
    context meteredForm stampedForm (.refl _) (.refl _) equal count fun _ => fixed
  exact ⟨alike.imp fun _ _ agree => ⟨agree "a" rfl, agree "z" rfl⟩, last "d" rfl, left⟩

/-! ### What an entry can disturb after all -/

/-- An empty array with so many arrays around it. -/
def nestedArrays : ℕ → Json
  | 0 => .array []
  | around + 1 => .array [nestedArrays around]

theorem integral_nestedArrays (around : ℕ) : (nestedArrays around).Integral := by
  induction around with
  | zero => exact .array (by simp)
  | succ around ih => exact .array (by simpa using ih)

theorem within_nestedArrays_iff {around depth : ℕ} :
    (nestedArrays around).Within depth ↔ around < depth := by
  induction around generalizing depth with
  | zero =>
    refine ⟨fun within => ?_, fun positive => ?_⟩
    · cases within with
      | array => exact Nat.succ_pos _
    · obtain ⟨depth, rfl⟩ := Nat.exists_eq_succ_of_ne_zero (Nat.ne_of_gt positive)
      exact .array (by simp)
  | succ around ih =>
    refine ⟨fun within => ?_, fun less => ?_⟩
    · cases within with
      | array each => exact Nat.succ_lt_succ (ih.mp (each _ List.mem_cons_self))
    · obtain ⟨depth, rfl⟩ := Nat.exists_eq_succ_of_ne_zero (Nat.ne_of_gt (Nat.zero_lt_of_lt less))
      exact .array (by simpa using ih.mpr (Nat.lt_of_succ_lt_succ less))

/-- A source that puts a running clock in the place of the one that it is given. -/
inductive Winder where
  /-- It has one state. -/
  | only

instance : ValueSource Winder where
  produce winder context :=
    ((.null, winder), { context with clock := .running (fun reading => reading.toInt64) 0 })

/-- Rules with such a source. -/
def windingRules : Rules Winder :=
  ⟨(Keywords.builtin .random).merge
    (.ofList [("wind", fun name _ => .ok ⟨name, .custom .only⟩)]), .anywhere⟩

/-- A template with such a source, and a time that is shown after it. -/
def winding : Template :=
  ⟨[("a", .string "_go:wind"), ("z", .string "_go:timestamp")], by
    unfold InKeyOrder
    decide⟩

/-- The form of that template. -/
def windingForm : Form Winder :=
  ⟨[("a", .custom .only), ("z", .timestamp)], by
    have keys : ["a", "z"].Pairwise (· < ·) := by decide
    exact List.pairwise_map.mp keys⟩

/-- **An entry can disturb a template in two ways**, even if no reference leads to it. A value that
is nested as deep as the reader allows stands for a fixed value like any other, but no document can
have it for an entry. And if a source puts a running clock in the place of a frozen one, an entry
that shows the time between the source and another time takes a reading away from the latter. -/
theorem unrelated_disturbed :
    let deep := nestedArrays (Json.maxDepth - 1)
    let context : Context ChaCha8 := ⟨.ofSeed 1, .frozen 5⟩
    let larger : Form Winder := windingForm.insert "m" .timestamp
    (Template.decode "\x7b\x7d".toUTF8 = .ok .empty ∧
      Json.readValue Json.maxDepth (deep.write.map some) = .ok (deep, []) ∧
      (∀ among, windingRules.fieldOfValue among "m" deep = .ok ⟨"m", .static deep⟩) ∧
      ∀ bytes template, Template.decode bytes = .ok template → template.get? "m" ≠ some deep) ∧
    (ofTemplate windingRules winding).run.value = .ok windingForm ∧
    (ofTemplate windingRules (winding.insert "m" (.string "_go:timestamp"))).run.value =
      .ok larger ∧
    (∀ name, (name, "m") ∉ larger.references) ∧
    (windingForm.series id 1 context).1.1.map (·.get? "z") = [some (.ofSeconds 0)] ∧
    (larger.series id 1 context).1.1.map (·.get? "z") = [some (.ofSeconds 1)] := by
  intro deep context larger
  have integral : deep.Integral := integral_nestedArrays _
  refine ⟨⟨?_, ?_, fun among => rfl, ?_⟩, rfl, rfl, ?_, rfl, rfl⟩
  · rw [Template.decode, symbols_toUTF8]
    rfl
  · have within : deep.Within Json.maxDepth := within_nestedArrays_iff.mpr (by decide)
    have read := Json.readValue_write integral within delimits_nil
    rwa [List.append_nil] at read
  · intro bytes template decoded found
    have legible :=
      Template.legible_of_decode decoded (Table.mem_of_get?_eq_some found) integral
    exact absurd (within_nestedArrays_iff.mp legible.within) (Nat.lt_irrefl _)
  · have none : larger.references = [] := rfl
    simp [none]

end Form

end Stencil
