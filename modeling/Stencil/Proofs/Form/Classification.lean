import Mathlib.Tactic.Common
import Stencil.Proofs.Form.OfTemplate
import Stencil.Proofs.Pattern.Grammar

/-!
# What an entry stands for

Several rules compete for the body of a directive. It may be bound as a keyword, it may start with
the mark of references, it may be a pattern, and if it is nothing of the kind it is reported as an
unknown keyword. This file states the rules one by one, each with all that it asks of the entry, and
shows that they are what `Stencil.Rules.fieldOfValue` computes. So every entry falls under exactly
one of them.

The last rule is the one that is not read off the code. An unknown keyword is recognized by the
fault that the reader of patterns reports, and it takes a fact about that reader to see that a body
without brackets always has this fault: to locate a body, an opening bracket has to be left
standing.

* `Stencil.Rules.Classifies`: the rules;
* `Stencil.ofText_eq_notFound`: what has no opening bracket is no pattern;
* `Stencil.Rules.fieldOfValue_eq_iff`: the rules are what is computed;
* `Stencil.Form.ofTemplate_classification`: when a template has a form, and which.
-/

namespace Stencil

variable {σ : Type}

/-! ### The rules -/

namespace Rules

/-- What an entry stands for: a field, or a fault. A body that is bound as a keyword is one whatever
it looks like, a body that has the mark of references is one whatever comes after the mark, and of
the other bodies those with a bracket are patterns and those without are unknown. -/
inductive Classifies (rules : Rules σ) (template : Template) (key : String) :
    Json → Except TemplateFault (Field σ) → Prop where
  /-- A value that is no text always has that value. -/
  | value {value : Json} (other : ∀ text, value ≠ .string text) :
    Classifies rules template key value (.ok ⟨key, .static value⟩)
  /-- So does a text that is no directive. -/
  | plain {text : String} (noBody : rules.place.body? text = none) :
    Classifies rules template key (.string text) (.ok ⟨key, .static (.string text)⟩)
  /-- A keyword stands for what its maker makes, be that a field or a fault. -/
  | keyword {text body : String} {maker : Maker σ} (directive : rules.place.body? text = some body)
    (bound : rules.keywords.get? body = some maker) :
    Classifies rules template key (.string text) (maker key body)
  /-- The mark and a key of the template refer to the field of that key. -/
  | reference {text target : String}
    (directive : rules.place.body? text = some (referenceTo target))
    (unbound : rules.keywords.get? (referenceTo target) = none)
    (present : template.contains target = true) :
    Classifies rules template key (.string text) (.ok ⟨key, .reference target⟩)
  /-- The mark and anything else are a fault. -/
  | missing {text target : String}
    (directive : rules.place.body? text = some (referenceTo target))
    (unbound : rules.keywords.get? (referenceTo target) = none)
    (absent : template.contains target = false) :
    Classifies rules template key (.string text)
      (.error (.unresolved key (referenceTo target) (.missingField target)))
  /-- A body without brackets is an unknown keyword. -/
  | unknown {text body : String} (directive : rules.place.body? text = some body)
    (unbound : rules.keywords.get? body = none) (unmarked : ∀ target, body ≠ referenceTo target)
    (opening : '<' ∉ body.toList) (closing : '>' ∉ body.toList) :
    Classifies rules template key (.string text) (.error (.unresolved key body .unknownKeyword))
  /-- A body with a bracket is a pattern if it can be read as one. -/
  | pattern {text body : String} {shape : Pattern}
    (directive : rules.place.body? text = some body) (unbound : rules.keywords.get? body = none)
    (unmarked : ∀ target, body ≠ referenceTo target)
    (bracket : '<' ∈ body.toList ∨ '>' ∈ body.toList) (read : Pattern.ofText body = .ok shape) :
    Classifies rules template key (.string text) (.ok ⟨key, .pattern shape⟩)
  /-- If it cannot be read, the fault tells why. -/
  | invalid {text body : String} {cause : PatternFault}
    (directive : rules.place.body? text = some body) (unbound : rules.keywords.get? body = none)
    (unmarked : ∀ target, body ≠ referenceTo target)
    (bracket : '<' ∈ body.toList ∨ '>' ∈ body.toList) (fails : Pattern.ofText body = .error cause) :
    Classifies rules template key (.string text) (.error (.invalidPattern body cause))

end Rules

/-! ### References and patterns -/

/-- A body has the form of a reference if it is a mark and the name of a field. -/
theorem referenceTarget?_eq_some_iff {body target : String} :
    referenceTarget? body = some target ↔ body = referenceTo target := by
  rw [← String.toList_inj, referenceTo, String.toList_append, String.toList_ofList,
    referenceTarget?]
  rcases body.toList with _ | ⟨c, rest⟩
  · simp
  · by_cases mark : c = referenceMark
    · simp [mark, ← String.toList_inj]
    · simp [mark]

/-- **What has no opening bracket is no pattern**, and the fault is that no body is found in it. -/
theorem ofText_eq_notFound {raw : String} (opening : '<' ∉ raw.toList) :
    Pattern.ofText raw = .error .notFound := by
  rw [ofText_eq_notFound_iff, Option.eq_none_iff_forall_ne_some]
  intro cut located
  refine opening ?_
  rw [(cut?_eq_some_iff.mp located).1]
  simp [Cut.text]

theorem any_isBracket_iff {text : List Char} :
    text.any isBracket = true ↔ '<' ∈ text ∨ '>' ∈ text := by
  simp only [isBracket, List.any_eq_true, Bool.or_eq_true, beq_iff_eq, and_or_left, exists_or,
    exists_eq_right]

/-- A body without brackets is an unknown keyword. -/
theorem fieldOfPattern_of_notMem {key body : String} (opening : '<' ∉ body.toList)
    (closing : '>' ∉ body.toList) :
    (fieldOfPattern key body : Except TemplateFault (Field σ)) =
      .error (.unresolved key body .unknownKeyword) := by
  have noBracket : ¬body.toList.any isBracket := by
    rw [any_isBracket_iff]
    exact not_or_intro opening closing
  rw [fieldOfPattern, ofText_eq_notFound opening]
  exact if_pos ⟨rfl, noBracket⟩

/-- A body with a bracket is a pattern, or none for the reason that the reader gives. -/
theorem fieldOfPattern_of_mem {key body : String}
    (bracket : '<' ∈ body.toList ∨ '>' ∈ body.toList) :
    (fieldOfPattern key body : Except TemplateFault (Field σ)) =
      ((Pattern.ofText body).mapError (.invalidPattern body)).map fun shape =>
        ⟨key, .pattern shape⟩ := by
  rw [fieldOfPattern]
  rcases Pattern.ofText body with cause | shape
  · exact if_neg fun h => h.2 (any_isBracket_iff.mpr bracket)
  · rfl

namespace Rules

variable {rules : Rules σ} {template : Template} {key : String} {value : Json}

/-! ### What is computed -/

theorem fieldOfValue_of_noBody (noBody : rules.place.bodyOf? value = none) :
    rules.fieldOfValue template key value = .ok ⟨key, .static value⟩ := by
  rw [fieldOfValue, noBody]

theorem fieldOfValue_of_directive {text body : String}
    (directive : rules.place.body? text = some body) :
    rules.fieldOfValue template key (.string text) = rules.fieldOfBody template key body := by
  rw [fieldOfValue, MarkerPlace.bodyOf?, directive]

theorem fieldOfBody_of_bound {body : String} {maker : Maker σ}
    (bound : rules.keywords.get? body = some maker) :
    rules.fieldOfBody template key body = maker key body := by
  simp only [fieldOfBody, Keywords.make?, bound, Option.map_some]

theorem fieldOfBody_referenceTo {target : String}
    (unbound : rules.keywords.get? (referenceTo target) = none) :
    rules.fieldOfBody template key (referenceTo target) =
      if template.contains target then .ok ⟨key, .reference target⟩
      else .error (.unresolved key (referenceTo target) (.missingField target)) := by
  have isTarget := referenceTarget?_eq_some_iff.mpr (Eq.refl (referenceTo target))
  simp only [fieldOfBody, Keywords.make?, unbound, Option.map_none, isTarget]

/-- A body that is neither a keyword nor a reference is read as a pattern. -/
theorem fieldOfBody_of_unmarked {body : String} (unbound : rules.keywords.get? body = none)
    (unmarked : ∀ target, body ≠ referenceTo target) :
    rules.fieldOfBody template key body = fieldOfPattern key body := by
  have noTarget : referenceTarget? body = none :=
    Option.eq_none_iff_forall_ne_some.mpr fun target found =>
      unmarked target (referenceTarget?_eq_some_iff.mp found)
  simp only [fieldOfBody, Keywords.make?, unbound, Option.map_none, noTarget]

/-- What is computed for a directive falls under one of the rules. -/
theorem classifies_fieldOfBody {text body : String}
    (directive : rules.place.body? text = some body) :
    rules.Classifies template key (.string text) (rules.fieldOfBody template key body) := by
  rcases bound : rules.keywords.get? body with _ | maker
  · by_cases marked : ∃ target, body = referenceTo target
    · obtain ⟨target, rfl⟩ := marked
      rw [fieldOfBody_referenceTo bound]
      split
      next present => exact .reference directive bound present
      next absent => exact .missing directive bound (Bool.eq_false_iff.mpr absent)
    · have unmarked := not_exists.mp marked
      rw [fieldOfBody_of_unmarked bound unmarked]
      by_cases bracket : '<' ∈ body.toList ∨ '>' ∈ body.toList
      · rw [fieldOfPattern_of_mem bracket]
        rcases read : Pattern.ofText body with cause | shape
        · exact .invalid directive bound unmarked bracket read
        · exact .pattern directive bound unmarked bracket read
      · obtain ⟨opening, closing⟩ := not_or.mp bracket
        rw [fieldOfPattern_of_notMem opening closing]
        exact .unknown directive bound unmarked opening closing
  · rw [fieldOfBody_of_bound bound]
    exact .keyword directive bound

/-- What is computed for an entry falls under one of the rules. -/
theorem classifies_fieldOfValue (rules : Rules σ) (template : Template) (key : String)
    (value : Json) :
    rules.Classifies template key value (rules.fieldOfValue template key value) := by
  by_cases isText : ∃ text, value = .string text
  · obtain ⟨text, rfl⟩ := isText
    rcases directive : rules.place.body? text with _ | body
    · have noBody : rules.place.bodyOf? (.string text) = none := directive
      rw [fieldOfValue_of_noBody noBody]
      exact .plain directive
    · rw [fieldOfValue_of_directive directive]
      exact classifies_fieldOfBody directive
  · have other := not_exists.mp isText
    have makes : rules.fieldOfValue template key value = .ok ⟨key, .static value⟩ :=
      makes_of_plain fun text same => absurd same (other text)
    rw [makes]
    exact .value other

/-- **The rules are what is computed.** -/
theorem fieldOfValue_eq_iff {result : Except TemplateFault (Field σ)} :
    rules.fieldOfValue template key value = result ↔
      rules.Classifies template key value result := by
  constructor
  · rintro rfl
    exact classifies_fieldOfValue rules template key value
  · rintro (other | noBody | ⟨directive, bound⟩ | ⟨directive, unbound, present⟩ |
      ⟨directive, unbound, absent⟩ | ⟨directive, unbound, unmarked, opening, closing⟩ |
      ⟨directive, unbound, unmarked, bracket, read⟩ |
      ⟨directive, unbound, unmarked, bracket, fails⟩)
    · exact makes_of_plain fun text same => absurd same (other text)
    · exact fieldOfValue_of_noBody noBody
    · rw [fieldOfValue_of_directive directive, fieldOfBody_of_bound bound]
    · rw [fieldOfValue_of_directive directive, fieldOfBody_referenceTo unbound, if_pos present]
    · rw [fieldOfValue_of_directive directive, fieldOfBody_referenceTo unbound,
        if_neg (Bool.eq_false_iff.mp absent)]
    · rw [fieldOfValue_of_directive directive, fieldOfBody_of_unmarked unbound unmarked,
        fieldOfPattern_of_notMem opening closing]
    · rw [fieldOfValue_of_directive directive, fieldOfBody_of_unmarked unbound unmarked,
        fieldOfPattern_of_mem bracket, read]
      rfl
    · rw [fieldOfValue_of_directive directive, fieldOfBody_of_unmarked unbound unmarked,
        fieldOfPattern_of_mem bracket, fails]
      rfl

/-- **Every entry falls under exactly one rule.** -/
theorem existsUnique_classifies (rules : Rules σ) (template : Template) (key : String)
    (value : Json) : ∃! result, rules.Classifies template key value result :=
  ⟨_, fieldOfValue_eq_iff.mp rfl, fun _ classified => (fieldOfValue_eq_iff.mpr classified).symm⟩

/-- The rules make a field if it falls under one of them. -/
theorem makes_iff {content : Content σ} :
    rules.Makes template key value content ↔
      rules.Classifies template key value (.ok ⟨key, content⟩) :=
  fieldOfValue_eq_iff

/-- **A body without brackets is never a pattern gone wrong**, unless a keyword says so. -/
theorem not_classifies_invalidPattern {text body : String}
    (directive : rules.place.body? text = some body) (unbound : rules.keywords.get? body = none)
    (opening : '<' ∉ body.toList) (closing : '>' ∉ body.toList) (pattern : String)
    (cause : PatternFault) :
    ¬rules.Classifies template key (.string text) (.error (.invalidPattern pattern cause)) := by
  rw [← fieldOfValue_eq_iff, fieldOfValue_of_directive directive]
  by_cases marked : ∃ target, body = referenceTo target
  · obtain ⟨target, rfl⟩ := marked
    rw [fieldOfBody_referenceTo unbound]
    split <;> simp
  · rw [fieldOfBody_of_unmarked unbound (not_exists.mp marked),
      fieldOfPattern_of_notMem opening closing]
    simp

end Rules

/-! ### Forms -/

namespace Form

variable {rules : Rules σ} {template : Template}

/-- The references of a template are valid: what stands for a reference refers to an entry that
stands for a field, and for no reference. -/
def ValidReferences (rules : Rules σ) (template : Template) : Prop :=
  ∀ key value target, template.get? key = some value →
    rules.Classifies template key value (.ok ⟨key, .reference target⟩) →
      ∃ shown content, template.get? target = some shown ∧
        rules.Classifies template target shown (.ok ⟨target, content⟩) ∧
          content.isReference = false

/-- The references of a form pass the check if those of the entries are valid. -/
theorem badReference?_eq_none_iff_valid {form : Form σ}
    (matching : template.Entrywise (rules.Makes template) form) :
    badReference? template form = none ↔ ValidReferences rules template := by
  rw [badReference?_eq_none_iff]
  constructor
  · intro checked key value target entry classified
    obtain ⟨content, held, makes⟩ := matching.exists_right entry
    obtain rfl := makes.unique (Rules.makes_iff.mpr classified)
    obtain ⟨present, plain⟩ := checked key target (mem_references_iff.mpr held)
    obtain ⟨shown, there⟩ := Option.isSome_iff_exists.mp present
    obtain ⟨content, leads, makes⟩ := matching.exists_right there
    exact ⟨shown, content, there, Rules.makes_iff.mp makes, plain content leads⟩
  · intro valid name target refers
    obtain ⟨value, entry, makes⟩ := matching.exists_left (mem_references_iff.mp refers)
    obtain ⟨shown, content, there, classified, own⟩ :=
      valid name value target entry (Rules.makes_iff.mp makes)
    refine ⟨Option.isSome_iff_exists.mpr ⟨shown, there⟩, fun content' leads => ?_⟩
    obtain ⟨shown', there', makes'⟩ := matching.exists_left leads
    obtain rfl := Option.some.inj (there.symm.trans there')
    obtain rfl := makes'.unique (Rules.makes_iff.mpr classified)
    exact own

/-- **When a template has a form, and which.** Every entry falls under exactly one of the rules. The
template has a form if and only if each entry stands for a field that is named after its key, and
each reference is valid. Then the form has the keys of the template, and for each of them the field
that its entry stands for. A body without brackets cannot be read as a pattern, because no body is
found in it, and unless it is bound as a keyword it is never reported as a pattern gone wrong. -/
theorem ofTemplate_classification (rules : Rules σ) (template : Template) :
    (∀ key value, ∃! result, rules.Classifies template key value result) ∧
    ((∃ form, (ofTemplate rules template).run.value = .ok form) ↔
      (∀ key value, template.get? key = some value →
        ∃ field, rules.Classifies template key value (.ok field) ∧ field.name = key) ∧
      ValidReferences rules template) ∧
    (∀ form, (ofTemplate rules template).run.value = .ok form →
      form.keys = template.keys ∧
      ∀ key value, template.get? key = some value → ∃ field,
        rules.Classifies template key value (.ok field) ∧ form.field? key = some field) ∧
    (∀ body : String, '<' ∉ body.toList → '>' ∉ body.toList →
      Pattern.ofText body = .error .notFound ∧
      ∀ key text, rules.place.body? text = some body → rules.keywords.get? body = none →
        ∀ pattern cause, ¬rules.Classifies template key (.string text)
          (.error (.invalidPattern pattern cause))) := by
  refine ⟨rules.existsUnique_classifies template, ⟨?_, ?_⟩, ?_, ?_⟩
  · rintro ⟨form, made⟩
    obtain ⟨matching, checked⟩ := ofTemplate_eq_ok_iff.mp made
    refine ⟨fun key value entry => ?_, (badReference?_eq_none_iff_valid matching).mp checked⟩
    obtain ⟨content, -, makes⟩ := matching.exists_right entry
    exact ⟨⟨key, content⟩, Rules.makes_iff.mp makes, rfl⟩
  · rintro ⟨fields, valid⟩
    obtain ⟨form, matching⟩ : ∃ form, template.Entrywise (rules.Makes template) form := by
      refine Table.exists_entrywise fun key value entry => ?_
      obtain ⟨⟨name, content⟩, classified, rfl⟩ := fields key value entry
      exact ⟨content, Rules.makes_iff.mpr classified⟩
    exact ⟨form, ofTemplate_eq_ok_iff.mpr
      ⟨matching, (badReference?_eq_none_iff_valid matching).mpr valid⟩⟩
  · intro form made
    obtain ⟨matching, -⟩ := ofTemplate_eq_ok_iff.mp made
    refine ⟨matching.keys_eq.symm, fun key value entry => ?_⟩
    obtain ⟨content, held, makes⟩ := matching.exists_right entry
    exact ⟨⟨key, content⟩, Rules.makes_iff.mp makes, by rw [field?, held, Option.map_some]⟩
  · intro body opening closing
    refine ⟨ofText_eq_notFound opening, fun key text directive unbound => ?_⟩
    exact Rules.not_classifies_invalidPattern directive unbound opening closing

/-- Rules with keywords that look like nothing, like a reference and like a pattern. -/
def contestedRules : Rules StockSource :=
  ⟨.ofList [("", fun name _ => .ok ⟨name, .static (.bool true)⟩),
    ("_f", fun name _ => .ok ⟨name, .timestamp⟩),
    ("<1>", fun name _ => .ok ⟨name, .uuid .random⟩)], .anywhere⟩

/-- A template with these keywords, a reference and a pattern. -/
def contested : Template :=
  ⟨[("a", .string "_go:"), ("b", .string "_go:_f"), ("c", .string "_go:<1>"),
    ("d", .string "_go:_e"), ("e", .string "_go:<2>"), ("f", .null)], by
    unfold InKeyOrder
    decide⟩

/-- The form of that template. -/
def contestedForm : Form StockSource :=
  ⟨[("a", .static (.bool true)), ("b", .timestamp), ("c", .uuid .random), ("d", .reference "e"),
    ("e", .pattern ⟨"", "", 2, 0, 0, Pattern.two_letters_le⟩), ("f", .static .null)], by
    have keys : ["a", "b", "c", "d", "e", "f"].Pairwise (· < ·) := by decide
    exact List.pairwise_map.mp keys⟩

/-- A template with an entry that refers to itself. -/
def circular : Template := ⟨[("a", .string "_go:_a")], List.pairwise_singleton ..⟩

/-- Keywords win over what they look like, and a reference to itself makes no form. -/
theorem ofTemplate_classification_contested :
    (ofTemplate contestedRules contested).run.value = .ok contestedForm ∧
    contestedRules.Classifies contested "a" (.string "_go:") (.ok ⟨"a", .static (.bool true)⟩) ∧
    contestedRules.Classifies contested "b" (.string "_go:_f") (.ok ⟨"b", .timestamp⟩) ∧
    contestedRules.Classifies contested "c" (.string "_go:<1>") (.ok ⟨"c", .uuid .random⟩) ∧
    contestedRules.Classifies contested "d" (.string "_go:_e") (.ok ⟨"d", .reference "e"⟩) ∧
    contestedRules.Classifies contested "e" (.string "_go:<2>")
      (.ok ⟨"e", .pattern ⟨"", "", 2, 0, 0, by decide⟩⟩) ∧
    ¬∃ form, (ofTemplate contestedRules circular).run.value = .ok form := by
  have made : (ofTemplate contestedRules contested).run.value = .ok contestedForm := rfl
  obtain ⟨-, -, fields, -⟩ := ofTemplate_classification contestedRules contested
  obtain ⟨-, held⟩ := fields contestedForm made
  have stands : ∀ key value content, contested.get? key = some value →
      contestedForm.get? key = some content →
        contestedRules.Classifies contested key value (.ok ⟨key, content⟩) := by
    intro key value content entry found
    obtain ⟨field, classified, shown⟩ := held key value entry
    rw [field?, found] at shown
    obtain rfl := Option.some.inj shown
    exact classified
  refine ⟨made, stands "a" _ _ rfl rfl, stands "b" _ _ rfl rfl, stands "c" _ _ rfl rfl,
    stands "d" _ _ rfl rfl, stands "e" _ _ rfl rfl, ?_⟩
  obtain ⟨unique, succeeds, -, -⟩ := ofTemplate_classification contestedRules circular
  have refers : contestedRules.Classifies circular "a" (.string "_go:_a")
      (.ok ⟨"a", .reference "a"⟩) :=
    .reference rfl rfl rfl
  intro made
  obtain ⟨shown, content, there, classified, own⟩ :=
    (succeeds.mp made).2 "a" _ "a" rfl refers
  obtain rfl : Json.string "_go:_a" = shown := Option.some.inj there
  have same := (unique "a" _).unique refers classified
  obtain rfl := (Field.mk.inj (Except.ok.inj same)).2
  cases own

end Form

end Stencil
