import Mathlib.Tactic.Common
import Stencil.Proofs.Form.Classification
import Stencil.Proofs.Text.Bytes

/-!
# Which fault a template is refused for

A template can be wrong in many places at once, and it is refused for one of them. There are two
rounds. In the first every entry is looked at on its own, and it may stand for a fault or for a
field of another name. The second looks at the references, of which some may come from keywords, and
is only reached if no entry fails in the first. Within a round the entries are taken in the order of
their keys. Both rounds are a search for the first entry of a list in key order, so one lemma says
of both that what is found belongs to the **least** key that has anything to report.

* `Stencil.InKeyOrder.findSome?_eq_some_iff`: what a search in key order finds;
* `Stencil.Rules.Refuses`: an entry fails on its own;
* `Stencil.Rules.Misleads`: a reference that leads nowhere, or to another reference;
* `Stencil.Form.ofTemplate_fault`: the fault of a template.
-/

namespace Stencil

variable {σ α β : Type}

/-! ### Searching in key order -/

/-- **A search in key order finds the entry of the least key** for which there is something to
find. -/
theorem InKeyOrder.findSome?_eq_some_iff {entries : List (String × α)}
    (ordered : InKeyOrder entries) {f : String × α → Option β} {b : β} :
    entries.findSome? f = some b ↔
      ∃ entry ∈ entries, f entry = some b ∧
        ∀ other ∈ entries, other.1 < entry.1 → f other = none := by
  rw [List.findSome?_eq_some_iff]
  constructor
  · rintro ⟨before, entry, after, rfl, found, none_before⟩
    refine ⟨entry, by simp, found, fun other mem below => ?_⟩
    obtain ⟨above, -⟩ := List.pairwise_cons.mp (List.pairwise_append.mp ordered).2.1
    -- an entry with a smaller key stands neither at the one that is found nor after it
    rcases List.mem_append.mp mem with mem | mem
    · exact none_before other mem
    · rcases List.mem_cons.mp mem with rfl | mem
      · exact absurd below (String.lt_irrefl _)
      · exact absurd below (String.lt_asymm (above other mem))
  · rintro ⟨entry, mem, found, none_below⟩
    obtain ⟨before, after, rfl⟩ := List.append_of_mem mem
    refine ⟨before, entry, after, rfl, found, fun other earlier => ?_⟩
    have below := (List.pairwise_append.mp ordered).2.2 other earlier entry List.mem_cons_self
    exact none_below other (List.mem_append_left _ earlier) below

/-- A key comes before another one in the order of their bytes. -/
def KeyBefore (key other : String) : Prop :=
  key.toUTF8.data.toList < other.toUTF8.data.toList

theorem keyBefore_iff {key other : String} : KeyBefore key other ↔ key < other := by
  rw [KeyBefore, ← bytesOf_toList, ← bytesOf_toList, bytesOf_lt_iff]
  exact String.lt_iff.symm

/-! ### Entries that fail on their own -/

namespace Rules

/-- **An entry fails on its own**, with a fault. -/
inductive Refuses (rules : Rules σ) (template : Template) (key : String) :
    Json → TemplateFault → Prop where
  /-- It stands for the fault. -/
  | stands {value : Json} {fault : TemplateFault}
    (classified : rules.Classifies template key value (.error fault)) :
    Refuses rules template key value fault
  /-- Its keyword makes a field of another name. -/
  | misnamed {text : String} {field : Field σ}
    (classified : rules.Classifies template key (.string text) (.ok field))
    (other : field.name ≠ key) :
    Refuses rules template key (.string text)
      (.unresolved key text (.misnamedField field.name))

/-- An entry stands for a field that is named after its key. -/
def Accepts (rules : Rules σ) (template : Template) (key : String) (value : Json) : Prop :=
  ∃ field, rules.Classifies template key value (.ok field) ∧ field.name = key

variable {rules : Rules σ} {template : Template} {key : String} {value : Json}
  {fault : TemplateFault}

/-- Only a text can stand for a field of another name. -/
theorem exists_text_of_misnamed {field : Field σ}
    (made : rules.fieldOfValue template key value = .ok field) (other : field.name ≠ key) :
    ∃ text, value = .string text := by
  by_contra noText
  have plain : rules.fieldOfValue template key value = .ok ⟨key, .static value⟩ :=
    makes_of_plain fun text same => absurd ⟨text, same⟩ noText
  rw [plain] at made
  exact other (congrArg Field.name (Except.ok.inj made)).symm

/-- **An entry is refused if it fails on its own.** -/
theorem fieldOf_eq_error_iff :
    rules.fieldOf template key value = .error fault ↔ rules.Refuses template key value fault := by
  constructor
  · intro refused
    unfold fieldOf at refused
    rcases made : rules.fieldOfValue template key value with cause | field
    · rw [made] at refused
      obtain rfl := Except.error.inj refused
      exact .stands (fieldOfValue_eq_iff.mp made)
    · rw [made] at refused
      by_cases named : field.name = key
      · simp only [if_pos named] at refused
        cases refused
      · simp only [if_neg named] at refused
        obtain rfl := Except.error.inj refused
        obtain ⟨text, rfl⟩ := exists_text_of_misnamed made named
        exact .misnamed (fieldOfValue_eq_iff.mp made) named
  · rintro (classified | ⟨classified, other⟩)
    · rw [fieldOf, fieldOfValue_eq_iff.mpr classified]
    · rw [fieldOf, fieldOfValue_eq_iff.mpr classified]
      exact if_neg other

/-- An entry is accepted if it does not fail on its own. -/
theorem accepts_iff :
    rules.Accepts template key value ↔ ∃ field, rules.fieldOf template key value = .ok field := by
  constructor
  · rintro ⟨field, classified, named⟩
    refine ⟨field, ?_⟩
    rw [fieldOf, fieldOfValue_eq_iff.mpr classified]
    exact if_pos named
  · rintro ⟨⟨name, content⟩, accepted⟩
    obtain ⟨rfl, makes⟩ := fieldOf_eq_ok_iff.mp accepted
    exact ⟨⟨name, content⟩, makes_iff.mp makes, rfl⟩

/-- What an entry has to report in the first round. -/
def ownFault? (rules : Rules σ) (template : Template) (entry : String × Json) :
    Option TemplateFault :=
  match rules.fieldOf template entry.1 entry.2 with
  | .error fault => some fault
  | .ok _ => none

theorem ownFault?_eq_some_iff :
    rules.ownFault? template (key, value) = some fault ↔
      rules.Refuses template key value fault := by
  rw [← fieldOf_eq_error_iff, ownFault?]
  cases rules.fieldOf template key value <;> simp

theorem ownFault?_eq_none_iff :
    rules.ownFault? template (key, value) = none ↔ rules.Accepts template key value := by
  rw [accepts_iff, ownFault?]
  cases rules.fieldOf template key value <;> simp

/-! ### References that mislead -/

/-- An entry stands for a reference to a field. -/
def Refers (rules : Rules σ) (template : Template) (key target : String) : Prop :=
  ∃ value, template.get? key = some value ∧
    rules.Classifies template key value (.ok ⟨key, .reference target⟩)

/-- **A reference misleads**, for a reason. -/
inductive Misleads (rules : Rules σ) (template : Template) (key target : String) :
    UnresolvedReason → Prop where
  /-- There is no entry for its target. -/
  | missing (refers : rules.Refers template key target)
    (absent : template.contains target = false) :
    Misleads rules template key target (.missingField target)
  /-- Its target stands for a reference itself. -/
  | chained {further : String} (refers : rules.Refers template key target)
    (leads : rules.Refers template target further) :
    Misleads rules template key target (.chainedReference target)

theorem Misleads.refers {target : String} {reason : UnresolvedReason}
    (misleads : rules.Misleads template key target reason) :
    rules.Refers template key target := by
  cases misleads with
  | missing refers _ => exact refers
  | chained refers _ => exact refers

/-- **An entry is accepted, or it fails on its own in one way.** -/
theorem accepts_or_refuses (rules : Rules σ) (template : Template) (key : String) (value : Json) :
    (rules.Accepts template key value ∧ ∀ fault, ¬rules.Refuses template key value fault) ∨
      (¬rules.Accepts template key value ∧ ∃! fault, rules.Refuses template key value fault) := by
  simp only [accepts_iff, ← fieldOf_eq_error_iff]
  rcases rules.fieldOf template key value with fault | field
  · refine .inr ⟨?_, fault, rfl, fun other same => (Except.error.inj same).symm⟩
    rintro ⟨field, same⟩
    cases same
  · refine .inl ⟨⟨field, rfl⟩, ?_⟩
    intro fault same
    cases same

end Rules

/-! ### The first round -/

namespace Form

variable {rules : Rules σ} {template : Template} {form : Form σ} {fault : TemplateFault}

/-- Adding entries fails with what the first of them has to report. -/
theorem value_addEntries_eq_error_iff {entries : List (String × Json)} {start : Form σ} :
    (addEntries rules template entries start).run.value = .error fault ↔
      entries.findSome? (rules.ownFault? template) = some fault := by
  induction entries generalizing start with
  | nil => exact iff_of_false (fun h => by cases h) (fun h => by cases h)
  | cons entry rest ih =>
    obtain ⟨key, value⟩ := entry
    rw [addEntries, Logged.value_bind, Rules.value_recognize, List.findSome?_cons,
      Rules.ownFault?]
    rcases rules.fieldOf template key value with cause | field
    · exact ⟨fun h => congrArg some (Except.error.inj h), fun h => congrArg _ (Option.some.inj h)⟩
    · exact ih

/-- **The first round fails with the fault of the least key that is refused.** -/
theorem value_addEntries_empty_eq_error_iff :
    (addEntries rules template template.entries .empty).run.value = .error fault ↔
      ∃ key value, template.get? key = some value ∧ rules.Refuses template key value fault ∧
        ∀ earlier shown, template.get? earlier = some shown → KeyBefore earlier key →
          rules.Accepts template earlier shown := by
  simp only [value_addEntries_eq_error_iff, template.ordered.findSome?_eq_some_iff, Prod.exists,
    Prod.forall, Rules.ownFault?_eq_some_iff, Rules.ownFault?_eq_none_iff, keyBefore_iff,
    Table.get?_eq_some_iff]

/-- The first round succeeds if no entry is refused. -/
theorem exists_value_addEntries_iff :
    (∃ form, (addEntries rules template template.entries .empty).run.value = .ok form) ↔
      ∀ key value, template.get? key = some value → rules.Accepts template key value := by
  constructor
  · rintro ⟨form, added⟩ key value entry
    obtain ⟨content, -, makes⟩ :=
      (value_addEntries_empty_eq_ok_iff.mp added).exists_right entry
    exact ⟨⟨key, content⟩, Rules.makes_iff.mp makes, rfl⟩
  · intro accepted
    rcases added : (addEntries rules template template.entries .empty).run.value with cause | form
    · obtain ⟨key, value, entry, refused, -⟩ := value_addEntries_empty_eq_error_iff.mp added
      obtain ⟨field, fine⟩ := Rules.accepts_iff.mp (accepted key value entry)
      rw [Rules.fieldOf_eq_error_iff.mpr refused] at fine
      cases fine
    · exact ⟨form, rfl⟩

/-! ### The second round -/

/-- The references of a form are in key order. -/
theorem inKeyOrder_references (form : Form σ) : InKeyOrder form.references := by
  refine List.Pairwise.filterMap _ ?_ form.ordered
  rintro ⟨name, content⟩ ⟨name', content'⟩ below ⟨_, _⟩ mem ⟨_, _⟩ mem'
  obtain ⟨_, -, same⟩ := Option.map_eq_some_iff.mp mem
  obtain ⟨_, -, same'⟩ := Option.map_eq_some_iff.mp mem'
  cases same
  cases same'
  exact below

section

variable (matching : template.Entrywise (rules.Makes template) form)

include matching

/-- The references of the form are the entries that stand for references. -/
theorem mem_references_iff_refers {key target : String} :
    (key, target) ∈ form.references ↔ rules.Refers template key target := by
  rw [mem_references_iff]
  constructor
  · intro held
    obtain ⟨value, entry, makes⟩ := matching.exists_left held
    exact ⟨value, entry, Rules.makes_iff.mp makes⟩
  · rintro ⟨value, entry, classified⟩
    obtain ⟨content, held, makes⟩ := matching.exists_right entry
    obtain rfl := makes.unique (Rules.makes_iff.mpr classified)
    exact held

/-- **A reference of the form has a fault if it misleads**, and the fault names the reason. -/
theorem referenceFault?_eq_some_iff {key target : String}
    (refers : rules.Refers template key target) :
    referenceFault? template form key target = some fault ↔
      ∃ reason, rules.Misleads template key target reason ∧
        fault = .unresolved key (referenceTo target) reason := by
  have chain : (form.get? target).any Content.isReference = true ↔
      ∃ further, rules.Refers template target further := by
    simp only [← mem_references_iff_refers matching, mem_references_iff]
    rcases form.get? target with _ | content
    · simp
    · cases content <;> simp [Content.isReference, Content.target?]
  unfold referenceFault?
  cases present : template.contains target with
  | false =>
    simp only [Bool.not_false, if_true, Option.some.injEq]
    constructor
    · rintro rfl
      exact ⟨_, .missing refers present, rfl⟩
    · rintro ⟨reason, ⟨-, -⟩ | ⟨-, further, entry, -⟩, rfl⟩
      · rfl
      · -- a target that stands for a reference is an entry
        rw [Table.contains, entry] at present
        cases present
  | true =>
    simp only [Bool.not_true, Bool.false_eq_true, if_false]
    constructor
    · intro found
      split at found
      · next chained =>
        obtain ⟨further, leads⟩ := chain.mp chained
        obtain rfl := Option.some.inj found
        exact ⟨_, .chained refers leads, rfl⟩
      · cases found
    · rintro ⟨reason, ⟨-, absent⟩ | ⟨-, leads⟩, rfl⟩
      · rw [present] at absent
        cases absent
      · rw [if_pos (chain.mpr ⟨_, leads⟩)]

/-- **The second round fails with the fault of the least key whose reference misleads.** -/
theorem badReference?_eq_some_iff :
    badReference? template form = some fault ↔
      ∃ key target reason, rules.Misleads template key target reason ∧
        fault = .unresolved key (referenceTo target) reason ∧
        ∀ earlier other reason', KeyBefore earlier key →
          ¬rules.Misleads template earlier other reason' := by
  have refers : ∀ {key target}, (key, target) ∈ form.references ↔
      rules.Refers template key target := mem_references_iff_refers matching
  rw [badReference?, (inKeyOrder_references form).findSome?_eq_some_iff]
  constructor
  · rintro ⟨⟨key, target⟩, mem, found, none_below⟩
    obtain ⟨reason, misleads, rfl⟩ :=
      (referenceFault?_eq_some_iff matching (refers.mp mem)).mp found
    refine ⟨key, target, reason, misleads, rfl, fun earlier other reason' before also => ?_⟩
    have fine : referenceFault? template form earlier other = none :=
      none_below (earlier, other) (refers.mpr also.refers) (keyBefore_iff.mp before)
    have fails := (referenceFault?_eq_some_iff matching also.refers).mpr ⟨reason', also, rfl⟩
    rw [fine] at fails
    cases fails
  · rintro ⟨key, target, reason, misleads, rfl, none_before⟩
    refine ⟨(key, target), refers.mpr misleads.refers, ?_, ?_⟩
    · exact (referenceFault?_eq_some_iff matching misleads.refers).mpr ⟨reason, misleads, rfl⟩
    · rintro ⟨earlier, other⟩ mem below
      rw [Option.eq_none_iff_forall_ne_some]
      intro fault' found
      obtain ⟨reason', also, -⟩ :=
        (referenceFault?_eq_some_iff matching (refers.mp mem)).mp found
      exact none_before earlier other reason' (keyBefore_iff.mpr below) also

end

/-! ### Both rounds -/

/-- **A template is refused in the first round or in the second.** -/
theorem ofTemplate_eq_error_iff :
    (ofTemplate rules template).run.value = .error fault ↔
      (∃ key value, template.get? key = some value ∧ rules.Refuses template key value fault ∧
        ∀ earlier shown, template.get? earlier = some shown → KeyBefore earlier key →
          rules.Accepts template earlier shown) ∨
      ((∀ key value, template.get? key = some value → rules.Accepts template key value) ∧
        ∃ key target reason, rules.Misleads template key target reason ∧
          fault = .unresolved key (referenceTo target) reason ∧
          ∀ earlier other reason', KeyBefore earlier key →
            ¬rules.Misleads template earlier other reason') := by
  rw [← value_addEntries_empty_eq_error_iff, ← exists_value_addEntries_iff, value_ofTemplate]
  rcases added : (addEntries rules template template.entries .empty).run.value with cause | form
  · refine ⟨.inl, fun refused => refused.resolve_right ?_⟩
    rintro ⟨⟨form, fine⟩, -⟩
    cases fine
  · rw [← badReference?_eq_some_iff (value_addEntries_empty_eq_ok_iff.mp added), Except.bind]
    cases badReference? template form <;> simp

/-- **The fault of a template.** If entries fail on their own, it is the fault of the one with the
least key, in the order of bytes, whatever is wrong with the others and with the references. If all
entries are accepted, it is the fault of the reference with the least key among those whose target
is not there or is a reference itself. An entry fails on its own in one way at most: what a keyword
fails with is passed on, and a field of another name is reported with the text of the entry. -/
theorem ofTemplate_fault (rules : Rules σ) (template : Template) :
    (∀ fault, (ofTemplate rules template).run.value = .error fault ↔
      (∃ key value, template.get? key = some value ∧ rules.Refuses template key value fault ∧
        ∀ earlier shown, template.get? earlier = some shown → KeyBefore earlier key →
          rules.Accepts template earlier shown) ∨
      ((∀ key value, template.get? key = some value → rules.Accepts template key value) ∧
        ∃ key target reason, rules.Misleads template key target reason ∧
          fault = .unresolved key (referenceTo target) reason ∧
          ∀ earlier other reason', KeyBefore earlier key →
            ¬rules.Misleads template earlier other reason')) ∧
    (∀ key value,
      (rules.Accepts template key value ∧ ∀ fault, ¬rules.Refuses template key value fault) ∨
      (¬rules.Accepts template key value ∧ ∃! fault, rules.Refuses template key value fault)) ∧
    (∀ key text body maker, rules.place.body? text = some body →
      rules.keywords.get? body = some maker →
      (∀ fault, maker key body = .error fault → rules.Refuses template key (.string text) fault) ∧
      ∀ field, maker key body = .ok field → field.name ≠ key →
        rules.Refuses template key (.string text)
          (.unresolved key text (.misnamedField field.name))) ∧
    ∀ key value own fault, template.get? key = some value →
      rules.Refuses template key value own → (ofTemplate rules template).run.value = .error fault →
        ∃ first shown, template.get? first = some shown ∧
          rules.Refuses template first shown fault ∧ ¬KeyBefore key first := by
  refine ⟨fun fault => ofTemplate_eq_error_iff, rules.accepts_or_refuses template, ?_, ?_⟩
  · intro key text body maker directive bound
    have classified : rules.Classifies template key (.string text) (maker key body) :=
      .keyword directive bound
    refine ⟨fun fault fails => ?_, fun field made other => ?_⟩
    · rw [fails] at classified
      exact .stands classified
    · rw [made] at classified
      exact .misnamed classified other
  · intro key value own fault entry refuses fails
    have notAccepted : ¬rules.Accepts template key value := fun accepted => by
      rcases rules.accepts_or_refuses template key value with ⟨-, never⟩ | ⟨never, -⟩
      · exact never own refuses
      · exact never accepted
    rcases ofTemplate_eq_error_iff.mp fails with ⟨first, shown, there, refused, fine⟩ | ⟨fine, -⟩
    · exact ⟨first, shown, there, refused, fun before => notAccepted (fine key value entry before)⟩
    · exact absurd (fine key value entry) notAccepted

/-- Rules with a keyword that makes a field of another name and one that refers to no entry. -/
def carelessRules : Rules StockSource :=
  ⟨.ofList [("alias", fun _ _ => .ok ⟨"z", .timestamp⟩),
    ("stray", fun name _ => .ok ⟨name, .reference "nowhere"⟩)], .anywhere⟩

/-- A template in which every entry is at fault in its own way. -/
def crowded : Template :=
  ⟨[("a", .string "_go:stray"), ("b", .string "_go:alias"), ("c", .string "_go:what")], by
    unfold InKeyOrder
    decide⟩

/-- The entry that is reported fails on its own; the reference before it is not looked at, and the
entry after it fails as well. -/
theorem ofTemplate_fault_crowded :
    (ofTemplate carelessRules crowded).run.value =
      .error (.unresolved "b" "_go:alias" (.misnamedField "z")) ∧
    carelessRules.Refuses crowded "b" (.string "_go:alias")
      (.unresolved "b" "_go:alias" (.misnamedField "z")) ∧
    carelessRules.Refuses crowded "c" (.string "_go:what")
      (.unresolved "c" "what" .unknownKeyword) ∧
    ∃ first shown, crowded.get? first = some shown ∧
      carelessRules.Refuses crowded first shown
        (.unresolved "b" "_go:alias" (.misnamedField "z")) ∧ ¬KeyBefore "c" first := by
  have refused : (ofTemplate carelessRules crowded).run.value =
    .error (.unresolved "b" "_go:alias" (.misnamedField "z")) := rfl
  have unknown : carelessRules.Refuses crowded "c" (.string "_go:what")
      (.unresolved "c" "what" .unknownKeyword) :=
    Rules.fieldOf_eq_error_iff.mp rfl
  obtain ⟨-, -, keyword, first⟩ := ofTemplate_fault carelessRules crowded
  refine ⟨refused, ?_, unknown, first "c" _ _ _ rfl unknown refused⟩
  exact (keyword "b" "_go:alias" "alias" _ rfl rfl).2 ⟨"z", .timestamp⟩ rfl (by decide)

/-- A template with two references that mislead. -/
def misleading : Template :=
  ⟨[("a", .string "_go:stray"), ("b", .string "_go:_a"), ("c", .null)], by
    unfold InKeyOrder
    decide⟩

/-- Where all entries are accepted, the first reference that misleads is reported. -/
example : (ofTemplate carelessRules misleading).run.value =
    .error (.unresolved "a" "_nowhere" (.missingField "nowhere")) := rfl

end Form

end Stencil
