import Mathlib.Tactic.Common
import Stencil.Proofs.Generator.Frame
import Stencil.Proofs.Json.Decoded

/-!
# Records as templates

The text of a record is a document itself, and it is read as the very record if all values are
legible. With the built-in keywords they are: a value of the record is one of the template, a time
or a text. So the text can serve as a template, and unless one of its texts is taken for a
directive, every record of that template is the one that was written.

* `Stencil.Content.Legible`: contents that yield legible values;
* `Stencil.Form.legible_of_ofTemplate`: forms made with the built-in keywords have no others;
* `Stencil.Form.fill_eq_of_plain`: a template without directives is its own record;
* `Stencil.decode_nextText`: the text of a record, read as a template.
-/

namespace Stencil

variable {γ σ : Type}

/-! ### Values of a record -/

/-- A content yields legible values: no source of a caller is asked for one, and a fixed value is
legible. -/
structure Content.Legible (content : Content σ) : Prop where
  /-- The content is no source of a caller. -/
  plain : ∀ source, content ≠ .custom source
  /-- If it always has the same value, that value is legible. -/
  static : ∀ value, content = .static value → value.Legible

section Fill

variable [WordSource γ] [ValueSource σ]

theorem Content.Legible.of_value_fill {content : Content σ} (legible : content.Legible)
    {context : Context γ} {value : Json} (yields : (content.fill context).1.1 = some value) :
    value.Legible := by
  cases content with
  | static fixed =>
    obtain rfl := Option.some.inj yields
    exact legible.static _ rfl
  | reference target => cases yields
  | timestamp =>
    obtain rfl := Option.some.inj yields
    exact Json.legible_ofSeconds _
  | uuid kind =>
    cases kind with
    | random =>
      obtain rfl := Option.some.inj yields
      exact Json.legible_string _
    | timestamp =>
      obtain rfl := Option.some.inj yields
      exact Json.legible_ofSeconds _
  | pattern shape =>
    obtain rfl := Option.some.inj yields
    exact Json.legible_string _
  | custom source => exact absurd rfl (legible.plain source)

/-- The values that the first pass finds are legible. -/
theorem legible_of_fillEach {entries : List (String × Content σ)}
    (legible : ∀ entry ∈ entries, entry.2.Legible) (context : Context γ) :
    ∀ outcome ∈ (fillEach entries context).1, ∀ value, outcome.value = some value →
      value.Legible := by
  induction entries generalizing context with
  | nil => exact fun _ mem => absurd mem List.not_mem_nil
  | cons entry rest ih =>
    obtain ⟨head, tail⟩ := List.forall_mem_cons.mp legible
    exact List.forall_mem_cons.mpr ⟨fun _ yields => head.of_value_fill yields, ih tail _⟩

/-- **The values of a record are legible** if the form has only contents that yield such values. -/
theorem Form.legible_of_fill {form : Form σ} (legible : ∀ entry ∈ form.entries, entry.2.Legible)
    (context : Context γ) : ∀ member ∈ (form.fill context).1.1.entries, member.2.Legible := by
  intro member mem
  obtain ⟨outcome, found, rfl⟩ := List.mem_map.mp mem
  have first := legible_of_fillEach legible context
  unfold Outcome.resolve
  split
  next value own => exact first outcome found value own
  next target _ _ =>
    -- a reference shows what the first pass has found for its target
    cases shown : valueOf? (fillEach form.entries context).1 target with
    | none => exact Json.legible_null
    | some value =>
      obtain ⟨target, mem, own⟩ := Option.bind_eq_some_iff.mp shown
      exact first target (List.mem_of_find?_eq_some mem) value own
  next => exact Json.legible_null

end Fill

/-! ### Forms made with the built-in keywords -/

/-- The built-in keywords make fields for the time and for identifiers. -/
theorem Keywords.legible_of_make? {kind : UuidKind} {name directive : String} {field : Field σ}
    (made : (Keywords.builtin kind).make? name directive = some (.ok field)) :
    field.content.Legible := by
  obtain ⟨maker, bound, yields⟩ := Option.map_eq_some_iff.mp made
  have mem := Table.mem_of_mem_ofList (Table.mem_of_get?_eq_some bound)
  simp only [List.mem_cons, List.not_mem_nil, or_false, Prod.mk.injEq] at mem
  rcases mem with ⟨-, rfl⟩ | ⟨-, rfl⟩
  · obtain rfl := Except.ok.inj yields
    exact ⟨by simp, by simp⟩
  · obtain rfl := Except.ok.inj yields
    exact ⟨by simp, by simp⟩

/-- With the built-in keywords, the content of an entry yields legible values if the value of the
entry is legible. -/
theorem Rules.Makes.legible {kind : UuidKind} {place : MarkerPlace} {template : Template}
    {key : String} {value : Json} {content : Content σ}
    (makes : (⟨.builtin kind, place⟩ : Rules σ).Makes template key value content)
    (legible : value.Legible) : content.Legible := by
  rcases makes.cases with rfl | ⟨body, made⟩ | ⟨target, rfl⟩ | ⟨shape, rfl⟩
  · exact ⟨by simp, fun fixed same => Content.static.inj same ▸ legible⟩
  · exact Keywords.legible_of_make? made
  · exact ⟨by simp, by simp⟩
  · exact ⟨by simp, by simp⟩

/-- **The contents of a form that was made with the built-in keywords yield legible values**, if the
values of the template are legible. -/
theorem Form.legible_of_ofTemplate {kind : UuidKind} {place : MarkerPlace} {template : Template}
    {form : Form σ} (made : (ofTemplate ⟨.builtin kind, place⟩ template).run.value = .ok form)
    (legible : ∀ entry ∈ template.entries, entry.2.Legible) :
    ∀ entry ∈ form.entries, entry.2.Legible := by
  intro entry mem
  obtain ⟨matching, -⟩ := ofTemplate_eq_ok_iff.mp made
  obtain ⟨value, found, makes⟩ := matching.exists_left (Table.get?_of_mem mem)
  exact makes.legible (legible _ (Table.mem_of_get?_eq_some found))

/-- Forms that resemble one with such contents have such contents. -/
theorem Form.Resembles.legible {form later : Form σ} (same : form.Resembles later)
    (legible : ∀ entry ∈ form.entries, entry.2.Legible) :
    ∀ entry ∈ later.entries, entry.2.Legible := by
  intro entry mem
  obtain ⟨content, found, alike⟩ := same.exists_left (Table.get?_of_mem mem)
  have before := legible _ (Table.mem_of_get?_eq_some found)
  rw [← alike.eq_left before.plain]
  exact before

/-! ### Records without directives -/

/-- A text without the marker is no directive, wherever the marker may stand. -/
theorem MarkerPlace.admits_eq_false {text : List Char} (unmarked : hasMarker text = false)
    (place : MarkerPlace) : place.admits text = false := by
  cases place with
  | anywhere => exact unmarked
  | atStart =>
    cases text with
    | nil => rfl
    | cons c rest => exact (Bool.or_eq_false_iff.mp unmarked).1

/-- A template is plain, for a place where directives have their marker, if it has no directive. -/
def Template.Plain (template : Template) (place : MarkerPlace) : Prop :=
  ∀ key text, template.get? key = some (.string text) → place.admits text.toList = false

namespace Form

/-- The form whose fields always have the values of a record. -/
def fixed (record : Record) : Form σ :=
  ⟨record.entries.map fun entry => (entry.1, .static entry.2),
    by simpa [InKeyOrder, List.pairwise_map] using record.ordered⟩

/-- A template without directives has a form of fixed values. -/
theorem ofTemplate_of_plain (rules : Rules σ) {template : Template}
    (plain : template.Plain rules.place) :
    (ofTemplate rules template).run.value = .ok (fixed template) := by
  refine ofTemplate_eq_ok_iff.mpr ⟨?_, badReference?_eq_none_iff.mpr fun name target refers => ?_⟩
  · refine List.forall₂_map_right_iff.mpr (List.forall₂_same.mpr fun entry mem => ⟨rfl, ?_⟩)
    exact Rules.makes_of_plain fun text string =>
      plain entry.1 text (Table.get?_of_mem (string ▸ mem))
  · -- a fixed value refers to nothing
    have mem := Table.mem_of_get?_eq_some (mem_references_iff.mp refers)
    obtain ⟨entry, -, same⟩ := List.mem_map.mp mem
    cases (Prod.mk.inj same).2

variable [WordSource γ] [ValueSource σ]

/-- **A template without directives is its own record**, in whatever context its form is filled
out. -/
theorem fill_eq_of_plain {rules : Rules σ} {template : Template} {form later : Form σ}
    (plain : template.Plain rules.place) (made : (ofTemplate rules template).run.value = .ok form)
    (same : form.Resembles later) (context : Context γ) :
    (later.fill context).1.1 = template := by
  refine Table.ext_get? fun key => ?_
  cases found : template.get? key with
  | some value =>
    exact get?_fill_static made same found (fun text string => plain key text (string ▸ found))
      context
  | none =>
    have keys := keys_fill_ofTemplate made same context
    have absent : ¬template.contains key := by simp [Table.contains, found]
    rw [Table.contains_iff_mem_keys, ← keys, ← Table.contains_iff_mem_keys] at absent
    simpa [Table.contains] using absent

end Form

/-! ### Generators -/

/-- A generator starts if its template has a form, and then it has that form. -/
theorem Setup.start_eq_ok_iff {setup : Setup σ} {template : Template}
    (decoded : Template.decode setup.template = .ok template) {generator : Generator σ} :
    setup.start.run.value = .ok generator ↔ ∃ form,
      (Form.ofTemplate setup.rules template).run.value = .ok form ∧
        generator = ⟨form, .ofSeed setup.seed, setup.clock, setup.seed⟩ := by
  have ofBytes : Form.ofBytes setup.rules setup.template =
      Form.ofTemplate setup.rules template := by
    rw [Form.ofBytes, decoded]
  rw [value_start, ofBytes]
  cases (Form.ofTemplate setup.rules template).run.value with
  | error fault => exact iff_of_false (fun h => by cases h) fun ⟨_, h, _⟩ => by cases h
  | ok form =>
    constructor
    · intro started
      exact ⟨form, rfl, (Except.ok.inj started).symm⟩
    · rintro ⟨form, made, rfl⟩
      obtain rfl := Except.ok.inj made
      rfl

variable [ValueSource σ]

/-- **The text of a record is a faithful and stable encoding.** Take a generator whose template has
only integers and whose keywords are the built-in ones, in any state that a script leaves. The text
that it gives next is read as the record that it would have given instead. If no text of that record
has the marker, then a generator can be made of that text, with any rules, and every text that it
gives is the same text again. -/
theorem decode_nextText (setup : Setup σ) (template : Template) (generator : Generator σ)
    (builtin : setup.keywords = .empty)
    (decoded : Template.decode setup.template = .ok template)
    (integral : ∀ key value, template.get? key = some value → value.Integral)
    (started : setup.start.run.value = .ok generator) (script : List Step) :
    let reached := ((runScript script).result generator).2
    let record := (Generator.next.result reached).1
    let text := (Generator.nextText.result reached).1
    Template.decode text.toUTF8 = .ok record ∧
    ((∀ key value, record.get? key = some (.string value) → hasMarker value.toList = false) →
      ∀ again : Setup σ, again.template = text.toUTF8 → ∃ copy,
        again.start.run.value = .ok copy ∧ ∀ further,
          (Generator.nextText.result ((runScript further).result copy).2).1 = text) := by
  intro reached record text
  obtain ⟨form, made, rfl⟩ := (Setup.start_eq_ok_iff decoded).mp started
  have rules : setup.rules = ⟨.builtin setup.options.uuidKind, setup.options.markerPlace⟩ := by
    rw [Setup.rules, builtin]
    rfl
  rw [rules] at made
  have legible := Form.legible_of_ofTemplate made fun entry mem =>
    Template.legible_of_decode decoded mem (integral _ _ (Table.get?_of_mem mem))
  have same : form.Resembles reached.form :=
    keepsForm_runScript script ⟨form, .ofSeed setup.seed, setup.clock, setup.seed⟩
  have values : ∀ member ∈ record.entries, member.2.Legible :=
    Form.legible_of_fill (same.legible legible) reached.context
  have reread : Template.decode text.toUTF8 = .ok record := Template.decode_text values
  refine ⟨reread, fun unmarked again spelled => ?_⟩
  have plain : Template.Plain record again.rules.place := fun key value found =>
    MarkerPlace.admits_eq_false (unmarked key value found) _
  have fixed : (Form.ofTemplate again.rules record).run.value = .ok (.fixed record) :=
    Form.ofTemplate_of_plain again.rules plain
  let copy : Generator σ := ⟨.fixed record, .ofSeed again.seed, again.clock, again.seed⟩
  have started : again.start.run.value = .ok copy :=
    (Setup.start_eq_ok_iff (spelled ▸ reread)).mpr ⟨_, fixed, rfl⟩
  refine ⟨copy, started, fun further => ?_⟩
  have kept : (Generator.next.result ((runScript further).result copy).2).1 = record :=
    Form.fill_eq_of_plain plain fixed (keepsForm_runScript further copy) _
  exact congrArg Record.text kept

/-- A setup whose records have a list, a time, and a text with a line feed that stands twice. -/
def noted : Setup StockSource where
  template :=
    ("\x7b\"note\":\"a\\nb\",\"copy\":\"_go:_note\"," ++
      "\"at\":\"_go:timestamp\",\"list\":[1,-2]\x7d").toUTF8
  keywords := .empty
  options := ⟨some 7, .random, .anywhere⟩
  clock := .frozen 5
  freshSeed := 0

/-- The list. -/
def notedList : Json :=
  .array [.number (.integer 1 inWordRange_one), .number (.integer (-2) (by decide))]

/-- Its template. -/
def notedTemplate : Template :=
  ⟨[("at", .string "_go:timestamp"), ("copy", .string "_go:_note"), ("list", notedList),
    ("note", .string "a\nb")], by
    unfold InKeyOrder
    decide⟩

/-- Its form. -/
def notedForm : Form StockSource :=
  ⟨[("at", .timestamp), ("copy", .reference "note"), ("list", .static notedList),
    ("note", .static (.string "a\nb"))], by
    unfold InKeyOrder
    decide⟩

/-- Its records. -/
def notedRecord : Record :=
  ⟨[("at", .ofSeconds 5), ("copy", .string "a\nb"), ("list", notedList),
    ("note", .string "a\nb")], by
    unfold InKeyOrder
    decide⟩

/-- The text of such a record gives the record again, and as a template it gives nothing else. -/
theorem decode_nextText_noted :
    let text :=
      "\x7b\"at\":5,\"copy\":\"a\\nb\",\"list\":[1,-2],\"note\":\"a\\nb\"\x7d"
    Template.decode text.toUTF8 = .ok notedRecord ∧
    ∃ copy : Generator StockSource,
      (Setup.start ⟨text.toUTF8, .empty, ⟨none, .timestamp, .atStart⟩, .frozen 0, 3⟩).run.value =
        .ok copy ∧
      ∀ further, (Generator.nextText.result ((runScript further).result copy).2).1 = text := by
  have read : Json.readObject (symbols noted.template) =
      .ok [("note", .string "a\nb"), ("copy", .string "_go:_note"), ("at", .string "_go:timestamp"),
        ("list", notedList)] := by
    rw [noted, symbols_toUTF8]
    rfl
  have decoded : Template.decode noted.template = .ok notedTemplate := by
    rw [Template.decode, read]
    rfl
  have made : (Form.ofTemplate noted.rules notedTemplate).run.value = .ok notedForm := rfl
  have started : noted.start.run.value = .ok ⟨notedForm, .ofSeed 7, .frozen 5, 7⟩ :=
    (Setup.start_eq_ok_iff decoded).mpr ⟨_, made, rfl⟩
  have list : notedList.Integral := .array (by simp [Json.Integral.integer])
  have integral : ∀ key value, notedTemplate.get? key = some value → value.Integral := by
    intro key value found
    have mem := Table.mem_of_get?_eq_some found
    simp only [notedTemplate, List.mem_cons, Prod.mk.injEq, List.not_mem_nil, or_false] at mem
    rcases mem with ⟨-, rfl⟩ | ⟨-, rfl⟩ | ⟨-, rfl⟩ | ⟨-, rfl⟩
    · exact .string _
    · exact .string _
    · exact list
    · exact .string _
  have next : (Generator.next.result
      ((runScript [.texts 1]).result ⟨notedForm, .ofSeed 7, .frozen 5, 7⟩).2).1 = notedRecord := rfl
  have spelled : (Generator.nextText.result
      ((runScript [.texts 1]).result ⟨notedForm, .ofSeed 7, .frozen 5, 7⟩).2).1 =
        "\x7b\"at\":5,\"copy\":\"a\\nb\",\"list\":[1,-2],\"note\":\"a\\nb\"\x7d" := rfl
  have unmarked : ∀ key value, notedRecord.get? key = some (.string value) →
      hasMarker value.toList = false := by
    intro key value found
    have mem := Table.mem_of_get?_eq_some found
    simp only [notedRecord, notedList, Json.ofSeconds, List.mem_cons, Prod.mk.injEq, reduceCtorEq,
      Json.string.injEq, List.not_mem_nil, and_false, or_false, false_or] at mem
    rcases mem with ⟨-, rfl⟩ | ⟨-, rfl⟩ <;> rfl
  obtain ⟨read, copies⟩ :=
    decode_nextText noted notedTemplate _ rfl decoded integral started [.texts 1]
  rw [spelled, next] at read
  rw [next, spelled] at copies
  exact ⟨read, copies unmarked _ rfl⟩

end Stencil
