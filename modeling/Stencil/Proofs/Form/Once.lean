import Mathlib.Tactic.Common
import Stencil.Proofs.Form.Fill

/-!
# Each field once

Filling out a form fills out the fields that have values of their own, each once and in name order.
References take no part in that: what the record, the form and the context are afterwards is settled
by the other fields, and the second pass only copies. So a source that the caller brought produces
one value for each record, in the state in which the record before has left it.

This accounts for every record that a form gives from one time to the next, in whatever contexts it
is filled out. If a source goes through states one after the other, whatever it draws on, the
records show its values in turn, each one for the field and all references to it.

* `Stencil.Form.own`, `Stencil.Form.fill_own`: the fields with values of their own, and what becomes
  of them;
* `Stencil.Form.fill_once`: the same of the form of a template, with its references;
* `Stencil.Form.Makes`: records made from a form;
* `Stencil.Progression`: sources that go through states one after the other;
* `Stencil.Progression.At.makes`: what records show of such a source.
-/

namespace Stencil

variable {γ σ : Type} [WordSource γ] [ValueSource σ]

/-! ### One record -/

/-- A reference has no value of its own, and to ask for one changes nothing. -/
theorem Content.fill_of_isReference {content : Content σ} (h : content.isReference = true)
    (context : Context γ) : content.fill context = ((none, content), context) := by
  cases content with
  | reference target => rfl
  | _ => cases h

/-- The first pass asks for one value after the other. -/
theorem mapM_fill (entries : List (String × Content σ)) (context : Context γ) :
    entries.mapM (fun entry => Content.fill entry.2) context =
      ((fillEach entries context).1.map fun o => (o.value, o.content),
        (fillEach entries context).2) := by
  induction entries generalizing context with
  | nil => rfl
  | cons entry rest ih =>
    obtain ⟨name, content⟩ := entry
    rcases filled : content.fill context with ⟨answer, between⟩
    rw [fillEach_cons filled, List.mapM_cons]
    simp only [bind, StateT.bind, filled, ih between]
    rfl

/-- **References take no part in the first pass**: it finds for the other fields what it would find
without them. -/
theorem fillEach_own (entries : List (String × Content σ)) (context : Context γ) :
    fillEach (entries.filter fun entry => !entry.2.isReference) context =
      ((fillEach entries context).1.filter (·.value.isSome), (fillEach entries context).2) := by
  induction entries generalizing context with
  | nil => rfl
  | cons entry rest ih =>
    obtain ⟨name, content⟩ := entry
    rcases filled : content.fill context with ⟨⟨answer, after⟩, between⟩
    rw [fillEach_cons filled]
    cases own : content.isReference with
    | true =>
      -- the field is left out on the left, and on the right because it has no value
      rw [content.fill_of_isReference own context] at filled
      obtain ⟨⟨rfl, rfl⟩, rfl⟩ := filled
      rw [List.filter_cons_of_neg (by simp [own]), ih, List.filter_cons_of_neg (by simp)]
    | false =>
      obtain ⟨value, found⟩ := content.exists_value_fill own context
      rw [filled] at found
      obtain rfl : answer = some value := found
      rw [List.filter_cons_of_pos (by simp [own]), fillEach_cons filled, ih,
        List.filter_cons_of_pos (by simp)]

namespace Form

/-- The fields that have values of their own, in name order. -/
def own (form : Form σ) : List (String × Content σ) :=
  form.entries.filter fun entry => !entry.2.isReference

/-- **Each field with a value of its own is filled out once.** The context and the contents of these
fields are left as by filling out only them, one after the other, and the record shows the values
that this gives. -/
theorem fill_own (form : Form σ) (context : Context γ) :
    let once := form.own.mapM (fun entry => Content.fill entry.2) context
    let filled := form.fill context
    filled.2 = once.2 ∧
    form.own.map (fun entry => (filled.1.1.get? entry.1, filled.1.2.get? entry.1)) =
      once.1.map fun answer => (answer.1, some answer.2) := by
  intro once filled
  have pass : fillEach form.own context = ((fillEach form.entries context).1.filter
      (·.value.isSome), (fillEach form.entries context).2) := fillEach_own form.entries context
  have names := names_fillEach form.own context
  have asked : once = _ := mapM_fill form.own context
  rw [pass] at names asked
  rw [asked]
  refine ⟨rfl, ?_⟩
  calc form.own.map (fun entry => (filled.1.1.get? entry.1, filled.1.2.get? entry.1))
      = (form.own.map (·.1)).map (fun name => (filled.1.1.get? name, filled.1.2.get? name)) := by
        rw [List.map_map]
        rfl
    _ = ((fillEach form.entries context).1.filter (·.value.isSome)).map
          (fun o => (o.value, some o.content)) := by
        rw [← names, List.map_map]
        refine List.map_congr_left fun o mem => ?_
        obtain ⟨member, answered⟩ := List.mem_filter.mp mem
        obtain ⟨value, found⟩ := Option.isSome_iff_exists.mp answered
        have shown : o.resolve (fillEach form.entries context).1 = value := by
          rw [Outcome.resolve, found]
        have record : filled.1.1.get? o.name = some value :=
          Table.get?_of_mem (List.mem_map.mpr ⟨o, member, by rw [shown]⟩)
        have after : filled.1.2.get? o.name = some o.content :=
          Table.get?_of_mem (List.mem_map.mpr ⟨o, member, rfl⟩)
        exact Prod.ext (record.trans found.symm) after
    _ = _ := by
        rw [List.map_map]
        rfl

omit [ValueSource σ] in
/-- Fields with values of their own stand in name order, each name once. -/
theorem pairwise_own (form : Form σ) : (form.own.map (·.1)).Pairwise (· < ·) :=
  (List.pairwise_map.mpr form.ordered).sublist (List.filter_sublist.map _)

/-- **A record takes one pass.** In a form that resembles that of a template, the fields with values
of their own are filled out in name order, each once, and nothing else changes the context or the
contents. A reference stays what it is and shows what its target shows. -/
theorem fill_once {rules : Rules σ} {template : Template} {form later : Form σ}
    (made : (ofTemplate rules template).run.value = .ok form) (same : form.Resembles later)
    (context : Context γ) :
    let once := later.own.mapM (fun entry => Content.fill entry.2) context
    let filled := later.fill context
    (later.own.map (·.1)).Pairwise (· < ·) ∧ filled.2 = once.2 ∧
    later.own.map (fun entry => (filled.1.1.get? entry.1, filled.1.2.get? entry.1)) =
      once.1.map (fun answer => (answer.1, some answer.2)) ∧
    ∀ referrer target, (referrer, target) ∈ later.references →
      filled.1.2.get? referrer = some (.reference target) ∧
      ∃ value, filled.1.1.get? referrer = some value ∧ filled.1.1.get? target = some value := by
  obtain ⟨left, own⟩ := later.fill_own context
  refine ⟨later.pairwise_own, left, own, fun referrer target refers => ⟨?_, ?_⟩⟩
  · exact mem_references_iff.mp ((later.resembles_fill context).mem_references refers)
  · obtain ⟨value, -, copied, shown⟩ := get?_fill_target made same refers context
    exact ⟨value, copied, shown⟩

/-! ### Several records -/

/-- Records that a form gives when it is filled out again and again, each time in some context, and
the form that is left. -/
inductive Makes : Form σ → List Record → Form σ → Prop
  /-- No record. -/
  | nil (form : Form σ) : Makes form [] form
  /-- A record, and those after it. -/
  | cons {γ : Type} [WordSource γ] {form later : Form σ} {more : List Record}
    (context : Context γ) (others : Makes (form.fill context).1.2 more later) :
    Makes form ((form.fill context).1.1 :: more) later

/-- A record shows a value for a field: under its name, and under those of all references to it. -/
structure Shows (form : Form σ) (name : String) (record : Record) (value : Json) : Prop where
  /-- The field shows it. -/
  field : record.get? name = some value
  /-- The references to the field show it. -/
  references : ∀ referrer, (referrer, name) ∈ form.references → record.get? referrer = some value

end Form

/-- A source that goes through states one after the other, whatever it draws on, and produces a
value in each. -/
structure Progression (σ : Type) [ValueSource σ] where
  /-- The state after so many values. -/
  state : ℕ → σ
  /-- The value after so many others. -/
  value : ℕ → Json
  /-- In a state the source produces the value of that state, and then is in the next one. -/
  produce_state : ∀ {γ : Type} [WordSource γ] (index : ℕ) (context : Context γ),
    ValueSource.produce (state index) context = ((value index, state (index + 1)), context)

namespace Progression

/-- So many values, from one on. -/
def values (progression : Progression σ) (first count : ℕ) : List Json :=
  (List.range count).map fun index => progression.value (first + index)

variable (progression : Progression σ)

theorem values_add (first m n : ℕ) :
    progression.values first (m + n) =
      progression.values first m ++ progression.values (first + m) n := by
  simp only [values, List.range_add, List.map_append, List.map_map, Function.comp_def,
    Nat.add_assoc]

theorem values_succ (first count : ℕ) :
    progression.values first (count + 1) =
      progression.value first :: progression.values (first + 1) count := by
  rw [Nat.add_comm]
  exact progression.values_add first 1 count

/-- A field with the source shows the value of its state, and has the next state after that. -/
theorem fill_state (index : ℕ) (context : Context γ) :
    (Content.custom (progression.state index)).fill context =
      ((some (progression.value index), .custom (progression.state (index + 1))), context) := by
  have next := progression.produce_state index context
  simp only [Content.fill, bind, StateT.bind, next]
  rfl

/-- A form resembles another one, and a field of it has the source, after so many values. -/
structure At (origin : Form σ) (name : String) (index : ℕ) (form : Form σ) : Prop where
  /-- Only the states of sources differ. -/
  alike : origin.Resembles form
  /-- The source has come so far. -/
  reached : form.get? name = some (.custom (progression.state index))

namespace At

variable {progression} {origin form : Form σ} {name : String} {index : ℕ}

/-- **A record shows the next value**, for the field and all references to it, and the source goes
on by one. -/
theorem fill (h : progression.At origin name index form) (context : Context γ) :
    origin.Shows name (form.fill context).1.1 (progression.value index) ∧
      progression.At origin name (index + 1) (form.fill context).1.2 := by
  obtain ⟨before, after, split⟩ := List.append_of_mem (Table.mem_of_get?_eq_some h.reached)
  have shown : (form.fill context).1.1.get? name = some (progression.value index) := by
    rw [Form.get?_fill split, progression.fill_state]
    rfl
  have left : (form.fill context).1.2.get? name =
      some (.custom (progression.state (index + 1))) := by
    refine Table.get?_of_mem (List.mem_map.mpr ⟨⟨name, some (progression.value index), _⟩, ?_, rfl⟩)
    rw [split, fillEach_split, progression.fill_state]
    exact List.mem_append_right _ List.mem_cons_self
  refine ⟨⟨shown, fun referrer refers => ?_⟩, h.alike.trans (form.resembles_fill context), left⟩
  have found := Form.mem_references_iff.mp (h.alike.mem_references refers)
  obtain ⟨value, -, copied, same⟩ := Form.get?_fill_reference found h.reached rfl context
  rw [copied, ← same, shown]

/-- **Records show the next values**, each record one of them. -/
theorem makes (h : progression.At origin name index form) {records : List Record} {later : Form σ}
    (made : form.Makes records later) :
    List.Forall₂ (origin.Shows name) records (progression.values index records.length) ∧
      progression.At origin name (index + records.length) later := by
  induction made generalizing index with
  | nil form => exact ⟨.nil, h⟩
  | cons context _ ih =>
    obtain ⟨shown, next⟩ := h.fill context
    obtain ⟨more, last⟩ := ih next
    rw [List.length_cons, progression.values_succ, ← Nat.add_assoc, Nat.add_right_comm]
    exact ⟨.cons shown more, last⟩

end At

end Progression

end Stencil
