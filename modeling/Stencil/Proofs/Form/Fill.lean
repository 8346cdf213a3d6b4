import Mathlib.Tactic.Common
import Stencil.Form.Fill
import Stencil.Proofs.Form.OfTemplate

/-!
# What a record holds

The first pass over a form gives each field that is no reference the value that its content yields
in the context which the fields before it have left. The second pass gives a reference the value of
its target. In the form of a template every reference has a target with a value of its own, so both
passes together account for every entry of the record.

Filling out a form changes nothing in it but the states of sources that the caller brought. The form
that is left thus resembles the one before, and what is said here of the form of a template holds of
all forms that resemble it.

* `Stencil.Form.get?_fill_own`, `Stencil.Form.get?_fill_reference`: the two passes;
* `Stencil.Form.Resembles`: forms that differ in the states of sources only;
* `Stencil.Form.get?_fill_static`, `Stencil.Form.get?_fill_target`: what the record of a template
  holds.
-/

namespace Stencil

variable {γ σ : Type} [WordSource γ] [ValueSource σ]

/-! ### One field -/

namespace Content

/-- A field has a value of its own if it is no reference. -/
theorem exists_value_fill {content : Content σ} (own : content.isReference = false)
    (context : Context γ) : ∃ value, (content.fill context).1.1 = some value := by
  cases content with
  | reference target => cases own
  | uuid kind => cases kind <;> exact ⟨_, rfl⟩
  | _ => exact ⟨_, rfl⟩

/-- Contents that differ in the state of a source only. -/
inductive Resembles : Content σ → Content σ → Prop where
  /-- They do not differ. -/
  | same (content : Content σ) : Resembles content content
  /-- They are sources. -/
  | sources (source source' : σ) : Resembles (.custom source) (.custom source')

namespace Resembles

omit [ValueSource σ] in
theorem trans {a b c : Content σ} (h : a.Resembles b) (k : b.Resembles c) : a.Resembles c := by
  cases h with
  | same => exact k
  | sources => cases k <;> exact .sources ..

omit [ValueSource σ] in
/-- Where there is no source, nothing differs. -/
theorem eq_left {a b : Content σ} (h : a.Resembles b) (plain : ∀ source, a ≠ .custom source) :
    a = b := by
  cases h with
  | same => rfl
  | sources source => exact absurd rfl (plain source)

omit [ValueSource σ] in
theorem eq_right {a b : Content σ} (h : a.Resembles b) (plain : ∀ source, b ≠ .custom source) :
    a = b := by
  cases h with
  | same => rfl
  | sources _ source => exact absurd rfl (plain source)

omit [ValueSource σ] in
theorem isReference_eq {a b : Content σ} (h : a.Resembles b) : a.isReference = b.isReference := by
  cases h <;> rfl

end Resembles

/-- Filling out a field changes no more than the state of its source. -/
theorem resembles_fill (content : Content σ) (context : Context γ) :
    content.Resembles (content.fill context).1.2 := by
  cases content with
  | custom source => exact .sources ..
  | uuid kind => cases kind <;> exact .same _
  | _ => exact .same _

end Content

/-! ### The first pass -/

/-- The first pass fills out a field, and then those after it. -/
theorem fillEach_cons {name : String} {content after : Content σ} {context between : Context γ}
    {answer : Option Json} (filled : content.fill context = ((answer, after), between))
    (rest : List (String × Content σ)) :
    fillEach ((name, content) :: rest) context =
      (⟨name, answer, after⟩ :: (fillEach rest between).1, (fillEach rest between).2) := by
  simp only [fillEach, bind, StateT.bind, filled]
  rfl

/-- The fields after others are filled out in the context that those leave. -/
theorem fillEach_append (before after : List (String × Content σ)) (context : Context γ) :
    fillEach (before ++ after) context =
      ((fillEach before context).1 ++ (fillEach after (fillEach before context).2).1,
        (fillEach after (fillEach before context).2).2) := by
  induction before generalizing context with
  | nil => rfl
  | cons entry before ih =>
    obtain ⟨name, content⟩ := entry
    rcases filled : content.fill context with ⟨⟨answer, left⟩, between⟩
    rw [List.cons_append, fillEach_cons filled, fillEach_cons filled, ih]
    rfl

/-- What the first pass yields for a field among others. -/
theorem fillEach_split (before : List (String × Content σ)) (name : String) (content : Content σ)
    (after : List (String × Content σ)) (context : Context γ) :
    let field := content.fill (fillEach before context).2
    (fillEach (before ++ (name, content) :: after) context).1 =
      (fillEach before context).1 ++
        ⟨name, field.1.1, field.1.2⟩ :: (fillEach after field.2).1 := by
  rw [fillEach_append]
  rfl

/-- A field that is filled out still has its name and resembles what it was. -/
theorem matches_fillEach (entries : List (String × Content σ)) (context : Context γ) :
    List.Forall₂ (Table.Matches fun _ => Content.Resembles) entries
      ((fillEach entries context).1.map fun o => (o.name, o.content)) := by
  induction entries generalizing context with
  | nil => exact .nil
  | cons entry rest ih => exact .cons ⟨rfl, entry.2.resembles_fill context⟩ (ih _)

namespace Form

variable {form : Form σ} {name : String} {content : Content σ}
  {before after : List (String × Content σ)}

omit [ValueSource σ] in
/-- In front of a field there is no other of its name. -/
theorem name_notMem_before (split : form.entries = before ++ (name, content) :: after) :
    name ∉ before.map (·.1) := by
  have ordered := form.ordered
  rw [split] at ordered
  intro mem
  obtain ⟨entry, earlier, same⟩ := List.mem_map.mp mem
  have below := (List.pairwise_append.mp ordered).2.2 entry earlier _ List.mem_cons_self
  exact String.lt_irrefl _ (same ▸ below)

/-- The value that the first pass finds for a field is the one that its content yields after the
fields before it. -/
theorem valueOf?_fillEach (split : form.entries = before ++ (name, content) :: after)
    (context : Context γ) :
    valueOf? (fillEach form.entries context).1 name =
      (content.fill (fillEach before context).2).1.1 := by
  have earlier : (fillEach before context).1.find? (·.name == name) = none := by
    refine List.find?_eq_none.mpr fun outcome mem same => name_notMem_before split ?_
    rw [← names_fillEach before context]
    exact List.mem_map.mpr ⟨outcome, mem, beq_iff_eq.mp same⟩
  rw [split, fillEach_split, valueOf?, List.find?_append, earlier]
  simp

/-! ### Both passes -/

/-- The record holds for a name what the outcome of that name is resolved to. -/
theorem get?_fill (split : form.entries = before ++ (name, content) :: after)
    (context : Context γ) :
    let field := content.fill (fillEach before context).2
    (form.fill context).1.1.get? name =
      some (Outcome.resolve (fillEach form.entries context).1 ⟨name, field.1.1, field.1.2⟩) := by
  refine Table.get?_of_mem (List.mem_map.mpr ⟨⟨name, _, _⟩, ?_, rfl⟩)
  rw [split, fillEach_split]
  exact List.mem_append_right _ List.mem_cons_self

/-- **A field that is no reference holds the value that its content yields** in the context which
the fields before it leave. -/
theorem get?_fill_own (split : form.entries = before ++ (name, content) :: after)
    (own : content.isReference = false) (context : Context γ) :
    ∃ value, (content.fill (fillEach before context).2).1.1 = some value ∧
      (form.fill context).1.1.get? name = some value := by
  obtain ⟨value, found⟩ := content.exists_value_fill own (fillEach before context).2
  refine ⟨value, found, ?_⟩
  rw [get?_fill split, found]
  rfl

/-- **A reference holds the value of its target**, if that is a field with a value of its own: the
first pass has found the value, and the record holds it for the target as well. -/
theorem get?_fill_reference {target : String} (found : form.get? name = some (.reference target))
    (leads : form.get? target = some content) (own : content.isReference = false)
    (context : Context γ) :
    ∃ value, valueOf? (fillEach form.entries context).1 target = some value ∧
      (form.fill context).1.1.get? name = some value ∧
      (form.fill context).1.1.get? target = some value := by
  obtain ⟨before, after, split⟩ := List.append_of_mem (Table.mem_of_get?_eq_some leads)
  obtain ⟨value, computed, held⟩ := get?_fill_own split own context
  have first : valueOf? (fillEach form.entries context).1 target = some value := by
    rw [valueOf?_fillEach split, computed]
  refine ⟨value, first, ?_, held⟩
  obtain ⟨before', after', split'⟩ := List.append_of_mem (Table.mem_of_get?_eq_some found)
  rw [get?_fill split']
  show some ((valueOf? (fillEach form.entries context).1 target).getD .null) = some value
  rw [first]
  rfl

/-- A record has the names of its form. -/
theorem keys_fill (form : Form σ) (context : Context γ) :
    (form.fill context).1.1.keys = form.keys := by
  have names := names_fillEach form.entries context
  rw [Table.keys, Table.keys, ← names, fill, List.map_map]
  rfl

/-! ### Forms that resemble one another -/

/-- Two forms differ in the states of sources only. -/
def Resembles (form later : Form σ) : Prop := form.Entrywise (fun _ => Content.Resembles) later

namespace Resembles

omit [ValueSource σ] in
theorem refl (form : Form σ) : form.Resembles form :=
  List.forall₂_same.mpr fun _ _ => ⟨rfl, .same _⟩

omit [ValueSource σ] in
theorem trans {a b c : Form σ} (h : a.Resembles b) (k : b.Resembles c) : a.Resembles c :=
  Table.Entrywise.trans (fun _ _ _ _ first second => first.trans second) h k

omit [ValueSource σ] in
/-- A form resembles the one in which a source is put in another state. -/
theorem insert {form : Form σ} {name : String} {content content' : Content σ}
    (found : form.get? name = some content) (alike : content.Resembles content') :
    form.Resembles (form.insert name content') :=
  Table.Entrywise.insert (fun _ => .same) found alike

omit [ValueSource σ] in
/-- Forms that resemble one another have the same references. -/
theorem mem_references {form later : Form σ} (h : form.Resembles later) {name target : String}
    (refers : (name, target) ∈ form.references) : (name, target) ∈ later.references := by
  obtain ⟨content, found, alike⟩ := h.exists_right (mem_references_iff.mp refers)
  obtain rfl := alike.eq_left (by simp)
  exact mem_references_iff.mpr found

end Resembles

/-- **Filling out a form changes no more than the states of its sources.** -/
theorem resembles_fill (form : Form σ) (context : Context γ) :
    form.Resembles (form.fill context).1.2 :=
  matches_fillEach form.entries context

/-! ### Forms of a template -/

section OfTemplate

variable {rules : Rules σ} {template : Template} {later : Form σ}

/-- **A value that is no directive stands in the record as it is.** -/
theorem get?_fill_static (made : (ofTemplate rules template).run.value = .ok form)
    (same : form.Resembles later) {key : String} {value : Json}
    (entry : template.get? key = some value)
    (plain : ∀ text, value = .string text → rules.place.admits text.toList = false)
    (context : Context γ) : (later.fill context).1.1.get? key = some value := by
  obtain ⟨matching, -⟩ := ofTemplate_eq_ok_iff.mp made
  obtain ⟨content, held, makes⟩ := matching.exists_right entry
  obtain rfl := makes.unique (Rules.makes_of_plain plain)
  obtain ⟨content, heldLater, alike⟩ := same.exists_right held
  obtain rfl := alike.eq_left (by simp)
  obtain ⟨before, after, split⟩ := List.append_of_mem (Table.mem_of_get?_eq_some heldLater)
  obtain ⟨_, yields, shown⟩ := get?_fill_own split rfl context
  rw [shown, ← yields]
  rfl

/-- **A reference stands in the record with the value of its target**, which the first pass has
found. -/
theorem get?_fill_target (made : (ofTemplate rules template).run.value = .ok form)
    (same : form.Resembles later) {name target : String}
    (refers : (name, target) ∈ later.references) (context : Context γ) :
    ∃ value, valueOf? (fillEach later.entries context).1 target = some value ∧
      (later.fill context).1.1.get? name = some value ∧
      (later.fill context).1.1.get? target = some value := by
  have found : later.get? name = some (.reference target) := mem_references_iff.mp refers
  obtain ⟨content, held, alike⟩ := same.exists_left found
  obtain rfl := alike.eq_right (by simp)
  obtain ⟨content, leads, own⟩ := exists_target made (mem_references_iff.mpr held)
  obtain ⟨content', leadsLater, alike'⟩ := same.exists_right leads
  exact get?_fill_reference found leadsLater (alike'.isReference_eq ▸ own) context

/-- A record has the keys of the template. -/
theorem keys_fill_ofTemplate (made : (ofTemplate rules template).run.value = .ok form)
    (same : form.Resembles later) (context : Context γ) :
    (later.fill context).1.1.keys = template.keys := by
  obtain ⟨matching, -⟩ := ofTemplate_eq_ok_iff.mp made
  rw [keys_fill, ← same.keys_eq, ← matching.keys_eq]

end OfTemplate

end Form

end Stencil
