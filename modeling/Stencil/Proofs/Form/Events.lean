import Mathlib.Tactic.Common
import Stencil.Proofs.Form.Fault
import Stencil.Proofs.Template.Directive

/-!
# What is reported while a form is made

Events are reported entry by entry, as long as entries are accepted: an entry may be warned of, and
then it is reported as recognized unless it fails. So the events tell how far the first round has
come. An entry is **reached** if all entries before it are accepted, whether it is accepted itself
or not, and the second round, which looks at the references, reports nothing.

* `Stencil.Rules.Warns`, `Stencil.Rules.Recognizes`: the two reports that an entry may have;
* `Stencil.Rules.reached`, `Stencil.Rules.mem_reached_iff`: the entries that are reached;
* `Stencil.Form.events_ofTemplate`: the events of a form are the reports of these entries;
* `Stencil.Form.debug_events_ofTemplate`: the fields that are reported are those of the form.
-/

namespace Stencil

variable {σ ε α β : Type}

/-- The events of one step after another: those of the second are missing if the first fails. -/
theorem Logged.events_bind (first : ExceptT ε Logged α) (next : α → ExceptT ε Logged β) :
    (first >>= next).run.events = first.run.events ++
      match first.run.value with
      | .ok a => (next a).run.events
      | .error _ => [] := by
  rw [ExceptT.run_bind]
  obtain ⟨value, events⟩ := first.run
  cases value <;> rfl

/-! ### Reports of an entry -/

namespace Rules

/-- **A text that is warned of**: the marker counts wherever it stands, and it stands in the text
but not at its start. -/
structure Strays (rules : Rules σ) (text : String) : Prop where
  /-- The marker may stand at any position. -/
  anywhere : rules.place = .anywhere
  /-- The text has the marker. -/
  within : marker.toList <:+: text.toList
  /-- It does not start with the marker. -/
  later : ¬marker.toList <+: text.toList

/-- What is warned of at an entry: a text that strays, with the body that is then taken for the
directive. -/
inductive Warns (rules : Rules σ) (template : Template) (key : String) : Json → List Event → Prop
  /-- There is one warning for a text that strays, whatever its body stands for. -/
  | stray {text body : String} (strays : rules.Strays text)
    (directive : rules.place.body? text = some body)
    (taken : rules.fieldOfValue template key (.string text) = rules.fieldOfBody template key body) :
    Warns rules template key (.string text) [.strayMarker key text body]
  /-- There is none for any other value. -/
  | silent {value : Json} (usual : ∀ text, value = .string text → ¬rules.Strays text) :
    Warns rules template key value []

/-- What an entry is recognized as: the kind of the field that it is accepted with. -/
inductive Recognizes (rules : Rules σ) (template : Template) (key : String) (value : Json) :
    List Event → Prop
  /-- An entry that is accepted has one report. -/
  | accepted {content : Content σ}
    (classified : rules.Classifies template key value (.ok ⟨key, content⟩)) :
    Recognizes rules template key value [.fieldRecognized key content.kindName]
  /-- An entry that fails has none. -/
  | refused {fault : TemplateFault} (refuses : rules.Refuses template key value fault) :
    Recognizes rules template key value []

/-- The events of an entry that is reached. -/
def EntryEvents (rules : Rules σ) (template : Template) (entry : String × Json)
    (events : List Event) : Prop :=
  ∃ warned recognized, rules.Warns template entry.1 entry.2 warned ∧
    rules.Recognizes template entry.1 entry.2 recognized ∧ events = warned ++ recognized

variable {rules : Rules σ} {template : Template} {key : String} {value : Json}

/-- A text is a directive whose marker is not at its start if it strays. -/
theorem strays_iff {text : String} :
    rules.Strays text ↔
      rules.place.admits text.toList = true ∧ startsWithMarker text.toList = false := by
  have later : startsWithMarker text.toList = false ↔ ¬marker.toList <+: text.toList := by
    rw [← startsWithMarker_iff, Bool.not_eq_true]
  rw [later]
  constructor
  · rintro ⟨anywhere, within, later⟩
    rw [anywhere]
    exact ⟨hasMarker_iff.mpr within, later⟩
  · rintro ⟨admits, later⟩
    cases place : rules.place with
    | anywhere =>
      rw [place] at admits
      exact ⟨place, hasMarker_iff.mp admits, later⟩
    | atStart =>
      rw [place] at admits
      exact absurd (startsWithMarker_iff.mp admits) later

/-- **The warnings of an entry are those of its text.** -/
theorem warns_warnings : rules.Warns template key value (rules.warnings key value) := by
  unfold warnings
  cases value with
  | string text =>
    cases admits : rules.place.admits text.toList with
    | false =>
      have noBody : rules.place.bodyOf? (.string text) = none := by
        rw [MarkerPlace.bodyOf?, MarkerPlace.body?, admits]
        rfl
      rw [noBody]
      refine .silent fun _ same strays => ?_
      obtain rfl := Json.string.inj same
      rw [(strays_iff.mp strays).1] at admits
      cases admits
    | true =>
      obtain ⟨body, directive⟩ : ∃ body, rules.place.body? text = some body :=
        ⟨_, if_pos admits⟩
      have found : rules.place.bodyOf? (.string text) = some body := directive
      rw [found]
      cases starts : startsWithMarker text.toList with
      | true =>
        simp only [Json.textOrEmpty, starts, if_true]
        refine .silent fun _ same strays => ?_
        obtain rfl := Json.string.inj same
        rw [(strays_iff.mp strays).2] at starts
        cases starts
      | false =>
        simp only [Json.textOrEmpty, starts, Bool.false_eq_true, if_false]
        exact .stray (strays_iff.mpr ⟨admits, starts⟩) directive
          (fieldOfValue_of_directive directive)
  | _ => exact .silent fun _ same => by cases same

/-- A warning is no report of a field. -/
theorem Warns.filter_debug {events : List Event} (warns : rules.Warns template key value events) :
    events.filter (·.level = .debug) = [] := by
  cases warns <;> rfl

/-- The report of an entry that is accepted, and none if it fails. -/
theorem events_recognize :
    (rules.recognize template key value).run.events = rules.warnings key value ++
      match rules.fieldOf template key value with
      | .ok field => [.fieldRecognized key field.content.kindName]
      | .error _ => [] := by
  unfold recognize
  cases rules.fieldOf template key value with
  | ok field => rfl
  | error fault => exact (List.append_nil _).symm

/-- **What an entry reports** is its warning and what it is recognized as. -/
theorem entryEvents_recognize (entry : String × Json) :
    rules.EntryEvents template entry (rules.recognize template entry.1 entry.2).run.events := by
  refine ⟨_, _, warns_warnings, ?_, events_recognize⟩
  cases made : rules.fieldOf template entry.1 entry.2 with
  | ok field =>
    obtain ⟨name, content⟩ := field
    obtain ⟨rfl, makes⟩ := fieldOf_eq_ok_iff.mp made
    exact .accepted (makes_iff.mp makes)
  | error fault => exact .refused (fieldOf_eq_error_iff.mp made)

/-! ### How far the entries are looked at -/

/-- The entries of a list that are reached, up to the first one that fails. -/
def reached (rules : Rules σ) (template : Template) : List (String × Json) → List (String × Json)
  | [] => []
  | entry :: rest =>
    entry :: if (rules.ownFault? template entry).isNone then reached rules template rest else []

theorem reached_sublist (entries : List (String × Json)) :
    List.Sublist (rules.reached template entries) entries := by
  induction entries with
  | nil => exact .refl _
  | cons entry rest ih =>
    rw [reached]
    split
    · exact ih.cons_cons entry
    · exact (List.nil_sublist rest).cons_cons entry

/-- **An entry is reached if all entries before it are accepted.** -/
theorem mem_reached_iff {entries : List (String × Json)} (ordered : InKeyOrder entries)
    {entry : String × Json} :
    entry ∈ rules.reached template entries ↔ entry ∈ entries ∧
      ∀ other ∈ entries, other.1 < entry.1 → rules.Accepts template other.1 other.2 := by
  induction entries with
  | nil => simp [reached]
  | cons first rest ih =>
    obtain ⟨above, ordered⟩ := List.pairwise_cons.mp ordered
    have accepted : (rules.ownFault? template first).isNone = true ↔
        rules.Accepts template first.1 first.2 := by
      rw [Option.isNone_iff_eq_none]
      exact ownFault?_eq_none_iff
    rw [reached, List.mem_cons, List.mem_cons]
    constructor
    · rintro (rfl | mem)
      · refine ⟨.inl rfl, fun other mem below => ?_⟩
        -- nothing stands before the first entry
        rcases List.mem_cons.mp mem with rfl | mem
        · exact absurd below (String.lt_irrefl _)
        · exact absurd below (String.lt_asymm (above other mem))
      · split at mem
        next fine =>
          obtain ⟨mem, before⟩ := (ih ordered).mp mem
          refine ⟨.inr mem, List.forall_mem_cons.mpr ⟨fun _ => accepted.mp fine, before⟩⟩
        next => cases mem
    · rintro ⟨rfl | mem, before⟩
      · exact .inl rfl
      · obtain ⟨fine, before⟩ := List.forall_mem_cons.mp before
        rw [if_pos (accepted.mpr (fine (above entry mem)))]
        exact .inr ((ih ordered).mpr ⟨mem, before⟩)

end Rules

/-! ### Events of a form -/

namespace Form

variable {rules : Rules σ} {template : Template}

/-- The events of adding entries are those of the entries that are reached. -/
theorem events_addEntries (entries : List (String × Json)) (start : Form σ) :
    (addEntries rules template entries start).run.events =
      (rules.reached template entries).flatMap fun entry =>
        (rules.recognize template entry.1 entry.2).run.events := by
  induction entries generalizing start with
  | nil => rfl
  | cons entry rest ih =>
    obtain ⟨key, value⟩ := entry
    rw [addEntries, Logged.events_bind, Rules.value_recognize, Rules.reached, List.flatMap_cons,
      Rules.ownFault?]
    refine congrArg _ ?_
    cases rules.fieldOf template key value with
    | ok field => exact ih (start.add field)
    | error fault => rfl

/-- The references are checked without a report. -/
theorem events_ofTemplate_eq :
    (ofTemplate rules template).run.events =
      (addEntries rules template template.entries .empty).run.events := by
  rw [ofTemplate, Logged.events_bind]
  cases (addEntries rules template template.entries .empty).run.value with
  | ok form =>
    dsimp only
    cases badReference? template form <;> exact List.append_nil _
  | error fault => exact List.append_nil _

/-- **The events of a form**: those of the entries that are reached, in key order. -/
theorem events_ofTemplate (rules : Rules σ) (template : Template) :
    ∃ reached parts,
      (reached.map (·.1)).Pairwise KeyBefore ∧
      (∀ key value, (key, value) ∈ reached ↔ template.get? key = some value ∧
        ∀ earlier shown, template.get? earlier = some shown → KeyBefore earlier key →
          rules.Accepts template earlier shown) ∧
      List.Forall₂ (rules.EntryEvents template) reached parts ∧
      (ofTemplate rules template).run.events = parts.flatten := by
  refine ⟨rules.reached template template.entries, _, ?_, fun key value => ?_, ?_,
    events_ofTemplate_eq.trans (events_addEntries ..)⟩
  · have sorted : (template.entries.map (·.1)).Pairwise KeyBefore := template.pairwise_keys
    exact sorted.sublist (Rules.reached_sublist template.entries |>.map _)
  · simp only [Rules.mem_reached_iff template.ordered, Prod.forall, keyBefore_iff,
      Table.get?_eq_some_iff]
  · rw [List.forall₂_map_right_iff, List.forall₂_same]
    exact fun entry _ => Rules.entryEvents_recognize entry

/-- A template in which two texts stray, and the second of them stands for nothing. -/
def straying : Template :=
  ⟨[("a", .string "x_go:<1>"), ("b", .string "x_go:what"), ("c", .null)], by
    unfold InKeyOrder
    decide⟩

/-- The second text is warned of before it fails, and the entry after it is not reached. -/
example : (ofTemplate (⟨.empty, .anywhere⟩ : Rules StockSource) straying).run.events =
    [.strayMarker "a" "x_go:<1>" ":<1>", .fieldRecognized "a" "pattern",
      .strayMarker "b" "x_go:what" ":what"] := rfl

/-- If every entry makes a field, these are the fields that are reported. -/
theorem debug_events_of_matches {entries : List (String × Json)}
    {slots : List (String × Content σ)}
    (matching : List.Forall₂ (Table.Matches (rules.Makes template)) entries slots) :
    ((rules.reached template entries).flatMap fun entry =>
        (rules.recognize template entry.1 entry.2).run.events).filter (·.level = .debug) =
      slots.map fun slot => .fieldRecognized slot.1 slot.2.kindName := by
  induction matching with
  | nil => rfl
  | @cons entry slot entries slots first rest ih =>
    obtain ⟨key, value⟩ := entry
    obtain ⟨name, content⟩ := slot
    obtain ⟨rfl, makes⟩ : key = name ∧ rules.Makes template key value content := first
    have made : rules.fieldOf template key value = .ok ⟨key, content⟩ :=
      Rules.fieldOf_eq_ok_iff.mpr ⟨rfl, makes⟩
    have warns : rules.Warns template key value (rules.warnings key value) := Rules.warns_warnings
    have quiet := warns.filter_debug
    rw [Rules.reached, Rules.ownFault?, List.flatMap_cons, Rules.events_recognize]
    simp only [made]
    rw [List.filter_append, List.filter_append, quiet]
    exact congrArg _ ih

/-- **The fields that are reported are those of the form**, each with its kind. -/
theorem debug_events_ofTemplate {form : Form σ}
    (made : (ofTemplate rules template).run.value = .ok form) :
    (ofTemplate rules template).run.events.filter (·.level = .debug) =
      form.entries.map fun entry => .fieldRecognized entry.1 entry.2.kindName := by
  rw [events_ofTemplate_eq, events_addEntries]
  exact debug_events_of_matches (ofTemplate_eq_ok_iff.mp made).1

end Form

end Stencil
