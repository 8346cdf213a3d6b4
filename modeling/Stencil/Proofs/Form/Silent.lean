import Mathlib.Tactic.Common
import Stencil.Field.StockSource
import Stencil.Proofs.Form.Fill
import Stencil.Proofs.Generator.Stream
import Stencil.Proofs.Table.OneKey

/-!
# A field that leaves no trace

Some fields take nothing from the random words and change nothing else that is passed from field to
field: fixed values and references never do, and fields that show the time do not as long as the
clock is fixed. Such a field can stand anywhere in a form. The fields before it and after it are
filled out as if it were not there, and as long as no reference shows it, the record differs in no
other name.

A clock that is passed along need not be fixed for good: a source of the caller gets hold of it and
could leave a running clock in its place. So what is asked of the clock is that it is frozen
whenever a field is due, and that is a statement about the whole run.

* `Stencil.Content.Quiet`: contents that draw nothing and keep no state;
* `Stencil.Form.ClockFixed`: the clock is fixed while records are made;
* `Stencil.Form.fill_insert`: one record of a form with such a field more;
* `Stencil.Form.series`: many records, from one context or with the own clock for each of them;
* `Stencil.Form.series_insert`: many records of a form with such a field more.
-/

namespace Stencil

variable {γ σ : Type} [WordSource γ] [ValueSource σ]

/-! ### Clocks that are fixed -/

/-- A clock is fixed if it is frozen at some time. -/
def Clock.Fixed (clock : Clock) : Prop := ∃ seconds, clock = .frozen seconds

theorem Clock.Fixed.frozen (seconds : Int64) : (Clock.frozen seconds).Fixed := ⟨seconds, rfl⟩

/-- The clock is fixed through a pass over fields: it is whenever a field is due. -/
def FixedThrough (entries : List (String × Content σ)) (context : Context γ) : Prop :=
  ∀ front, front <+: entries → (fillEach front context).2.clock.Fixed

/-- **The clock is fixed while so many records are made** from a form, with the context renewed
after each of them. -/
def Form.ClockFixed (renew : Context γ → Context γ) (form : Form σ) (context : Context γ) :
    (count : ℕ) → Prop
  | 0 => True
  | count + 1 =>
    FixedThrough form.entries context ∧
      Form.ClockFixed renew (form.fill context).1.2 (renew (form.fill context).2) count

/-- Sources of the caller leave a fixed clock fixed: they put no running one in its place. -/
def ValueSource.KeepsFixed (γ σ : Type) [WordSource γ] [ValueSource σ] : Prop :=
  ∀ (source : σ) (context : Context γ), context.clock.Fixed →
    (ValueSource.produce source context).2.clock.Fixed

omit [ValueSource σ] in
/-- Stock sources do so. -/
theorem StockSource.keepsFixed : ValueSource.KeepsFixed γ StockSource := by
  rintro source ⟨words, clock⟩ ⟨seconds, rfl⟩
  cases source <;> exact .frozen seconds

namespace ValueSource.KeepsFixed

variable (keeps : ValueSource.KeepsFixed γ σ)

include keeps

/-- Then no field does otherwise. -/
theorem fill (content : Content σ) {context : Context γ} (fixed : context.clock.Fixed) :
    (content.fill context).2.clock.Fixed := by
  obtain ⟨words, clock⟩ := context
  cases content with
  | custom source => exact keeps source _ fixed
  | timestamp =>
    obtain ⟨seconds, rfl⟩ := fixed
    exact .frozen seconds
  | uuid kind =>
    obtain ⟨seconds, rfl⟩ := fixed
    cases kind <;> exact .frozen seconds
  | _ => exact fixed

theorem fillEach (entries : List (String × Content σ)) {context : Context γ}
    (fixed : context.clock.Fixed) : (fillEach entries context).2.clock.Fixed := by
  induction entries generalizing context with
  | nil => exact fixed
  | cons entry rest ih => exact ih (keeps.fill entry.2 fixed)

/-- **A clock that is fixed in the beginning is fixed all the time** if the sources leave it so, and
whoever renews the context does. -/
theorem clockFixed {renew : Context γ → Context γ}
    (kept : ∀ context, context.clock.Fixed → (renew context).clock.Fixed) (form : Form σ)
    {context : Context γ} (fixed : context.clock.Fixed) (count : ℕ) :
    form.ClockFixed renew context count := by
  induction count generalizing form context with
  | zero => trivial
  | succ count ih =>
    exact ⟨fun front _ => keeps.fillEach front fixed,
      ih _ (kept _ (keeps.fillEach form.entries fixed))⟩

end ValueSource.KeepsFixed

/-! ### Contents that leave no trace -/

namespace Content

/-- **A content is quiet** if it draws no random words and is no source of the caller. -/
inductive Quiet : Content σ → Prop
  /-- A fixed value. -/
  | static (value : Json) : Quiet (.static value)
  /-- A reference. -/
  | reference (target : String) : Quiet (.reference target)
  /-- The time. -/
  | timestamp : Quiet .timestamp
  /-- An identifier that shows the time. -/
  | uuid : Quiet (.uuid .timestamp)

/-- Whether a content shows the time. -/
def showsTime : Content σ → Bool
  | .timestamp | .uuid .timestamp => true
  | _ => false

/-- **A quiet content leaves no trace**: what it is filled out with stays as it was, as long as the
clock is fixed where the content shows the time. -/
theorem Quiet.fill_eq {content : Content σ} (quiet : content.Quiet) {context : Context γ}
    (fixed : content.showsTime = true → context.clock.Fixed) :
    ∃ answer, content.fill context = ((answer, content), context) := by
  obtain ⟨words, clock⟩ := context
  cases quiet with
  | timestamp | uuid =>
    obtain ⟨seconds, rfl⟩ := fixed rfl
    exact ⟨_, rfl⟩
  | _ => exact ⟨_, rfl⟩

omit [ValueSource σ] in
theorem Quiet.ne_custom {content : Content σ} (quiet : content.Quiet) (source : σ) :
    content ≠ .custom source := by
  rintro rfl
  cases quiet

omit [ValueSource σ] in
theorem Resembles.target?_eq {content other : Content σ} (alike : content.Resembles other) :
    content.target? = other.target? := by
  cases alike <;> rfl

end Content

/-! ### One record -/

/-- **A quiet field adds its own outcome to the first pass**, and nothing else. -/
theorem fillEach_insert {content : Content σ} (quiet : content.Quiet) {context : Context γ}
    {before after : List (String × Content σ)}
    (fixed : content.showsTime = true → FixedThrough (before ++ after) context) (key : String) :
    ∃ answer front back,
      fillEach (before ++ after) context = (front ++ back, (fillEach (before ++ after) context).2) ∧
      fillEach (before ++ (key, content) :: after) context =
        (front ++ ⟨key, answer, content⟩ :: back, (fillEach (before ++ after) context).2) := by
  have due : content.showsTime = true → (fillEach before context).2.clock.Fixed :=
    fun shows => fixed shows before (List.prefix_append ..)
  obtain ⟨answer, filled⟩ := quiet.fill_eq due
  refine ⟨answer, (fillEach before context).1,
    (fillEach after (fillEach before context).2).1, ?_, ?_⟩
  · rw [fillEach_append]
  · rw [fillEach_append, fillEach_cons filled, fillEach_append]

omit [WordSource γ] [ValueSource σ] in
/-- The value found for a name does not depend on the outcomes of others. -/
theorem valueOf?_insert {key name : String} (different : name ≠ key) (front back : List (Outcome σ))
    (answer : Option Json) (content : Content σ) :
    valueOf? (front ++ ⟨key, answer, content⟩ :: back) name = valueOf? (front ++ back) name := by
  have other : (key == name) = false := beq_eq_false_iff_ne.mpr different.symm
  simp only [valueOf?, List.find?_append, List.find?_cons, other]

omit [WordSource γ] [ValueSource σ] in
/-- An outcome that does not refer to a name is resolved without it. -/
theorem Outcome.resolve_insert {key : String} {outcome : Outcome σ}
    (unrelated : outcome.content.target? ≠ some key) (front back : List (Outcome σ))
    (answer : Option Json) (content : Content σ) :
    outcome.resolve (front ++ ⟨key, answer, content⟩ :: back) =
      outcome.resolve (front ++ back) := by
  unfold Outcome.resolve
  split
  · rfl
  next target _ refers =>
    have different : target ≠ key := fun same => unrelated (same ▸ refers)
    rw [valueOf?_insert different]
  · rfl

namespace Form

variable {form : Form σ} {key : String} {content : Content σ}

/-- No reference of a form leads to a name. -/
def Ignores (form : Form σ) (key : String) : Prop := ∀ name, (name, key) ∉ form.references

omit [ValueSource σ] in
theorem Ignores.target?_ne (ignores : form.Ignores key) {entry : String × Content σ}
    (mem : entry ∈ form.entries) : entry.2.target? ≠ some key := by
  obtain ⟨name, content⟩ := entry
  intro refers
  obtain rfl : content = .reference key := by
    cases content with
    | reference target => exact congrArg _ (Option.some.inj refers)
    | _ => cases refers
  exact ignores name (mem_references_iff.mpr (Table.get?_of_mem mem))

omit [ValueSource σ] in
/-- Forms that resemble one another lack the same names. -/
theorem Resembles.get?_eq_none {later : Form σ} (alike : form.Resembles later)
    (absent : form.get? key = none) : later.get? key = none := by
  rw [← Table.contains_eq_false_iff] at absent ⊢
  rw [Table.Entrywise.contains_eq alike, absent]

omit [ValueSource σ] in
/-- They ignore the same names, too. -/
theorem Resembles.ignores {later : Form σ} (alike : form.Resembles later)
    (ignores : form.Ignores key) : later.Ignores key := by
  intro name refers
  obtain ⟨content, found, related⟩ := alike.exists_left (mem_references_iff.mp refers)
  obtain rfl := related.eq_right (by simp)
  exact ignores name (mem_references_iff.mpr found)

/-- The outcomes of the first pass refer to what the fields refer to. -/
theorem Ignores.outcome (ignores : form.Ignores key) (context : Context γ) :
    ∀ outcome ∈ (fillEach form.entries context).1, outcome.content.target? ≠ some key := by
  intro outcome mem
  have mem' : (outcome.name, outcome.content) ∈ (form.fill context).1.2.entries :=
    List.mem_map.mpr ⟨outcome, mem, rfl⟩
  obtain ⟨before, found, alike⟩ :=
    (form.resembles_fill context).exists_left (Table.get?_of_mem mem')
  rw [← alike.target?_eq]
  exact ignores.target?_ne (Table.mem_of_get?_eq_some found)

/-- What filling out a form makes of the outcomes of the first pass. -/
theorem fill_of_fillEach {context left : Context γ} {outcomes : List (Outcome σ)}
    (pass : fillEach form.entries context = (outcomes, left)) :
    (form.fill context).1.1.entries = outcomes.map (fun o => (o.name, o.resolve outcomes)) ∧
    (form.fill context).1.2.entries = outcomes.map (fun o => (o.name, o.content)) ∧
    (form.fill context).2 = left := by
  simp only [fill, pass, and_self]

/-- **A quiet field adds its own value to the record**, and nothing else. The form and the context
are left as without the field. -/
theorem fill_insert (fresh : form.get? key = none) (ignores : form.Ignores key)
    (quiet : content.Quiet) {context : Context γ}
    (fixed : content.showsTime = true → FixedThrough form.entries context) :
    ∃ shown, Form.fill (form.insert key content) context =
      (((form.fill context).1.1.insert key shown, (form.fill context).1.2.insert key content),
        (form.fill context).2) := by
  obtain ⟨before, after, fewer, more⟩ := Table.exists_entries_insert fresh content
  rw [fewer] at fixed
  obtain ⟨answer, front, back, without, pass⟩ := fillEach_insert quiet fixed key
  rw [← fewer] at without pass
  rw [← more] at pass
  have unrelated := ignores.outcome context
  rw [without] at unrelated
  obtain ⟨record, later, -⟩ := fill_of_fillEach without
  obtain ⟨record', later', left⟩ := fill_of_fillEach pass
  -- the other outcomes are resolved alike, whether that of the field stands among them or not
  have resolved : ∀ outcome ∈ front ++ back,
      (outcome.name, outcome.resolve (front ++ ⟨key, answer, content⟩ :: back)) =
        (outcome.name, outcome.resolve (front ++ back)) := fun outcome mem =>
    Prod.ext rfl (Outcome.resolve_insert (unrelated outcome mem) ..)
  obtain ⟨earlier, latter⟩ := List.forall_mem_append.mp resolved
  rw [List.map_append] at record later
  rw [List.map_append, List.map_cons] at record' later'
  rw [List.map_congr_left earlier, List.map_congr_left latter] at record'
  exact ⟨_, Prod.ext (Prod.ext (Table.eq_insert_of_entries record record')
    (Table.eq_insert_of_entries later later')) left⟩

/-! ### Many records -/

/-- Makes so many records one after the other. After each of them the context is renewed in some
way: it is left alone, or it gets back the clock that it had in the beginning. -/
def series (renew : Context γ → Context γ) (form : Form σ) :
    (count : ℕ) → StateM (Context γ) (List Record × Form σ)
  | 0 => return ([], form)
  | count + 1 => do
    let (first, later) ← form.fill
    modify renew
    let (more, last) ← series renew later count
    return (first :: more, last)

section Series

variable {renew : Context γ → Context γ}

/-- One record, and those after it. -/
theorem series_succ (form : Form σ) (count : ℕ) (context : Context γ) :
    form.series renew (count + 1) context =
      let first := form.fill context
      let more := first.1.2.series renew count (renew first.2)
      ((first.1.1 :: more.1.1, more.1.2), more.2) := rfl

/-- Records that are made in one context of the caller are a series in which the context is left
alone. -/
theorem result_fillMany_eq_series (context : Context γ) (count : ℕ) (generator : Generator σ) :
    (fillMany context count).result generator =
      let run := generator.form.series id count context
      (run.1.1, { generator with form := run.1.2 }) := by
  induction count generalizing context generator with
  | zero => rfl
  | succ count ih =>
    have later := ih (generator.form.fill context).2
      { generator with form := (generator.form.fill context).1.2 }
    exact congrArg (fun run => ((generator.form.fill context).1.1 :: run.1, run.2)) later

/-- Records that a generator makes from words of the caller are a series in which the context gets
the clock of the generator back, if that clock is frozen. -/
theorem result_recordsWith_eq_series {generator : Generator σ} {seconds : Int64}
    (frozen : generator.clock = .frozen seconds) (words : γ) (count : ℕ) :
    (recordsWith words count).result generator =
      let run := generator.form.series (fun context => ⟨context.words, .frozen seconds⟩) count
        ⟨words, .frozen seconds⟩
      (run.1.1, { generator with form := run.1.2 }) := by
  obtain ⟨form, own, clock, seed⟩ := generator
  subst frozen
  induction count generalizing form words with
  | zero => rfl
  | succ count ih =>
    have later := ih (form.fill ⟨words, .frozen seconds⟩).2.words
      (form.fill ⟨words, .frozen seconds⟩).1.2
    exact congrArg (fun run => ((form.fill ⟨words, .frozen seconds⟩).1.1 :: run.1, run.2)) later

/-- **A quiet field adds its own value to every record**, and nothing else, if the clock is fixed
where that matters. -/
theorem series_insert (fresh : form.get? key = none) (ignores : form.Ignores key)
    (quiet : content.Quiet) {context : Context γ} {count : ℕ}
    (fixed : content.showsTime = true → form.ClockFixed renew context count) :
    let run := form.series renew count context
    let run' := Form.series renew (form.insert key content) count context
    List.Forall₂ (fun record record' : Record => ∃ shown, record' = record.insert key shown)
      run.1.1 run'.1.1 ∧ run'.1.2 = run.1.2.insert key content ∧ run'.2 = run.2 := by
  induction count generalizing form context with
  | zero => exact ⟨.nil, rfl, rfl⟩
  | succ count ih =>
    have first : content.showsTime = true → FixedThrough form.entries context :=
      fun shows => (fixed shows).1
    have later : content.showsTime = true →
        Form.ClockFixed renew (form.fill context).1.2 (renew (form.fill context).2) count :=
      fun shows => (fixed shows).2
    obtain ⟨shown, filled⟩ := fill_insert fresh ignores quiet first
    have alike := form.resembles_fill context
    obtain ⟨records, last, left⟩ := ih (alike.get?_eq_none fresh) (alike.ignores ignores) later
    rw [series_succ, series_succ, filled]
    exact ⟨.cons ⟨shown, rfl⟩ records, last, left⟩

end Series

end Form

end Stencil
