import Mathlib.Tactic.Common
import Stencil.Field.StockSource
import Stencil.Proofs.Form.Stream
import Stencil.Proofs.Table.Entrywise
import Stencil.Random.ChaCha8

/-!
# What random values depend on

Only two kinds of field draw on the random words: patterns, and identifiers that show no time. What
such a field draws does not depend on its name, on the texts around the random part, on the fields
that draw nothing or on the clock. It depends on the shape of the draw alone. So the random parts of
a record are those of the list of its draw shapes, and a form is as good as that list: two forms
with the same list, however different they are, show the same random parts in every record.

The proof does not walk through two forms side by side. It shows of one form that its random parts
are those of `Stencil.drawAll`, which knows nothing but shapes, and compares both forms with that.

* `Stencil.DrawShape`, `Stencil.Content.drawShape?`: the shape of a draw;
* `Stencil.drawAll`: the draws of a list of shapes;
* `Stencil.Form.randomParts_fill`: the random parts of one record;
* `Stencil.Form.randomParts_eq_of_drawShapes_eq`: the random parts of two forms.
-/

namespace Stencil

variable {γ σ τ : Type} [WordSource γ] [ValueSource σ] [ValueSource τ]

/-! ### Shapes of draws -/

/-- The shape of a draw: all that decides about what is taken from the random words. -/
inductive DrawShape where
  /-- The body of a pattern, with so many characters of each class. -/
  | body (letters digits specials : ℕ)
  /-- An identifier. -/
  | uuid
deriving DecidableEq, Repr

/-- Draws the random part of a shape. -/
def DrawShape.draw : DrawShape → StateM γ String
  | body letters digits specials => return String.ofList (← drawBody letters digits specials)
  | uuid => drawUuid

/-- Draws the random parts of shapes, one after the other. -/
def drawAll : List DrawShape → StateM γ (List String)
  | [] => return []
  | shape :: rest => do
    let part ← shape.draw
    let more ← drawAll rest
    return part :: more

namespace Content

omit [ValueSource σ]

/-- The shape of what a field draws, if it may draw. -/
def drawShape? : Content σ → Option DrawShape
  | .pattern p => some (.body p.letters p.digits p.specials)
  | .uuid .random => some .uuid
  | _ => none

/-- The text in front of the random part of a field. -/
def lead : Content σ → String
  | .pattern p => p.lead
  | _ => ""

/-- The text behind the random part of a field. -/
def trail : Content σ → String
  | .pattern p => p.trail
  | _ => ""

/-- The value of a field that draws, with the random part that it has drawn. -/
def shown (content : Content σ) (part : String) : Json :=
  .string (content.lead ++ part ++ content.trail)

/-- An identifier is random from end to end. -/
theorem shown_random (part : String) : (.uuid .random : Content σ).shown part = .string part := by
  simp only [shown, lead, trail, String.empty_append, String.append_empty]

/-- The random part can be read off the value. -/
theorem shown_injective (content : Content σ) : Function.Injective content.shown := by
  intro part other same
  have texts := congrArg String.toList (Json.string.inj same)
  simp only [String.toList_append] at texts
  exact String.toList_inj.mp (List.append_cancel_left (List.append_cancel_right texts))

end Content

/-! ### The first pass -/

/-- **A field that draws shows what its shape draws**, and leaves the words that the shape leaves.
-/
theorem Content.fill_eq_of_drawShape {content : Content σ} {shape : DrawShape}
    (draws : content.drawShape? = some shape) (context : Context γ) :
    content.fill context =
      ((some (content.shown (shape.draw context.words).1), content),
        { context with words := (shape.draw context.words).2 }) := by
  cases content with
  | pattern p =>
    obtain rfl := Option.some.inj draws
    rfl
  | uuid kind =>
    rcases kind with _ | _
    · obtain rfl := Option.some.inj draws
      rw [shown_random]
      rfl
    · cases draws
  | _ => cases draws

/-- A field without a shape leaves the random words alone, unless it is a source of the caller. -/
theorem Content.words_fill_of_drawShape {content : Content σ}
    (plain : ∀ source, content ≠ .custom source) (drawsNot : content.drawShape? = none)
    (context : Context γ) : (content.fill context).2.words = context.words := by
  cases content with
  | custom source => exact absurd rfl (plain source)
  | pattern p => cases drawsNot
  | uuid kind =>
    rcases kind with _ | _
    · cases drawsNot
    · rfl
  | _ => rfl

/-- The shapes of the fields that may draw, in order. -/
def drawShapesOf (entries : List (String × Content σ)) : List DrawShape :=
  entries.filterMap fun entry => entry.2.drawShape?

/-- The fields that may draw, in order. -/
def drawingOf (entries : List (String × Content σ)) : List (String × Content σ) :=
  entries.filter fun entry => entry.2.drawShape?.isSome

/-- **The first pass draws what the shapes of its fields draw.** The words are left as these leave
them, and each field that draws shows its part. -/
theorem fillEach_draws {entries : List (String × Content σ)}
    (plain : ∀ entry ∈ entries, ∀ source, entry.2 ≠ .custom source) (context : Context γ) :
    (fillEach entries context).2.words = (drawAll (drawShapesOf entries) context.words).2 ∧
    List.Forall₂
      (fun field part =>
        ⟨field.1, some (field.2.shown part), field.2⟩ ∈ (fillEach entries context).1)
      (drawingOf entries) (drawAll (drawShapesOf entries) context.words).1 := by
  induction entries generalizing context with
  | nil => exact ⟨rfl, .nil⟩
  | cons entry rest ih =>
    obtain ⟨head, tail⟩ := List.forall_mem_cons.mp plain
    obtain ⟨words, parts⟩ := ih tail (entry.2.fill context).2
    have first : (fillEach (entry :: rest) context).1 =
        ⟨entry.1, (entry.2.fill context).1.1, (entry.2.fill context).1.2⟩ ::
          (fillEach rest (entry.2.fill context).2).1 := rfl
    have last : (fillEach (entry :: rest) context).2 =
        (fillEach rest (entry.2.fill context).2).2 := rfl
    have later : List.Forall₂
        (fun field part =>
          ⟨field.1, some (field.2.shown part), field.2⟩ ∈ (fillEach (entry :: rest) context).1)
        (drawingOf rest) (drawAll (drawShapesOf rest) (entry.2.fill context).2.words).1 :=
      parts.imp fun field part mem => first ▸ List.mem_cons_of_mem _ mem
    rcases draws : entry.2.drawShape? with _ | shape
    · -- nothing is drawn for this field, and the draws of the others come from the same words
      have shapes : drawShapesOf (entry :: rest) = drawShapesOf rest :=
        List.filterMap_cons_none draws
      have fields : drawingOf (entry :: rest) = drawingOf rest :=
        List.filter_cons_of_neg (by simp [draws])
      rw [Content.words_fill_of_drawShape head draws] at words later
      rw [last, shapes, fields]
      exact ⟨words, later⟩
    · have filled := Content.fill_eq_of_drawShape draws context
      have shapes : drawShapesOf (entry :: rest) = shape :: drawShapesOf rest :=
        List.filterMap_cons_some draws
      have fields : drawingOf (entry :: rest) = entry :: drawingOf rest :=
        List.filter_cons_of_pos (by simp [draws])
      rw [filled] at words later
      rw [last, shapes, fields, filled]
      refine ⟨words, .cons ?_ later⟩
      rw [first, filled]
      exact List.mem_cons_self

/-! ### Records -/

/-- The random part of a field in a record: what the record shows between the two texts of the
field. -/
def Record.HasPart (record : Record) (field : String × Content σ) (part : String) : Prop :=
  record.get? field.1 = some (field.2.shown part)

omit [ValueSource σ] in
/-- A field has one random part. -/
theorem Record.HasPart.unique {record : Record} {field : String × Content σ} {part other : String}
    (h : record.HasPart field part) (also : record.HasPart field other) : part = other :=
  field.2.shown_injective (Option.some.inj (h.symm.trans also))

namespace Form

/-- The shapes of the fields of a form that may draw, in name order. -/
def drawShapes (form : Form σ) : List DrawShape := drawShapesOf form.entries

/-- The fields of a form that may draw, in name order. -/
def drawing (form : Form σ) : List (String × Content σ) := drawingOf form.entries

variable {form : Form σ}

/-- A record leaves the words that the shapes of its form leave. -/
theorem words_fill (plain : form.Plain) (context : Context γ) :
    (form.fill context).2.words = (drawAll form.drawShapes context.words).2 :=
  (fillEach_draws plain context).1

/-- **The random parts of a record are what the shapes of its form draw.** -/
theorem randomParts_fill (plain : form.Plain) (context : Context γ) :
    List.Forall₂ (form.fill context).1.1.HasPart form.drawing
      (drawAll form.drawShapes context.words).1 := by
  refine (fillEach_draws plain context).2.imp fun field part mem => ?_
  exact Table.get?_of_mem (List.mem_map.mpr ⟨_, mem, rfl⟩)

/-- The words along the stream of a form are those that its shapes leave. -/
theorem words_contextAfter (plain : form.Plain) (context : Context γ) (count : ℕ) :
    (form.contextAfter context count).words =
      (fun words => (drawAll form.drawShapes words).2)^[count] context.words := by
  have step : Function.Semiconj Context.words (fun context => (form.fill context).2)
      fun words : γ => (drawAll form.drawShapes words).2 := words_fill plain
  exact step.iterate_right count context

/-- **Random values depend on the shapes of draws alone.** Take two forms without sources of the
caller that have the same list of draw shapes, and let both make records from the same random words,
each with a clock of its own. After any number of records they leave the same words. In every record
the fields that may draw, taken in name order, have the same random parts pair by pair, and each has
one random part only. -/
theorem randomParts_eq_of_drawShapes_eq (form : Form σ) (other : Form τ) (plain : form.Plain)
    (plain' : other.Plain) (same : form.drawShapes = other.drawShapes) (words : γ)
    (clock clock' : Clock) :
    (∀ count, (form.contextAfter ⟨words, clock⟩ count).words =
      (other.contextAfter ⟨words, clock'⟩ count).words) ∧
    ∀ index, List.Forall₂
      (fun field field' => ∃ part,
        (∀ p, (form.recordAt ⟨words, clock⟩ index).HasPart field p ↔ p = part) ∧
          ∀ p, (other.recordAt ⟨words, clock'⟩ index).HasPart field' p ↔ p = part)
      form.drawing other.drawing := by
  have left : ∀ count, (form.contextAfter ⟨words, clock⟩ count).words =
      (other.contextAfter ⟨words, clock'⟩ count).words := by
    intro count
    rw [words_contextAfter plain, words_contextAfter plain', same]
  refine ⟨left, fun index => ?_⟩
  have parts := randomParts_fill plain (form.contextAfter ⟨words, clock⟩ index)
  have parts' := randomParts_fill plain' (other.contextAfter ⟨words, clock'⟩ index)
  rw [same, left] at parts
  refine (forall₂_comp parts parts'.flip).imp fun field field' => ?_
  rintro ⟨part, first, second⟩
  exact ⟨part, fun p => ⟨fun h => h.unique first, fun h => h ▸ first⟩,
    fun p => ⟨fun h => h.unique second, fun h => h ▸ second⟩⟩

/-- A form with an identifier and a login, which stands twice, and the time. -/
def account : Form StockSource :=
  ⟨[("id", .uuid .random), ("login", .pattern ⟨"user-", "@x", 2, 1, 0, by decide⟩),
    ("same", .reference "login"), ("when", .timestamp)], by
    have keys : ["id", "login", "same", "when"].Pairwise (· < ·) := by decide
    exact List.pairwise_map.mp keys⟩

/-- A form with the same shapes among other fields. -/
def ticket : Form StockSource :=
  ⟨[("a", .static .null), ("b", .uuid .random), ("c", .uuid .timestamp),
    ("d", .pattern ⟨"", "", 2, 1, 0, by decide⟩)], by
    have keys : ["a", "b", "c", "d"].Pairwise (· < ·) := by decide
    exact List.pairwise_map.mp keys⟩

/-- Tickets have the identifiers and the logins of accounts, whatever their clocks show. -/
theorem randomParts_eq_of_drawShapes_eq_ticket :
    let words := ChaCha8.ofSeed 7
    let accounts : Context ChaCha8 := ⟨words, .frozen 0⟩
    let tickets : Context ChaCha8 := ⟨words, .running (fun reading => 100 * reading.toInt64) 3⟩
    account.drawShapes = ticket.drawShapes ∧
    (∀ count, (account.contextAfter accounts count).words =
      (ticket.contextAfter tickets count).words) ∧
    ∀ index, ∃ id login,
      (account.recordAt accounts index).get? "id" = some (.string ("" ++ id ++ "")) ∧
      (ticket.recordAt tickets index).get? "b" = some (.string ("" ++ id ++ "")) ∧
      (account.recordAt accounts index).get? "login" = some (.string ("user-" ++ login ++ "@x")) ∧
      (ticket.recordAt tickets index).get? "d" = some (.string ("" ++ login ++ "")) := by
  intro words accounts tickets
  have plain : account.Plain := by simp [Plain, account]
  have plain' : ticket.Plain := by simp [Plain, ticket]
  obtain ⟨left, parts⟩ := randomParts_eq_of_drawShapes_eq account ticket plain plain' rfl words
    (.frozen 0) (.running (fun reading => 100 * reading.toInt64) 3)
  refine ⟨rfl, left, fun index => ?_⟩
  rcases parts index with _ | ⟨⟨id, first, second⟩, _ | ⟨⟨login, third, fourth⟩, -⟩⟩
  exact ⟨id, login, (first id).mpr rfl, (second id).mpr rfl, (third login).mpr rfl,
    (fourth login).mpr rfl⟩

end Form

end Stencil
