import Mathlib.Tactic.Common
import Stencil.Proofs.Generator.Stream
import Stencil.Proofs.Json.Alike
import Stencil.Proofs.Json.Blanks

/-!
# Templates with the same contents

How a template is written down leaves no trace in what is made from it. Two documents may list the
members of their objects in different orders, may have members that count for nothing because
others of their names come later, and may have blanks in different places. If they have the same
contents otherwise, and both can be read, they are read as the same template. Everything else is
made from the template, so the order of faults, of draws and of members in the records cannot differ
either.

* `Stencil.SameContents`: documents with the same contents;
* `Stencil.Template.decode_of_sameContents`: they are read as the same template;
* `Stencil.Setup.start_of_sameContents`: generators of two such documents.
-/

namespace Stencil

/-! ### Templates -/

/-- Two documents have the same contents if, without blanks between their tokens, they list objects
with the same contents. -/
def SameContents (document document' : List Symbol) : Prop :=
  ∃ members members', Json.readObject (unspaced document) = .ok members ∧
    Json.readObject (unspaced document') = .ok members' ∧
    Json.Alike (.object members) (.object members')

/-- What a document that can be read lists, it lists without its blanks as well. -/
theorem Template.exists_of_decode {bytes : ByteArray} {template : Template}
    (decoded : Template.decode bytes = .ok template) :
    ∃ members, Json.readObject (unspaced (symbols bytes)) = .ok members ∧
      template = .ofList (Json.canonicalMembers members) := by
  unfold Template.decode at decoded
  cases read : Json.readObject (symbols bytes) with
  | error fault =>
    rw [read] at decoded
    cases decoded
  | ok members =>
    rw [read] at decoded
    exact ⟨members, Json.readObject_unspaced read, (Except.ok.inj decoded).symm⟩

/-- **Documents with the same contents are read as the same template**, if they can be read. -/
theorem Template.decode_of_sameContents {bytes bytes' : ByteArray} {template template' : Template}
    (decoded : Template.decode bytes = .ok template)
    (decoded' : Template.decode bytes' = .ok template')
    (same : SameContents (symbols bytes) (symbols bytes')) : template' = template := by
  obtain ⟨members, listed, rfl⟩ := exists_of_decode decoded
  obtain ⟨members', listed', rfl⟩ := exists_of_decode decoded'
  obtain ⟨_, _, read, read', alike⟩ := same
  obtain rfl := Except.ok.inj (listed.symm.trans read)
  obtain rfl := Except.ok.inj (listed'.symm.trans read')
  refine Table.ext_entries (Eq.symm ?_)
  simpa only [Json.canonical, Json.object.injEq] using alike.canonical_eq

/-! ### Generators -/

variable {σ : Type} [ValueSource σ]

/-- **How a template is written down leaves no trace.** Take two setups that differ in their
templates only, both of which can be read, and have the same contents. Both report the same events
and have the same fault, or make generators with the same form. After any script, which yields the
same in both cases, both generators give the same text next. -/
theorem Setup.start_of_sameContents (setup : Setup σ) (other : ByteArray)
    (template template' : Template) (decoded : Template.decode setup.template = .ok template)
    (decoded' : Template.decode other = .ok template')
    (same : SameContents (symbols setup.template) (symbols other)) :
    let setup' : Setup σ := { setup with template := other }
    setup'.start.run.events = setup.start.run.events ∧
    (∀ fault, setup'.start.run.value = .error fault ↔ setup.start.run.value = .error fault) ∧
    ((∃ generator, setup'.start.run.value = .ok generator) ↔
      ∃ generator, setup.start.run.value = .ok generator) ∧
    ∀ generator generator', setup.start.run.value = .ok generator →
      setup'.start.run.value = .ok generator' →
        generator'.form = generator.form ∧
        ∀ script,
          let run := (runScript script).result generator
          let run' := (runScript script).result generator'
          run'.1 = run.1 ∧
            (Generator.nextText.result run'.2).1 = (Generator.nextText.result run.2).1 := by
  obtain rfl := Template.decode_of_sameContents decoded decoded' same
  have form : Form.ofBytes setup.rules other = Form.ofBytes setup.rules setup.template := by
    rw [Form.ofBytes, Form.ofBytes, decoded, decoded']
  have start : Setup.start { setup with template := other } = setup.start := by
    rw [Setup.start, Setup.start]
    exact congrArg (· >>= _) form
  intro setup'
  rw [show setup'.start = setup.start from start]
  refine ⟨rfl, fun _ => Iff.rfl, Iff.rfl, fun generator generator' started started' => ?_⟩
  obtain rfl := Except.ok.inj (started'.symm.trans started)
  exact ⟨rfl, fun script => ⟨rfl, rfl⟩⟩

/-- A template with a pattern and an object that is always the same. -/
def listed : String := "\x7b\"key\":\"_go:<2>\",\"at\":\x7b\"x\":1,\"y\":[\"p q\"]\x7d\x7d"

/-- The same with blanks, in another order, and with two members that count for nothing. -/
def relisted : String :=
  " \x7b \"at\" : \x7b \"y\" : 2 , \"y\" : [ \"p q\" ] , \"x\" : 1 \x7d ,\n" ++
    "\"key\" : null , \"key\" : \"_go:<2>\" \x7d "

/-- The object. -/
def listedPlace : Json :=
  .object [("x", .number (.integer 1 inWordRange_one)), ("y", .array [.string "p q"])]

/-- What the template is decoded to. -/
def listedTemplate : Template :=
  ⟨[("at", listedPlace), ("key", .string "_go:<2>")], by
    unfold InKeyOrder
    decide⟩

/-- Its form. -/
def listedForm : Form StockSource :=
  ⟨[("at", .static listedPlace), ("key", .pattern ⟨"", "", 2, 0, 0, Pattern.two_letters_le⟩)], by
    unfold InKeyOrder
    decide⟩

/-- Both spellings of that template make the same texts. -/
theorem Setup.start_of_sameContents_relisted :
    let options : Options := ⟨some 7, .random, .anywhere⟩
    let setup : Setup StockSource := ⟨listed.toUTF8, .empty, options, .frozen 5, 0⟩
    let setup' : Setup StockSource := { setup with template := relisted.toUTF8 }
    setup'.start.run.events = setup.start.run.events ∧
    ∃ generator generator', setup.start.run.value = .ok generator ∧
      setup'.start.run.value = .ok generator' ∧ generator'.form = listedForm ∧
      ∀ script, (Generator.nextText.result ((runScript script).result generator').2).1 =
        (Generator.nextText.result ((runScript script).result generator).2).1 := by
  intro options setup setup'
  have read : Json.readObject (symbols listed.toUTF8) =
      .ok [("key", .string "_go:<2>"), ("at", listedPlace)] := by
    rw [symbols_toUTF8]
    rfl
  have read' : Json.readObject (symbols relisted.toUTF8) =
      .ok [("at", .object [("y", .number (.integer 2 (by decide))), ("y", .array [.string "p q"]),
        ("x", .number (.integer 1 (by decide)))]), ("key", .null), ("key", .string "_go:<2>")] := by
    rw [symbols_toUTF8]
    rfl
  have decoded : Template.decode listed.toUTF8 = .ok listedTemplate := by
    rw [Template.decode, read]
    rfl
  have decoded' : Template.decode relisted.toUTF8 = .ok listedTemplate := by
    rw [Template.decode, read']
    rfl
  have same : SameContents (symbols listed.toUTF8) (symbols relisted.toUTF8) :=
    ⟨_, _, Json.readObject_unspaced read, Json.readObject_unspaced read', Json.alike_iff.mpr rfl⟩
  have made : (Form.ofBytes setup.rules listed.toUTF8).run.value = .ok listedForm := by
    rw [Form.ofBytes, decoded]
    show (Form.ofTemplate ⟨(Keywords.builtin .random).merge .empty, .anywhere⟩ _).run.value = _
    rfl
  have started : setup.start.run.value = .ok ⟨listedForm, .ofSeed 7, .frozen 5, 7⟩ := by
    rw [value_start, made]
    rfl
  obtain ⟨events, -, starts, texts⟩ :=
    start_of_sameContents setup relisted.toUTF8 listedTemplate listedTemplate decoded decoded' same
  obtain ⟨generator', started'⟩ := starts.mpr ⟨_, started⟩
  obtain ⟨form, runs⟩ := texts _ generator' started started'
  exact ⟨events, _, generator', started, started', form, fun script => (runs script).2⟩

end Stencil
