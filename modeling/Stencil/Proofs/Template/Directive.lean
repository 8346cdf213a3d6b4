import Mathlib.Tactic.Common
import Stencil.Field.StockSource
import Stencil.Form.OfTemplate
import Stencil.Proofs.Pattern.Offsets
import Stencil.Table.Lemmas

/-!
# Where the body of a directive begins

The body of a directive begins at a fixed number of bytes, whatever stands there. With the marker in
front these bytes are the marker, but a marker further on may have any text before it, and then the
offset can fall inside a character. The body begins with the next whole character in that case, and
there always is a place for it to begin: a text that has the marker anywhere is long enough. So the
two rules for the place of the marker differ in **which** texts they take for directives and in
nothing else, and a template that never has the marker further on has one form under both.

* `Stencil.hasMarker_iff`: the marker at any position;
* `Stencil.Covers`, `Stencil.exists_covers`: the characters that are passed over;
* `Stencil.boundaryFrom?`, `Stencil.Covers.boundaryFrom?_eq`: the same place found by counting
  bytes;
* `Stencil.MarkerPlace.body?_anywhere_atStart`: the bodies under both rules.
-/

namespace Stencil

variable {σ : Type}

/-! ### The marker in a text -/

theorem startsWithMarker_iff {text : List Char} :
    startsWithMarker text = true ↔ marker.toList <+: text :=
  List.isPrefixOf_iff_prefix

/-- **A text has the marker if the marker is a part of it**, at any position. -/
theorem hasMarker_iff {text : List Char} : hasMarker text = true ↔ marker.toList <:+: text := by
  induction text with
  | nil =>
    rw [List.infix_nil]
    exact iff_of_false (by simp [hasMarker]) (by simp [marker])
  | cons c rest ih => rw [hasMarker, Bool.or_eq_true, startsWithMarker_iff, ih, List.infix_cons_iff]

/-- Every character of the marker is one byte long. -/
theorem byteLength_marker : byteLength marker.toList = marker.utf8ByteSize := by
  rw [← utf8ByteSize_ofList, String.ofList_toList]

/-- A text that has the marker has as many bytes as the marker. -/
theorem le_byteLength_of_hasMarker {text : List Char} (h : hasMarker text = true) :
    marker.utf8ByteSize ≤ byteLength text := by
  obtain ⟨before, after, rfl⟩ := hasMarker_iff.mp h
  rw [byteLength_append, byteLength_append, byteLength_marker]
  omega

/-! ### Whole characters that cover a number of bytes -/

/-- **A front of a text covers a number of bytes**, and no shorter front does. -/
structure Covers (bytes : ℕ) (text front : List Char) : Prop where
  /-- It is a front of the text. -/
  isFront : front <+: text
  /-- It has so many bytes. -/
  enough : bytes ≤ byteLength front
  /-- Every front with so many bytes goes on from it. -/
  least : ∀ other, other <+: text → bytes ≤ byteLength other → front <+: other

namespace Covers

variable {bytes : ℕ} {text front : List Char}

/-- Without its last character a front would not cover the bytes, so it has at most three to
spare. -/
theorem byteLength_le (h : Covers bytes text front) : byteLength front ≤ bytes + 3 := by
  rcases List.eq_nil_or_concat front with rfl | ⟨init, c, rfl⟩
  · simp
  · rw [List.concat_eq_append] at h ⊢
    have hshort : byteLength init < bytes := by
      by_contra hcon
      have hinit : init <+: text := (List.prefix_append init [c]).trans h.isFront
      have hle := (h.least init hinit (Nat.le_of_not_lt hcon)).length_le
      rw [List.length_append, List.length_singleton] at hle
      omega
    have hlast := c.utf8Size_le_four
    rw [byteLength_append, byteLength_cons, byteLength_nil]
    omega

end Covers

/-- **What is dropped is the front that covers the bytes**, if the text has so many. -/
theorem exists_covers {bytes : ℕ} {text : List Char} (h : bytes ≤ byteLength text) :
    ∃ front, text = front ++ dropBytes bytes text ∧ Covers bytes text front := by
  fun_induction dropBytes bytes text with
  | case1 text => exact ⟨[], rfl, List.nil_prefix, Nat.zero_le _, fun _ _ _ => List.nil_prefix⟩
  | case2 bytes hne => exact absurd (Nat.le_zero.mp h) hne
  | case3 bytes c rest ih =>
    rw [byteLength_cons] at h
    obtain ⟨front, htext, hfront, henough, hleast⟩ := ih (by omega)
    refine ⟨c :: front, congrArg (c :: ·) htext, ?_, ?_, ?_⟩
    · exact List.cons_prefix_cons.mpr ⟨rfl, hfront⟩
    · rw [byteLength_cons]
      omega
    · intro other hother hbytes
      -- the empty front covers nothing, so any other one begins with the same character
      cases other with
      | nil => exact absurd hbytes (by simp)
      | cons d other =>
        obtain ⟨rfl, htail⟩ := List.cons_prefix_cons.mp hother
        rw [byteLength_cons] at hbytes
        exact List.cons_prefix_cons.mpr ⟨rfl, hleast other htail (by omega)⟩

/-- Dropping as many bytes as a front has drops that front. -/
theorem dropBytes_append (front rest : List Char) :
    dropBytes (byteLength front) (front ++ rest) = rest := by
  induction front with
  | nil => rw [byteLength_nil, List.nil_append, dropBytes]
  | cons c front ih =>
    have hpos := c.utf8Size_pos
    obtain ⟨k, hk⟩ : ∃ k, c.utf8Size + byteLength front = k + 1 :=
      Nat.exists_eq_succ_of_ne_zero (by omega)
    have hleft : k + 1 - c.utf8Size = byteLength front := by omega
    rw [byteLength_cons, hk, List.cons_append, dropBytes, hleft, ih]

/-! ### The same place found by counting bytes -/

/-- The first place between two characters of a text from an offset on, up to the end of the
text. -/
def boundaryFrom? (text : String) (offset : ℕ) : Option ℕ :=
  (List.range' offset (text.utf8ByteSize + 1 - offset)).find? fun i =>
    (⟨i⟩ : String.Pos.Raw).IsValid text

/-- The places between two characters of a text are where its fronts end. -/
theorem isValid_iff_exists_front {text : String} {i : ℕ} :
    (⟨i⟩ : String.Pos.Raw).IsValid text ↔
      ∃ front, front <+: text.toList ∧ byteLength front = i := by
  have hvalid := String.Pos.Raw.isValid_ofList (l := text.toList) (p := ⟨i⟩)
  rw [String.ofList_toList] at hvalid
  rw [hvalid]
  constructor
  · rintro ⟨count, hcount⟩
    exact ⟨text.toList.take count, List.take_prefix _ _, by rw [← utf8ByteSize_ofList, ← hcount]⟩
  · rintro ⟨front, hfront, rfl⟩
    refine ⟨front.length, ?_⟩
    rw [← List.prefix_iff_eq_take.mp hfront, utf8ByteSize_ofList]

/-- **The search for a place finds the end of the front that covers the bytes.** -/
theorem Covers.boundaryFrom?_eq {text : String} {offset : ℕ} {front : List Char}
    (h : Covers offset text.toList front) :
    boundaryFrom? text offset = some (byteLength front) := by
  have hend : byteLength front ≤ text.utf8ByteSize := by
    obtain ⟨rest, hrest⟩ := h.isFront
    rw [← String.ofList_toList (s := text), utf8ByteSize_ofList, ← hrest, byteLength_append]
    omega
  have henough := h.enough
  rw [boundaryFrom?, List.find?_range'_eq_some]
  refine ⟨?_, ?_, ?_⟩
  · exact decide_eq_true (isValid_iff_exists_front.mpr ⟨front, h.isFront, rfl⟩)
  · rw [List.mem_range'_1]
    omega
  · intro j hj hlt
    rw [Bool.not_eq_true', decide_eq_false_iff_not, isValid_iff_exists_front]
    rintro ⟨other, hother, rfl⟩
    obtain ⟨more, rfl⟩ := h.least other hother hj
    rw [byteLength_append] at hlt
    omega

/-! ### Bodies -/

namespace MarkerPlace

/-- A text is a directive if the marker stands where it has to. -/
theorem exists_body?_iff {place : MarkerPlace} {text : String} :
    (∃ body, place.body? text = some body) ↔ place.admits text.toList = true := by
  unfold body?
  split
  · next h => exact iff_of_true ⟨_, rfl⟩ h
  · next h => exact iff_of_false (by simp) h

/-- **With the marker in front**, the body is what comes after it. -/
theorem body?_atStart_eq_some_iff {text body : String} :
    atStart.body? text = some body ↔ text = marker ++ body := by
  have hdrop : ∀ rest, dropBytes marker.utf8ByteSize (marker.toList ++ rest) = rest := by
    rw [← byteLength_marker]
    exact dropBytes_append marker.toList
  constructor
  · intro h
    obtain ⟨rest, hrest⟩ := startsWithMarker_iff.mp (exists_body?_iff.mp ⟨body, h⟩)
    rw [body?, if_pos (exists_body?_iff.mp ⟨body, h⟩), ← hrest, hdrop, Option.some.injEq] at h
    rw [← String.toList_inj, String.toList_append, ← h, String.toList_ofList, hrest]
  · rintro rfl
    have hstarts : atStart.admits (marker ++ body).toList = true := by
      rw [String.toList_append]
      exact startsWithMarker_iff.mpr (List.prefix_append _ _)
    rw [body?, if_pos hstarts, String.toList_append, hdrop, String.ofList_toList]

/-- What is a directive with the marker in front is one with the marker anywhere. -/
theorem body?_anywhere_of_atStart {text body : String} (h : atStart.body? text = some body) :
    anywhere.body? text = some body := by
  have hstarts : startsWithMarker text.toList = true := exists_body?_iff.mp ⟨body, h⟩
  have hhas : anywhere.admits text.toList = true :=
    hasMarker_iff.mpr (startsWithMarker_iff.mp hstarts).isInfix
  rw [body?, if_pos hhas]
  rwa [body?, if_pos (show atStart.admits text.toList = true from hstarts)] at h

/-- **With the marker anywhere**, the body is what comes after the characters that cover as many
bytes as the marker has. -/
theorem exists_skipped {text body : String} (h : anywhere.body? text = some body) :
    ∃ skipped : String, text = skipped ++ body ∧
      Covers marker.utf8ByteSize text.toList skipped.toList := by
  have hhas : anywhere.admits text.toList = true := exists_body?_iff.mp ⟨body, h⟩
  obtain ⟨front, htext, hcovers⟩ := exists_covers (le_byteLength_of_hasMarker hhas)
  rw [body?, if_pos hhas, Option.some.injEq] at h
  refine ⟨String.ofList front, ?_, by rwa [String.toList_ofList]⟩
  rw [← String.toList_inj, String.toList_append, ← h, String.toList_ofList, String.toList_ofList]
  exact htext

end MarkerPlace

/-! ### Templates under both rules -/

namespace Form

variable {rules rules' : Rules σ} {template : Template}

/-- Rules that give the same fields and warnings for some entries add the same fields for them. -/
theorem addEntries_congr {entries : List (String × Json)}
    (h : ∀ entry ∈ entries, rules.recognize template entry.1 entry.2 =
      rules'.recognize template entry.1 entry.2) (form : Form σ) :
    addEntries rules template entries form = addEntries rules' template entries form := by
  induction entries generalizing form with
  | nil => rfl
  | cons entry rest ih =>
    obtain ⟨hfirst, hrest⟩ := List.forall_mem_cons.mp h
    rw [addEntries, addEntries, hfirst]
    exact bind_congr fun field => ih hrest _

/-- The rules for the place of the marker come in only by the bodies that they find. -/
theorem ofTemplate_congr_place {keywords : Keywords σ} {place place' : MarkerPlace}
    (h : ∀ entry ∈ template.entries, place.bodyOf? entry.2 = place'.bodyOf? entry.2) :
    ofTemplate ⟨keywords, place⟩ template = ofTemplate ⟨keywords, place'⟩ template := by
  have hsame : ∀ entry ∈ template.entries,
      Rules.recognize ⟨keywords, place⟩ template entry.1 entry.2 =
        Rules.recognize ⟨keywords, place'⟩ template entry.1 entry.2 := by
    intro entry hmem
    simp only [Rules.recognize, Rules.fieldOf, Rules.fieldOfValue, Rules.fieldOfBody,
      Rules.warnings, h entry hmem]
  rw [ofTemplate, ofTemplate, addEntries_congr hsame]

end Form

namespace MarkerPlace

/-- A value has one body under both rules if it never has the marker further on only. -/
theorem bodyOf?_anywhere_eq_atStart {value : Json}
    (h : ∀ text, value = .string text → marker.toList <:+: text.toList →
      marker.toList <+: text.toList) :
    anywhere.bodyOf? value = atStart.bodyOf? value := by
  cases value with
  | string text =>
    change anywhere.body? text = atStart.body? text
    cases hstart : atStart.body? text with
    | some body => exact body?_anywhere_of_atStart hstart
    | none =>
      rw [Option.eq_none_iff_forall_ne_some]
      intro body hbody
      have hhas := hasMarker_iff.mp (exists_body?_iff.mp ⟨body, hbody⟩)
      have hstarts : atStart.admits text.toList = true :=
        startsWithMarker_iff.mpr (h text rfl hhas)
      obtain ⟨other, hother⟩ := exists_body?_iff.mpr hstarts
      rw [hstart] at hother
      cases hother
  | _ => rfl

/-- **Directives under both rules.** With the marker anywhere a text is a directive if and only if
the marker is a part of it. Then the body is what comes after the shortest front of whole characters
that has four bytes or more; it has seven at most, and it is found by looking for a place between
two characters from the fourth byte on, of which there always is one. With the marker in front the
body is what comes after the marker, and that is the body with the marker anywhere, too. So a
template whose texts have the marker in front or not at all has the same form under both rules, or
the same fault, with the same events. -/
theorem body?_anywhere_atStart :
    (∀ text : String,
      (∃ body, anywhere.body? text = some body) ↔ marker.toList <:+: text.toList) ∧
    (∀ text body : String, anywhere.body? text = some body → ∃ skipped : String,
      text = skipped ++ body ∧ Covers 4 text.toList skipped.toList ∧
      4 ≤ skipped.utf8ByteSize ∧ skipped.utf8ByteSize ≤ 7 ∧
      boundaryFrom? text 4 = some skipped.utf8ByteSize ∧
      (⟨skipped.utf8ByteSize⟩ : String.Pos.Raw).IsValid text) ∧
    (∀ text : String,
      (∃ body, atStart.body? text = some body) ↔ marker.toList <+: text.toList) ∧
    (∀ text body : String, atStart.body? text = some body ↔ text = marker ++ body) ∧
    (∀ text body : String, atStart.body? text = some body → anywhere.body? text = some body) ∧
    ∀ (σ : Type) (keywords : Keywords σ) (template : Template),
      (∀ key text, template.get? key = some (.string text) → marker.toList <:+: text.toList →
        marker.toList <+: text.toList) →
      Form.ofTemplate ⟨keywords, anywhere⟩ template =
        Form.ofTemplate ⟨keywords, atStart⟩ template := by
  refine ⟨?_, ?_, ?_, fun _ _ => body?_atStart_eq_some_iff,
    fun _ _ => body?_anywhere_of_atStart, ?_⟩
  · intro text
    rw [exists_body?_iff]
    exact hasMarker_iff
  · intro text body h
    obtain ⟨skipped, htext, hcovers⟩ := exists_skipped h
    have hsize : skipped.utf8ByteSize = byteLength skipped.toList := by
      rw [← utf8ByteSize_ofList, String.ofList_toList]
    refine ⟨skipped, htext, hcovers, ?_⟩
    rw [hsize]
    exact ⟨hcovers.enough, hcovers.byteLength_le, hcovers.boundaryFrom?_eq,
      isValid_iff_exists_front.mpr ⟨_, hcovers.isFront, rfl⟩⟩
  · intro text
    rw [exists_body?_iff]
    exact startsWithMarker_iff
  · intro σ keywords template h
    refine Form.ofTemplate_congr_place fun entry hmem => ?_
    refine bodyOf?_anywhere_eq_atStart fun text htext => h entry.1 text ?_
    exact Table.get?_eq_some_iff.mpr (htext ▸ hmem)

/-- A template with a directive, and with a text that has almost the marker. -/
def plainlyMarked : Template :=
  ⟨[("a", .string "_go:<2>"), ("b", .string "x_go")], by
    unfold InKeyOrder
    decide⟩

/-- A body that begins after a character across the fourth byte, and a template that has the same
form under both rules. -/
theorem body?_anywhere_atStart_divided :
    anywhere.body? "aaaé_go:" = some "_go:" ∧
    (∃ skipped : String, "aaaé_go:" = skipped ++ "_go:" ∧
      Covers 4 "aaaé_go:".toList skipped.toList ∧ skipped.utf8ByteSize ≤ 7) ∧
    Form.ofTemplate ⟨Keywords.builtin (σ := StockSource) .random, anywhere⟩ plainlyMarked =
      Form.ofTemplate ⟨Keywords.builtin .random, atStart⟩ plainlyMarked := by
  obtain ⟨-, skips, -, -, -, agree⟩ := body?_anywhere_atStart
  have hbody : anywhere.body? "aaaé_go:" = some "_go:" := rfl
  obtain ⟨skipped, htext, hcovers, -, hle, -⟩ := skips _ _ hbody
  refine ⟨hbody, ⟨skipped, htext, hcovers, hle⟩, agree _ _ _ ?_⟩
  intro key text hentry
  have hmem := Table.get?_eq_some_iff.mp hentry
  rcases List.mem_cons.mp hmem with h | h
  · cases h
    intro
    decide
  · cases List.mem_singleton.mp h
    intro hhas
    exact absurd (hasMarker_iff.mpr hhas) (by decide)

end MarkerPlace

end Stencil
