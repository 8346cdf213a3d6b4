import Mathlib.Tactic.Common
import Stencil.Proofs.Pattern.Escape
import Stencil.Proofs.Pattern.Grammar

/-!
# Runs of backslashes

The reader of backslashes counts nothing: it judges each backslash by the one character after it.
Seen from further away it acts on whole runs. Within a run every backslash but the last has another
one after it and stays. The last one has the character after it that ends the run, and goes; a run
that ends the text has no such character, and stays as it is.

So a text can be cut in two and read in parts wherever the cut does not part a run from the
character that ends it, and **nowhere else**. Neither bracket around the body of a pattern is parted
from a backslash, and the body has none, so reading the fixed parts of a pattern and reading its
whole text agree.

* `Stencil.Runs`, `Stencil.Runs.existsUnique_text`: texts as runs;
* `Stencil.Runs.unescape_text`: what reading does to runs;
* `Stencil.unescape_append_iff`: where a text can be cut;
* `Stencil.unescape_shortensRuns`: these together, and reading a pattern as a whole.
-/

namespace Stencil

/-! ### Texts as runs -/

/-- A run of backslashes, which may be empty, and the character that ends it. -/
structure Run where
  /-- The number of backslashes. -/
  length : ℕ
  /-- The character after them. -/
  last : Char
  /-- It does not belong to the run. -/
  last_ne : last ≠ '\\'

/-- The text of a run. -/
def Run.text (run : Run) : List Char := List.replicate run.length '\\' ++ [run.last]

/-- The run with one backslash less, if it has any. -/
def Run.shorten (run : Run) : Run := { run with length := run.length - 1 }

/-- A text divided into its runs of backslashes, none of which can be made longer. -/
structure Runs where
  /-- The runs that another character ends, one for each such character. -/
  ended : List Run
  /-- The number of backslashes after the last of these characters. -/
  trailing : ℕ

namespace Runs

/-- The text that is divided. -/
def text (runs : Runs) : List Char :=
  runs.ended.flatMap Run.text ++ List.replicate runs.trailing '\\'

/-- The runs with one backslash less in each that is ended and has any. -/
def shorten (runs : Runs) : Runs := { runs with ended := runs.ended.map Run.shorten }

/-- The runs with one more backslash in front. -/
def lengthen : Runs → Runs
  | ⟨[], trailing⟩ => ⟨[], trailing + 1⟩
  | ⟨run :: more, trailing⟩ => ⟨{ run with length := run.length + 1 } :: more, trailing⟩

/-- Divides a text. -/
def divide : List Char → Runs
  | [] => ⟨[], 0⟩
  | c :: rest =>
    if other : c ≠ '\\' then ⟨⟨0, c, other⟩ :: (divide rest).ended, (divide rest).trailing⟩
    else (divide rest).lengthen

theorem text_cons (run : Run) (more : List Run) (trailing : ℕ) :
    text ⟨run :: more, trailing⟩ = run.text ++ text ⟨more, trailing⟩ := by
  rw [text, List.flatMap_cons, List.append_assoc]
  rfl

theorem text_lengthen (runs : Runs) : runs.lengthen.text = '\\' :: runs.text := by
  obtain ⟨_ | ⟨run, more⟩, trailing⟩ := runs
  · rfl
  · rw [lengthen, text_cons, text_cons]
    rfl

theorem text_divide (text : List Char) : (divide text).text = text := by
  induction text with
  | nil => rfl
  | cons c rest ih =>
    rw [divide]
    split
    · rw [text_cons]
      exact congrArg (c :: ·) ih
    next same => rw [text_lengthen, ih, not_ne_iff.mp same]

/-- Dividing a text that starts with backslashes and another character. -/
theorem divide_text_append (run : Run) (rest : List Char) :
    divide (run.text ++ rest) = ⟨run :: (divide rest).ended, (divide rest).trailing⟩ := by
  obtain ⟨length, last, last_ne⟩ := run
  rw [Run.text]
  induction length with
  | zero => exact dif_pos last_ne
  | succ length ih =>
    rw [List.replicate_succ, List.cons_append, List.cons_append, divide, dif_neg (by simp), ih]
    rfl

theorem divide_text (runs : Runs) : divide runs.text = runs := by
  obtain ⟨ended, trailing⟩ := runs
  induction ended with
  | nil =>
    show divide (List.replicate trailing '\\') = _
    induction trailing with
    | zero => rfl
    | succ trailing ih =>
      rw [List.replicate_succ, divide, dif_neg (by simp), ih]
      rfl
  | cons run more ih => rw [text_cons, divide_text_append, ih]

/-- **A text is divided into runs in one way.** -/
theorem existsUnique_text (text : List Char) : ∃! runs : Runs, runs.text = text :=
  ⟨divide text, text_divide text, fun runs same => by rw [← same, divide_text]⟩

end Runs

/-! ### Reading runs -/

/-- Backslashes at the end of a text stay. -/
theorem unescape_replicate (n : ℕ) :
    unescape (List.replicate n '\\') = List.replicate n '\\' := by
  induction n with
  | zero => rfl
  | succ n ih =>
    cases n with
    | zero => rfl
    | succ n =>
      rw [List.replicate_succ] at ih
      rw [List.replicate_succ, List.replicate_succ, unescape_backslash_backslash, ih]

/-- **Of a run that is ended one backslash goes**, and the rest of the text is read on its own. -/
theorem unescape_text_append (run : Run) (rest : List Char) :
    unescape (run.text ++ rest) = run.shorten.text ++ unescape rest := by
  obtain ⟨length, last, last_ne⟩ := run
  have ends : unescape (last :: rest) = last :: unescape rest :=
    unescape_cons_of_ne last_ne rest
  simp only [Run.text, Run.shorten, List.append_assoc, List.singleton_append]
  induction length with
  | zero => exact ends
  | succ length ih =>
    cases length with
    | zero => exact (unescape_backslash_of_ne last_ne rest).trans ends
    | succ length =>
      -- a backslash before a backslash is put back in front of the shorter run
      rw [List.replicate_succ, List.cons_append] at ih
      rw [List.replicate_succ, List.replicate_succ, List.cons_append, List.cons_append,
        unescape_backslash_backslash, ih]
      rfl

/-- **Reading takes one backslash from each run** that has any and that another character ends, and
keeps everything else. -/
theorem Runs.unescape_text (runs : Runs) : unescape runs.text = runs.shorten.text := by
  obtain ⟨ended, trailing⟩ := runs
  induction ended with
  | nil => exact unescape_replicate trailing
  | cons run more ih =>
    rw [text_cons, unescape_text_append, ih]
    exact (text_cons run.shorten (more.map Run.shorten) trailing).symm

/-! ### Reading a text in parts -/

/-- A text is read in parts if no run is parted from the character that ends it. -/
theorem unescape_append_of_head {l m : List Char}
    (whole : l.getLast? = some '\\' → ∀ c ∈ m.head?, c = '\\') :
    unescape (l ++ m) = unescape l ++ unescape m := by
  fun_induction unescape l with
  | case1 => rfl
  | case2 c =>
    by_cases hc : c = '\\'
    · subst hc
      cases m with
      | nil => rfl
      | cons d m =>
        obtain rfl : d = '\\' := whole rfl d rfl
        exact unescape_backslash_backslash m
    · exact unescape_cons_of_ne hc m
  | case3 c next rest drops ih =>
    obtain ⟨rfl, other⟩ := drops
    rw [List.getLast?_cons_cons] at whole
    rw [← ih whole]
    exact unescape_backslash_of_ne other (rest ++ m)
  | case4 c next rest keeps ih =>
    rw [List.getLast?_cons_cons] at whole
    have kept : unescape (c :: next :: rest ++ m) = c :: unescape (next :: rest ++ m) :=
      if_neg keeps
    rw [kept, ih whole]
    rfl

/-- A text in which a run is parted from the character that ends it keeps one backslash more if it
is read in parts. -/
theorem length_unescape_append {l : List Char} (run : l.getLast? = some '\\') {c : Char}
    (other : c ≠ '\\') (m : List Char) :
    (unescape (l ++ c :: m)).length + 1 = (unescape l).length + (unescape (c :: m)).length := by
  fun_induction unescape l with
  | case1 => cases run
  | case2 d =>
    obtain rfl : d = '\\' := Option.some.inj run
    rw [List.singleton_append, unescape_backslash_of_ne other, List.length_singleton, Nat.add_comm]
  | case3 d next rest drops ih =>
    obtain ⟨rfl, ends⟩ := drops
    rw [List.getLast?_cons_cons] at run
    rw [← ih run]
    exact congrArg (·.length + 1) (unescape_backslash_of_ne ends (rest ++ c :: m))
  | case4 d next rest keeps ih =>
    rw [List.getLast?_cons_cons] at run
    have kept : unescape (d :: next :: rest ++ c :: m) =
        d :: unescape (next :: rest ++ c :: m) := if_neg keeps
    rw [kept, List.length_cons, List.length_cons, ih run]
    omega

/-- **Where a text can be read in parts**: anywhere but between a run and the character that ends
it. -/
theorem unescape_append_iff {l m : List Char} :
    unescape (l ++ m) = unescape l ++ unescape m ↔
      (l.getLast? = some '\\' → ∀ c ∈ m.head?, c = '\\') := by
  refine ⟨fun parts run c head => ?_, unescape_append_of_head⟩
  by_contra other
  obtain ⟨rest, rfl⟩ : ∃ rest, m = c :: rest := List.head?_eq_some_iff.mp head
  have lengths := length_unescape_append run other rest
  rw [parts, List.length_append] at lengths
  omega

theorem unescape_append {l : List Char} (h : l.getLast? ≠ some '\\') (m : List Char) :
    unescape (l ++ m) = unescape l ++ unescape m :=
  unescape_append_of_head fun run => absurd run h

/-- A text without backslashes is read as it is. -/
theorem unescape_eq_self {text : List Char} (h : '\\' ∉ text) : unescape text = text := by
  induction text with
  | nil => rfl
  | cons c rest ih =>
    obtain ⟨first, more⟩ := List.ne_and_not_mem_of_not_mem_cons h
    rw [unescape_cons_of_ne first.symm, ih more]

/-- **Reading the whole text of a pattern** reads its fixed parts, and leaves its brackets and what
stands between them. -/
theorem IsWritten.unescape_eq {text lead body trail : List Char} {counts : List ℕ}
    (h : IsWritten text lead body trail counts) :
    unescape text = unescape lead ++ '<' :: body ++ '>' :: unescape trail := by
  have plain : unescape body = body := unescape_eq_self (h.lists.notMem (by decide))
  calc unescape text = unescape (lead ++ '<' :: (body ++ '>' :: trail)) := by
        rw [h.text_eq, List.append_assoc, List.cons_append]
    _ = unescape lead ++ '<' :: unescape (body ++ '>' :: trail) := by
        rw [unescape_append h.lead_end, unescape_cons_of_ne (by decide)]
    _ = unescape lead ++ '<' :: (body ++ '>' :: unescape trail) := by
        rw [unescape_append h.lists.getLast?_ne, plain, unescape_cons_of_ne (by decide)]
    _ = unescape lead ++ '<' :: body ++ '>' :: unescape trail := by
        rw [List.append_assoc, List.cons_append]

/-- **Reading acts on runs of backslashes.** A text is divided into runs in one way, and reading
takes one backslash from each run that has any and that another character ends; it keeps these
characters and the run at the end of the text. A text is read in parts if the first part does not
end in a backslash. Reading a pattern as a whole gives its fixed parts with its brackets, located by
their offsets, and the body between them as it is written. -/
theorem unescape_shortensRuns :
    (∀ text : List Char, ∃! runs : Runs, runs.text = text) ∧
    (∀ runs : Runs, unescape runs.text =
      (runs.ended.flatMap fun run => List.replicate (run.length - 1) '\\' ++ [run.last]) ++
        List.replicate runs.trailing '\\') ∧
    (∀ l m : List Char, l.getLast? ≠ some '\\' →
      unescape (l ++ m) = unescape l ++ unescape m) ∧
    ∀ (raw : String) (p : Pattern), Pattern.ofText raw = .ok p →
      ∃ start stop, bracketOffsets? raw.toList = some (start, stop) ∧
        ∃ lead body trail : String, raw = lead ++ "<" ++ body ++ ">" ++ trail ∧
          start = lead.utf8ByteSize ∧ stop = start + 1 + body.utf8ByteSize ∧
          String.ofList (unescape raw.toList) = p.lead ++ "<" ++ body ++ ">" ++ p.trail := by
  refine ⟨Runs.existsUnique_text, fun runs => ?_, fun l m h => unescape_append h m, ?_⟩
  · rw [runs.unescape_text, Runs.shorten, Runs.text, List.flatMap_map]
    rfl
  · intro raw p read
    obtain ⟨lead, body, trail, counts, written, lead_eq, trail_eq, -⟩ := ofText_eq_ok_iff.mp read
    obtain ⟨located, -⟩ := isWritten_iff.mp written
    have offsets := bracketOffsets?_eq_map_cut? raw.toList
    rw [located, Option.map_some] at offsets
    obtain ⟨lead', body', trail', parts, start, stop, located'⟩ :=
      exists_parts_of_bracketOffsets offsets
    -- the parts found by offsets are those of the grammar
    obtain ⟨rfl, rfl, rfl⟩ := Cut.mk.inj (Option.some.inj (located.symm.trans located'))
    refine ⟨_, _, offsets, lead', body', trail', parts, start, stop, ?_⟩
    rw [← String.toList_inj, String.toList_ofList, written.unescape_eq, lead_eq, trail_eq]
    simp

/-- A text of a pattern with a run of two backslashes in its lead and one at its end. -/
def backslashed : String := "x\\\\<y<3/1>\\>\\"

/-- The pattern of that text. -/
def backslashedPattern : Pattern := ⟨"x\\<y", ">\\", 3, 1, 0, by decide⟩

/-- It is read as a whole as it is read in parts. -/
theorem unescape_shortensRuns_backslashed :
    Pattern.ofText backslashed = .ok backslashedPattern ∧
    ∃ start stop, bracketOffsets? backslashed.toList = some (start, stop) ∧
      ∃ lead body trail : String, backslashed = lead ++ "<" ++ body ++ ">" ++ trail ∧
        start = lead.utf8ByteSize ∧ stop = start + 1 + body.utf8ByteSize ∧
        String.ofList (unescape backslashed.toList) =
          backslashedPattern.lead ++ "<" ++ body ++ ">" ++ backslashedPattern.trail := by
  have read : Pattern.ofText backslashed = .ok backslashedPattern := rfl
  obtain ⟨-, -, -, whole⟩ := unescape_shortensRuns
  exact ⟨read, whole backslashed backslashedPattern read⟩

end Stencil
