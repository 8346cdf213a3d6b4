import Stencil.Proofs.Pattern.Sample
import Stencil.Proofs.Random.EveryOrder

/-!
# Every text of the shape of a pattern can be drawn

A random text has as many characters of each class as its pattern asks for. Nothing else is fixed:
any body with these numbers can come out, in any arrangement. To force it, its letters, digits and
special characters are told apart, each of these lists is drawn by its indices, and the shuffle is
made to put the characters back where they stood. This works because the three lists together are
the body in another order, and that is a matter of **counting**: no character is in two classes, so
the lists are no longer than the body, and the numbers say that they are no shorter.

* `Stencil.CharClass.select`: the characters of a class in a body;
* `Stencil.CharClass.select_perm`: a body, class by class;
* `Stencil.Pattern.exists_words_sample_iff`: the texts that can be drawn.
-/

namespace Stencil

/-! ### The characters of a class -/

namespace CharClass

/-- The characters of a class among others, in their order. -/
def select (kind : CharClass) (chars : List Char) : List Char :=
  chars.filter (· ∈ kind.members.toList)

theorem mem_of_mem_select {kind : CharClass} {chars : List Char} :
    ∀ c ∈ kind.select chars, c ∈ kind.members.toList :=
  fun _ hc => of_decide_eq_true (List.mem_filter.mp hc).2

/-- A character is only found among those of its own class. -/
theorem count_select_le (kind : CharClass) (chars : List Char) (c : Char) :
    (kind.select chars).count c ≤ if classOf c = kind then chars.count c else 0 := by
  split
  · exact List.filter_sublist.count_le c
  · next hother =>
    have hnot : c ∉ kind.select chars :=
      fun hc => hother (classOf_of_mem c (mem_of_mem_select c hc))
    rw [List.count_eq_zero.mpr hnot]

/-- **A body, class by class**, is the body in another order, unless it has characters of no
class. -/
theorem select_perm (chars : List Char)
    (h : chars.length = (select .letter chars).length + (select .digit chars).length +
      (select .special chars).length) :
    (select .letter chars ++ select .digit chars ++ select .special chars).Perm chars := by
  refine List.Subperm.perm_of_length_le (List.subperm_ext_iff.mpr fun c _ => ?_) ?_
  · have hletter := count_select_le .letter chars c
    have hdigit := count_select_le .digit chars c
    have hspecial := count_select_le .special chars c
    rw [List.count_append, List.count_append]
    -- only the number for the class of the character can be other than zero
    cases hclass : classOf c <;>
      simp only [hclass, reduceCtorEq, reduceIte] at hletter hdigit hspecial <;> omega
  · rw [List.length_append, List.length_append, h]

/-! ### Drawing given characters -/

/-- Every class has so few members that any of their indices can be drawn. -/
theorem length_members_le (kind : CharClass) : kind.members.toList.length ≤ UInt32.size := by
  cases kind <;> simp [members, UInt32.size]

/-- The members of a class stand for their indices. -/
theorem pick_map_idxOf {kind : CharClass} {chars : List Char}
    (h : ∀ c ∈ chars, c ∈ kind.members.toList) :
    kind.pick (chars.map (kind.members.toList.idxOf ·)) = chars := by
  rw [pick, List.map_map]
  refine (List.map_congr_left fun c hc => ?_).trans (List.map_id chars)
  rw [Function.comp_apply, List.getD_eq_getElem?_getD, List.getElem?_idxOf (h c hc),
    Option.getD_some, id]

/-- **Any characters of a class can be drawn** from it. -/
theorem canGive_draw {kind : CharClass} {chars : List Char} {count : ℕ}
    (hmem : ∀ c ∈ chars, c ∈ kind.members.toList) (hlength : chars.length = count) :
    CanGive (kind.draw count) chars := by
  have hindices : ∀ i ∈ chars.map (kind.members.toList.idxOf ·),
      i < kind.members.toList.length := by
    intro i hi
    obtain ⟨c, hc, rfl⟩ := List.mem_map.mp hi
    exact List.idxOf_lt_length_of_mem (hmem c hc)
  have hdraw := canGive_drawIndices hindices kind.length_members_le
  rw [List.length_map, hlength] at hdraw
  refine hdraw.bind ?_
  change CanGive (pure (kind.pick _)) chars
  rw [pick_map_idxOf hmem]
  exact canGive_pure chars

end CharClass

/-! ### Drawing a given text -/

namespace Pattern

/-- A pattern has few positions to shuffle. -/
theorem length_lt (p : Pattern) : p.length < UInt32.size :=
  Nat.lt_of_le_of_lt p.length_le (by decide)

/-- **Every body of the shape of a pattern can be drawn.** -/
theorem canGive_sampleBody {p : Pattern} {body : List Char} (hlength : body.length = p.length)
    (hcount : ∀ kind : CharClass, body.countP (· ∈ kind.members.toList) = p.count kind) :
    CanGive p.sampleBody body := by
  have hselect : ∀ kind, (CharClass.select kind body).length = p.count kind := by
    intro kind
    rw [CharClass.select, ← List.countP_eq_length_filter, hcount]
  have hperm := CharClass.select_perm body (by simp only [hselect]; exact hlength)
  have hletters := CharClass.canGive_draw CharClass.mem_of_mem_select (hselect .letter)
  have hdigits := CharClass.canGive_draw CharClass.mem_of_mem_select (hselect .digit)
  have hspecials := CharClass.canGive_draw CharClass.mem_of_mem_select (hselect .special)
  refine hletters.bind (hdigits.bind (hspecials.bind (canGive_shuffle hperm ?_)))
  rw [hperm.length_eq, hlength]
  exact p.length_lt

/-- A body is made of the characters drawn for it. -/
theorem sampleBody_perm {γ : Type} [WordSource γ] (p : Pattern) (words : γ) :
    (p.sampleBody words).1.Perm (p.unshuffled words) := by
  rw [sampleBody_eq]
  exact applySwaps_perm _ _ _

/-- **The texts that can be drawn.** Between the lead and the trail of a pattern, words can put any
body that has as many characters of each class as the pattern asks for and no others, and nothing
else. -/
theorem exists_words_sample_iff (p : Pattern) (body : String) :
    (∃ words : List UInt64, words ≠ [] ∧
        (p.sample (⟨words, 0⟩ : WordCycle)).1 = p.lead ++ body ++ p.trail) ↔
      body.toList.length = p.length ∧
        ∀ kind : CharClass, body.toList.countP (· ∈ kind.members.toList) = p.count kind := by
  constructor
  · rintro ⟨words, -, htext⟩
    have hbody : (p.sampleBody (⟨words, 0⟩ : WordCycle)).1 = body.toList := by
      have htexts := congrArg String.toList htext
      rw [sample, bind_apply, pure_apply] at htexts
      simp only [String.toList_append, String.toList_ofList] at htexts
      exact List.append_cancel_left (List.append_cancel_right htexts)
    have hperm := hbody ▸ p.sampleBody_perm (⟨words, 0⟩ : WordCycle)
    refine ⟨by rw [hperm.length_eq, length_unshuffled], fun kind => ?_⟩
    rw [hperm.countP_eq, countP_unshuffled]
  · rintro ⟨hlength, hcount⟩
    have hdraw : CanGive p.sample (p.lead ++ body ++ p.trail) := by
      refine (canGive_sampleBody hlength hcount).bind ?_
      rw [String.ofList_toList]
      exact canGive_pure _
    exact hdraw.exists_words

end Pattern

end Stencil
