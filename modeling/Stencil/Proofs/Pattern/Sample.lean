import Stencil.Pattern.Sample
import Stencil.Proofs.Random.Shuffle

/-!
# Random texts have the shape of their pattern

The body of a random text is drawn class by class and then shuffled. Drawing puts so many members
of each class into it, since every index is in range; shuffling only changes their order; and no
character belongs to two classes. So the body has exactly as many characters of each class as the
pattern asks for, whatever the words are.

* `Stencil.Pattern.count`: how many characters of a class a pattern asks for;
* `Stencil.CharClass.eq_of_mem`: the classes are disjoint;
* `Stencil.Pattern.sample_shape`: the shape of a random text, with the draws that make it.
-/

namespace Stencil

/-! ### Classes -/

namespace CharClass

/-- The class that a character is a member of, if it is one of any. -/
def classOf (c : Char) : CharClass :=
  if c.isAlpha then .letter else if c.isDigit then .digit else .special

theorem classOf_of_mem {kind : CharClass} : ∀ c ∈ kind.members.toList, classOf c = kind := by
  cases kind <;> simp [members, classOf]

/-- **No character belongs to two classes.** -/
theorem eq_of_mem {kind kind' : CharClass} {c : Char} (h : c ∈ kind.members.toList)
    (h' : c ∈ kind'.members.toList) : kind = kind' :=
  (classOf_of_mem c h).symm.trans (classOf_of_mem c h')

/-- Every class has members. -/
theorem length_members_pos (kind : CharClass) : 0 < kind.members.toList.length := by
  cases kind <;> simp [members]

/-- The characters that indices stand for in a class. -/
def pick (kind : CharClass) (indices : List ℕ) : List Char :=
  indices.map (kind.members.toList.getD · ' ')

theorem mem_of_mem_pick {kind : CharClass} {indices : List ℕ}
    (h : ∀ i ∈ indices, i < kind.members.toList.length) :
    ∀ c ∈ kind.pick indices, c ∈ kind.members.toList := by
  intro c hc
  obtain ⟨i, hi, rfl⟩ := List.mem_map.mp hc
  rw [List.getD_eq_getElem?_getD, List.getElem?_eq_getElem (h i hi), Option.getD_some]
  exact List.getElem_mem _

/-- **Of the characters picked from a class**, all belong to it and none to another. -/
theorem countP_pick {kind : CharClass} {indices : List ℕ}
    (h : ∀ i ∈ indices, i < kind.members.toList.length) (kind' : CharClass) :
    (kind.pick indices).countP (· ∈ kind'.members.toList) =
      if kind = kind' then indices.length else 0 := by
  have hmem := mem_of_mem_pick h
  split
  · next heq =>
    subst heq
    have hall : ∀ c ∈ kind.pick indices, decide (c ∈ kind.members.toList) = true :=
      fun c hc => decide_eq_true (hmem c hc)
    rw [List.countP_eq_length.mpr hall, pick, List.length_map]
  · next hne =>
    rw [List.countP_eq_zero]
    intro c hc hcon
    exact hne (eq_of_mem (hmem c hc) (of_decide_eq_true hcon))

end CharClass

/-! ### The draws of a text -/

namespace Pattern

/-- How many characters of a class the body of a text has. -/
def count (p : Pattern) : CharClass → ℕ
  | .letter => p.letters
  | .digit => p.digits
  | .special => p.specials

variable {γ : Type} [WordSource γ]

/-- The words from which the characters of a class are drawn: those that the classes before it
leave. -/
def wordsFor (p : Pattern) (words : γ) : CharClass → γ
  | .letter => words
  | .digit => (CharClass.letter.draw p.letters words).2
  | .special => (CharClass.digit.draw p.digits (CharClass.letter.draw p.letters words).2).2

/-- The indices drawn for a class. -/
def indices (p : Pattern) (words : γ) (kind : CharClass) : List ℕ :=
  (drawIndices kind.members.toList.length (p.count kind) (p.wordsFor words kind)).1

/-- The characters drawn, class by class. -/
def unshuffled (p : Pattern) (words : γ) : List Char :=
  CharClass.letter.pick (p.indices words .letter) ++
    CharClass.digit.pick (p.indices words .digit) ++
      CharClass.special.pick (p.indices words .special)

/-- The positions that the positions of the body change places with. -/
def partners (p : Pattern) (words : γ) : List ℕ :=
  (swapPartners p.length (CharClass.special.draw p.specials (p.wordsFor words .special)).2).1

/-- Every index drawn is in range of its class. -/
theorem lt_of_mem_indices (p : Pattern) (words : γ) (kind : CharClass) :
    ∀ i ∈ p.indices words kind, i < kind.members.toList.length :=
  lt_of_mem_drawIndices kind.length_members_pos _ _

theorem length_indices (p : Pattern) (words : γ) (kind : CharClass) :
    (p.indices words kind).length = p.count kind :=
  length_drawIndices _ _ _

theorem length_unshuffled (p : Pattern) (words : γ) : (p.unshuffled words).length = p.length := by
  simp only [unshuffled, CharClass.pick, List.length_append, List.length_map, length_indices]
  rfl

/-- **Before it is shuffled, the body has the shape of its pattern.** -/
theorem countP_unshuffled (p : Pattern) (words : γ) (kind : CharClass) :
    (p.unshuffled words).countP (· ∈ kind.members.toList) = p.count kind := by
  have hpick := fun kind' => CharClass.countP_pick (p.lt_of_mem_indices words kind') kind
  simp only [unshuffled, List.countP_append, hpick, length_indices]
  cases kind <;> simp

/-- A body is made by swapping positions of the characters drawn. -/
theorem sampleBody_eq (p : Pattern) (words : γ) :
    (p.sampleBody words).1 = applySwaps (p.unshuffled words) 0 (p.partners words) := by
  have hshuffle : (p.sampleBody words).1 = applySwaps (p.unshuffled words) 0
      (swapPartners (p.unshuffled words).length
        (CharClass.special.draw p.specials (p.wordsFor words .special)).2).1 := rfl
  rw [hshuffle, length_unshuffled, partners]

/-- Only positions of the body change places. -/
theorem lt_of_partners (p : Pattern) (words : γ) {i partner : ℕ}
    (h : (p.partners words)[i]? = some partner) : i < p.length ∧ partner < p.length := by
  obtain ⟨hi, -⟩ := List.getElem?_eq_some_iff.mp h
  rw [partners, length_swapPartners] at hi
  exact ⟨hi, Nat.lt_of_le_of_lt (swapPartners_le p.length _ i partner h) hi⟩

/-- **The shape of a random text.** Whatever the words are, a text of a pattern is its lead, a body
and its trail, and the body has the characters of each class that the pattern asks for and no
others. The body is made from indices that are in range of their class, and by swapping positions
that the body has. -/
theorem sample_shape (p : Pattern) (words : γ) :
    (p.sample words).1 = p.lead ++ String.ofList (p.sampleBody words).1 ++ p.trail ∧
    (p.sampleBody words).1.length = p.length ∧
    (∀ kind, (p.sampleBody words).1.countP (· ∈ kind.members.toList) = p.count kind) ∧
    (p.sampleBody words).1 = applySwaps (p.unshuffled words) 0 (p.partners words) ∧
    (∀ kind, ∀ i ∈ p.indices words kind, i < kind.members.toList.length) ∧
    ∀ i partner, (p.partners words)[i]? = some partner → i < p.length ∧ partner < p.length := by
  have hperm : (p.sampleBody words).1.Perm (p.unshuffled words) := by
    rw [sampleBody_eq]
    exact applySwaps_perm _ _ _
  refine ⟨rfl, ?_, ?_, p.sampleBody_eq words, p.lt_of_mem_indices words, ?_⟩
  · rw [hperm.length_eq, length_unshuffled]
  · intro kind
    rw [hperm.countP_eq, countP_unshuffled]
  · intro i partner h
    exact p.lt_of_partners words h

end Pattern

end Stencil
