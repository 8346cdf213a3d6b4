import Mathlib.Algebra.BigOperators.Fin
import Mathlib.Algebra.Order.BigOperators.Group.Multiset
import Stencil.Proofs.Generator.Frame
import Stencil.Proofs.Generator.Partway

/-!
# Threads that share a generator

Several threads ask one generator for texts. A thread takes the lock, fills out the fields of the
form one after the other, releases the lock with the record that it has made, and writes the record
as text when its turn comes again. The threads take turns in any order, and a turn is no more than
one of these things.

Since only one thread is inside the lock, what the others do in the meantime does not touch the
generator. So the turns inside the lock that belong to one record have the same effect as making
that record in one go, and the records that have been made are at every moment the first ones of a
run without threads. The invariant keeps a history, which tells for each of these records the thread
that made it: what a thread has written is its share of the history.

* `Stencil.Machine`, `Stencil.Machine.turn`: threads with a generator, and the turn of a thread;
* `Stencil.Machine.Follows`: the invariant;
* `Stencil.Machine.Follows.turn`, `Stencil.Machine.Follows.run`: turns keep it;
* `Stencil.Machine.Follows.exists_turn`, `Stencil.Machine.length_schedule`: threads never wait for
  one another forever, and all come to an end;
* `Stencil.Step.result_run_threads`, `Stencil.texts_of_threads`: the texts of all threads.
-/

namespace Stencil

/-! ### Turns -/

/-- What a thread is doing. -/
inductive Phase (σ : Type) where
  /-- It has no record in hand. -/
  | outside
  /-- It holds the lock, and this is how far its record has been made. -/
  | inside (draft : Draft σ)
  /-- It has released the lock, and has yet to write this record. -/
  | writing (record : Record)

/-- A thread. -/
structure Thread (σ : Type) where
  /-- The number of records that it has yet to begin. -/
  left : ℕ
  /-- What it is doing. -/
  phase : Phase σ
  /-- The texts that it has written, in order. -/
  texts : List String

/-- Threads that share a generator. -/
structure Machine (σ : Type) (n : ℕ) where
  /-- The generator. -/
  generator : Generator σ
  /-- The thread that holds the lock. -/
  holder : Option (Fin n)
  /-- The threads. -/
  threads : Fin n → Thread σ

namespace Machine

variable {σ : Type} {n : ℕ}

/-- Threads that have yet to begin with their records, of which each is to make so many. -/
def start (generator : Generator σ) (calls : ℕ) : Machine σ n :=
  ⟨generator, none, fun _ => ⟨calls, .outside, []⟩⟩

/-- The machine with one of its threads as given. -/
def put (machine : Machine σ n) (i : Fin n) (thread : Thread σ) : Machine σ n :=
  { machine with threads := Function.update machine.threads i thread }

@[simp]
theorem threads_put_self (machine : Machine σ n) (i : Fin n) (thread : Thread σ) :
    (machine.put i thread).threads i = thread := Function.update_self ..

@[simp]
theorem holder_put (machine : Machine σ n) (i : Fin n) (thread : Thread σ) :
    (machine.put i thread).holder = machine.holder := rfl

theorem threads_put_of_ne (machine : Machine σ n) {i j : Fin n} (other : j ≠ i)
    (thread : Thread σ) : (machine.put i thread).threads j = machine.threads j :=
  Function.update_of_ne other ..

variable [ValueSource σ]

/-- The turn of a thread. There is none if the thread has no record left to make, or wants the lock
while another one holds it. -/
def turn (machine : Machine σ n) (i : Fin n) : Option (Machine σ n) :=
  let thread := machine.threads i
  match thread.phase with
  | .outside =>
    match machine.holder, thread.left with
    | none, left + 1 =>
      some ({ machine with holder := some i }.put i
        { thread with left, phase := .inside machine.generator.draft })
    | _, _ => none
  | .inside draft =>
    match machine.generator.form.entries[draft.outcomes.length]? with
    | some (name, content) =>
      let (draft, generator) := machine.generator.fillField name content draft
      some ({ machine with generator }.put i { thread with phase := .inside draft })
    | none =>
      some ({ machine with generator := machine.generator.resume draft, holder := none }.put i
        { thread with phase := .writing (recordOf draft.outcomes) })
  | .writing record =>
    some (machine.put i { thread with phase := .outside, texts := thread.texts ++ [record.text] })

/-- **What a turn can be.** A thread takes the lock, which has to be free, and begins a record; it
fills out the next field; it releases the lock when no field is left; or it writes its record. -/
theorem turn_cases {machine next : Machine σ n} {i : Fin n} (turned : machine.turn i = some next) :
    (∃ left texts, machine.holder = none ∧ machine.threads i = ⟨left + 1, .outside, texts⟩ ∧
      next = { machine with holder := some i }.put i
        ⟨left, .inside machine.generator.draft, texts⟩) ∨
    (∃ left draft texts name content, machine.threads i = ⟨left, .inside draft, texts⟩ ∧
      machine.generator.form.entries[draft.outcomes.length]? = some (name, content) ∧
      next = { machine with generator := (machine.generator.fillField name content draft).2 }.put i
        ⟨left, .inside (machine.generator.fillField name content draft).1, texts⟩) ∨
    (∃ left draft texts, machine.threads i = ⟨left, .inside draft, texts⟩ ∧
      machine.generator.form.entries[draft.outcomes.length]? = none ∧
      next = { machine with generator := machine.generator.resume draft, holder := none }.put i
        ⟨left, .writing (recordOf draft.outcomes), texts⟩) ∨
    ∃ left record texts, machine.threads i = ⟨left, .writing record, texts⟩ ∧
      next = machine.put i ⟨left, .outside, texts ++ [record.text]⟩ := by
  rcases thread : machine.threads i with ⟨left, phase, texts⟩
  rw [turn, thread] at turned
  rcases phase with _ | draft | record
  · rcases free : machine.holder with _ | j
    · rcases left with _ | left
      · rw [free] at turned
        cases turned
      · rw [free] at turned
        exact .inl ⟨left, texts, rfl, rfl, (Option.some.inj turned).symm⟩
    · rw [free] at turned
      cases turned
  · rcases due : machine.generator.form.entries[draft.outcomes.length]? with _ | ⟨name, content⟩
    · simp only [due] at turned
      exact .inr (.inr (.inl ⟨left, draft, texts, rfl, due, (Option.some.inj turned).symm⟩))
    · simp only [due] at turned
      exact .inr (.inl ⟨left, draft, texts, name, content, rfl, due,
        (Option.some.inj turned).symm⟩)
  · exact .inr (.inr (.inr ⟨left, record, texts, rfl, (Option.some.inj turned).symm⟩))

/-- Threads take turns in the order of a schedule. -/
def run (machine : Machine σ n) (schedule : List (Fin n)) : Option (Machine σ n) :=
  schedule.foldlM turn machine

omit [ValueSource σ] in
/-- All threads have written all their texts. -/
def Finished (machine : Machine σ n) : Prop :=
  ∀ i, (machine.threads i).left = 0 ∧ (machine.threads i).phase = .outside

end Machine

/-! ### Shares -/

section Shares

variable {n : ℕ}

/-- Those of the texts of a history that a thread has made. -/
def share (history : List (Fin n × String)) (i : Fin n) : List String :=
  (history.filter (·.1 = i)).map (·.2)

theorem share_append (front back : List (Fin n × String)) (i : Fin n) :
    share (front ++ back) i = share front i ++ share back i := by
  rw [share, List.filter_append, List.map_append]
  rfl

/-- A text that a thread has made goes to the end of its share. -/
theorem share_append_self (history : List (Fin n × String)) (i : Fin n) (text : String) :
    share (history ++ [(i, text)]) i = share history i ++ [text] := by
  rw [share_append]
  simp [share]

/-- It does not change the shares of other threads. -/
theorem share_append_of_ne (history : List (Fin n × String)) {i j : Fin n} (other : j ≠ i)
    (text : String) : share (history ++ [(i, text)]) j = share history j := by
  rw [share_append]
  simp [share, other.symm]

/-- A thread has its texts in the order in which they were made. -/
theorem share_sublist (history : List (Fin n × String)) (i : Fin n) :
    (share history i).Sublist (history.map (·.2)) :=
  List.filter_sublist.map _

/-- **Together the shares are all texts**, each as often as it was made. -/
theorem sum_share (history : List (Fin n × String)) :
    ∑ i, (share history i : Multiset String) = history.map (·.2) := by
  induction history with
  | nil => exact Finset.sum_const_zero
  | cons entry rest ih =>
    obtain ⟨j, text⟩ := entry
    have split : ∀ i, (share ((j, text) :: rest) i : Multiset String) =
        (if j = i then {text} else 0) + share rest i := by
      intro i
      rw [← List.singleton_append, share_append, ← Multiset.coe_add]
      by_cases same : j = i <;> simp [share, same]
    rw [Finset.sum_congr rfl fun i _ => split i, Finset.sum_add_distrib, ih, Finset.sum_ite_eq,
      if_pos (Finset.mem_univ j)]
    rfl

end Shares

/-! ### The invariant -/

variable {σ : Type} {n : ℕ}

namespace Thread

/-- The texts that a thread has made, of which it may still have to write the last. -/
def produced (thread : Thread σ) : List String :=
  match thread.phase with
  | .writing record => thread.texts ++ [record.text]
  | _ => thread.texts

/-- The number of records that a thread has yet to make, with the one that it is making. -/
def due (thread : Thread σ) : ℕ :=
  match thread.phase with
  | .inside _ => thread.left + 1
  | _ => thread.left

/-- What a thread has done agrees with a history and with who holds the lock. -/
structure Agrees (calls : ℕ) (history : List (Fin n × String)) (holder : Option (Fin n)) (i : Fin n)
    (thread : Thread σ) : Prop where
  /-- It has made its share. -/
  produced : thread.produced = share history i
  /-- With what it has yet to make, that is all it was asked for. -/
  total : thread.due + (share history i).length = calls
  /-- It is inside if and only if it holds the lock. -/
  inside : (∃ draft, thread.phase = .inside draft) ↔ holder = some i

end Thread

namespace Machine

variable [ValueSource σ]

/-- **The invariant of a machine.** The records in the history are the first ones of a run without
threads. Each thread agrees with the history, and the generator is where that run has left it, but
for the fields that the thread inside the lock has filled out. -/
structure Follows (start : Generator σ) (calls : ℕ) (history : List (Fin n × String))
    (machine : Machine σ n) : Prop where
  /-- The texts of the history are the first ones of a run without threads. -/
  texts : history.map (·.2) = ((repeated Generator.nextText history.length).result start).1
  /-- The threads agree with the history. -/
  threads : ∀ i, (machine.threads i).Agrees calls history machine.holder i
  /-- While nobody holds the lock, the generator is where that run has left it. -/
  free : machine.holder = none →
    machine.generator = ((repeated Generator.nextText history.length).result start).2
  /-- The thread that holds the lock is partway through the next record. -/
  held : ∀ i draft, (machine.threads i).phase = .inside draft →
    ((repeated Generator.nextText history.length).result start).2.Partway draft machine.generator

namespace Follows

variable {start : Generator σ} {calls : ℕ} {history : List (Fin n × String)} {machine : Machine σ n}
  {i : Fin n}

/-- A machine that has just been started. -/
protected theorem start (generator : Generator σ) (calls : ℕ) :
    (Machine.start generator calls : Machine σ n).Follows generator calls [] where
  texts := rfl
  threads := fun i => ⟨rfl, rfl, by simp [Machine.start]⟩
  free := fun _ => rfl
  held := by
    rintro i draft ⟨⟩

/-- Only one thread is inside. -/
theorem eq_of_inside (h : machine.Follows start calls history) {j : Fin n}
    {draft draft' : Draft σ} (first : (machine.threads i).phase = .inside draft)
    (second : (machine.threads j).phase = .inside draft') : i = j := by
  have holds := (h.threads i).inside.mp ⟨_, first⟩
  rw [(h.threads j).inside.mp ⟨_, second⟩] at holds
  exact (Option.some.inj holds).symm

/-- **A thread takes the lock.** -/
theorem enter (h : machine.Follows start calls history) {left : ℕ} {texts : List String}
    (free : machine.holder = none) (thread : machine.threads i = ⟨left + 1, .outside, texts⟩) :
    ({ machine with holder := some i }.put i
      ⟨left, .inside machine.generator.draft, texts⟩).Follows start calls history where
  texts := h.texts
  free := by
    rintro ⟨⟩
  threads := by
    intro j
    rcases eq_or_ne j i with rfl | other
    · obtain ⟨produced, total, -⟩ := h.threads j
      rw [thread] at produced total
      rw [threads_put_self]
      exact ⟨produced, total, by simp⟩
    · obtain ⟨produced, total, inside⟩ := h.threads j
      rw [threads_put_of_ne _ other]
      refine ⟨produced, total, inside.trans ?_⟩
      simp [free, other.symm]
  held := by
    intro j draft inside
    rcases eq_or_ne j i with rfl | other
    · rw [threads_put_self] at inside
      obtain rfl := Phase.inside.inj inside
      show Generator.Partway _ _ machine.generator
      rw [h.free free]
      exact .refl _
    · rw [threads_put_of_ne _ other] at inside
      exact h.held j draft inside

/-- **The thread inside fills out a field.** -/
theorem fillField (h : machine.Follows start calls history) {left : ℕ} {texts : List String}
    {draft : Draft σ} (thread : machine.threads i = ⟨left, .inside draft, texts⟩)
    {name : String} {content : Content σ}
    (due : machine.generator.form.entries[draft.outcomes.length]? = some (name, content)) :
    ({ machine with generator := (machine.generator.fillField name content draft).2 }.put i
      ⟨left, .inside (machine.generator.fillField name content draft).1, texts⟩).Follows
        start calls history where
  texts := h.texts
  free := by
    intro free
    have holds := (h.threads i).inside.mp ⟨draft, by rw [thread]⟩
    rw [holds] at free
    cases free
  threads := by
    intro j
    rcases eq_or_ne j i with rfl | other
    · obtain ⟨produced, total, inside⟩ := h.threads j
      rw [thread] at produced total inside
      rw [threads_put_self]
      exact ⟨produced, total, by simpa using inside⟩
    · rw [threads_put_of_ne _ other]
      exact h.threads j
  held := by
    intro j draft' inside
    have partway := h.held i draft (by rw [thread])
    rcases eq_or_ne j i with rfl | other
    · rw [threads_put_self] at inside
      obtain rfl := Phase.inside.inj inside
      exact partway.fillField due
    · -- no other thread is inside, so none is thrown off its way by the field
      rw [threads_put_of_ne _ other] at inside
      exact absurd (h.eq_of_inside inside (congrArg Thread.phase thread)) other

/-- A thread that has filled out all fields holds the record that a run without threads makes next,
and has left the generator, once it has its clock back, where that run leaves it. -/
theorem run_of_done (h : machine.Follows start calls history) {draft : Draft σ}
    (inside : (machine.threads i).phase = .inside draft)
    (done : machine.generator.form.entries[draft.outcomes.length]? = none) :
    (repeated Generator.nextText (history.length + 1)).result start =
      (history.map (·.2) ++ [(recordOf draft.outcomes).text], machine.generator.resume draft) := by
  have last : Generator.nextText.result
      ((repeated Generator.nextText history.length).result start).2 =
      ((recordOf draft.outcomes).text, machine.generator.resume draft) :=
    congrArg (fun made : Record × Generator σ => (made.1.text, made.2))
      ((h.held i draft inside).result_next done)
  rw [result_repeated_succ_last]
  dsimp only
  rw [last, ← h.texts]

/-- **The thread inside releases the lock**, and the record that it has made goes into the history.
-/
theorem leave (h : machine.Follows start calls history) {left : ℕ} {texts : List String}
    {draft : Draft σ} (thread : machine.threads i = ⟨left, .inside draft, texts⟩)
    (done : machine.generator.form.entries[draft.outcomes.length]? = none) :
    ({ machine with generator := machine.generator.resume draft, holder := none }.put i
      ⟨left, .writing (recordOf draft.outcomes), texts⟩).Follows
        start calls (history ++ [(i, (recordOf draft.outcomes).text)]) := by
  have inside : (machine.threads i).phase = .inside draft := congrArg Thread.phase thread
  have holds := (h.threads i).inside.mp ⟨draft, inside⟩
  have run := h.run_of_done inside done
  rw [← List.length_singleton (a := (i, (recordOf draft.outcomes).text)), ← List.length_append]
    at run
  refine ⟨?_, fun j => ?_, fun _ => ?_, fun j draft' also => ?_⟩
  · rw [run, List.map_append]
    rfl
  · rcases eq_or_ne j i with rfl | other
    · obtain ⟨produced, total, -⟩ := h.threads j
      rw [thread] at produced total
      rw [threads_put_self]
      refine ⟨?_, ?_, by simp⟩
      · rw [share_append_self, ← produced]
        rfl
      · rw [share_append_self, List.length_append, List.length_singleton, ← total]
        simp only [Thread.due]
        omega
    · obtain ⟨produced, total, outside⟩ := h.threads j
      rw [threads_put_of_ne _ other]
      have same := share_append_of_ne history other (recordOf draft.outcomes).text
      refine ⟨same ▸ produced, same ▸ total, outside.trans ?_⟩
      simp [holds, other.symm]
  · rw [run]
    rfl
  · rcases eq_or_ne j i with rfl | other
    · rw [threads_put_self] at also
      cases also
    · rw [threads_put_of_ne _ other] at also
      exact absurd (h.eq_of_inside also inside) other

/-- **A thread writes its record**, which nobody else can see. -/
theorem write (h : machine.Follows start calls history) {left : ℕ} {texts : List String}
    {record : Record} (thread : machine.threads i = ⟨left, .writing record, texts⟩) :
    (machine.put i ⟨left, .outside, texts ++ [record.text]⟩).Follows start calls history where
  texts := h.texts
  free := h.free
  threads := by
    intro j
    rcases eq_or_ne j i with rfl | other
    · obtain ⟨produced, total, inside⟩ := h.threads j
      rw [thread] at produced total inside
      rw [threads_put_self]
      exact ⟨produced, total, by simpa using inside⟩
    · rw [threads_put_of_ne _ other]
      exact h.threads j
  held := by
    intro j draft inside
    rcases eq_or_ne j i with rfl | other
    · rw [threads_put_self] at inside
      cases inside
    · rw [threads_put_of_ne _ other] at inside
      exact h.held j draft inside

/-- **A turn keeps the invariant.** The history grows when a thread releases the lock. -/
theorem turn (h : machine.Follows start calls history) {next : Machine σ n}
    (turned : machine.turn i = some next) : ∃ history', next.Follows start calls history' := by
  rcases turn_cases turned with ⟨left, texts, free, thread, rfl⟩ |
    ⟨left, draft, texts, name, content, thread, due, rfl⟩ |
    ⟨left, draft, texts, thread, done, rfl⟩ | ⟨left, record, texts, thread, rfl⟩
  · exact ⟨history, h.enter free thread⟩
  · exact ⟨history, h.fillField thread due⟩
  · exact ⟨_, h.leave thread done⟩
  · exact ⟨history, h.write thread⟩

/-- **Any turns keep the invariant.** -/
theorem run (h : machine.Follows start calls history) {schedule : List (Fin n)}
    {final : Machine σ n} (ran : machine.run schedule = some final) :
    ∃ history', final.Follows start calls history' := by
  induction schedule generalizing machine history with
  | nil =>
    obtain rfl := Option.some.inj ran
    exact ⟨history, h⟩
  | cons i rest ih =>
    rw [Machine.run, List.foldlM_cons] at ran
    obtain ⟨next, turned, ran⟩ := Option.bind_eq_some_iff.mp ran
    obtain ⟨_, later⟩ := h.turn turned
    exact ih later ran

/-- **When all threads are finished**, the history has all records that were asked for, and each
thread has written its share. -/
theorem of_finished (h : machine.Follows start calls history) (finished : machine.Finished) :
    history.length = n * calls ∧
    machine.generator = ((repeated Generator.nextText history.length).result start).2 ∧
    ∀ i, (machine.threads i).texts = share history i ∧ (share history i).length = calls := by
  have own : ∀ i, (machine.threads i).texts = share history i ∧
      (share history i).length = calls := by
    intro i
    obtain ⟨produced, total, -⟩ := h.threads i
    obtain ⟨none, outside⟩ := finished i
    rw [Thread.produced, outside] at produced
    rw [Thread.due, outside] at total
    dsimp only at total
    exact ⟨produced, by omega⟩
  have free : machine.holder = none := by
    rcases holder : machine.holder with _ | i
    · rfl
    · obtain ⟨draft, inside⟩ := (h.threads i).inside.mpr holder
      rw [(finished i).2] at inside
      cases inside
  refine ⟨?_, h.free free, own⟩
  -- the shares have as many texts as were asked for, and all of them are in the history
  have count : ∑ i, (share history i).length = (history.map (·.2)).length := by
    simpa only [Multiset.card_sum, Multiset.coe_card] using
      congrArg Multiset.card (sum_share history)
  rw [Finset.sum_congr rfl fun i _ => (own i).2] at count
  simpa using count.symm

/-- **Threads never wait for one another forever**: unless all are finished, it can be the turn of
one of them. -/
theorem exists_turn (h : machine.Follows start calls history) (unfinished : ¬machine.Finished) :
    ∃ i next, machine.turn i = some next := by
  rcases holder : machine.holder with _ | i
  · -- nobody is inside, so a thread that is not finished can write or take the lock
    obtain ⟨i, some⟩ := not_forall.mp unfinished
    refine ⟨i, ?_⟩
    rcases thread : machine.threads i with ⟨left, phase, texts⟩
    rw [thread] at some
    rw [Machine.turn, thread, holder]
    rcases phase with _ | draft | record
    · rcases left with _ | left
      · exact absurd ⟨rfl, rfl⟩ some
      · exact ⟨_, rfl⟩
    · have holds := (h.threads i).inside.mp ⟨draft, by rw [thread]⟩
      rw [holder] at holds
      cases holds
    · exact ⟨_, rfl⟩
  · -- the thread inside goes on
    obtain ⟨draft, inside⟩ := (h.threads i).inside.mpr holder
    refine ⟨i, ?_⟩
    rw [Machine.turn, inside]
    dsimp only
    split
    · exact ⟨_, rfl⟩
    · exact ⟨_, rfl⟩

end Follows

end Machine

/-! ### How long threads take -/

/-- The number of turns that a thread has yet to take, if a record has so many fields: for each
record one to take the lock, one for each field, one to release the lock and one to write. -/
def Thread.turnsLeft (size : ℕ) (thread : Thread σ) : ℕ :=
  thread.left * (size + 3) +
    match thread.phase with
    | .outside => 0
    | .inside draft => size - draft.outcomes.length + 2
    | .writing _ => 1

namespace Machine

/-- The number of turns that all threads have yet to take. -/
def turnsLeft (machine : Machine σ n) : ℕ :=
  ∑ i, (machine.threads i).turnsLeft machine.generator.form.size

/-- If a thread has one turn less to take, so have all threads together. -/
theorem sum_turnsLeft_put {machine : Machine σ n} {i : Fin n} {thread : Thread σ} {size : ℕ}
    (less : thread.turnsLeft size + 1 = (machine.threads i).turnsLeft size) :
    (∑ j, ((machine.put i thread).threads j).turnsLeft size) + 1 =
      ∑ j, (machine.threads j).turnsLeft size := by
  have others : ∑ j ∈ Finset.univ.erase i, ((machine.put i thread).threads j).turnsLeft size =
      ∑ j ∈ Finset.univ.erase i, (machine.threads j).turnsLeft size := by
    refine Finset.sum_congr rfl fun j mem => ?_
    rw [threads_put_of_ne _ (Finset.ne_of_mem_erase mem)]
  rw [← Finset.add_sum_erase _ _ (Finset.mem_univ i), others, threads_put_self,
    ← Finset.add_sum_erase _ (fun j => (machine.threads j).turnsLeft size) (Finset.mem_univ i)]
  omega

variable [ValueSource σ]

/-- **After a turn there is one less to take.** -/
theorem turnsLeft_turn {machine next : Machine σ n} {i : Fin n}
    (turned : machine.turn i = some next) : next.turnsLeft + 1 = machine.turnsLeft := by
  rcases turn_cases turned with ⟨left, texts, free, thread, rfl⟩ |
    ⟨left, draft, texts, name, content, thread, due, rfl⟩ |
    ⟨left, draft, texts, thread, done, rfl⟩ | ⟨left, record, texts, thread, rfl⟩
  · refine sum_turnsLeft_put ?_
    rw [thread, Thread.turnsLeft, Thread.turnsLeft, Nat.succ_mul]
    simp only [Generator.draft, List.length_nil]
    omega
  · have within := (List.getElem?_eq_some_iff.mp due).1
    have size := Generator.size_fillField due draft
    rw [turnsLeft, put, size]
    refine sum_turnsLeft_put ?_
    rw [thread, Thread.turnsLeft, Thread.turnsLeft]
    simp only [Generator.length_fillField]
    rw [Table.size]
    omega
  · have all := List.getElem?_eq_none_iff.mp done
    refine sum_turnsLeft_put ?_
    rw [thread, Thread.turnsLeft, Thread.turnsLeft]
    simp only [Table.size, put, Generator.resume]
    omega
  · refine sum_turnsLeft_put ?_
    rw [thread]
    rfl

omit [ValueSource σ] in
/-- Threads are finished when they have no turn left to take. -/
theorem turnsLeft_eq_zero_iff {machine : Machine σ n} :
    machine.turnsLeft = 0 ↔ machine.Finished := by
  rw [turnsLeft, Finset.sum_eq_zero_iff]
  refine forall_congr' fun i => ?_
  rcases machine.threads i with ⟨left, phase, texts⟩
  rcases phase with _ | draft | record <;> simp [Thread.turnsLeft]

/-- The turns of a schedule and those that are left after it are all turns. -/
theorem length_add_turnsLeft {machine final : Machine σ n} {schedule : List (Fin n)}
    (ran : machine.run schedule = some final) :
    schedule.length + final.turnsLeft = machine.turnsLeft := by
  induction schedule generalizing machine with
  | nil =>
    obtain rfl := Option.some.inj ran
    exact Nat.zero_add _
  | cons i rest ih =>
    rw [Machine.run, List.foldlM_cons] at ran
    obtain ⟨next, turned, ran⟩ := Option.bind_eq_some_iff.mp ran
    rw [List.length_cons, ← turnsLeft_turn turned, ← ih ran]
    omega

/-- **Threads are done after the same number of turns, whatever their order**: three for each text
and one for each field of its record. No schedule is longer. -/
theorem length_schedule {generator : Generator σ} {calls : ℕ} {schedule : List (Fin n)}
    {final : Machine σ n} (ran : (Machine.start generator calls).run schedule = some final) :
    let total := n * (calls * (generator.form.size + 3))
    schedule.length ≤ total ∧ (final.Finished ↔ schedule.length = total) := by
  intro total
  have all : (Machine.start generator calls : Machine σ n).turnsLeft = total := by
    simp [turnsLeft, Machine.start, Thread.turnsLeft, total]
  have count := length_add_turnsLeft ran
  rw [all] at count
  refine ⟨by omega, turnsLeft_eq_zero_iff.symm.trans ?_⟩
  omega

end Machine

/-! ### The texts of all threads -/

variable [ValueSource σ]

/-- Texts are put in one order, whatever order they come in. -/
theorem mergeSort_eq_of_perm {l m : List String} (h : l.Perm m) :
    l.mergeSort (· ≤ ·) = m.mergeSort (· ≤ ·) := by
  have ordered : ∀ texts : List String, (texts.mergeSort (· ≤ ·)).Pairwise (· ≤ ·) := by
    intro texts
    simpa only [decide_eq_true_eq] using
      @List.pairwise_mergeSort _ (fun a b : String => decide (a ≤ b))
        (fun a b c => by simpa using String.le_trans)
        (fun a b => by simpa using String.le_total a b) texts
  refine List.Perm.eq_of_pairwise (fun a b _ _ => String.le_antisymm) (ordered l) (ordered m) ?_
  exact ((List.mergeSort_perm ..).trans h).trans (List.mergeSort_perm ..).symm

/-- **Threads give the texts that the step of a script gives for them**, which puts them in order.
-/
theorem Step.result_run_threads {generator : Generator σ} {calls : ℕ} {schedule : List (Fin n)}
    {final : Machine σ n} (ran : (Machine.start generator calls).run schedule = some final)
    (finished : final.Finished) :
    (Step.threads n calls).run.result generator =
      (.texts ((List.ofFn fun i => (final.threads i).texts).flatten.mergeSort (· ≤ ·)),
        final.generator) := by
  obtain ⟨history, follows⟩ := (Machine.Follows.start generator calls).run ran
  obtain ⟨count, after, own⟩ := follows.of_finished finished
  have texts := follows.texts
  rw [count] at texts after
  have same : ((repeated Generator.nextText (n * calls)).result generator).1.Perm
      (List.ofFn fun i => (final.threads i).texts).flatten := by
    rw [← texts, ← Multiset.coe_eq_coe, ← sum_share, ← Multiset.coe_join, List.map_ofFn,
      Multiset.join, Multiset.sum_coe, List.sum_ofFn]
    exact Finset.sum_congr rfl fun i _ => congrArg _ (own i).1.symm
  rw [Step.run, Action.result_bind, after, ← mergeSort_eq_of_perm same]
  rfl

/-- **Threads lose, repeat and mix nothing.** Take a generator with the form of a template, after
any steps, and let threads make so many texts each, with turns in any order in which all come to an
end. Together they have made the texts of a run without threads, each as often as that run makes it.
Each thread has made as many as it was asked for, in the order of that run, and the generator is
left as by that run. Every text is that of a record with the keys of the template, in which each
reference shows the value of its target. -/
theorem texts_of_threads (rules : Rules σ) (template : Template) (generator : Generator σ)
    (made : (Form.ofTemplate rules template).run.value = .ok generator.form) (script : List Step)
    (n calls : ℕ) (schedule : List (Fin n)) (final : Machine σ n)
    (ran : (Machine.start ((runScript script).result generator).2 calls).run schedule = some final)
    (finished : final.Finished) :
    let serial :=
      (repeated Generator.nextText (n * calls)).result ((runScript script).result generator).2
    ∑ i, ((final.threads i).texts : Multiset String) = serial.1 ∧
    (∀ i, (final.threads i).texts.length = calls ∧ (final.threads i).texts.Sublist serial.1) ∧
    final.generator = serial.2 ∧
    ∀ i, ∀ text ∈ (final.threads i).texts, ∃ record : Record, record.text = text ∧
      record.keys = template.keys ∧
      ∀ name target, (name, target) ∈ generator.form.references → ∃ value,
        record.get? name = some value ∧ record.get? target = some value := by
  intro serial
  obtain ⟨history, follows⟩ := (Machine.Follows.start _ calls).run ran
  obtain ⟨count, after, own⟩ := follows.of_finished finished
  have texts := follows.texts
  rw [count] at texts after
  refine ⟨?_, ?_, after, ?_⟩
  · rw [Finset.sum_congr rfl fun i _ => congrArg _ (own i).1, sum_share, texts]
  · intro i
    rw [(own i).1]
    exact ⟨(own i).2, texts ▸ share_sublist history i⟩
  · intro i text mem
    have among : text ∈ serial.1 := by
      rw [(own i).1] at mem
      exact texts ▸ (share_sublist history i).subset mem
    obtain ⟨later, alike, rfl⟩ := exists_of_mem_repeated Generator.keepsForm_nextText among
    have same := (keepsForm_runScript script generator).trans alike
    refine ⟨(later.form.fill later.context).1.1, rfl, Form.keys_fill_ofTemplate made same _, ?_⟩
    intro name target refers
    obtain ⟨value, -, shown, also⟩ :=
      Form.get?_fill_target made same (same.mem_references refers) later.context
    exact ⟨value, shown, also⟩

/-- Two threads make a record each. The second one takes the lock before the first has written its
record, and is the first to write. -/
theorem texts_of_threads_counted :
    let serial := ["\x7b\"a\":7,\"m\":7,\"t\":true,\"z\":7\x7d",
      "\x7b\"a\":8,\"m\":8,\"t\":true,\"z\":8\x7d"]
    ∃ final : Machine StockSource 2,
      (Machine.start ⟨countedForm 7, .ofSeed 1, .frozen 5, 1⟩ 1).run
        [0, 0, 0, 0, 0, 0, 1, 1, 1, 1, 1, 1, 1, 0] = some final ∧ final.Finished ∧
      (final.threads 0).texts = serial.take 1 ∧ (final.threads 1).texts = serial.drop 1 ∧
      ∑ i, ((final.threads i).texts : Multiset String) = serial ∧
      final.generator = ⟨countedForm 9, .ofSeed 1, .frozen 5, 1⟩ := by
  intro serial
  have made : (Form.ofTemplate counterRules counted).run.value = .ok (countedForm 7) := rfl
  have run : (repeated Generator.nextText (2 * 1)).result
      ((runScript []).result ⟨countedForm 7, .ofSeed 1, .frozen 5, 1⟩).2 =
      (serial, ⟨countedForm 9, .ofSeed 1, .frozen 5, 1⟩) := rfl
  have ends :
      ((Machine.start ⟨countedForm 7, .ofSeed 1, .frozen 5, 1⟩ 1 : Machine StockSource 2).run
        [0, 0, 0, 0, 0, 0, 1, 1, 1, 1, 1, 1, 1, 0]).map
          (fun final => ((final.threads 0).texts, (final.threads 1).texts)) =
        some (serial.take 1, serial.drop 1) := by
    decide +kernel +zetaReduce
  obtain ⟨final, ran, ends⟩ := Option.map_eq_some_iff.mp ends
  obtain ⟨first, second⟩ := Prod.mk.inj ends
  -- seven turns for each text
  have finished : final.Finished := (Machine.length_schedule ran).2.mpr rfl
  obtain ⟨texts, -, generator, -⟩ :=
    texts_of_threads counterRules counted _ made [] 2 1 _ final ran finished
  rw [run] at texts generator
  exact ⟨final, ran, finished, first, second, texts, generator⟩

end Stencil
