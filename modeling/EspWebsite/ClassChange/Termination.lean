import EspWebsite.ClassChange.Pushes

/-!
# Pushing back comes to an end

A round that has pushed anyone leaves fewer pushes, so that the loop of
`push_back_students` stops after at most as many rounds as there are original enrollments
and entries of kick queues.
-/

namespace EspWebsite.ClassChange.ClassChangeController

open Python Loops Draws

variable {c : ClassChangeController} {state after : c.State} {sec : c.Section}

theorem pushesLeft_pushStudents {students : List c.Student} (distinct : students.Nodup)
    (pushed : ∀ student ∈ students, toPush state sec student = true)
    (returns : forLoop (pushStudent sec) students state = .ok after) :
    pushesLeft after + students.length ≤ pushesLeft state := by
  have consumed := forLoop_variant
    (fun rest (between : c.State) => rest.Nodup ∧
      (∀ student ∈ rest, toPush between sec student = true) ∧
      pushesLeft between + students.length ≤ pushesLeft state + rest.length)
    ?_ ⟨distinct, pushed, Nat.le_refl _⟩ returns
  · simpa using consumed.2.2
  · intro student rest before between kept step
    rcases kept with ⟨distinct, pushed, counted⟩
    rcases List.nodup_cons.mp distinct with ⟨fresh, distinct⟩
    have fewer := pushesLeft_pushStudent (pushed student List.mem_cons_self) step
    refine ⟨distinct, ?_, ?_⟩
    · intro other member
      apply toPush_pushStudent _ (pushed other (List.mem_cons_of_mem _ member)) step
      intro same
      exact fresh (same ▸ member)
    · rw [List.length_cons] at counted
      omega

theorem pushesLeft_pushSection {flag flagAfter : Bool}
    (returns : pushSection sec (state, flag) = .ok (after, flagAfter)) :
    pushesLeft after ≤ pushesLeft state ∧
      (flagAfter = true → flag = true ∨ pushesLeft after < pushesLeft state) := by
  rcases map_eq_ok.mp returns with ⟨pushed, loop, equal⟩
  cases equal
  have fewer := pushesLeft_pushStudents (nonzero_nodup _) (by simp) loop
  dsimp only at fewer
  refine ⟨by omega, ?_⟩
  intro more
  cases students : nonzero (toPush state sec) with
  | nil =>
      simp only [students, List.isEmpty_nil, Bool.not_true, Bool.or_false] at more
      exact .inl more
  | cons student rest =>
      simp only [students, List.length_cons] at fewer
      exact .inr (by omega)

theorem pushesLeft_pushRound (returns : pushRound state = .ok (after, true)) :
    pushesLeft after < pushesLeft state := by
  have counted := forLoop_invariant
    (fun between : c.State × Bool => pushesLeft between.1 ≤ pushesLeft state ∧
      (between.2 = true → pushesLeft between.1 < pushesLeft state))
    ?_ ⟨Nat.le_refl _, by simp⟩ returns
  · exact counted.2 rfl
  · intro sec _ before between kept step
    rcases pushesLeft_pushSection step with ⟨fewer, more⟩
    refine ⟨fewer.trans kept.1, ?_⟩
    intro flag
    rcases more flag with flagged | less
    · exact Nat.lt_of_le_of_lt fewer (kept.2 flagged)
    · exact Nat.lt_of_lt_of_le less kept.1

variable (c) in
/-- The pushes that can be made from any state without kick queues. -/
def pushBound : ℕ :=
  c.numStudents * c.numSections + c.numSections * (c.numStudents * (c.numTimeslots + 1))

theorem pushesLeft_le_pushBound (unqueued : ∀ sec, state.studentsToKick sec = none) :
    pushesLeft state ≤ c.pushBound := by
  rw [pushesLeft, pushBound]
  apply Nat.add_le_add
  · have few := Finset.card_le_univ (missing state)
    rwa [Fintype.card_prod, Fintype.card_fin, Fintype.card_fin] at few
  · simp [unqueued, kicksLeft]

theorem pushBackStudents_isSome (state : c.State) :
    (pushBackStudents (c.pushBound + 1) state).isSome := by
  apply whileLoop_isSome pushesLeft
  · intro before between round
    exact pushesLeft_pushRound round
  · exact Nat.lt_succ_of_le (pushesLeft_le_pushBound fun _ => rfl)

/-- Pushing back ends from every state and for all draws: its loop does not run out of
`pushBound` rounds, and no more than `pushBound` pushes can follow one another, in
whatever order the sections are sorted meanwhile. -/
theorem pushBackStudents_terminates (c : ClassChangeController) (state : c.State) :
    (∃ outcome, pushBackStudents (c.pushBound + 1) state = some outcome) ∧
      ∀ (count : ℕ) (states : ℕ → c.State),
        (∀ sec, (states 0).studentsToKick sec = none) →
        (∀ index < count, ∃ sec student order, toPush (states index) sec student = true ∧
          pushStudent sec student { states index with sortedSectionIndices := order } =
            .ok (states (index + 1))) →
        count ≤ c.pushBound := by
  constructor
  · exact Option.isSome_iff_exists.mp (pushBackStudents_isSome state)
  · intro count states unqueued pushes
    have counted : ∀ index ≤ count, pushesLeft (states index) + index ≤
        pushesLeft (states 0) := by
      intro index
      induction index with
      | zero => simp
      | succ index ih =>
          intro inRange
          rcases pushes index (by omega) with ⟨sec, student, order, pushed, step⟩
          let sorted : c.State := { states index with sortedSectionIndices := order }
          have fewer : pushesLeft (states (index + 1)) + 1 ≤ pushesLeft (states index) :=
            @pushesLeft_pushStudent _ sorted _ _ _ pushed step
          have before := ih (by omega)
          omega
    have bounded := pushesLeft_le_pushBound unqueued
    have total := counted count (Nat.le_refl _)
    omega

end EspWebsite.ClassChange.ClassChangeController
