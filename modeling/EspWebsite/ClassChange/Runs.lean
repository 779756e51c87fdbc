import EspWebsite.ClassChange.Pushes

/-!
# Runs of an assignment

What a fill of a section can do, and the rules that carry an invariant from the filled
sections through all pushes to the state in which the assignment ends.
-/

namespace EspWebsite.ClassChange.ClassChangeController

open Python Loops Draws

variable {c : ClassChangeController} {state after : c.State} {sec si : c.Section}
  {student : c.Student}

/-! ## Filling a section -/

/-- The selected students are distinct candidates, no more than there is room for. -/
theorem select_spec (state : c.State) (si : c.Section) (candidates : List c.Student) :
    (select state si candidates).1.Subperm candidates ∧
      (((select state si candidates).1.length : ℕ) : ℤ) ≤
        max (state.sectionCapacities si) 0 := by
  rw [select]
  have spaces : (((max (state.sectionCapacities si) 0).toNat : ℕ) : ℤ) =
      max (state.sectionCapacities si) 0 := by omega
  split
  · rename_i enough
    exact ⟨List.Subperm.refl _, by rw [← spaces]; exact_mod_cast enough⟩
  · rename_i many
    refine ⟨choice_subperm _ _ _, ?_⟩
    rw [choice_length (by omega), spaces]

/-- The students that a fill may add to a section. -/
structure Selected (state : c.State) (si : c.Section) (priority : ℕ)
    (students : List c.Student) : Prop where
  distinct : students.Nodup
  possible : ∀ student ∈ students, possible state si priority student = true
  room : (students.length : ℤ) ≤ max (state.sectionCapacities si) 0

theorem fillSection_eq_ok {priority : ℕ} {filled : Bool}
    (returns : fillSection si priority state = .ok (filled, after)) :
    after = state ∨ ∃ students source, Selected state si priority students ∧
      after = { (state.enroll students si true).fill si students.length with source } := by
  rw [fillSection] at returns
  split at returns
  · cases returns
    exact .inl rfl
  · rcases bind_eq_ok.mp returns with ⟨_, -, rest⟩
    rcases andThen_eq_ok.mp rest with ⟨-, changed⟩
    have spec := select_spec state si (nonzero (possible state si priority))
    cases changed
    refine .inr ⟨_, _, ⟨?_, ?_, spec.2⟩, rfl⟩
    · rcases spec.1 with ⟨chosen, perm, sublist⟩
      exact perm.nodup_iff.mp ((nonzero_nodup _).sublist sublist)
    · intro student member
      exact mem_nonzero.mp (spec.1.subset member)

theorem free_of_possible {priority : ℕ} (candidate : possible state si priority student = true) :
    c.anyDuring state.enrollFinal student si = false := by
  rw [Bool.eq_false_iff]
  intro busy
  rcases anyDuring_eq_true.mp busy with ⟨other, ts, meets, enrolled⟩
  simp only [possible, Bool.and_eq_true, List.all_eq_true, mem_nonzero, Bool.not_eq_true',
    anyOf_eq_false] at candidate
  exact absurd enrolled (by simpa using candidate.1.2 ts meets other)

theorem requested_of_possible {priority : ℕ}
    (candidate : possible state si priority student = true) :
    ∃ ts, c.request student si ts = true := by
  simp only [possible, Bool.and_eq_true, anyOf_eq_true] at candidate
  exact candidate.1.1.1.1

/-! ## Runs -/

/-- A condition holds before each push of `push_back_students`. -/
def BeforePushes (condition : c.Section → c.Student → c.State → Prop) (rounds : ℕ)
    (state : c.State) : Prop :=
  BeforeRounds pushRound
    (fun state =>
      let state := state.sortSections fun sec => -state.sectionCapacities sec
      BeforeEach pushSection
        (fun sec state => BeforeEach (pushStudent sec) (condition sec)
          (nonzero (toPush state.1 sec)) state.1)
        state.sortedSectionIndices (state, false))
    rounds { state with studentsToKick := fun _ => none }

/-- Sorting the sections preserves an invariant. -/
def SortInvariant (invariant : c.State → Prop) : Prop :=
  ∀ (state : c.State) key, invariant state → invariant (state.sortSections key)

section Rules

variable (condition : c.Section → c.Student → c.State → Prop) (invariant : c.State → Prop)

theorem beforePushes_of_forall {rounds : ℕ} (holds : ∀ sec student state,
    condition sec student state) : BeforePushes condition rounds state := by
  apply beforeRounds_of_forall
  intro state
  apply beforeEach_of_forall
  intro sec _ state
  apply beforeEach_of_forall
  intro student _ state
  exact holds sec student state

theorem fillAll_preserves {source : Source} (sorts : SortInvariant invariant)
    (fills : ∀ (state after : c.State) si priority filled, invariant state →
      fillSection si priority state = .ok (filled, after) → invariant after)
    (initially : invariant { c.clearAssignments source with
      sortedSectionIndices := List.finRange c.numSections })
    (returns : c.fillAll source = .ok after) : invariant after := by
  apply forLoop_invariant invariant _ (sorts _ _ initially) returns
  intro priority _ state between kept filling
  apply forLoop_invariant invariant _ kept filling
  intro si _ state between kept step
  rcases map_eq_ok.mp step with ⟨result, fill, rfl⟩
  exact fills state result.2 si priority result.1 kept fill

theorem pushSection_preserves {flag flagAfter : Bool}
    (conditions : BeforeEach (pushStudent sec) (condition sec)
      (nonzero (toPush state sec)) state)
    (pushes : ∀ (state after : c.State) sec student, condition sec student state →
      toPush state sec student = true → invariant state →
      pushStudent sec student state = .ok after → invariant after)
    (initially : invariant state)
    (returns : pushSection sec (state, flag) = .ok (after, flagAfter)) : invariant after := by
  rcases map_eq_ok.mp returns with ⟨pushed, loop, equal⟩
  cases equal
  have kept := forLoop_consumes
    (fun rest (between : c.State) => rest.Nodup ∧
      (∀ student ∈ rest, toPush between sec student = true) ∧ invariant between)
    conditions ?_ ⟨nonzero_nodup _, by simp, initially⟩ loop
  · exact kept.2.2
  · intro student rest before between holds kept step
    rcases kept with ⟨distinct, pushed, kept⟩
    rcases List.nodup_cons.mp distinct with ⟨fresh, distinct⟩
    refine ⟨distinct, ?_, ?_⟩
    · intro other member
      apply toPush_pushStudent _ (pushed other (List.mem_cons_of_mem _ member)) step
      intro same
      exact fresh (same ▸ member)
    · exact pushes before between sec student holds (pushed student List.mem_cons_self) kept step

theorem pushBackStudents_preserves {rounds : ℕ}
    (conditions : BeforePushes condition rounds state) (sorts : SortInvariant invariant)
    (pushes : ∀ (state after : c.State) sec student, condition sec student state →
      toPush state sec student = true → invariant state →
      pushStudent sec student state = .ok after → invariant after)
    (initially : invariant { state with studentsToKick := fun _ => none })
    (returns : pushBackStudents rounds state = some (.ok after)) :
    invariant after ∧ ∃ last, invariant last ∧ pushRound last = .ok (after, false) := by
  have rounds' : ∀ before (between : c.State) flag,
      BeforeEach pushSection
        (fun sec state => BeforeEach (pushStudent sec) (condition sec)
          (nonzero (toPush state.1 sec)) state.1)
        (before.sortSections fun sec => -before.sectionCapacities sec).sortedSectionIndices
        (before.sortSections fun sec => -before.sectionCapacities sec, false) →
      invariant before → pushRound before = .ok (between, flag) → invariant between := by
    intro before between flag holds kept round
    exact forLoop_preserves (fun between : c.State × Bool => invariant between.1) holds
      (fun sec _ state after holds kept step =>
        pushSection_preserves condition invariant holds pushes kept step) (sorts _ _ kept) round
  rcases whileLoop_exit invariant conditions
    (fun before between holds kept round => rounds' before between true holds kept round)
    initially returns with ⟨last, holds, kept, round⟩
  exact ⟨rounds' last after false holds kept round, last, kept, round⟩

end Rules

theorem pushRound_eq_ok_false (returns : pushRound state = .ok (after, false)) :
    ∀ sec ∈ state.sortedSectionIndices, ∀ student, toPush after sec student = false := by
  have scanned := forLoop_variant
    (fun rest (between : c.State × Bool) => between.2 = false →
      ∀ sec ∈ state.sortedSectionIndices, sec ∈ rest ∨
        ∀ student, toPush between.1 sec student = false)
    ?_ (fun _ sec member => .inl (by
      simpa [State.sortSections, List.mem_insertionSort] using member)) returns
  · intro sec member
    simpa using scanned rfl sec member
  · intro sec rest before between kept step quiet
    rcases map_eq_ok.mp step with ⟨pushed, loop, equal⟩
    cases equal
    dsimp only at quiet
    rw [Bool.or_eq_false_iff, Bool.not_eq_false', List.isEmpty_iff] at quiet
    rw [quiet.2] at loop
    cases loop
    intro other member
    rcases kept quiet.1 other member with remaining | done
    · rcases List.mem_cons.mp remaining with rfl | remaining
      · right
        intro student
        rw [Bool.eq_false_iff]
        intro pushed
        have listed := mem_nonzero.mpr pushed
        rw [quiet.2] at listed
        cases listed
      · exact .inl remaining
    · exact .inr done

end EspWebsite.ClassChange.ClassChangeController
