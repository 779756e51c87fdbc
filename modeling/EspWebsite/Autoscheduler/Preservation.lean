import EspWebsite.Autoscheduler.Scoring.Correctness

/-!
# Required constraints in runs

The guards of single calls look at little more than the sections they change, and undoing
is not guarded at all.  Still every run of calls that are not forced leaves a schedule that
passes all the checks, on which no assertion about assigned roomslots fails.
-/

namespace EspWebsite.Autoscheduler

open Python SmallSchedule

/-- The assertions of `assign_roomslots`. -/
def occupancyAssertions : Set PyError :=
  {.assertion "Roomslot is occupied", .assertion "Already assigned to roomslots"}

theorem occupancyAssertions_subset : occupancyAssertions ⊆ assertions := by
  rintro raised (rfl | rfl)
  · exact ⟨_, rfl⟩
  · exact ⟨_, rfl⟩

/-- A section holds the roomslots that are assigned to it, and no others. -/
structure SectionsAgree (schedule : AS_Schedule) (assignments : Assignments) : Prop where
  assigned : ∀ sec ∈ schedule.classSections,
    ∀ roomslot ∈ assignments.assignedRoomslots sec,
      assignments.assignedSection roomslot = some sec
  held : ∀ roomslot ∈ schedule.roomslots, ∀ sec,
    assignments.assignedSection roomslot = some sec →
      sec ∈ schedule.classSections ∧
        roomslot ∈ assignments.assignedRoomslots sec

section Runs

variable {schedule : AS_Schedule} {assignments : Assignments}
  {constraints : CompositeConstraint} {weights : List (ScorerClass × ℚ)}
  {manipulator result : ScheduleManipulator (compositeOf schedule weights)}

theorem WellPlaced.sectionsAgree (placed : WellPlaced schedule assignments) :
    SectionsAgree schedule assignments where
  assigned _ listed _ held := placed.assignedSection_of_assigned listed held
  held roomslot registered sec holder :=
    ⟨placed.agrees.owner_of_holder roomslot registered sec holder,
      placed.agrees.held_of_holder roomslot registered sec holder⟩

theorem avoids_of_possible {change : Change}
    (placed : WellPlaced schedule manipulator.assignments)
    (registered : change.Registered schedule)
    (possible : ∀ action, change.record manipulator.assignments = .ok action →
      change.Possible manipulator.assignments) :
    Avoids occupancyAssertions (change.perform manipulator) := by
  apply avoids_perform occupancyAssertions_subset
  · intro action _
    apply CompositeScorer.avoids weights occupancyAssertions_subset
    intro _
    simp [occupancyAssertions]
  · intro action recorded
    have made := ((Change.effect_eq_ok placed registered).mpr
      ⟨possible action recorded, rfl⟩).2
    rw [made]
    exact avoids_ok _

theorem avoids_of_undoable
    (undoable : Undoable schedule manipulator.assignments manipulator.history)
    {operation : Operation} (registered : operation.Registered schedule)
    (nonForced : operation.NonForced) (distinct : operation.Distinct) :
    Avoids occupancyAssertions (operation.run constraints manipulator) := by
  have placed := undoable.sound.placed
  cases operation with
  | call change force =>
      have notForced : force = false := nonForced
      subst notForced
      apply avoids_call occupancyAssertions_subset
      intro accepted
      have accepted : change.refuses constraints manipulator = .ok false := by
        simpa using accepted
      apply avoids_of_possible placed registered
      intro _ _
      exact (admissible_of_accepted undoable.sound registered distinct accepted).possible
  | undo =>
      rw [Operation.run]
      rcases List.eq_nil_or_concat manipulator.history with empty | ⟨history, action, recorded⟩
      · rw [ScheduleManipulator.undo_nil empty]
        exact avoids_ok _
      · rw [List.concat_eq_append] at recorded
        rw [recorded] at undoable
        obtain ⟨back, revert, admissible, -⟩ := undoable.undo
        have placed : WellPlaced schedule
            ({ manipulator with history := history } :
              ScheduleManipulator (compositeOf schedule weights)).assignments := placed
        apply avoids_undo recorded revert
        exact avoids_of_possible placed admissible.registered fun _ _ => admissible.possible

/-- A run without forced calls, from a schedule that passes all checks, leads to one that
passes them, and what is called next does not assign a roomslot twice. -/
theorem passesChecks_of_run (passes : PassesChecks schedule assignments)
    (created : ScheduleManipulator.create (compositeOf schedule weights) assignments =
      .ok manipulator)
    (run : Run constraints
      (fun operation => operation.Registered schedule ∧ operation.NonForced)
      manipulator result) :
    PassesChecks schedule result.assignments ∧ SectionsAgree schedule result.assignments ∧
      ∀ operation : Operation, operation.Registered schedule → operation.NonForced →
        operation.Distinct →
          Avoids occupancyAssertions (operation.run constraints result) := by
  obtain ⟨-, sameAssignments, empty⟩ := create_eq_ok.mp created
  have undoable : Undoable schedule manipulator.assignments manipulator.history := by
    rw [sameAssignments, empty]
    exact .nil passes.sound
  have undoableAfter := undoable_run undoable run
  refine ⟨⟨?_, undoableAfter.sound.required⟩, undoableAfter.sound.placed.sectionsAgree, ?_⟩
  · exact undoableAfter.sound.consistent passes.consistent
  · intro operation registered nonForced distinct
    exact avoids_of_undoable undoableAfter registered nonForced distinct

/-- The theorem at a run on the small schedule, which undoes and moves. -/
theorem passesChecks_of_run_small :
    ∃ manipulator result : ScheduleManipulator (compositeOf small [(.numSections, 1)]),
      Run required (fun operation => operation.Registered small ∧ operation.NonForced)
        manipulator result ∧ result.history.length = 2 ∧
      PassesChecks small result.assignments ∧ SectionsAgree small result.assignments ∧
        ∀ operation : Operation, operation.Registered small → operation.NonForced →
          operation.Distinct →
            Avoids occupancyAssertions (operation.run required result) := by
  have allowed : ∀ operation ∈ [Operation.call shortAtTwelve false,
      .call longAtTen false, .undo, .call longAtTen false],
      operation.Registered small ∧ operation.NonForced := by
    intro operation listed
    simp only [List.mem_cons, List.not_mem_nil, or_false] at listed
    rcases listed with rfl | rfl | rfl | rfl
    · exact ⟨registered_shortAtTwelve, rfl⟩
    · exact ⟨registered_longAtTen, rfl⟩
    · exact ⟨trivial, trivial⟩
    · exact ⟨registered_longAtTen, rfl⟩
  obtain ⟨manipulator, result, created, run, length⟩ :=
    @exists_run (compositeOf small [(.numSections, 1)]) _ _ allowed
      (fun result => result.history.length == 2) (by decide +kernel)
  have passes : PassesChecks small vacant :=
    ⟨by decide, by decide⟩
  exact ⟨manipulator, result, run, by simpa using length,
    passesChecks_of_run passes created run⟩

end Runs

end EspWebsite.Autoscheduler
