import EspWebsite.Autoscheduler.Scoring.Laws

/-!
# Scorers that follow sound schedules

Some scorers are brought up to date correctly only while teachers teach one section at
a time.  A scorer follows a schedule if its hooks do so for admissible changes, which is
what calls that are not forced, and the undoing of such calls, make.
-/

namespace EspWebsite.Autoscheduler

open Python

/-- A scorer whose hooks keep its state the one built on the schedule, for admissible
changes of sound assignments. -/
def Follows {schedule : AS_Schedule} (scorer : Scorer schedule) : Prop :=
  ∀ (assignments : Assignments) (change : Change) (state : scorer.State),
    Sound schedule assignments → Admissible schedule assignments change →
      change.Tracks assignments → scorer.updateSchedule assignments = .ok state →
        ∃ updated, change.updateScorer scorer assignments state = .ok updated ∧
          scorer.updateSchedule (change.apply assignments) = .ok updated

variable {schedule : AS_Schedule} {scorer : Scorer schedule}

theorem Incremental.follows (incremental : Incremental scorer) : Follows scorer := by
  intro assignments change state sound admissible tracks built
  exact incremental assignments change state sound.placed admissible.registered
    admissible.possible tracks built

section Runs

variable {constraints : CompositeConstraint} {manipulator result : ScheduleManipulator scorer}
  {assignments : Assignments} {change : Change}

theorem Change.Exchangeable.sameDuration (exchangeable : change.Exchangeable) :
    change.SameDuration := by
  cases change with
  | schedule _ _ | move _ _ | unschedule _ => trivial
  | swap section1 section2 => exact exchangeable.1

theorem Admissible.tracks (admissible : Admissible schedule assignments change)
    (tidy : Tidy schedule assignments) : change.Tracks assignments :=
  tidy.tracks admissible.registered admissible.exchangeable.sameDuration

theorem Admissible.tidy (admissible : Admissible schedule assignments change)
    (tidy : Tidy schedule assignments) : Tidy schedule (change.apply assignments) :=
  tidy.apply admissible.registered admissible.possible admissible.exchangeable.sameDuration

/-- Along a run of calls that are not forced, a scorer that follows stays in the state
that is built on the schedule. -/
theorem Follows.run (follows : Follows scorer) (tidy : Tidy schedule manipulator.assignments)
    (undoable : Undoable schedule manipulator.assignments manipulator.history)
    (built : scorer.updateSchedule manipulator.assignments = .ok manipulator.scorerState)
    (run : Run constraints
      (fun operation => operation.Registered schedule ∧ operation.NonForced)
      manipulator result) :
    Tidy schedule result.assignments ∧
      scorer.updateSchedule result.assignments = .ok result.scorerState := by
  induction run with
  | refl => exact ⟨tidy, built⟩
  | tail steps step ih =>
      obtain ⟨tidyBefore, builtBefore⟩ := ih
      have undoableBefore := undoable_run undoable steps
      rcases makes_of_step undoableBefore step with same | ⟨-, change, makes⟩
      · subst same
        exact ⟨tidyBefore, builtBefore⟩
      · obtain ⟨updated, hook, builtAfter⟩ := follows _ change _ undoableBefore.sound
          makes.admissible (makes.admissible.tracks tidyBefore) builtBefore
        rw [makes.updated, Except.ok.injEq] at hook
        subst hook
        rw [makes.assignments]
        exact ⟨makes.admissible.tidy tidyBefore, builtAfter⟩

theorem Unassigned.sound (unassigned : Unassigned schedule assignments) :
    Sound schedule assignments where
  placed := unassigned.tidy.placed
  fits sec listed scheduled :=
    absurd (unassigned.sections sec listed) scheduled
  teachersApart left leftListed right rightListed different teacher teachesLeft
      teachesRight leftSlot leftAssigned := by
    simp [unassigned.sections left leftListed] at leftAssigned

/-- In every run from a schedule without assignments, without forced calls, the state
kept up to date is the one that a fresh scorer builds on the resulting schedule. -/
theorem Follows.of_unassigned (follows : Follows scorer)
    (unassigned : Unassigned schedule assignments)
    (created : ScheduleManipulator.create scorer assignments = .ok manipulator)
    (run : Run constraints
      (fun operation => operation.Registered schedule ∧ operation.NonForced)
      manipulator result) :
    scorer.updateSchedule result.assignments = .ok result.scorerState := by
  obtain ⟨built, sameAssignments, empty⟩ := create_eq_ok.mp created
  have undoable : Undoable schedule manipulator.assignments manipulator.history := by
    rw [sameAssignments, empty]
    exact .nil unassigned.sound
  apply (follows.run _ undoable _ run).2
  · rw [sameAssignments]
    exact unassigned.tidy
  · rw [sameAssignments]
    exact built

end Runs

end EspWebsite.Autoscheduler
