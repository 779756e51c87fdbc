import EspWebsite.Autoscheduler.Scoring.Classes

/-!
# Assertions in scorers

The only assertions in the hooks are the ones of the counting scorers, which have no
message, when a section is unscheduled.
-/

namespace EspWebsite.Autoscheduler

open Python

def assertions : Set PyError := {raised | ∃ message, raised = .assertion message}

variable {schedule : AS_Schedule} {assignments : Assignments} {errors : Set PyError}

section Base

theorem notMem_of_not_assertion (onlyAssertions : errors ⊆ assertions) {raised : PyError}
    (other : ∀ message, raised ≠ .assertion message) : raised ∉ errors := by
  intro member
  obtain ⟨message, same⟩ := onlyAssertions member
  exact other message same

theorem avoids_first (onlyAssertions : errors ⊆ assertions) {α : Type} (values : List α) :
    Avoids errors (first values) := by
  cases values with
  | nil =>
      exact (avoids_error_iff _).mpr
        (notMem_of_not_assertion onlyAssertions fun message same => by cases same)
  | cons value rest => exact avoids_ok value

theorem avoids_last (onlyAssertions : errors ⊆ assertions) {α : Type} (values : List α) :
    Avoids errors (last values) := by
  rw [last]
  split
  · exact (avoids_error_iff _).mpr
      (notMem_of_not_assertion onlyAssertions fun message same => by cases same)
  · exact avoids_ok _

namespace BaseScorer

variable {State : Type}
  {updateScheduleSection :
    Assignments → AS_ClassSection → AS_RoomSlot → State → Raises State}
  {updateUnscheduleSection : Assignments → AS_ClassSection → State → Raises State}

theorem avoids_updateMoveSection
    (scheduleAvoids : ∀ sec startRoomslot state,
      Avoids errors (updateScheduleSection assignments sec startRoomslot state))
    (unscheduleAvoids : ∀ sec state,
      Avoids errors (updateUnscheduleSection assignments sec state))
    (sec : AS_ClassSection) (startRoomslot : AS_RoomSlot) (state : State) :
    Avoids errors (updateMoveSection updateScheduleSection updateUnscheduleSection assignments
      sec startRoomslot state) :=
  avoids_bind (unscheduleAvoids sec state)
    fun state _ => scheduleAvoids sec startRoomslot state

theorem avoids_updateSwapSections (onlyAssertions : errors ⊆ assertions)
    (scheduleAvoids : ∀ sec startRoomslot state,
      Avoids errors (updateScheduleSection assignments sec startRoomslot state))
    (unscheduleAvoids : ∀ sec state,
      Avoids errors (updateUnscheduleSection assignments sec state))
    (section1 section2 : AS_ClassSection) (state : State) :
    Avoids errors (updateSwapSections updateScheduleSection updateUnscheduleSection assignments
      section1 section2 state) := by
  apply avoids_bind (avoids_first onlyAssertions _)
  intro start2 _
  apply avoids_bind (avoids_updateMoveSection scheduleAvoids unscheduleAvoids _ _ _)
  intro state _
  apply avoids_bind (avoids_first onlyAssertions _)
  intro start1 _
  exact avoids_updateMoveSection scheduleAvoids unscheduleAvoids _ _ _

theorem avoids_updateScorer {scorer : Scorer schedule} (onlyAssertions : errors ⊆ assertions)
    (scheduleAvoids : ∀ sec startRoomslot state,
      Avoids errors (scorer.updateScheduleSection assignments sec startRoomslot state))
    (unscheduleAvoids : ∀ sec state,
      Avoids errors (scorer.updateUnscheduleSection assignments sec state))
    (moved : scorer.updateMoveSection = updateMoveSection scorer.updateScheduleSection
      scorer.updateUnscheduleSection)
    (swapped : scorer.updateSwapSections = updateSwapSections scorer.updateScheduleSection
      scorer.updateUnscheduleSection)
    (change : Change) (state : scorer.State) :
    Avoids errors (change.updateScorer scorer assignments state) := by
  cases change with
  | schedule sec startRoomslot => exact scheduleAvoids sec startRoomslot state
  | unschedule sec => exact unscheduleAvoids sec state
  | move sec startRoomslot =>
      rw [Change.updateScorer, moved]
      exact avoids_updateMoveSection scheduleAvoids unscheduleAvoids _ _ _
  | swap section1 section2 =>
      rw [Change.updateScorer, swapped]
      exact avoids_updateSwapSections onlyAssertions scheduleAvoids unscheduleAvoids _ _ _

end BaseScorer

end Base

/-! ## The hooks of the classes -/

section Hooks

variable {change : Change}

theorem RoomScorer.avoids {processSection : AS_ClassSection → AS_Classroom → ℚ}
    {build : Raises Unit} {scaling : ℚ} {scoreSchedule : ℚ → Raises ℚ}
    (onlyAssertions : errors ⊆ assertions)
    (state : (RoomScorer schedule processSection build scaling scoreSchedule).State) :
    Avoids errors (change.updateScorer
      (RoomScorer schedule processSection build scaling scoreSchedule) assignments state) := by
  apply BaseScorer.avoids_updateScorer onlyAssertions
  · intro sec startRoomslot totalScore
    exact avoids_ok _
  · intro sec totalScore
    exact avoids_bind (avoids_first onlyAssertions _) fun _ _ => avoids_ok _
  · rfl
  · rfl

theorem RoomslotScorer.avoids {Total : Type} [AddCommGroup Total]
    {amounts : AS_ClassSection → List AS_RoomSlot → List Total} {build : Raises Unit}
    {scaling : ℚ} {scoreSchedule : Total → Raises ℚ} (onlyAssertions : errors ⊆ assertions)
    (state : (RoomslotScorer schedule amounts build scaling scoreSchedule).State) :
    Avoids errors (change.updateScorer
      (RoomslotScorer schedule amounts build scaling scoreSchedule) assignments state) := by
  apply BaseScorer.avoids_updateScorer onlyAssertions
  · intro sec startRoomslot total
    exact avoids_ok _
  · intro sec total
    exact avoids_ok _
  · rfl
  · rfl

theorem HungryTeacherScorer.avoids (onlyAssertions : errors ⊆ assertions)
    (state : (HungryTeacherScorer schedule).State) :
    Avoids errors (change.updateScorer (HungryTeacherScorer schedule) assignments state) := by
  apply BaseScorer.avoids_updateScorer onlyAssertions
  · intro sec startRoomslot state
    exact avoids_ok _
  · intro sec state
    exact avoids_ok _
  · rfl
  · rfl

theorem RoomConsecutivityScorer.avoids (onlyAssertions : errors ⊆ assertions)
    (state : (RoomConsecutivityScorer schedule).State) :
    Avoids errors
      (change.updateScorer (RoomConsecutivityScorer schedule) assignments state) := by
  have boundaries : ∀ roomslots ignoreSection avoidDoublecount,
      Avoids errors (RoomConsecutivityScorer.completeBoundaries assignments roomslots
        ignoreSection avoidDoublecount) := by
    intro roomslots ignoreSection avoidDoublecount
    apply avoids_bind (avoids_first onlyAssertions _)
    intro firstRoomslot _
    exact avoids_bind (avoids_last onlyAssertions _) fun _ _ => avoids_ok _
  cases change with
  | schedule sec startRoomslot =>
      exact avoids_bind (boundaries _ _ _) fun _ _ => avoids_ok _
  | unschedule sec => exact avoids_bind (boundaries _ _ _) fun _ _ => avoids_ok _
  | move sec startRoomslot =>
      apply avoids_bind (boundaries _ _ _)
      intro removed _
      exact avoids_bind (boundaries _ _ _) fun _ _ => avoids_ok _
  | swap section1 section2 => exact avoids_ok _

namespace TeachersWhoLikeRunningScorer

theorem avoids_keyError (onlyAssertions : errors ⊆ assertions) {α : Type} :
    Avoids errors (.error .keyError : Raises α) :=
  (avoids_error_iff _).mpr
    (notMem_of_not_assertion onlyAssertions fun message same => by cases same)

theorem avoids_delete (onlyAssertions : errors ⊆ assertions) (roomslots : List AS_RoomSlot)
    (row : Nat → Option AS_RoomSlot) : Avoids errors (delete roomslots row) := by
  induction roomslots generalizing row with
  | nil => exact avoids_ok _
  | cons roomslot rest ih =>
      rw [delete]
      split
      · exact avoids_keyError onlyAssertions
      · exact ih _

theorem avoids_deleteAll (onlyAssertions : errors ⊆ assertions) (roomslots : List AS_RoomSlot)
    (teacherIds : List Nat) (times : Nat → Nat → Option AS_RoomSlot) :
    Avoids errors (deleteAll roomslots teacherIds times) := by
  induction teacherIds generalizing times with
  | nil => exact avoids_ok _
  | cons teacherId rest ih =>
      exact avoids_bind (avoids_delete onlyAssertions _ _) fun _ _ => ih _

theorem avoids_processSection (onlyAssertions : errors ⊆ assertions)
    (times : Nat → Nat → Option AS_RoomSlot) (sec : AS_ClassSection)
    (roomslots : List AS_RoomSlot) :
    Avoids errors (processSection schedule times sec roomslots) := by
  have indices : ∀ timeslot, Avoids errors (timeslotIndex schedule timeslot) := by
    intro timeslot
    rw [timeslotIndex]
    split
    · exact avoids_keyError onlyAssertions
    · exact avoids_ok _
  apply avoids_bind (avoids_first onlyAssertions _)
  intro startRoomslot _
  apply avoids_bind (indices _)
  intro startTimeslotIdx _
  apply avoids_bind (avoids_first onlyAssertions _)
  intro endRoomslot _
  exact avoids_bind (indices _) fun _ _ => avoids_ok _

theorem avoids (onlyAssertions : errors ⊆ assertions)
    (state : (TeachersWhoLikeRunningScorer schedule).State) :
    Avoids errors
      (change.updateScorer (TeachersWhoLikeRunningScorer schedule) assignments state) := by
  apply BaseScorer.avoids_updateScorer onlyAssertions
  · intro sec startRoomslot state
    exact avoids_bind (avoids_processSection onlyAssertions _ _ _) fun _ _ => avoids_ok _
  · intro sec state
    apply avoids_bind (avoids_processSection onlyAssertions _ _ _)
    intro runningCount _
    exact avoids_bind (avoids_deleteAll onlyAssertions _ _ _) fun _ _ => avoids_ok _
  · rfl
  · rfl

end TeachersWhoLikeRunningScorer

/-- The assertion of the counting scorers has no message. -/
theorem avoids_assert {condition : Prop} [Decidable condition] {message : String}
    (unlisted : PyError.assertion message ∉ errors) :
    Avoids errors (assert condition message) := by
  rw [assert]
  split
  · exact avoids_ok _
  · exact (avoids_error_iff _).mpr unlisted

theorem CountScorer.avoids_removeKeys (unlisted : PyError.assertion "" ∉ errors)
    (keys : List Nat) (state : CountState) :
    Avoids errors (CountScorer.removeKeys keys state) := by
  induction keys generalizing state with
  | nil => exact avoids_ok _
  | cons key rest ih => exact avoids_bind (avoids_assert unlisted) fun _ _ => ih _

def Change.Unschedules : Change → Prop
  | .unschedule _ => True
  | .schedule _ _ | .move _ _ | .swap _ _ => False

theorem CountScorer.avoids {keys : AS_ClassSection → List Nat} {allKeys : List Nat}
    (silent : change.Unschedules → PyError.assertion "" ∉ errors)
    (state : (CountScorer schedule keys allKeys).State) :
    Avoids errors (change.updateScorer (CountScorer schedule keys allKeys) assignments state) := by
  cases change with
  | schedule _ _ | move _ _ | swap _ _ => exact avoids_ok _
  | unschedule sec => exact CountScorer.avoids_removeKeys (silent trivial) _ _

theorem NumSectionsScorer.avoids
    (silent : change.Unschedules → PyError.assertion "" ∉ errors)
    (state : (NumSectionsScorer schedule).State) :
    Avoids errors (change.updateScorer (NumSectionsScorer schedule) assignments state) := by
  cases change with
  | schedule _ _ | move _ _ | swap _ _ => exact avoids_ok _
  | unschedule sec =>
      have decreases : ∀ scheduledSections : Nat, Avoids errors (do
          assert (scheduledSections > 0) ""
          return scheduledSections - 1) :=
        fun _ => avoids_bind (avoids_assert (silent trivial)) fun _ _ => avoids_ok _
      exact decreases state

/-- The hooks of all classes raise no assertions but the ones without a message, and
these only when a section is unscheduled. -/
theorem ScorerClass.avoids (scorerClass : ScorerClass) (onlyAssertions : errors ⊆ assertions)
    (silent : change.Unschedules → PyError.assertion "" ∉ errors)
    (state : (scorerClass.scorer schedule).State) :
    Avoids errors (change.updateScorer (scorerClass.scorer schedule) assignments state) := by
  cases scorerClass with
  | adminDistribution | categoryBalance | lunchStudentClassHours =>
      exact RoomslotScorer.avoids onlyAssertions state
  | hungryTeacher => exact HungryTeacherScorer.avoids onlyAssertions state
  | numSections => exact NumSectionsScorer.avoids silent state
  | numSubjects | numTeachers => exact CountScorer.avoids silent state
  | resourceCriteria _ | resourceMatching | resourceValueMatching | roomSizeMismatch
  | studentClassHours => exact RoomScorer.avoids onlyAssertions state
  | roomConsecutivity => exact RoomConsecutivityScorer.avoids onlyAssertions state
  | teachersWhoLikeRunning =>
      exact TeachersWhoLikeRunningScorer.avoids onlyAssertions state

theorem CompositeScorer.avoids (weights : List (ScorerClass × ℚ))
    (onlyAssertions : errors ⊆ assertions)
    (silent : change.Unschedules → PyError.assertion "" ∉ errors)
    (states : (compositeOf schedule weights).State) :
    Avoids errors (change.updateScorer (compositeOf schedule weights) assignments states) := by
  rw [CompositeScorer.updateScorer_eq]
  induction weights with
  | nil => exact avoids_ok _
  | cons entry rest ih =>
      obtain ⟨state, others⟩ := states
      apply avoids_bind (entry.1.avoids onlyAssertions silent state)
      intro updated _
      exact avoids_bind (ih others) fun _ _ => avoids_ok _

end Hooks

/-! ## The operations -/

section Operations

variable {scorer : Scorer schedule} {constraints : CompositeConstraint}
  {manipulator : ScheduleManipulator scorer} {change : Change}

theorem avoids_firstViolation {check : Constraint → CheckResult}
    (avoids : ∀ constraint, Avoids errors (check constraint)) (constraints : List Constraint) :
    Avoids errors (firstViolation check constraints) := by
  induction constraints with
  | nil => exact avoids_ok _
  | cons constraint rest ih =>
      apply avoids_bind (avoids constraint)
      intro violation _
      cases violation with
      | none => exact ih
      | some violation => exact avoids_ok _

theorem avoids_checkDays (onlyAssertions : errors ⊆ assertions) (roomslots : List AS_RoomSlot)
    (days : List ((Nat × Nat × Nat) × List AS_Timeslot)) :
    Avoids errors (LunchConstraint.checkDays roomslots days) := by
  induction days with
  | nil => exact avoids_ok _
  | cons entry rest ih =>
      have covers : Avoids errors (LunchConstraint.coversLunch entry.2 roomslots) := by
        apply avoids_bind (avoids_first onlyAssertions _)
        intro startLunch _
        apply avoids_bind (avoids_last onlyAssertions _)
        intro endLunch _
        apply avoids_bind (avoids_first onlyAssertions _)
        intro startSection _
        exact avoids_bind (avoids_last onlyAssertions _) fun _ _ => avoids_ok _
      apply avoids_bind covers
      intro isCovered _
      cases isCovered with
      | true => exact avoids_ok _
      | false => exact ih

theorem avoids_checkMoveTeachers (onlyAssertions : errors ⊆ assertions)
    (assignments : Assignments) (sec : AS_ClassSection) (startRoomslot : AS_RoomSlot)
    (teachers : List AS_Teacher) :
    Avoids errors (TeacherConcurrencyConstraint.checkMoveTeachers schedule assignments
      sec startRoomslot teachers) := by
  have removes : ∀ roomslots alreadyTeaching, Avoids errors
      (TeacherConcurrencyConstraint.removeTimes roomslots alreadyTeaching) := by
    intro roomslots
    induction roomslots with
    | nil =>
        intro alreadyTeaching
        exact avoids_ok _
    | cons roomslot rest ih =>
        intro alreadyTeaching
        rw [TeacherConcurrencyConstraint.removeTimes]
        split
        · exact ih _
        · exact TeachersWhoLikeRunningScorer.avoids_keyError onlyAssertions
  induction teachers with
  | nil => exact avoids_ok _
  | cons teacher rest ih =>
      apply avoids_bind (removes _ _)
      intro alreadyTeaching _
      split
      · exact avoids_ok _
      · exact ih

theorem avoids_refuses (onlyAssertions : errors ⊆ assertions) :
    Avoids errors (change.refuses constraints manipulator) := by
  have accepted : ∀ {check : CheckResult}, Avoids errors check →
      Avoids errors (do let violation ← check; return violation.isSome) :=
    fun avoids => avoids_bind avoids fun _ _ => avoids_ok _
  cases change with
  | schedule sec startRoomslot =>
      rw [Change.refuses, ScheduleManipulator.refusesSchedule]
      split
      · exact avoids_ok _
      · apply accepted
        apply avoids_firstViolation
        intro constraint
        cases constraint with
        | lunch => exact avoids_checkDays onlyAssertions _ _
        | _ => exact avoids_ok _
  | move sec startRoomslot =>
      rw [Change.refuses, ScheduleManipulator.refusesMove]
      split
      · exact avoids_ok _
      · apply accepted
        apply avoids_firstViolation
        intro constraint
        cases constraint with
        | lunch => exact avoids_checkDays onlyAssertions _ _
        | teacherConcurrency => exact avoids_checkMoveTeachers onlyAssertions _ _ _ _
        | _ => exact avoids_ok _
  | unschedule sec =>
      rw [Change.refuses, ScheduleManipulator.refusesUnschedule]
      split
      · exact avoids_ok _
      · apply accepted
        apply avoids_firstViolation
        intro constraint
        cases constraint with
        | _ => exact avoids_ok _
  | swap section1 section2 =>
      rw [Change.refuses, ScheduleManipulator.refusesSwap]
      split
      · exact avoids_ok _
      · split
        · exact avoids_ok _
        · apply accepted
          apply avoids_firstViolation
          intro constraint
          cases constraint with
          | resourceCriteria criteria =>
              apply avoids_bind (avoids_first onlyAssertions _)
              intro roomslot _
              exact (avoids_error_iff _).mpr
                (notMem_of_not_assertion onlyAssertions fun message same => by cases same)
          | _ => exact avoids_ok _

theorem avoids_record (onlyAssertions : errors ⊆ assertions) :
    Avoids errors (change.record assignments) := by
  cases change with
  | schedule sec startRoomslot => exact avoids_ok _
  | move sec startRoomslot | unschedule sec =>
      exact avoids_bind (avoids_first onlyAssertions _) fun _ _ => avoids_ok _
  | swap section1 section2 =>
      apply avoids_bind (avoids_first onlyAssertions _)
      intro original1 _
      exact avoids_bind (avoids_first onlyAssertions _) fun _ _ => avoids_ok _

/-- The assertions about assigned roomslots have a message. -/
theorem avoids_effect : Avoids {PyError.assertion ""} (change.effect assignments) := by
  have asserts : ∀ {condition : Prop} [Decidable condition] {message : String},
      message ≠ "" → Avoids {PyError.assertion ""} (assert condition message) := by
    intro condition _ message nonempty
    rw [assert]
    split
    · exact avoids_ok _
    · exact (avoids_error_iff _).mpr fun same => nonempty (PyError.assertion.inj same)
  have occupies : ∀ sec roomslots assignedSection, Avoids {PyError.assertion ""}
      (Assignments.occupy sec roomslots assignedSection) := by
    intro sec roomslots
    induction roomslots with
    | nil =>
        intro assignedSection
        exact avoids_ok _
    | cons roomslot rest ih =>
        intro assignedSection
        exact avoids_bind (asserts (by decide)) fun _ _ => ih _
  have assigns : ∀ (assignments : Assignments) sec roomslots,
      Avoids {PyError.assertion ""} (assignments.assignRoomslots sec roomslots) := by
    intro assignments sec roomslots
    apply avoids_bind (asserts (by decide))
    intro _ _
    exact avoids_bind (occupies _ _ _) fun _ _ => avoids_ok _
  cases change with
  | schedule sec startRoomslot | move sec startRoomslot => exact assigns _ _ _
  | unschedule sec => exact avoids_ok _
  | swap section1 section2 => exact avoids_bind (assigns _ _ _) fun _ _ => assigns _ _ _

/-- A manipulation raises what the scorer's hook and the assignments raise. -/
theorem avoids_perform (onlyAssertions : errors ⊆ assertions)
    (hookAvoids : ∀ action, change.record manipulator.assignments = .ok action →
      Avoids errors (change.updateScorer scorer manipulator.assignments
        manipulator.scorerState))
    (effectAvoids : ∀ action, change.record manipulator.assignments = .ok action →
      Avoids errors (change.effect manipulator.assignments)) :
    Avoids errors (change.perform manipulator) := by
  rw [Change.perform_eq]
  apply avoids_bind (avoids_record onlyAssertions)
  intro action recorded
  apply avoids_bind (hookAvoids action recorded)
  intro scorerState _
  exact avoids_bind (effectAvoids action recorded) fun _ _ => avoids_ok _

theorem avoids_call (onlyAssertions : errors ⊆ assertions) {force : Bool}
    (performAvoids : force = true ∨ change.refuses constraints manipulator = .ok false →
      Avoids errors (change.perform manipulator)) :
    Avoids errors (change.call constraints manipulator force) := by
  rw [Change.call_eq, ScheduleManipulator.unlessRefused]
  cases force with
  | true =>
      apply avoids_bind (avoids_ok _)
      intro refused returned
      cases returned
      exact avoids_bind (performAvoids (Or.inl rfl)) fun _ _ => avoids_ok _
  | false =>
      have refusedAvoids : Avoids errors (change.refuses constraints manipulator) :=
        avoids_refuses onlyAssertions
      apply avoids_bind refusedAvoids
      intro refused accepted
      cases refused with
      | true => exact avoids_ok _
      | false => exact avoids_bind (performAvoids (Or.inr accepted)) fun _ _ => avoids_ok _

theorem avoids_undo {history : List Action} {action : Action}
    (recorded : manipulator.history = history ++ [action])
    (revert : action.revert = some change)
    (performAvoids : Avoids errors
      (change.perform { manipulator with history := history })) :
    Avoids errors (manipulator.undo constraints) := by
  rw [ScheduleManipulator.undo_eq recorded revert]
  exact avoids_bind performAvoids fun _ _ => avoids_ok _

end Operations

end EspWebsite.Autoscheduler
