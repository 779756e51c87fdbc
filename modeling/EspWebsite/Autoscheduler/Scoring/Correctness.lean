import EspWebsite.Autoscheduler.Scoring.Assertions

/-!
# Incremental scores are fresh scores

In runs from a schedule without assignments, the score that is kept up to date by the
hooks is compared with the score of a fresh scorer.
-/

namespace EspWebsite.Autoscheduler

open Calendar Python

/-- The score kept up to date is the one that a fresh scorer computes. -/
def ScoresFresh {schedule : AS_Schedule} {scorer : Scorer schedule}
    (manipulator : ScheduleManipulator scorer) : Prop :=
  ∃ fresh, scorer.updateSchedule manipulator.assignments = .ok fresh ∧
    scorer.scoreSchedule manipulator.scorerState = scorer.scoreSchedule fresh

def scoreDiffers {schedule : AS_Schedule} {scorer : Scorer schedule}
    (manipulator : ScheduleManipulator scorer) : Bool :=
  resultOr false do
    let fresh ← scorer.updateSchedule manipulator.assignments
    let score ← scorer.scoreSchedule manipulator.scorerState
    let freshScore ← scorer.scoreSchedule fresh
    return score != freshScore

theorem not_scoresFresh {schedule : AS_Schedule} {scorer : Scorer schedule}
    {manipulator : ScheduleManipulator scorer} (differs : scoreDiffers manipulator = true) :
    ¬ ScoresFresh manipulator := by
  rintro ⟨fresh, built, same⟩
  rw [scoreDiffers, built, same] at differs
  cases score : scorer.scoreSchedule fresh with
  | error raised => simp [score, resultOr] at differs
  | ok value => simp [score, resultOr] at differs

/-! ## A small schedule -/

namespace SmallSchedule

instance neZero_hours : NeZero 24 := ⟨by decide⟩

def hour (clock : Fin 24) : DateTime where
  year := 2024
  month := 3
  day := 9
  hour := clock
  minute := 0
  second := 0
  microsecond := 0
  valid := ⟨by decide, by decide, by decide, clock.isLt, by decide, by decide, by decide⟩

def ten : AS_Timeslot := ⟨0, hour 10, hour 11, by decide +kernel⟩

def eleven : AS_Timeslot := ⟨1, hour 11, hour 12, by decide +kernel⟩

def twelve : AS_Timeslot := ⟨2, hour 12, hour 13, by decide +kernel⟩

def teacher : AS_Teacher := ⟨7, [ten, eleven, twelve], false⟩

def roomA : AS_Classroom := ⟨"A", 20, [ten, eleven, twelve], [], by decide⟩

def roomB : AS_Classroom := ⟨"B", 20, [ten, eleven, twelve], [], by decide⟩

theorem roomA_named : ([roomA].map AS_Classroom.name).Nodup := by decide

theorem roomA_slots : ∀ room ∈ [roomA], ∀ timeslot ∈ room.timeslots,
    timeslot ∈ [ten, eleven, twelve] := by
  decide

/-- A section of two hours. -/
def long : AS_ClassSection := ⟨1, 1, 2, [teacher], 10, 7, 12, 1, []⟩

/-- A section of one hour, by the same teacher. -/
def short : AS_ClassSection := ⟨2, 2, 1, [teacher], 10, 7, 12, 1, []⟩

/-- Two rooms, three hours without a break and one teacher of two sections. -/
def small : AS_Schedule where
  timeslots := [ten, eleven, twelve]
  classSections := [long, short]
  teachers := [teacher]
  classrooms := [roomA, roomB]
  lunchTimeslots := [((2024, 3, 9), [twelve])]
  timeslotIds := by decide
  sectionIds := by decide
  teacherIds := by decide
  classroomNames := by decide
  teachersRegistered := by decide
  teachersDistinct := by decide
  timeslotsRegistered := by decide

/-- Nothing is assigned. -/
def vacant : Assignments := ⟨fun _ => [], fun _ => none⟩

def required : CompositeConstraint := ⟨Constraint.required, fun _ isRequired => isRequired⟩

theorem unassigned_vacant : Unassigned small vacant := ⟨fun _ _ => rfl, fun _ _ => rfl⟩

/-- The short section is taught at twelve in the second room. -/
def shortAtTwelve : Change := .schedule short ⟨twelve, roomB⟩

/-- The long section is taught from ten on in the first room. -/
def longAtTen : Change := .schedule long ⟨ten, roomA⟩

theorem registered_shortAtTwelve : shortAtTwelve.Registered small :=
  ⟨by decide, by decide⟩

theorem registered_longAtTen : longAtTen.Registered small :=
  ⟨by decide, by decide⟩

theorem exists_run {scorer : Scorer small} {allowed : Operation → Prop}
    {operations : List Operation} (areAllowed : ∀ operation ∈ operations, allowed operation)
    (expected : ScheduleManipulator scorer → Bool)
    (returns : (do
      let manipulator ← ScheduleManipulator.create scorer vacant
      let result ← runAll required operations manipulator
      return expected result) = .ok true) :
    ∃ manipulator result, ScheduleManipulator.create scorer vacant = .ok manipulator ∧
      Run required allowed manipulator result ∧ expected result = true := by
  obtain ⟨manipulator, created, ran⟩ := bind_eq_ok.mp returns
  obtain ⟨result, ranAll, asExpected⟩ := bind_eq_ok.mp ran
  exact ⟨manipulator, result, created, run_of_runAll areAllowed ranAll,
    Except.ok.inj asExpected⟩

end SmallSchedule

open SmallSchedule

section Scores

variable {schedule : AS_Schedule} {assignments : Assignments}
  {constraints : CompositeConstraint}

/-- Whatever operations are called, the boundaries that `RoomConsecutivityScorer` counts
are the ones of the schedule. -/
theorem roomConsecutivity_scoresFresh
    {manipulator result : ScheduleManipulator (RoomConsecutivityScorer schedule)}
    (unassigned : Unassigned schedule assignments)
    (created :
      ScheduleManipulator.create (RoomConsecutivityScorer schedule) assignments =
        .ok manipulator)
    (run : Run constraints (Operation.Registered schedule) manipulator result) :
    ScoresFresh result := by
  obtain ⟨built, sameAssignments, -⟩ := create_eq_ok.mp created
  rw [← sameAssignments] at built
  have builtAfter := (unconditional_run (RoomConsecutivityScorer.unconditional schedule)
    (unassigned.orderly created _) built run).2
  exact ⟨_, builtAfter, rfl⟩

/-- The theorem at a run that schedules both sections and undoes the second call. -/
theorem roomConsecutivity_scoresFresh_small :
    ∃ manipulator result : ScheduleManipulator (RoomConsecutivityScorer small),
      Run required (Operation.Registered small) manipulator result ∧
        result.history.length = 1 ∧ ScoresFresh result := by
  have registered : ∀ operation ∈ [Operation.call shortAtTwelve false,
      .call longAtTen false, .undo], operation.Registered small := by
    intro operation listed
    simp only [List.mem_cons, List.not_mem_nil, or_false] at listed
    rcases listed with rfl | rfl | rfl
    · exact registered_shortAtTwelve
    · exact registered_longAtTen
    · trivial
  obtain ⟨manipulator, result, created, run, length⟩ :=
    @exists_run (RoomConsecutivityScorer small) _ _ registered
      (fun result => result.history.length == 1) (by decide +kernel)
  exact ⟨manipulator, result, run, by simpa using length,
    roomConsecutivity_scoresFresh unassigned_vacant created run⟩

/-- Along a run of balanced changes the score of running teachers is the one of the
schedule. -/
theorem teachersWhoLikeRunning_scoresFresh
    {manipulator result : ScheduleManipulator (TeachersWhoLikeRunningScorer schedule)}
    (checked : checkTimeslotConsistency schedule = .ok ())
    (unassigned : Unassigned schedule assignments)
    (created : ScheduleManipulator.create (TeachersWhoLikeRunningScorer schedule) assignments =
      .ok manipulator)
    (run : Relation.ReflTransGen
      (TeachersWhoLikeRunningScorer.BalancedStep constraints) manipulator result) :
    ScoresFresh result := by
  obtain ⟨built, sameAssignments, empty⟩ := create_eq_ok.mp created
  rw [← sameAssignments] at built
  have undoable : Undoable schedule manipulator.assignments manipulator.history := by
    rw [sameAssignments, empty]
    exact .nil unassigned.sound
  have tidy : Tidy schedule manipulator.assignments := by
    rw [sameAssignments]
    exact unassigned.tidy
  have builtAfter :=
    (TeachersWhoLikeRunningScorer.built_of_balanced checked undoable tidy built run).2.2
  exact ⟨_, builtAfter, rfl⟩

/-- A teacher goes from ten to twelve in one room straight to another one.  The run is
counted when a scorer is built, but not when the section before it is scheduled last. -/
theorem teachersWhoLikeRunning_drifts :
    checkTimeslotConsistency small = .ok () ∧ Unassigned small vacant ∧
      ∃ manipulator result : ScheduleManipulator (TeachersWhoLikeRunningScorer small),
        ScheduleManipulator.create (TeachersWhoLikeRunningScorer small) vacant =
            .ok manipulator ∧
          Run required (fun operation => operation.Registered small ∧ operation.NonForced)
            manipulator result ∧
          ¬ ScoresFresh result := by
  have allowed : ∀ operation ∈ [Operation.call shortAtTwelve false, .call longAtTen false],
      operation.Registered small ∧ operation.NonForced := by
    intro operation listed
    simp only [List.mem_cons, List.not_mem_nil, or_false] at listed
    rcases listed with rfl | rfl
    · exact ⟨registered_shortAtTwelve, rfl⟩
    · exact ⟨registered_longAtTen, rfl⟩
  obtain ⟨manipulator, result, created, run, differs⟩ :=
    @exists_run (TeachersWhoLikeRunningScorer small) _ _ allowed scoreDiffers (by decide +kernel)
  exact ⟨by decide, unassigned_vacant, manipulator, result, created, run,
    not_scoresFresh differs⟩

/-- The theorem at a run that schedules the long section, after which no teacher runs. -/
theorem teachersWhoLikeRunning_scoresFresh_small :
    ∃ manipulator result : ScheduleManipulator (TeachersWhoLikeRunningScorer small),
      Relation.ReflTransGen (TeachersWhoLikeRunningScorer.BalancedStep required) manipulator
        result ∧ result.history.length = 1 ∧ ScoresFresh result := by
  have returns : (do
      let manipulator ←
        ScheduleManipulator.create (TeachersWhoLikeRunningScorer small) vacant
      let (answer, result) ← (Operation.call longAtTen false).run required manipulator
      return answer && result.history.length == 1) = .ok true := by decide +kernel
  obtain ⟨manipulator, created, performed⟩ := bind_eq_ok.mp returns
  obtain ⟨⟨answer, result⟩, called, asExpected⟩ := bind_eq_ok.mp performed
  have length : result.history.length = 1 := by
    have holds := Except.ok.inj asExpected
    simp only [Bool.and_eq_true, beq_iff_eq] at holds
    exact holds.2
  have step : TeachersWhoLikeRunningScorer.BalancedStep required manipulator result := by
    refine ⟨.call longAtTen false, answer, ⟨registered_longAtTen, Or.inl rfl⟩, called, ?_⟩
    intro _ change made
    cases made
    rw [(create_eq_ok.mp created).2.1]
    unfold TeachersWhoLikeRunningScorer.Balanced
    decide +kernel
  exact ⟨manipulator, result, .single step, length,
    teachersWhoLikeRunning_scoresFresh (by decide) unassigned_vacant created
      (.single step)⟩

/-- Without forced calls the score of hungry teachers is the one of the schedule. -/
theorem hungryTeacher_scoresFresh
    {manipulator result : ScheduleManipulator (HungryTeacherScorer schedule)}
    (unassigned : Unassigned schedule assignments)
    (created : ScheduleManipulator.create (HungryTeacherScorer schedule) assignments =
      .ok manipulator)
    (run : Run constraints
      (fun operation => operation.Registered schedule ∧ operation.NonForced)
      manipulator result) :
    ScoresFresh result :=
  ⟨_, (HungryTeacherScorer.follows schedule).of_unassigned unassigned created run, rfl⟩

/-- The theorem at a run that takes the teacher's lunch, gives it back and takes it
again. -/
theorem hungryTeacher_scoresFresh_small :
    ∃ manipulator result : ScheduleManipulator (HungryTeacherScorer small),
      Run required (fun operation => operation.Registered small ∧ operation.NonForced)
        manipulator result ∧ result.history.length = 2 ∧ ScoresFresh result := by
  have allowed : ∀ operation ∈ [Operation.call shortAtTwelve false, .undo,
      .call shortAtTwelve false, .call longAtTen false],
      operation.Registered small ∧ operation.NonForced := by
    intro operation listed
    simp only [List.mem_cons, List.not_mem_nil, or_false] at listed
    rcases listed with rfl | rfl | rfl | rfl
    · exact ⟨registered_shortAtTwelve, rfl⟩
    · exact ⟨trivial, trivial⟩
    · exact ⟨registered_shortAtTwelve, rfl⟩
    · exact ⟨registered_longAtTen, rfl⟩
  obtain ⟨manipulator, result, created, run, length⟩ :=
    @exists_run (HungryTeacherScorer small) _ _ allowed
      (fun result => result.history.length == 2) (by decide +kernel)
  exact ⟨manipulator, result, run, by simpa using length,
    hungryTeacher_scoresFresh unassigned_vacant created run⟩

/-! ## Counting and additive scorers -/

/-- The assertion of the counting scorers, which has no message. -/
def countAssertion : Set PyError := {.assertion ""}

theorem countAssertion_subset : countAssertion ⊆ assertions := by
  rintro raised rfl
  exact ⟨"", rfl⟩

theorem avoids_of_built {scorerClass : ScorerClass} (additive : scorerClass.isAdditive = true)
    {manipulator : ScheduleManipulator (scorerClass.scorer schedule)}
    (placed : WellPlaced schedule manipulator.assignments)
    (built : (scorerClass.scorer schedule).updateSchedule manipulator.assignments =
      .ok manipulator.scorerState)
    {change : Change} (registered : change.Registered schedule) :
    Avoids countAssertion (change.perform manipulator) := by
  refine avoids_perform countAssertion_subset ?_ fun _ _ => avoids_effect
  intro action recorded
  by_cases unschedules : change.Unschedules
  · cases change with
    | schedule _ _ | move _ _ | swap _ _ => cases unschedules
    | unschedule sec =>
        -- A record is made of a scheduled section only, so that the hook returns.
        have possible : (Change.unschedule sec).Possible manipulator.assignments := by
          intro unscheduled
          rw [Change.record, unscheduled] at recorded
          cases recorded
        obtain ⟨updated, hook, -⟩ := scorerClass.incremental additive _ _ _ placed registered
          possible trivial built
        rw [hook]
        exact avoids_ok _
  · exact scorerClass.avoids countAssertion_subset
      (fun isUnschedule => absurd isUnschedule unschedules) _

/-- Unless sections of different durations are swapped by force, the scores of the
counting and additive scorers are the ones of the schedule, and no operation that follows
makes a count negative. -/
theorem additive_scoresFresh (scorerClass : ScorerClass)
    (additive : scorerClass.isAdditive = true)
    {manipulator result : ScheduleManipulator (scorerClass.scorer schedule)}
    (unassigned : Unassigned schedule assignments)
    (created : ScheduleManipulator.create (scorerClass.scorer schedule) assignments =
      .ok manipulator)
    (run : Run constraints
      (fun operation => operation.Registered schedule ∧ operation.Proper)
      manipulator result) :
    ScoresFresh result ∧ ∀ operation : Operation, operation.Registered schedule →
      Avoids countAssertion (operation.run constraints result) := by
  obtain ⟨orderly, tidy, built⟩ :=
    incremental_of_unassigned (scorerClass.incremental additive) unassigned created run
  refine ⟨⟨_, built, rfl⟩, ?_⟩
  intro operation registered
  cases operation with
  | call change force =>
      exact avoids_call countAssertion_subset fun _ =>
        avoids_of_built additive tidy.placed built registered
  | undo =>
      rw [Operation.run]
      rcases List.eq_nil_or_concat result.history with empty | ⟨history, action, recorded⟩
      · rw [ScheduleManipulator.undo_nil empty]
        exact avoids_ok _
      · rw [List.concat_eq_append] at recorded
        obtain ⟨back, revert, backRegistered, -⟩ :=
          orderly.reverts action (by simp [recorded])
        have placed : WellPlaced schedule
            ({ result with history := history } :
              ScheduleManipulator (scorerClass.scorer schedule)).assignments := tidy.placed
        exact avoids_undo recorded revert (avoids_of_built additive placed built backRegistered)

/-- Swapping by force sections of different durations spoils the score of lunch hours: the
hook takes the roomslots by duration, the swap the ones of the other section. -/
theorem additive_drifts :
    Unassigned small vacant ∧
      ∃ manipulator result : ScheduleManipulator
          (ScorerClass.lunchStudentClassHours.scorer small),
        ScheduleManipulator.create (ScorerClass.lunchStudentClassHours.scorer small) vacant =
            .ok manipulator ∧
          Run required (Operation.Registered small) manipulator result ∧
          ¬ ScoresFresh result := by
  have registered : ∀ operation ∈ [Operation.call shortAtTwelve false,
      .call longAtTen false, .call (.swap long short) true], operation.Registered small := by
    intro operation listed
    simp only [List.mem_cons, List.not_mem_nil, or_false] at listed
    rcases listed with rfl | rfl | rfl
    · exact registered_shortAtTwelve
    · exact registered_longAtTen
    · exact ⟨registered_longAtTen.1, registered_shortAtTwelve.1⟩
  obtain ⟨manipulator, result, created, run, differs⟩ :=
    @exists_run (ScorerClass.lunchStudentClassHours.scorer small) _ _ registered scoreDiffers
      (by decide +kernel)
  exact ⟨unassigned_vacant, manipulator, result, created, run, not_scoresFresh differs⟩

/-- The theorem for the number of subjects, at a run that schedules both sections,
unschedules one and undoes that. -/
theorem additive_scoresFresh_small :
    ∃ manipulator result : ScheduleManipulator (ScorerClass.numSubjects.scorer small),
      Run required (fun operation => operation.Registered small ∧ operation.Proper)
        manipulator result ∧ result.history.length = 2 ∧
      (ScoresFresh result ∧ ∀ operation : Operation, operation.Registered small →
        Avoids countAssertion (operation.run required result)) := by
  have allowed : ∀ operation ∈ [Operation.call shortAtTwelve false,
      .call longAtTen false, .call (.unschedule short) false, .undo],
      operation.Registered small ∧ operation.Proper := by
    intro operation listed
    simp only [List.mem_cons, List.not_mem_nil, or_false] at listed
    rcases listed with rfl | rfl | rfl | rfl
    · exact ⟨registered_shortAtTwelve, fun _ => trivial⟩
    · exact ⟨registered_longAtTen, fun _ => trivial⟩
    · exact ⟨registered_shortAtTwelve.1, fun _ => trivial⟩
    · exact ⟨trivial, trivial⟩
  obtain ⟨manipulator, result, created, run, length⟩ :=
    @exists_run (ScorerClass.numSubjects.scorer small) _ _ allowed
      (fun result => result.history.length == 2) (by decide +kernel)
  exact ⟨manipulator, result, run, by simpa using length,
    additive_scoresFresh .numSubjects rfl unassigned_vacant created run⟩

end Scores

end EspWebsite.Autoscheduler
