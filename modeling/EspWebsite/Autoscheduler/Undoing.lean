import EspWebsite.Autoscheduler.Preservation
import EspWebsite.Autoscheduler.Scoring.RunningKeys

/-!
# Undoing the last action

Undoing takes roomslots by the duration of a section.  A schedule that passes all checks
may have been loaded with sections that have more roomslots than that, and then undoing
loses some of them.  Here is exactly when undoing a successful call restores the schedule
and the history.
-/

namespace EspWebsite.Autoscheduler

open Python SmallSchedule

/-! ## When the hooks return -/

section Hooks

variable {schedule : AS_Schedule} {scorer : Scorer schedule} {assignments : Assignments}
  {change back : Change}

/-- A scorer with the default hooks for moves and swaps returns if its other two hooks do,
the one for unscheduling at least when the section is scheduled. -/
theorem BaseScorer.updateScorer_returns (possible : change.Possible assignments)
    (scheduleReturns : ∀ sec startRoomslot state, ∃ updated,
      scorer.updateScheduleSection assignments sec startRoomslot state = .ok updated)
    (unscheduleReturns : ∀ sec state,
      assignments.assignedRoomslots sec ≠ [] → ∃ updated,
        scorer.updateUnscheduleSection assignments sec state = .ok updated)
    (moved : scorer.updateMoveSection = updateMoveSection scorer.updateScheduleSection
      scorer.updateUnscheduleSection)
    (swapped : scorer.updateSwapSections = updateSwapSections scorer.updateScheduleSection
      scorer.updateUnscheduleSection)
    (state : scorer.State) :
    ∃ updated, change.updateScorer scorer assignments state = .ok updated := by
  have moves : ∀ sec startRoomslot state,
      assignments.assignedRoomslots sec ≠ [] → ∃ updated,
        updateMoveSection scorer.updateScheduleSection scorer.updateUnscheduleSection
          assignments sec startRoomslot state = .ok updated := by
    intro sec startRoomslot state scheduled
    obtain ⟨middle, unscheduled⟩ := unscheduleReturns sec state scheduled
    obtain ⟨updated, returned⟩ := scheduleReturns sec startRoomslot middle
    exact ⟨updated, bind_eq_ok.mpr ⟨middle, unscheduled, returned⟩⟩
  cases change with
  | schedule sec startRoomslot => exact scheduleReturns sec startRoomslot state
  | unschedule sec => exact unscheduleReturns sec state possible
  | move sec startRoomslot =>
      rw [Change.updateScorer, moved]
      exact moves sec startRoomslot state possible.1
  | swap section1 section2 =>
      obtain ⟨held1, held2, -⟩ := possible
      obtain ⟨start1, found1⟩ := Change.first_ok_iff.mpr held1
      obtain ⟨start2, found2⟩ := Change.first_ok_iff.mpr held2
      obtain ⟨middle, moved1⟩ := moves section1 start2 state held1
      obtain ⟨updated, moved2⟩ := moves section2 start1 middle held2
      refine ⟨updated, ?_⟩
      rw [Change.updateScorer, swapped, updateSwapSections, found2, ok_bind, moved1, ok_bind,
        found1, ok_bind, moved2]

namespace ScorerClass

variable {scorerClass : ScorerClass} {state updated : (scorerClass.scorer schedule).State}

/-- What a run keeps of the state of a scorer: counts that are asserted to be positive are
those of the schedule, and no key of the running teachers is left over. -/
def Kept (scorerClass : ScorerClass) (assignments : Assignments)
    (state : (scorerClass.scorer schedule).State) : Prop :=
  match scorerClass, state with
  | teachersWhoLikeRunning, state =>
      TeachersWhoLikeRunningScorer.Sparse schedule assignments
        (TeachersWhoLikeRunningScorer.State.timesTeacherIsTeaching state)
  | adminDistribution, _ | categoryBalance, _ | lunchStudentClassHours, _ | hungryTeacher, _
  | resourceCriteria _, _ | resourceMatching, _ | resourceValueMatching, _
  | roomSizeMismatch, _ | studentClassHours, _ => True
  | scorerClass, state =>
      (scorerClass.scorer schedule).updateSchedule assignments = .ok state

theorem updateScorer_returns (notRunning : scorerClass ≠ teachersWhoLikeRunning)
    (placed : WellPlaced schedule assignments) (registered : change.Registered schedule)
    (possible : change.Possible assignments) (kept : scorerClass.Kept assignments state) :
    ∃ updated, change.updateScorer (scorerClass.scorer schedule) assignments state =
        .ok updated ∧ scorerClass.Kept (change.apply assignments) updated := by
  cases scorerClass with
  | teachersWhoLikeRunning => exact absurd rfl notRunning
  | numSections =>
      exact NumSectionsScorer.unconditional _ _ _ placed registered possible kept
  | numSubjects =>
      exact NumSubjectsScorer.unconditional _ _ _ placed registered possible kept
  | numTeachers =>
      exact NumTeachersScorer.unconditional _ _ _ placed registered possible kept
  | roomConsecutivity =>
      exact RoomConsecutivityScorer.unconditional schedule _ _ _ placed registered possible kept
  | adminDistribution | categoryBalance | lunchStudentClassHours | hungryTeacher =>
      obtain ⟨updated, returned⟩ := BaseScorer.updateScorer_returns possible
        (fun _ _ _ => ⟨_, rfl⟩) (fun _ _ _ => ⟨_, rfl⟩) rfl rfl state
      exact ⟨updated, returned, trivial⟩
  | resourceCriteria _ | resourceMatching | resourceValueMatching | roomSizeMismatch
  | studentClassHours =>
      obtain ⟨updated, returned⟩ := BaseScorer.updateScorer_returns possible
        (fun _ _ _ => ⟨_, rfl⟩)
        (fun sec total scheduled => by
          obtain ⟨first, found⟩ := Change.first_ok_iff.mpr scheduled
          exact ⟨_, bind_eq_ok.mpr ⟨first, found, rfl⟩⟩)
        rfl rfl state
      exact ⟨updated, returned, trivial⟩

theorem kept_of_built (sound : Sound schedule assignments)
    (built : (scorerClass.scorer schedule).updateSchedule assignments = .ok state) :
    scorerClass.Kept assignments state := by
  cases scorerClass with
  | teachersWhoLikeRunning =>
      cases Except.ok.inj built
      intro teacherId timeslotId found
      obtain ⟨roomslot, entered⟩ := Option.ne_none_iff_exists'.mp found
      obtain ⟨sec, listed, enters⟩ :=
        (TeachersWhoLikeRunningScorer.timesTeaching_eq_some sound.placed
          sound.teachersApart).mp entered
      exact ⟨sec, listed, roomslot, enters⟩
  | numSections | numSubjects | numTeachers | roomConsecutivity => exact built
  | adminDistribution | categoryBalance | lunchStudentClassHours | hungryTeacher
  | resourceCriteria _ | resourceMatching | resourceValueMatching | roomSizeMismatch
  | studentClassHours => trivial

theorem running_eq_ok (placed : WellPlaced schedule assignments)
    (registered : change.Registered schedule) (possible : change.Possible assignments)
    {state updated : TeachersWhoLikeRunningScorer.State}
    (hook : change.updateScorer (TeachersWhoLikeRunningScorer schedule) assignments state =
      .ok updated) :
    updated.timesTeacherIsTeaching = TeachersWhoLikeRunningScorer.changedTimes assignments
      state.timesTeacherIsTeaching change :=
  ((TeachersWhoLikeRunningScorer.updateScorer_eq_ok placed registered possible).mp
    ⟨updated, hook, rfl⟩).2

theorem kept_of_hook (sound : Sound schedule assignments)
    (registered : change.Registered schedule) (possible : change.Possible assignments)
    (sameDuration : change.SameDuration) (kept : scorerClass.Kept assignments state)
    (hook : change.updateScorer (scorerClass.scorer schedule) assignments state =
      .ok updated) :
    scorerClass.Kept (change.apply assignments) updated := by
  by_cases running : scorerClass = teachersWhoLikeRunning
  · subst running
    have sparse : TeachersWhoLikeRunningScorer.Sparse schedule assignments
        (TeachersWhoLikeRunningScorer.State.timesTeacherIsTeaching state) := kept
    have sparseAfter := sparse.apply sound registered possible sameDuration
    rw [← running_eq_ok sound.placed registered possible hook] at sparseAfter
    exact sparseAfter
  · obtain ⟨other, returned, keptAfter⟩ :=
      updateScorer_returns running sound.placed registered possible kept
    rw [hook, Except.ok.injEq] at returned
    exact returned ▸ keptAfter

theorem back_returns_iff (sound : Sound schedule assignments)
    (registered : change.Registered schedule) (possible : change.Possible assignments)
    (sane : change.IsSwap → Admissible schedule assignments change)
    (inverse : Change.Inverse assignments change back)
    (backPossible : back.Possible (change.apply assignments))
    (kept : scorerClass.Kept assignments state)
    (hook : change.updateScorer (scorerClass.scorer schedule) assignments state =
      .ok updated) :
    (∃ restored, back.updateScorer (scorerClass.scorer schedule) (change.apply assignments)
        updated = .ok restored) ↔
      (scorerClass = teachersWhoLikeRunning → change.Separable assignments) := by
  have placedAfter := Change.wellPlaced_apply sound.placed registered possible
  have backRegistered := Change.registered_inverse sound.placed registered inverse
  by_cases running : scorerClass = teachersWhoLikeRunning
  · subst running
    have sparse : TeachersWhoLikeRunningScorer.Sparse schedule assignments
        (TeachersWhoLikeRunningScorer.State.timesTeacherIsTeaching state) := kept
    have complete := TeachersWhoLikeRunningScorer.complete_inverse sparse sound registered
      possible sane inverse
    rw [← running_eq_ok sound.placed registered possible hook] at complete
    simp only [true_imp_iff, ← complete]
    constructor
    · intro returned
      obtain ⟨restored, backHook⟩ := returned
      exact ((TeachersWhoLikeRunningScorer.updateScorer_eq_ok placedAfter backRegistered
        backPossible).mp ⟨restored, backHook, rfl⟩).1
    · intro isComplete
      obtain ⟨restored, backHook, -⟩ :=
        (TeachersWhoLikeRunningScorer.updateScorer_eq_ok placedAfter backRegistered
          backPossible).mpr ⟨isComplete, rfl⟩
      exact ⟨restored, backHook⟩
  · obtain ⟨other, returned, keptAfter⟩ :=
      updateScorer_returns running sound.placed registered possible kept
    rw [hook, Except.ok.injEq] at returned
    subst returned
    obtain ⟨restored, backHook, -⟩ :=
      updateScorer_returns running placedAfter backRegistered backPossible keptAfter
    exact iff_of_true ⟨restored, backHook⟩ fun same => absurd same running

end ScorerClass

namespace CompositeScorer

variable {weights : List (ScorerClass × ℚ)}
  {states updated : State (scorersAndWeights schedule weights)}

/-- All components have what runs keep. -/
def Kept (assignments : Assignments) : (weights : List (ScorerClass × ℚ)) →
    State (scorersAndWeights schedule weights) → Prop
  | [], () => True
  | (scorerClass, _) :: rest, (state, states) =>
      scorerClass.Kept assignments state ∧ Kept assignments rest states

theorem kept_of_built (sound : Sound schedule assignments)
    (built : updateSchedule assignments (scorersAndWeights schedule weights) = .ok states) :
    Kept assignments weights states := by
  induction weights with
  | nil => trivial
  | cons entry rest ih =>
      obtain ⟨state, stateBuilt, later⟩ := bind_eq_ok.mp built
      obtain ⟨others, othersBuilt, same⟩ := bind_eq_ok.mp later
      cases same
      exact ⟨ScorerClass.kept_of_built sound stateBuilt, ih othersBuilt⟩

theorem kept_of_hook (sound : Sound schedule assignments)
    (registered : change.Registered schedule) (possible : change.Possible assignments)
    (sameDuration : change.SameDuration) (kept : Kept assignments weights states)
    (hook : change.updateScorer (compositeOf schedule weights) assignments states =
      .ok updated) :
    Kept (change.apply assignments) weights updated := by
  rw [updateScorer_eq] at hook
  induction weights with
  | nil => trivial
  | cons entry rest ih =>
      obtain ⟨stateUpdated, stateHook, later⟩ := bind_eq_ok.mp hook
      obtain ⟨othersUpdated, othersHook, same⟩ := bind_eq_ok.mp later
      cases same
      exact ⟨ScorerClass.kept_of_hook sound registered possible sameDuration kept.1 stateHook,
        ih kept.2 othersHook⟩

theorem back_returns_iff (sound : Sound schedule assignments)
    (registered : change.Registered schedule) (possible : change.Possible assignments)
    (sane : change.IsSwap → Admissible schedule assignments change)
    (inverse : Change.Inverse assignments change back)
    (backPossible : back.Possible (change.apply assignments))
    (kept : Kept assignments weights states)
    (hook : change.updateScorer (compositeOf schedule weights) assignments states =
      .ok updated) :
    (∃ restored, back.updateScorer (compositeOf schedule weights) (change.apply assignments)
        updated = .ok restored) ↔
      (ScorerClass.teachersWhoLikeRunning ∈ weights.map Prod.fst →
        change.Separable assignments) := by
  rw [updateScorer_eq] at hook ⊢
  induction weights with
  | nil => exact iff_of_true ⟨(), rfl⟩ fun member => absurd member List.not_mem_nil
  | cons entry rest ih =>
      obtain ⟨stateUpdated, stateHook, later⟩ := bind_eq_ok.mp hook
      obtain ⟨othersUpdated, othersHook, same⟩ := bind_eq_ok.mp later
      cases same
      have own := ScorerClass.back_returns_iff sound registered possible sane inverse
        backPossible kept.1 stateHook
      have others := ih kept.2 othersHook
      have split : (∃ restored, forScorers
            (fun scorer => back.updateScorer scorer (change.apply assignments))
            (scorersAndWeights schedule (entry :: rest)) (stateUpdated, othersUpdated) =
              .ok restored) ↔
          (∃ restored, back.updateScorer (entry.1.scorer schedule) (change.apply assignments)
              stateUpdated = .ok restored) ∧
            ∃ restored, forScorers
              (fun scorer => back.updateScorer scorer (change.apply assignments))
              (scorersAndWeights schedule rest) othersUpdated = .ok restored := by
        constructor
        · intro returned
          obtain ⟨_, both⟩ := returned
          obtain ⟨state, stateBack, laterBack⟩ := bind_eq_ok.mp both
          obtain ⟨states, othersBack, -⟩ := bind_eq_ok.mp laterBack
          exact ⟨⟨state, stateBack⟩, states, othersBack⟩
        · intro returned
          obtain ⟨⟨state, stateBack⟩, states, othersBack⟩ := returned
          exact ⟨(state, states), bind_eq_ok.mpr ⟨state, stateBack,
            bind_eq_ok.mpr ⟨states, othersBack, rfl⟩⟩⟩
      refine (split.trans (and_congr own others)).trans ?_
      rw [List.map_cons, List.mem_cons, or_imp]
      exact and_congr (imp_congr_left eq_comm) Iff.rfl

end CompositeScorer

end Hooks

/-! ## Restoring the schedule -/

section Restoring

variable {schedule : AS_Schedule} {assignments : Assignments}
  {constraints : CompositeConstraint} {weights : List (ScorerClass × ℚ)}
  {manipulator result start : ScheduleManipulator (compositeOf schedule weights)}
  {change : Change}

/-- Undoing restores the roomslots of sections, the sections of roomslots and the
history. -/
def UndoRestores (constraints : CompositeConstraint)
    (manipulator result : ScheduleManipulator (compositeOf schedule weights)) : Prop :=
  ∃ restored, result.undo constraints = .ok (true, restored) ∧
    restored.assignments = manipulator.assignments ∧
    restored.history = manipulator.history

/-- Where undoing a change restores the schedule: a section that is moved or unscheduled
has the roomslots that its duration takes, and so has, if runs of teachers are scored,
each section that is swapped with one that has teachers. -/
def Change.Restorable (weights : List (ScorerClass × ℚ)) (assignments : Assignments)
    (change : Change) : Prop :=
  change.Retraceable assignments ∧
    (ScorerClass.teachersWhoLikeRunning ∈ weights.map Prod.fst →
      change.Separable assignments)

theorem Change.retraceable_of_restored {back : Change}
    (inverse : Change.Inverse assignments change back)
    (restored : back.apply (change.apply assignments) = assignments) :
    change.Retraceable assignments := by
  cases inverse with
  | schedule | swap => trivial
  | @move sec startRoomslot prevStartRoomslot rest held =>
      intro first others slots
      rw [held] at slots
      cases slots
      have taken := congrArg (fun after => after.assignedRoomslots sec) restored
      simp only [Change.assigned_apply_move] at taken
      rw [taken, held]
  | @unschedule sec prevStartRoomslot rest held =>
      intro first others slots
      rw [held] at slots
      cases slots
      have taken := congrArg (fun after => after.assignedRoomslots sec) restored
      simp only [Change.assigned_apply_schedule] at taken
      rw [taken, held]

theorem kept_run
    (undoable : Undoable schedule start.assignments start.history)
    (kept : CompositeScorer.Kept start.assignments weights start.scorerState)
    (run : Run constraints
      (fun operation => operation.Registered schedule ∧ operation.NonForced)
      start manipulator) :
    CompositeScorer.Kept manipulator.assignments weights manipulator.scorerState := by
  induction run with
  | refl => exact kept
  | tail steps step ih =>
      have undoableBefore := undoable_run undoable steps
      rcases makes_of_step undoableBefore step with same | ⟨-, change, makes⟩
      · subst same
        exact ih
      · rw [makes.assignments]
        exact CompositeScorer.kept_of_hook undoableBefore.sound makes.admissible.registered
          makes.admissible.possible makes.admissible.exchangeable.sameDuration ih makes.updated

/-- After a successful call in any run on a checked schedule, undoing restores the
schedule and the history exactly where the change is restorable.  Only swaps have to be
made without force. -/
theorem undo_restores_iff (passes : PassesChecks schedule assignments)
    (created : ScheduleManipulator.create (compositeOf schedule weights) assignments =
      .ok start)
    (run : Run constraints
      (fun operation => operation.Registered schedule ∧ operation.NonForced)
      start manipulator)
    {force : Bool} (registered : change.Registered schedule)
    (nonForced : change.IsSwap → force = false)
    (returned : change.call constraints manipulator force = .ok (true, result)) :
    UndoRestores constraints manipulator result ↔
      change.Restorable weights manipulator.assignments := by
  obtain ⟨built, sameAssignments, empty⟩ := create_eq_ok.mp created
  have undoable : Undoable schedule start.assignments start.history := by
    rw [sameAssignments, empty]
    exact .nil passes.sound
  have keptStart : CompositeScorer.Kept start.assignments weights start.scorerState := by
    rw [sameAssignments]
    exact CompositeScorer.kept_of_built passes.sound built
  have kept := kept_run undoable keptStart run
  have sound := (undoable_run undoable run).sound
  have performed := (Change.call_eq_true.mp returned).2
  obtain ⟨possible, action, scorerState, recorded, hook, rfl⟩ :=
    (Change.perform_eq_ok sound.placed registered).mp performed
  have sane : change.IsSwap → Admissible schedule manipulator.assignments change := by
    intro isSwap
    rw [nonForced isSwap] at returned
    exact (admissible_of_call sound registered returned).1
  obtain ⟨back, revert, inverse⟩ := Change.inverse_of_record recorded
  have placedAfter := Change.wellPlaced_apply sound.placed registered possible
  have backRegistered := Change.registered_inverse sound.placed registered inverse
  obtain ⟨backPossible, -⟩ := Change.inverse_reduced sound.placed placedAfter registered
    possible inverse sound.retakes (.refl _)
  have hooks := CompositeScorer.back_returns_iff sound registered possible sane inverse
    backPossible kept hook
  rw [Change.Restorable, ← hooks]
  constructor
  · intro restores
    obtain ⟨restored, undone, sameSections, -⟩ := restores
    obtain ⟨-, reverted, backPerformed, rfl⟩ :=
      (ScheduleManipulator.undo_eq_ok rfl revert).mp undone
    obtain ⟨-, _, backState, -, backHook, rfl⟩ :=
      (Change.perform_eq_ok placedAfter backRegistered).mp backPerformed
    exact ⟨Change.retraceable_of_restored inverse sameSections, backState, backHook⟩
  · intro restorable
    obtain ⟨retraceable, backState, backHook⟩ := restorable
    obtain ⟨backAction, backRecorded⟩ :=
      ((Change.effect_eq_ok placedAfter backRegistered).mpr ⟨backPossible, rfl⟩).1
    let after : ScheduleManipulator (compositeOf schedule weights) :=
      ⟨change.apply manipulator.assignments, scorerState, manipulator.history⟩
    have backPerformed : back.perform after = .ok _ :=
      (Change.perform_eq_ok placedAfter backRegistered).mpr
        ⟨backPossible, backAction, backState, backRecorded, backHook, rfl⟩
    refine ⟨_, (ScheduleManipulator.undo_eq_ok rfl revert).mpr
      ⟨rfl, _, backPerformed, rfl⟩, ?_, ?_⟩
    · exact Change.apply_inverse sound.placed registered possible inverse retraceable
    · exact List.dropLast_concat

/-- The theorem at a call that schedules the long section after the short one. -/
theorem undo_restores_small :
    ∃ manipulator result : ScheduleManipulator (compositeOf small
        [(.numSections, 1), (.teachersWhoLikeRunning, 1)]),
      longAtTen.call required manipulator false = .ok (true, result) ∧
        result.history.length = 2 ∧ UndoRestores required manipulator result := by
  have allowed : ∀ operation ∈ [Operation.call shortAtTwelve false],
      operation.Registered small ∧ operation.NonForced := by
    intro operation listed
    rw [List.mem_singleton.mp listed]
    exact ⟨registered_shortAtTwelve, rfl⟩
  obtain ⟨start, manipulator, created, run, expected⟩ :=
    @exists_run (compositeOf small [(.numSections, 1), (.teachersWhoLikeRunning, 1)]) _ _
      allowed
      (fun manipulator => resultOr false do
        let (answer, result) ← longAtTen.call required manipulator false
        return answer && result.history.length == 2) (by decide +kernel)
  have passes : PassesChecks small vacant := ⟨by decide, by decide⟩
  cases called : longAtTen.call required manipulator false with
  | error raised => simp [called, resultOr] at expected
  | ok returned =>
      obtain ⟨answer, result⟩ := returned
      simp only [called, ok_bind, pure_eq_ok, resultOr, Bool.and_eq_true, beq_iff_eq] at expected
      obtain ⟨succeeded, length⟩ := expected
      subst succeeded
      exact ⟨manipulator, result, called, length,
        (undo_restores_iff passes created run registered_longAtTen
          (fun isSwap => absurd isSwap id) called).mpr ⟨trivial, fun _ => trivial⟩⟩

end Restoring

/-! ## A loaded section with too many roomslots -/

namespace LongSchedule

/-- A full or half hour of the day of the program. -/
def clock (hour : Fin 24) (minute : Fin 60) : Calendar.DateTime where
  year := 2024
  month := 3
  day := 9
  hour := hour
  minute := minute
  second := 0
  microsecond := 0
  valid := ⟨by decide, by decide, by decide, hour.isLt, minute.isLt, by decide, by decide⟩

def first : AS_Timeslot := ⟨0, clock 10 0, clock 10 30, by decide +kernel⟩

def second : AS_Timeslot := ⟨1, clock 10 30, clock 11 0, by decide +kernel⟩

def third : AS_Timeslot := ⟨2, clock 11 0, clock 11 30, by decide +kernel⟩

def room : AS_Classroom := ⟨"A", 20, [first, second, third], [], by decide⟩

/-- A section of an hour and a quarter. -/
def lecture : AS_ClassSection := ⟨1, 1, 5 / 4, [], 10, 7, 12, 1, []⟩

/-- One room, three half hours and one section. -/
def halves : AS_Schedule where
  timeslots := [first, second, third]
  classSections := [lecture]
  teachers := []
  classrooms := [room]
  lunchTimeslots := []
  timeslotIds := by decide
  sectionIds := by decide
  teacherIds := by decide
  classroomNames := by decide
  teachersRegistered := by decide
  teachersDistinct := by decide
  timeslotsRegistered := by decide

def loaded : Assignments where
  assignedRoomslots sec := if sec = lecture then room.availability else []
  assignedSection roomslot := if roomslot ∈ room.availability then some lecture else none

/-- The roomslots of the section after unscheduling it and undoing that. -/
def roomslotsAfterUndo : Raises (Bool × Bool × List AS_RoomSlot) := do
  let manipulator ← ScheduleManipulator.create (compositeOf halves []) loaded
  let (answer, result) ← manipulator.unscheduleSection required lecture
  let (undone, restored) ← result.undo required
  return (answer, undone, restored.assignedRoomslots lecture)

/-- Three half hours are accepted for an hour and a quarter, but two of them suffice when
undoing schedules the section again. -/
theorem undo_loses_roomslot :
    PassesChecks halves loaded ∧
      ∃ manipulator result : ScheduleManipulator (compositeOf halves []),
        ScheduleManipulator.create (compositeOf halves []) loaded = .ok manipulator ∧
          manipulator.unscheduleSection required lecture = .ok (true, result) ∧
            ¬ UndoRestores required manipulator result := by
  have computed : roomslotsAfterUndo = .ok (true, true, [⟨first, room⟩, ⟨second, room⟩]) := by
    decide +kernel
  obtain ⟨manipulator, created, later⟩ := bind_eq_ok.mp computed
  obtain ⟨⟨answer, result⟩, called, undoing⟩ := bind_eq_ok.mp later
  obtain ⟨⟨undone, restored⟩, returned, shown⟩ := bind_eq_ok.mp undoing
  simp only [pure_eq_ok, Except.ok.injEq, Prod.mk.injEq] at shown
  obtain ⟨succeeded, -, roomslots⟩ := shown
  subst succeeded
  refine ⟨⟨by decide +kernel, by decide +kernel⟩, manipulator, result, created, called, ?_⟩
  intro restores
  obtain ⟨other, otherReturned, sameSections, -⟩ := restores
  rw [returned, Except.ok.injEq, Prod.mk.injEq] at otherReturned
  rw [← otherReturned.2, (create_eq_ok.mp created).2.1] at sameSections
  rw [ScheduleManipulator.assignedRoomslots, sameSections] at roomslots
  have three : loaded.assignedRoomslots lecture = room.availability := by decide +kernel
  rw [three] at roomslots
  exact absurd roomslots (by decide)

end LongSchedule

end EspWebsite.Autoscheduler
