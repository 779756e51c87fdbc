import EspWebsite.Autoscheduler.Runs
import EspWebsite.Library.Tally

/-!
# Laws of scorers

A scorer is incremental if its hooks lead from the state built on a schedule to the
state built on the changed schedule.  Along any run from a schedule without
assignments, an incremental scorer then is in the state that a fresh one would be in.
-/

namespace EspWebsite.Autoscheduler

open Python Tally

/-- Where the default hook for swaps, which takes roomslots by duration, takes the ones
that the sections get. -/
def Change.Tracks (assignments : Assignments) : Change → Prop
  | .schedule _ _ | .move _ _ | .unschedule _ => True
  | .swap section1 section2 =>
      section1.duration = section2.duration ∧ Canonical assignments section1 ∧
        Canonical assignments section2

theorem Canonical.exists_start {assignments : Assignments} {sec : AS_ClassSection}
    (canonical : Canonical assignments sec)
    (held : assignments.assignedRoomslots sec ≠ []) :
    ∃ start ∈ assignments.assignedRoomslots sec,
      first (assignments.assignedRoomslots sec) = .ok start ∧
        getRoomslotsByDuration start sec.duration =
          assignments.assignedRoomslots sec := by
  obtain ⟨start, rest, slots⟩ := List.exists_cons_of_ne_nil held
  have taken := canonical start rest slots
  rw [← slots] at taken
  refine ⟨start, ?_, ?_, taken⟩
  · rw [slots]
    exact List.mem_cons_self
  · rw [slots, first]

/-- A scorer whose hooks keep its state the one that is built on the schedule. -/
def Incremental {schedule : AS_Schedule} (scorer : Scorer schedule) : Prop :=
  ∀ (assignments : Assignments) (change : Change) (state : scorer.State),
    WellPlaced schedule assignments → change.Registered schedule →
      change.Possible assignments → change.Tracks assignments →
        scorer.updateSchedule assignments = .ok state →
          ∃ updated, change.updateScorer scorer assignments state = .ok updated ∧
            scorer.updateSchedule (change.apply assignments) = .ok updated

/-- A scorer whose hooks do so whatever the durations of swapped sections are. -/
def Unconditional {schedule : AS_Schedule} (scorer : Scorer schedule) : Prop :=
  ∀ (assignments : Assignments) (change : Change) (state : scorer.State),
    WellPlaced schedule assignments → change.Registered schedule →
      change.Possible assignments → scorer.updateSchedule assignments = .ok state →
        ∃ updated, change.updateScorer scorer assignments state = .ok updated ∧
          scorer.updateSchedule (change.apply assignments) = .ok updated

theorem Unconditional.incremental {schedule : AS_Schedule} {scorer : Scorer schedule}
    (unconditional : Unconditional scorer) : Incremental scorer :=
  fun assignments change state placed registered possible _ =>
    unconditional assignments change state placed registered possible

/-! ## Tidy manipulators -/

section Tidy

variable {schedule : AS_Schedule} {scorer : Scorer schedule}
  {constraints : CompositeConstraint} {manipulator result : ScheduleManipulator scorer}
  {assignments : Assignments} {change : Change}

/-- A schedule with no assignments. -/
structure Unassigned (schedule : AS_Schedule) (assignments : Assignments) : Prop where
  sections : ∀ sec ∈ schedule.classSections,
    assignments.assignedRoomslots sec = []
  roomslots : ∀ roomslot ∈ schedule.roomslots, assignments.assignedSection roomslot = none

/-- A change that swaps only sections of the same duration, as `swap_sections`
asks. -/
def Change.SameDuration : Change → Prop
  | .schedule _ _ | .move _ _ | .unschedule _ => True
  | .swap section1 section2 => section1.duration = section2.duration

/-- Sections are well placed, each at the roomslots its duration takes. -/
structure Tidy (schedule : AS_Schedule) (assignments : Assignments) : Prop where
  placed : WellPlaced schedule assignments
  canonical : ∀ sec ∈ schedule.classSections, Canonical assignments sec

theorem Unassigned.tidy (unassigned : Unassigned schedule assignments) :
    Tidy schedule assignments where
  placed := by
    constructor
    · constructor
      · intro sec listed roomslot assigned
        simp [unassigned.sections sec listed] at assigned
      · intro sec listed roomslot assigned
        simp [unassigned.sections sec listed] at assigned
      · intro roomslot registered sec holder
        simp [unassigned.roomslots roomslot registered] at holder
      · intro roomslot registered sec holder
        simp [unassigned.roomslots roomslot registered] at holder
    · intro sec listed scheduled
      exact absurd (unassigned.sections sec listed) scheduled
  canonical sec listed first rest held := by
    rw [unassigned.sections sec listed] at held
    cases held

theorem getRoomslotsByDuration_of_taken {startRoomslot first : AS_RoomSlot} {duration : ℚ}
    {rest : List AS_RoomSlot}
    (taken : getRoomslotsByDuration startRoomslot duration = first :: rest) :
    getRoomslotsByDuration first duration = first :: rest := by
  rw [getRoomslotsByDuration_head taken, taken, getRoomslotsByDuration_head taken]

theorem Tidy.apply (tidy : Tidy schedule assignments)
    (registered : change.Registered schedule) (possible : change.Possible assignments)
    (sameDuration : change.SameDuration) : Tidy schedule (change.apply assignments) where
  placed := Change.wellPlaced_apply tidy.placed registered possible
  canonical sec listed first rest held := by
    by_cases changed : sec ∈ change.sections
    · cases change with
      | schedule other startRoomslot =>
          have same := List.mem_singleton.mp changed
          subst same
          rw [Change.assigned_apply_schedule] at held
          exact getRoomslotsByDuration_of_taken held
      | move other startRoomslot =>
          have same := List.mem_singleton.mp changed
          subst same
          rw [Change.assigned_apply_move] at held
          exact getRoomslotsByDuration_of_taken held
      | unschedule other =>
          have same := List.mem_singleton.mp changed
          subst same
          rw [Change.assigned_apply_unschedule] at held
          cases held
      | swap section1 section2 =>
          obtain ⟨listed1, listed2⟩ := registered
          have sameDuration : section1.duration = section2.duration := sameDuration
          rcases List.mem_pair.mp changed with same | same
          · subst same
            rw [Change.assigned_apply_swap_left _ possible.2.2] at held
            rw [sameDuration]
            exact tidy.canonical section2 listed2 first rest held
          · subst same
            rw [Change.assigned_apply_swap_right] at held
            rw [← sameDuration]
            exact tidy.canonical section1 listed1 first rest held
    · rw [Change.assigned_apply_of_notMem _ changed] at held
      exact tidy.canonical sec listed first rest held

theorem Tidy.tracks (tidy : Tidy schedule assignments)
    (registered : change.Registered schedule) (sameDuration : change.SameDuration) :
    change.Tracks assignments := by
  cases change with
  | schedule _ _ | move _ _ | unschedule _ => trivial
  | swap section1 section2 =>
      exact ⟨sameDuration, tidy.canonical section1 registered.1,
        tidy.canonical section2 registered.2⟩

/-- A call that forces no swap of sections of different durations. -/
def Operation.Proper : Operation → Prop
  | .call change force => force = true → change.SameDuration
  | .undo => True

/-- A manipulator whose sections are well placed, and whose history can be undone by
changes of a given kind. -/
structure Orderly (kind : Change → Prop) (manipulator : ScheduleManipulator scorer) :
    Prop where
  placed : WellPlaced schedule manipulator.assignments
  reverts : ∀ action ∈ manipulator.history,
    ∃ back, action.revert = some back ∧ back.Registered schedule ∧ kind back

/-- What an operation that changes something does. -/
structure Performs (change : Change) (manipulator result : ScheduleManipulator scorer) :
    Prop where
  registered : change.Registered schedule
  possible : change.Possible manipulator.assignments
  updated : change.updateScorer scorer manipulator.assignments manipulator.scorerState =
    .ok result.scorerState
  assignments : result.assignments = change.apply manipulator.assignments

theorem sameDuration_of_accepted
    (accepted : change.refuses constraints manipulator = .ok false) :
    change.SameDuration := by
  cases change with
  | schedule _ _ | move _ _ | unschedule _ => trivial
  | swap section1 section2 =>
      rw [Change.refuses, ScheduleManipulator.refusesSwap] at accepted
      split at accepted
      next => cases accepted
      next =>
        split at accepted
        next => cases accepted
        next same => exact not_not.mp same

theorem sameDuration_inverse {back : Change} (sameDuration : change.SameDuration)
    (inverse : Change.Inverse assignments change back) : back.SameDuration := by
  cases inverse with
  | schedule | move _ | unschedule _ => trivial
  | swap => exact sameDuration

theorem performs_of_step {kind : Change → Prop} {allowed : Operation → Prop}
    (orderly : Orderly kind manipulator)
    (isKind : ∀ change force, allowed (.call change force) →
      (force = true ∨ change.refuses constraints manipulator = .ok false) → kind change)
    (inverseKind : ∀ {change back}, kind change →
      Change.Inverse manipulator.assignments change back → kind back)
    (step : Step constraints
      (fun operation => operation.Registered schedule ∧ allowed operation)
      manipulator result) :
    result = manipulator ∨
      ∃ change, Performs change manipulator result ∧ kind change ∧ Orderly kind result := by
  obtain ⟨operation, answer, ⟨registered, isAllowed⟩, returned⟩ := step
  cases operation with
  | call change force =>
      cases answer with
      | false =>
          left
          exact (Change.call_eq_false.mp returned).2.2
      | true =>
          right
          obtain ⟨forced, performed⟩ := Change.call_eq_true.mp returned
          have ofKind := isKind change force isAllowed forced
          obtain ⟨possible, action, scorerState, recorded, updated, rfl⟩ :=
            (Change.perform_eq_ok orderly.placed registered).mp performed
          refine ⟨change, ⟨registered, possible, updated, rfl⟩, ofKind, ?_, ?_⟩
          · exact Change.wellPlaced_apply orderly.placed registered possible
          · intro other listed
            rcases List.mem_append.mp listed with earlier | last
            · exact orderly.reverts other earlier
            · obtain ⟨back, revert, inverse⟩ := Change.inverse_of_record recorded
              rw [List.mem_singleton.mp last]
              exact ⟨back, revert,
                Change.registered_inverse orderly.placed registered inverse,
                inverseKind ofKind inverse⟩
  | undo =>
      rcases List.eq_nil_or_concat manipulator.history with empty | ⟨history, action, recorded⟩
      · left
        rw [Operation.run, ScheduleManipulator.undo_nil empty] at returned
        cases returned
        rfl
      · right
        rw [List.concat_eq_append] at recorded
        obtain ⟨back, revert, backRegistered, ofKind⟩ :=
          orderly.reverts action (by simp [recorded])
        obtain ⟨-, reverted, performed, rfl⟩ :=
          (ScheduleManipulator.undo_eq_ok recorded revert).mp returned
        have placed : WellPlaced schedule
            ({ manipulator with history := history } : ScheduleManipulator scorer).assignments :=
          orderly.placed
        obtain ⟨possible, _, scorerState, -, updated, rfl⟩ :=
          (Change.perform_eq_ok placed backRegistered).mp performed
        refine ⟨back, ⟨backRegistered, possible, updated, rfl⟩, ofKind, ?_, ?_⟩
        · exact Change.wellPlaced_apply orderly.placed backRegistered possible
        · intro other listed
          apply orderly.reverts other
          rw [recorded]
          apply List.mem_append_left
          simpa using listed

theorem incremental_run (incremental : Incremental scorer)
    (orderly : Orderly Change.SameDuration manipulator)
    (tidy : Tidy schedule manipulator.assignments)
    (built : scorer.updateSchedule manipulator.assignments = .ok manipulator.scorerState)
    (run : Run constraints
      (fun operation => operation.Registered schedule ∧ operation.Proper)
      manipulator result) :
    Orderly Change.SameDuration result ∧ Tidy schedule result.assignments ∧
      scorer.updateSchedule result.assignments = .ok result.scorerState := by
  induction run with
  | refl => exact ⟨orderly, tidy, built⟩
  | tail _ step ih =>
      obtain ⟨orderlyBefore, tidyBefore, builtBefore⟩ := ih
      have performs := performs_of_step orderlyBefore
        (fun change force proper forced => forced.elim proper sameDuration_of_accepted)
        sameDuration_inverse step
      rcases performs with same | ⟨change, performs, sameDuration, orderlyAfter⟩
      · subst same
        exact ⟨orderlyBefore, tidyBefore, builtBefore⟩
      · have tracks := tidyBefore.tracks performs.registered sameDuration
        obtain ⟨updated, hook, builtAfter⟩ := incremental _ change _ tidyBefore.placed
          performs.registered performs.possible tracks builtBefore
        rw [performs.updated, Except.ok.injEq] at hook
        subst hook
        rw [performs.assignments]
        exact ⟨orderlyAfter, tidyBefore.apply performs.registered performs.possible sameDuration,
          builtAfter⟩

/-- Along a run of any operations, a scorer whose hooks do not depend on durations stays
in the state that is built on the schedule. -/
theorem unconditional_run (unconditional : Unconditional scorer)
    (orderly : Orderly (fun _ => True) manipulator)
    (built : scorer.updateSchedule manipulator.assignments = .ok manipulator.scorerState)
    (run : Run constraints (Operation.Registered schedule) manipulator result) :
    Orderly (fun _ => True) result ∧
      scorer.updateSchedule result.assignments = .ok result.scorerState := by
  induction run with
  | refl => exact ⟨orderly, built⟩
  | tail _ step ih =>
      obtain ⟨orderlyBefore, builtBefore⟩ := ih
      obtain ⟨operation, answer, registered, returned⟩ := step
      have performs := @performs_of_step _ _ _ _ _ _ (fun _ => True) orderlyBefore
        (fun _ _ _ _ => trivial) (fun _ _ => trivial)
        ⟨operation, answer, ⟨registered, trivial⟩, returned⟩
      rcases performs with same | ⟨change, performs, -, orderlyAfter⟩
      · subst same
        exact ⟨orderlyBefore, builtBefore⟩
      · obtain ⟨updated, hook, builtAfter⟩ := unconditional _ change _ orderlyBefore.placed
          performs.registered performs.possible builtBefore
        rw [performs.updated, Except.ok.injEq] at hook
        subst hook
        rw [performs.assignments]
        exact ⟨orderlyAfter, builtAfter⟩

theorem create_eq_ok :
    ScheduleManipulator.create scorer assignments = .ok manipulator ↔
      scorer.updateSchedule assignments = .ok manipulator.scorerState ∧
        manipulator.assignments = assignments ∧ manipulator.history = [] := by
  rw [ScheduleManipulator.create]
  simp only [bind_eq_ok, pure_eq_ok, Except.ok.injEq]
  constructor
  · rintro ⟨scorerState, built, rfl⟩
    exact ⟨built, rfl, rfl⟩
  · rintro ⟨built, rfl, empty⟩
    refine ⟨_, built, ?_⟩
    cases manipulator
    simp_all

theorem Unassigned.orderly (unassigned : Unassigned schedule assignments)
    (created : ScheduleManipulator.create scorer assignments = .ok manipulator)
    (kind : Change → Prop) : Orderly kind manipulator := by
  obtain ⟨-, sameAssignments, empty⟩ := create_eq_ok.mp created
  constructor
  · rw [sameAssignments]
    exact unassigned.tidy.placed
  · simp [empty]

theorem incremental_of_unassigned (incremental : Incremental scorer)
    (unassigned : Unassigned schedule assignments)
    (created : ScheduleManipulator.create scorer assignments = .ok manipulator)
    (run : Run constraints
      (fun operation => operation.Registered schedule ∧ operation.Proper)
      manipulator result) :
    Orderly Change.SameDuration result ∧ Tidy schedule result.assignments ∧
      scorer.updateSchedule result.assignments = .ok result.scorerState := by
  obtain ⟨built, sameAssignments, -⟩ := create_eq_ok.mp created
  apply incremental_run incremental (unassigned.orderly created _) _ _ run
  · rw [sameAssignments]
    exact unassigned.tidy
  · rw [sameAssignments]
    exact built

end Tidy

/-! ## Additive scorers -/

section Additive

variable {schedule : AS_Schedule} {scorer : Scorer schedule}

theorem incremental_of_contributions [AddCommGroup scorer.State]
    (contribution : AS_ClassSection → List AS_RoomSlot → scorer.State)
    (static : Raises Unit)
    (nothing : ∀ sec, contribution sec [] = 0)
    (built : ∀ assignments, scorer.updateSchedule assignments = do
      static
      return tally schedule.classSections contribution assignments.assignedRoomslots)
    (scheduled : ∀ assignments sec startRoomslot state,
      sec ∈ schedule.classSections → startRoomslot ∈ schedule.roomslots →
        scorer.updateScheduleSection assignments sec startRoomslot state =
          .ok (state + contribution sec
            (getRoomslotsByDuration startRoomslot sec.duration)))
    (unscheduled : ∀ assignments sec state,
      sec ∈ schedule.classSections →
        assignments.assignedRoomslots sec ≠ [] →
          scorer.updateUnscheduleSection assignments sec state =
            .ok (state - contribution sec
              (assignments.assignedRoomslots sec)))
    (moved : scorer.updateMoveSection = BaseScorer.updateMoveSection
      scorer.updateScheduleSection scorer.updateUnscheduleSection)
    (swapped : scorer.updateSwapSections = BaseScorer.updateSwapSections
      scorer.updateScheduleSection scorer.updateUnscheduleSection) :
    Incremental scorer := by
  intro assignments change state placed registered possible tracks isBuilt
  have nodup : schedule.classSections.Nodup := schedule.sectionIds.of_map
  rw [built, andThen_eq_ok] at isBuilt
  obtain ⟨staticOk, same⟩ := isBuilt
  simp only [pure_eq_ok, Except.ok.injEq] at same
  subst same
  refine ⟨tally schedule.classSections contribution
    (change.apply assignments).assignedRoomslots, ?_, by rw [built, staticOk]; rfl⟩
  cases change with
  | schedule sec startRoomslot =>
      obtain ⟨listed, startRegistered⟩ := registered
      have changed := tally_update contribution assignments.assignedRoomslots
        nodup listed (getRoomslotsByDuration startRoomslot sec.duration)
      rw [possible.1, nothing, sub_zero] at changed
      rw [Change.updateScorer, scheduled _ _ _ _ listed startRegistered, ← changed]
      rfl
  | unschedule sec =>
      have changed := tally_update contribution assignments.assignedRoomslots
        nodup registered []
      rw [nothing, add_zero] at changed
      rw [Change.updateScorer, unscheduled _ _ _ registered possible, ← changed]
      rfl
  | move sec startRoomslot =>
      obtain ⟨listed, startRegistered⟩ := registered
      have changed := tally_update contribution assignments.assignedRoomslots
        nodup listed (getRoomslotsByDuration startRoomslot sec.duration)
      rw [Change.updateScorer, moved, BaseScorer.updateMoveSection,
        unscheduled _ _ _ listed possible.1, ok_bind, scheduled _ _ _ _ listed startRegistered,
        ← changed, Change.assignedRoomslots_apply_move]
  | swap section1 section2 =>
      obtain ⟨listed1, listed2⟩ := registered
      obtain ⟨held1, held2, different⟩ := possible
      obtain ⟨sameDuration, canonical1, canonical2⟩ := tracks
      obtain ⟨start1, isStart1, first1, taken1⟩ := canonical1.exists_start held1
      obtain ⟨start2, isStart2, first2, taken2⟩ := canonical2.exists_start held2
      rw [sameDuration] at taken1
      rw [← sameDuration] at taken2
      have registered1 : start1 ∈ schedule.roomslots :=
        placed.registered_of_assigned listed1 isStart1
      have registered2 : start2 ∈ schedule.roomslots :=
        placed.registered_of_assigned listed2 isStart2
      rw [Change.updateScorer, swapped, BaseScorer.updateSwapSections, first2, ok_bind,
        BaseScorer.updateMoveSection, unscheduled _ _ _ listed1 held1, ok_bind,
        scheduled _ _ _ _ listed1 registered2, ok_bind, first1, ok_bind,
        BaseScorer.updateMoveSection, unscheduled _ _ _ listed2 held2, ok_bind,
        scheduled _ _ _ _ listed2 registered1, taken1, taken2,
        Change.assignedRoomslots_apply_swap different, tally_update _ _ nodup listed2,
        tally_update _ _ nodup listed1, Function.update_of_ne different.symm]

end Additive

end EspWebsite.Autoscheduler
