import EspWebsite.Autoscheduler.Inverses

/-!
# The operations of a manipulator

A call of one of the four manipulations either is refused and changes nothing, or
makes its change, brings the scorer up to date and records the action.  Undoing
makes the inverse change and drops the record.
-/

namespace EspWebsite.Autoscheduler

open Python

variable {schedule : AS_Schedule} {scorer : Scorer schedule}

namespace Change

def updateScorer (scorer : Scorer schedule) (assignments : Assignments) :
    Change → scorer.State → Raises scorer.State
  | .schedule sec startRoomslot =>
      scorer.updateScheduleSection assignments sec startRoomslot
  | .move sec startRoomslot =>
      scorer.updateMoveSection assignments sec startRoomslot
  | .unschedule sec => scorer.updateUnscheduleSection assignments sec
  | .swap section1 section2 => scorer.updateSwapSections assignments section1 section2

variable (constraints : CompositeConstraint) (manipulator : ScheduleManipulator scorer)

/-- The guards of the manipulation. -/
def refuses : Change → Raises Bool
  | .schedule sec startRoomslot =>
      manipulator.refusesSchedule constraints sec startRoomslot
  | .move sec startRoomslot =>
      manipulator.refusesMove constraints sec startRoomslot
  | .unschedule sec => manipulator.refusesUnschedule constraints sec
  | .swap section1 section2 => manipulator.refusesSwap constraints section1 section2

/-- The body of the manipulation after its guards. -/
def perform : Change → Raises (ScheduleManipulator scorer)
  | .schedule sec startRoomslot =>
      manipulator.performSchedule sec startRoomslot
  | .move sec startRoomslot => manipulator.performMove sec startRoomslot
  | .unschedule sec => manipulator.performUnschedule sec
  | .swap section1 section2 => manipulator.performSwap section1 section2

def call (force : Bool) : Change → Raises (Bool × ScheduleManipulator scorer)
  | .schedule sec startRoomslot =>
      manipulator.scheduleSection constraints sec startRoomslot force
  | .move sec startRoomslot =>
      manipulator.moveSection constraints sec startRoomslot force
  | .unschedule sec => manipulator.unscheduleSection constraints sec force
  | .swap section1 section2 => manipulator.swapSections constraints section1 section2 force

variable {constraints manipulator} {change : Change} {force : Bool}
  {result : ScheduleManipulator scorer}

theorem call_eq : change.call constraints manipulator force =
    manipulator.unlessRefused force (change.refuses constraints manipulator)
      (change.perform manipulator) := by
  cases change <;> rfl

theorem perform_eq : change.perform manipulator = do
    let action ← change.record manipulator.assignments
    let scorerState ← change.updateScorer scorer manipulator.assignments
      manipulator.scorerState
    let assignments ← change.effect manipulator.assignments
    return ⟨assignments, scorerState, manipulator.history ++ [action]⟩ := by
  cases change with
  | schedule sec startRoomslot => rfl
  | move sec startRoomslot =>
      simp only [perform, ScheduleManipulator.performMove, record, bind_assoc, pure_bind]
      rfl
  | unschedule sec =>
      simp only [perform, ScheduleManipulator.performUnschedule, record, bind_assoc,
        pure_bind]
      rfl
  | swap section1 section2 =>
      simp only [perform, ScheduleManipulator.performSwap, record, effect, bind_assoc,
        pure_bind]
      rfl

theorem perform_eq_ok (placed : WellPlaced schedule manipulator.assignments)
    (registered : change.Registered schedule) :
    change.perform manipulator = .ok result ↔
      change.Possible manipulator.assignments ∧
        ∃ action scorerState, change.record manipulator.assignments = .ok action ∧
          change.updateScorer scorer manipulator.assignments manipulator.scorerState =
            .ok scorerState ∧
          result = ⟨change.apply manipulator.assignments, scorerState,
            manipulator.history ++ [action]⟩ := by
  rw [perform_eq]
  simp only [bind_eq_ok, pure_eq_ok, Except.ok.injEq]
  constructor
  · rintro ⟨action, recorded, scorerState, updated, after, made, rfl⟩
    obtain ⟨possible, rfl⟩ := (effect_eq_ok placed registered).mp ⟨⟨action, recorded⟩, made⟩
    exact ⟨possible, action, scorerState, recorded, updated, rfl⟩
  · rintro ⟨possible, action, scorerState, recorded, updated, rfl⟩
    obtain ⟨-, made⟩ := (effect_eq_ok placed registered).mpr ⟨possible, rfl⟩
    exact ⟨action, recorded, scorerState, updated, _, made, rfl⟩

theorem call_eq_ok {answer : Bool} :
    change.call constraints manipulator force = .ok (answer, result) ↔
      (answer = false ∧ force = false ∧ change.refuses constraints manipulator = .ok true ∧
          result = manipulator) ∨
        (answer = true ∧ (force = true ∨ change.refuses constraints manipulator = .ok false) ∧
          change.perform manipulator = .ok result) := by
  rw [call_eq, ScheduleManipulator.unlessRefused]
  cases force with
  | true => cases change.perform manipulator <;> simp [bind, Except.bind, eq_comm]
  | false =>
      cases change.refuses constraints manipulator with
      | error raised => simp
      | ok refused =>
          cases refused with
          | true => simp [eq_comm]
          | false => cases change.perform manipulator <;> simp [bind, Except.bind, eq_comm]

theorem call_eq_false : change.call constraints manipulator force = .ok (false, result) ↔
    force = false ∧ change.refuses constraints manipulator = .ok true ∧
      result = manipulator := by
  rw [call_eq_ok]
  simp

theorem call_eq_true : change.call constraints manipulator force = .ok (true, result) ↔
    (force = true ∨ change.refuses constraints manipulator = .ok false) ∧
      change.perform manipulator = .ok result := by
  rw [call_eq_ok]
  simp

end Change

namespace ScheduleManipulator

variable {constraints : CompositeConstraint} {manipulator result : ScheduleManipulator scorer}
  {action : Action} {change : Change} {history : List Action}

theorem performAction_eq (replay : action.replay = some change) :
    manipulator.performAction constraints action =
      change.call constraints manipulator false := by
  cases action with
  | schedule sec startRoomslot =>
      cases replay
      rfl
  | move sec startRoomslot prevStartRoomslot =>
      cases replay
      rfl
  | unschedule sec prevStartRoomslot =>
      cases replay
      rfl
  | swap sections originalRoomslots =>
      rw [ActionDict.replay] at replay
      split at replay
      next section1 section2 items =>
        cases replay
        simp only [performAction, swapUnpacked, items]
        rfl
      next => cases replay

theorem revertAction_eq (revert : action.revert = some change) :
    manipulator.revertAction constraints action =
      change.call constraints manipulator true := by
  cases action with
  | schedule sec startRoomslot =>
      cases revert
      rfl
  | move sec startRoomslot prevStartRoomslot =>
      cases revert
      rfl
  | unschedule sec prevStartRoomslot =>
      cases revert
      rfl
  | swap sections originalRoomslots =>
      rw [ActionDict.revert] at revert
      split at revert
      next section1 section2 items =>
        cases revert
        simp only [revertAction, swapUnpacked, items]
        rfl
      next => cases revert

theorem undo_eq (recorded : manipulator.history = history ++ [action])
    (revert : action.revert = some change) :
    manipulator.undo constraints = do
      let reverted ← change.perform { manipulator with history := history }
      return (true, { reverted with history := reverted.history.dropLast }) := by
  have lastAction : manipulator.history.getLast? = some action := by simp [recorded]
  have popped : manipulator.history.dropLast = history := by simp [recorded]
  simp only [undo, lastAction, popped, revertAction_eq revert, Change.call_eq, unlessRefused]
  cases change.perform { manipulator with history := history } <;> rfl

theorem undo_eq_ok (recorded : manipulator.history = history ++ [action])
    (revert : action.revert = some change) {undone : Bool} :
    manipulator.undo constraints = .ok (undone, result) ↔
      undone = true ∧
        ∃ reverted, change.perform { manipulator with history := history } = .ok reverted ∧
          result = { reverted with history := reverted.history.dropLast } := by
  rw [undo_eq recorded revert]
  cases change.perform { manipulator with history := history } with
  | error raised => simp
  | ok reverted => simp [eq_comm]

theorem undo_nil (recorded : manipulator.history = []) :
    manipulator.undo constraints = .ok (false, manipulator) := by
  simp [undo, recorded]

end ScheduleManipulator

end EspWebsite.Autoscheduler
