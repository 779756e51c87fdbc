import EspWebsite.Autoscheduler.Admissibility

/-!
# Runs of a manipulator

Any number of calls and undos, in any order.  Every state that a run of calls which
are not forced reaches has sound assignments, and a history whose actions can all be
undone, although undoing checks nothing.
-/

namespace EspWebsite.Autoscheduler

open Python

/-- A call of a manipulation, or of `undo`. -/
inductive Operation where
  | call (change : Change) (force : Bool)
  | undo

namespace Operation

variable {schedule : AS_Schedule} {scorer : Scorer schedule}

/-- What the call does to a manipulator. -/
def run (constraints : CompositeConstraint) (manipulator : ScheduleManipulator scorer) :
    Operation → Raises (Bool × ScheduleManipulator scorer)
  | call change force => change.call constraints manipulator force
  | undo => manipulator.undo constraints

/-- A call on sections and roomslots of the schedule. -/
def Registered (schedule : AS_Schedule) : Operation → Prop
  | call change _ => change.Registered schedule
  | undo => True

def change (history : List Action) : Operation → Option Change
  | call change _ => some change
  | undo => history.getLast?.bind ActionDict.revert

/-- A call on sections and roomslots of the schedule that, if it is forced, makes an
admissible change all the same. -/
def Guarded (schedule : AS_Schedule) (assignments : Assignments) : Operation → Prop
  | call change force =>
      change.Registered schedule ∧
        (force = false ∨ Admissible schedule assignments change)
  | undo => True

/-- A call without `force`. -/
def NonForced : Operation → Prop
  | call _ force => force = false
  | undo => True

/-- A call that does not swap a section with itself. -/
def Distinct : Operation → Prop
  | call change _ => change.Distinct
  | undo => True

end Operation

/-- One operation of a given kind, returning an answer. -/
def Step {schedule : AS_Schedule} {scorer : Scorer schedule}
    (constraints : CompositeConstraint) (allowed : Operation → Prop)
    (manipulator result : ScheduleManipulator scorer) : Prop :=
  ∃ operation answer, allowed operation ∧
    operation.run constraints manipulator = .ok (answer, result)

/-- Finitely many operations of a given kind. -/
abbrev Run {schedule : AS_Schedule} {scorer : Scorer schedule}
    (constraints : CompositeConstraint) (allowed : Operation → Prop) :
    ScheduleManipulator scorer → ScheduleManipulator scorer → Prop :=
  Relation.ReflTransGen (Step constraints allowed)

/-- The operations of a list, one after the other. -/
def runAll {schedule : AS_Schedule} {scorer : Scorer schedule}
    (constraints : CompositeConstraint) :
    List Operation → ScheduleManipulator scorer → Raises (ScheduleManipulator scorer)
  | [], manipulator => .ok manipulator
  | operation :: rest, manipulator => do
      let (_, result) ← operation.run constraints manipulator
      runAll constraints rest result

theorem run_of_runAll {schedule : AS_Schedule} {scorer : Scorer schedule}
    {constraints : CompositeConstraint} {allowed : Operation → Prop}
    {operations : List Operation} {manipulator result : ScheduleManipulator scorer}
    (areAllowed : ∀ operation ∈ operations, allowed operation)
    (returned : runAll constraints operations manipulator = .ok result) :
    Run constraints allowed manipulator result := by
  induction operations generalizing manipulator with
  | nil =>
      cases returned
      exact .refl
  | cons operation rest ih =>
      obtain ⟨⟨answer, middle⟩, first, later⟩ := bind_eq_ok.mp returned
      have step : Step constraints allowed manipulator middle :=
        ⟨operation, answer, areAllowed operation List.mem_cons_self, first⟩
      exact .head step (ih (fun other listed => areAllowed other (List.mem_cons_of_mem _ listed))
        later)

/-! ## Undoing on sound assignments -/

section Undoing

variable {registry : AS_Schedule} {assignments fewer : Assignments} {change back : Change}
  {history : List Action} {action : Action}

theorem Sound.of_reduced (sound : Sound registry assignments)
    (placed : WellPlaced registry fewer) (reduced : Reduced registry fewer assignments)
    (lasts : ∀ sec ∈ registry.classSections,
      SectionDurationConstraint.Lasts sec (fewer.assignedRoomslots sec)) :
    Sound registry fewer where
  placed := placed
  fits sec listed scheduled := by
    have isPrefix := reduced.isPrefix sec listed
    have scheduledBefore : assignments.assignedRoomslots sec ≠ [] := by
      intro unscheduled
      rw [unscheduled, List.prefix_nil] at isPrefix
      exact scheduled isPrefix
    exact (sound.fits sec listed scheduledBefore).of_part isPrefix
      (lasts sec listed)
  teachersApart left leftListed right rightListed different teacher teachesLeft
      teachesRight leftSlot leftAssigned rightSlot rightAssigned :=
    sound.teachersApart left leftListed right rightListed different teacher teachesLeft
      teachesRight leftSlot ((reduced.isPrefix left leftListed).subset leftAssigned)
      rightSlot ((reduced.isPrefix right rightListed).subset rightAssigned)

theorem Sound.lasts (sound : Sound registry assignments) {sec : AS_ClassSection}
    (listed : sec ∈ registry.classSections) :
    SectionDurationConstraint.Lasts sec
      (assignments.assignedRoomslots sec) := by
  intro first rest held
  exact (sound.fits sec listed (by simp [held])).lasts first rest held

theorem lasts_inverse (sound : Sound registry assignments)
    (soundFewer : Sound registry fewer) (admissible : Admissible registry assignments change)
    (inverse : Change.Inverse assignments change back) {sec : AS_ClassSection}
    (listed : sec ∈ registry.classSections) :
    SectionDurationConstraint.Lasts sec
      ((back.apply fewer).assignedRoomslots sec) := by
  by_cases changed : sec ∈ back.sections
  · cases inverse with
    | @schedule other startRoomslot =>
        rw [List.mem_singleton.mp changed, Change.assigned_apply_unschedule]
        intro first rest held
        cases held
    | @move other startRoomslot prevStartRoomslot rest held =>
        have same := List.mem_singleton.mp changed
        subst same
        have fits := sound.fits sec listed (by simp [held])
        rw [held] at fits
        rw [Change.assigned_apply_move]
        exact fits.taken.lasts
    | @unschedule other prevStartRoomslot rest held =>
        have same := List.mem_singleton.mp changed
        subst same
        have fits := sound.fits sec listed (by simp [held])
        rw [held] at fits
        rw [Change.assigned_apply_schedule]
        exact fits.taken.lasts
    | @swap section1 section2 =>
        obtain ⟨sameDuration, -⟩ := admissible.exchangeable
        obtain ⟨listed1, listed2⟩ := admissible.registered
        obtain ⟨-, -, different⟩ := admissible.possible
        rcases List.mem_pair.mp changed with same | same
        · rw [same, Change.assigned_apply_swap_left _ different]
          intro first rest held
          rw [sameDuration]
          exact soundFewer.lasts listed2 first rest held
        · rw [same, Change.assigned_apply_swap_right]
          intro first rest held
          rw [← sameDuration]
          exact soundFewer.lasts listed1 first rest held
  · rw [Change.assigned_apply_of_notMem _ changed]
    exact soundFewer.lasts listed

theorem admissible_inverse (sound : Sound registry assignments)
    (soundFewer : Sound registry fewer) (admissible : Admissible registry assignments change)
    (inverse : Change.Inverse assignments change back)
    (reduced : Reduced registry fewer (change.apply assignments)) :
    Admissible registry fewer back ∧ Reduced registry (back.apply fewer) assignments := by
  have registered := Change.registered_inverse sound.placed admissible.registered inverse
  obtain ⟨possible, reducedAfter⟩ := Change.inverse_reduced sound.placed soundFewer.placed
    admissible.registered admissible.possible inverse sound.retakes reduced
  have exchangeable : back.Exchangeable := by
    cases inverse with
    | schedule | move _ | unschedule _ => trivial
    | swap => exact admissible.exchangeable
  refine ⟨⟨registered, possible, exchangeable, ?_⟩, reducedAfter⟩
  exact sound.of_reduced (Change.wellPlaced_apply soundFewer.placed registered possible)
    reducedAfter fun sec listed =>
      lasts_inverse sound soundFewer admissible inverse listed

/-- A history whose actions can be undone one after the other from the given
assignments.  These need not be the ones that the last action led to, since undoing
later actions may have left fewer roomslots. -/
inductive Undoable (registry : AS_Schedule) : Assignments → List Action → Prop where
  | nil {assignments : Assignments} (sound : Sound registry assignments) :
      Undoable registry assignments []
  | snoc {assignments fewer : Assignments} {change : Change} {history : List Action}
      {action : Action} (earlier : Undoable registry assignments history)
      (admissible : Admissible registry assignments change)
      (recorded : change.record assignments = .ok action) (sound : Sound registry fewer)
      (reduced : Reduced registry fewer (change.apply assignments)) :
      Undoable registry fewer (history ++ [action])

namespace Undoable

theorem sound (undoable : Undoable registry assignments history) :
    Sound registry assignments := by
  cases undoable with
  | nil sound => exact sound
  | snoc _ _ _ sound _ => exact sound

theorem reduce (undoable : Undoable registry assignments history)
    (sound : Sound registry fewer) (reduced : Reduced registry fewer assignments) :
    Undoable registry fewer history := by
  cases undoable with
  | nil _ => exact .nil sound
  | snoc earlier admissible recorded _ reducedBefore =>
      exact .snoc earlier admissible recorded sound (reduced.trans reducedBefore)

theorem record (undoable : Undoable registry assignments history)
    (admissible : Admissible registry assignments change)
    (recorded : change.record assignments = .ok action) :
    Undoable registry (change.apply assignments) (history ++ [action]) :=
  .snoc undoable admissible recorded admissible.sound (.refl _)

/-- The last action is undone by an admissible change, which leaves the rest of the
history undoable. -/
theorem undo (undoable : Undoable registry fewer (history ++ [action])) :
    ∃ back, action.revert = some back ∧ Admissible registry fewer back ∧
      Undoable registry (back.apply fewer) history := by
  generalize whole : history ++ [action] = actions at undoable
  cases undoable with
  | nil _ => simp at whole
  | @snoc assignments _ change earlier last undoable admissible recorded sound reduced =>
      obtain ⟨sameHistory, sameAction⟩ := List.append_inj' whole rfl
      cases sameAction
      subst sameHistory
      obtain ⟨back, revert, inverse⟩ := Change.inverse_of_record recorded
      obtain ⟨admissibleBack, reducedBack⟩ :=
        admissible_inverse undoable.sound sound admissible inverse reduced
      exact ⟨back, revert, admissibleBack, undoable.reduce admissibleBack.sound reducedBack⟩

end Undoable

end Undoing

/-! ## What a run keeps -/

section Runs

variable {schedule : AS_Schedule} {scorer : Scorer schedule}
  {constraints : CompositeConstraint} {manipulator result : ScheduleManipulator scorer}
  {change : Change}

theorem Change.distinct_of_possible {assignments : Assignments}
    (possible : change.Possible assignments) : change.Distinct := by
  cases change with
  | schedule _ _ | move _ _ | unschedule _ => trivial
  | swap section1 section2 => exact possible.2.2

theorem admissible_of_call (sound : Sound schedule manipulator.assignments)
    (registered : change.Registered schedule)
    (returned : change.call constraints manipulator false = .ok (true, result)) :
    Admissible schedule manipulator.assignments change ∧
      change.perform manipulator = .ok result := by
  obtain ⟨notRefused, performed⟩ := Change.call_eq_true.mp returned
  have accepted : change.refuses constraints manipulator = .ok false := by
    simpa using notRefused
  obtain ⟨possible, -⟩ := (Change.perform_eq_ok sound.placed registered).mp performed
  exact ⟨admissible_of_accepted sound registered (Change.distinct_of_possible possible)
    accepted, performed⟩

theorem undo_of_undoable {history : List Action} {action : Action} {answer : Bool}
    (undoable : Undoable schedule manipulator.assignments manipulator.history)
    (recorded : manipulator.history = history ++ [action])
    (returned : manipulator.undo constraints = .ok (answer, result)) :
    ∃ back, action.revert = some back ∧ Admissible schedule manipulator.assignments back ∧
      result.assignments = back.apply manipulator.assignments ∧
      back.updateScorer scorer manipulator.assignments manipulator.scorerState =
        .ok result.scorerState ∧
      result.history = history := by
  rw [recorded] at undoable
  obtain ⟨back, revert, admissible, -⟩ := undoable.undo
  obtain ⟨-, reverted, performed, rfl⟩ :=
    (ScheduleManipulator.undo_eq_ok recorded revert).mp returned
  have placed : WellPlaced schedule
      ({ manipulator with history := history } : ScheduleManipulator scorer).assignments :=
    undoable.sound.placed
  obtain ⟨-, _, scorerState, -, updated, rfl⟩ :=
    (Change.perform_eq_ok placed admissible.registered).mp performed
  exact ⟨back, revert, admissible, rfl, updated, by simp⟩

structure Makes (change : Change) (manipulator result : ScheduleManipulator scorer) :
    Prop where
  admissible : Admissible schedule manipulator.assignments change
  updated : change.updateScorer scorer manipulator.assignments manipulator.scorerState =
    .ok result.scorerState
  assignments : result.assignments = change.apply manipulator.assignments

theorem makes_of_guarded {operation : Operation} {answer : Bool}
    (undoable : Undoable schedule manipulator.assignments manipulator.history)
    (guarded : operation.Guarded schedule manipulator.assignments)
    (returned : operation.run constraints manipulator = .ok (answer, result)) :
    (answer = false ∧ result = manipulator) ∨
      answer = true ∧ Undoable schedule result.assignments result.history ∧
        ∃ change, operation.change manipulator.history = some change ∧
          Makes change manipulator result := by
  cases operation with
  | call change force =>
      obtain ⟨registered, sane⟩ := guarded
      cases answer with
      | false => exact Or.inl ⟨rfl, (Change.call_eq_false.mp returned).2.2⟩
      | true =>
          right
          have performed := (Change.call_eq_true.mp returned).2
          have admissible : Admissible schedule manipulator.assignments change := by
            rcases sane with nonForced | admissible
            · subst nonForced
              exact (admissible_of_call undoable.sound registered returned).1
            · exact admissible
          obtain ⟨-, action, scorerState, recorded, updated, rfl⟩ :=
            (Change.perform_eq_ok undoable.sound.placed registered).mp performed
          exact ⟨rfl, undoable.record admissible recorded, change, rfl, admissible, updated, rfl⟩
  | undo =>
      rcases List.eq_nil_or_concat manipulator.history with empty | ⟨history, action, recorded⟩
      · rw [Operation.run, ScheduleManipulator.undo_nil empty] at returned
        cases returned
        exact Or.inl ⟨rfl, rfl⟩
      · right
        rw [List.concat_eq_append] at recorded
        obtain ⟨back, revert, admissible, assignments, updated, historyLeft⟩ :=
          undo_of_undoable undoable recorded returned
        have undone := ((ScheduleManipulator.undo_eq_ok recorded revert).mp returned).1
        rw [recorded] at undoable
        obtain ⟨other, otherRevert, -, undoableAfter⟩ := undoable.undo
        rw [revert, Option.some.injEq] at otherRevert
        subst otherRevert
        refine ⟨undone, ?_, back, ?_, admissible, updated, assignments⟩
        · rw [assignments, historyLeft]
          exact undoableAfter
        · rw [Operation.change, recorded]
          simpa using revert

theorem Operation.guarded_of_nonForced {assignments : Assignments} {operation : Operation}
    (registered : operation.Registered schedule) (nonForced : operation.NonForced) :
    operation.Guarded schedule assignments := by
  cases operation with
  | call change force => exact ⟨registered, Or.inl nonForced⟩
  | undo => trivial

theorem makes_of_step
    (undoable : Undoable schedule manipulator.assignments manipulator.history)
    (step : Step constraints
      (fun operation => operation.Registered schedule ∧ operation.NonForced)
      manipulator result) :
    result = manipulator ∨
      Undoable schedule result.assignments result.history ∧
        ∃ change, Makes change manipulator result := by
  obtain ⟨operation, answer, ⟨registered, nonForced⟩, returned⟩ := step
  have guarded : operation.Guarded schedule manipulator.assignments :=
    Operation.guarded_of_nonForced registered nonForced
  rcases makes_of_guarded undoable guarded returned with
    ⟨-, same⟩ | ⟨-, undoableAfter, change, -, makes⟩
  · exact Or.inl same
  · exact Or.inr ⟨undoableAfter, change, makes⟩

theorem undoable_run
    (undoable : Undoable schedule manipulator.assignments manipulator.history)
    (run : Run constraints
      (fun operation => operation.Registered schedule ∧ operation.NonForced)
      manipulator result) :
    Undoable schedule result.assignments result.history := by
  induction run with
  | refl => exact undoable
  | tail _ step ih =>
      rcases makes_of_step ih step with same | ⟨undoableAfter, -⟩
      · exact same ▸ ih
      · exact undoableAfter

end Runs

end EspWebsite.Autoscheduler
