import EspWebsite.Autoscheduler.Scoring.Classes
import EspWebsite.Autoscheduler.Scoring.RunningKeys
import EspWebsite.Autoscheduler.Search

/-!
# Performing actions and reverting them

A search performs actions, reverts them, and performs some of them again.  That leads back,
and to the same result again, in all that determines what calls do: the assignments, and
where the scorers are in step with the schedule, their states too.
-/

namespace EspWebsite.Autoscheduler

open Python

/-! ## Calls -/

section Calls

variable {schedule : AS_Schedule} {scorer other : Scorer schedule}
  {constraints : CompositeConstraint} {manipulator result : ScheduleManipulator scorer}
  {change : Change} {action : Action}

theorem Change.refuses_congr {left : ScheduleManipulator scorer}
    {right : ScheduleManipulator other} (same : left.assignments = right.assignments) :
    change.refuses constraints left = change.refuses constraints right := by
  rcases left with ⟨assignments, leftState, leftHistory⟩
  rcases right with ⟨_, rightState, rightHistory⟩
  cases same
  cases change <;> rfl

/-- A change is accepted and made, and the action is recorded. -/
structure Change.Performs (constraints : CompositeConstraint) (change : Change)
    (manipulator result : ScheduleManipulator scorer) (action : Action) : Prop where
  accepted : change.refuses constraints manipulator = .ok false
  possible : change.Possible manipulator.assignments
  recorded : change.record manipulator.assignments = .ok action
  updated : change.updateScorer scorer manipulator.assignments manipulator.scorerState =
    .ok result.scorerState
  assignments : result.assignments = change.apply manipulator.assignments
  history : result.history = manipulator.history ++ [action]

theorem Change.call_performs (placed : WellPlaced schedule manipulator.assignments)
    (registered : change.Registered schedule) :
    change.call constraints manipulator false = .ok (true, result) ↔
      ∃ action, change.Performs constraints manipulator result action := by
  rw [Change.call_eq_true, Change.perform_eq_ok placed registered]
  constructor
  · rintro ⟨accepted, possible, action, scorerState, recorded, updated, rfl⟩
    refine ⟨action, ?_, possible, recorded, updated, rfl, rfl⟩
    simpa using accepted
  · rintro ⟨action, performs⟩
    refine ⟨.inr performs.accepted, performs.possible, action, result.scorerState,
      performs.recorded, performs.updated, ?_⟩
    rw [← performs.assignments, ← performs.history]

theorem Change.Performs.again {right after : ScheduleManipulator other} {answer : Bool}
    (performs : change.Performs constraints manipulator result action)
    (placed : WellPlaced schedule manipulator.assignments)
    (registered : change.Registered schedule)
    (same : right.assignments = manipulator.assignments)
    (returned : change.call constraints right false = .ok (answer, after)) :
    answer = true ∧ change.Performs constraints right after action := by
  cases answer with
  | false =>
      have refused := (Change.call_eq_false.mp returned).2.1
      rw [Change.refuses_congr same, performs.accepted] at refused
      cases refused
  | true =>
      rcases (Change.call_performs (same ▸ placed) registered).mp returned with
        ⟨recorded, again⟩
      have sameAction := again.recorded
      rw [same, performs.recorded, Except.ok.injEq] at sameAction
      exact ⟨rfl, sameAction ▸ again⟩

/-- What a search may revert: a change that is no swap, and that moves or unschedules a
section from the roomslots its duration takes. -/
structure Change.Revertible (schedule : AS_Schedule) (assignments : Assignments)
    (change : Change) : Prop where
  registered : change.Registered schedule
  notSwap : ¬ change.IsSwap
  retraceable : change.Retraceable assignments

theorem Change.Revertible.tracks {assignments : Assignments}
    (revertible : change.Revertible schedule assignments) : change.Tracks assignments := by
  cases change with
  | schedule _ _ | move _ _ | unschedule _ => trivial
  | swap _ _ => exact absurd trivial revertible.notSwap

end Calls

/-! ## Views -/

/-- A view of a manipulator that determines what calls do, among manipulators that meet a
condition, and that reverting restores. -/
structure Determines {schedule : AS_Schedule} {scorer : Scorer schedule} {View : Type}
    (constraints : CompositeConstraint) (view : ScheduleManipulator scorer → View)
    (steady : ScheduleManipulator scorer → Prop) : Prop where
  assignments : ∀ {left right}, view left = view right → left.assignments = right.assignments
  placed : ∀ {manipulator}, steady manipulator → WellPlaced schedule manipulator.assignments
  congr : ∀ {left right}, view left = view right → steady right → steady left
  next : ∀ {manipulator result : ScheduleManipulator scorer} {change : Change}
      {action : Action},
    steady manipulator → change.Revertible schedule manipulator.assignments →
      change.Performs constraints manipulator result action → steady result
  determined : ∀ {manipulator result left after : ScheduleManipulator scorer}
      {change : Change} {action : Action},
    change.Performs constraints manipulator result action → view left = view manipulator →
      change.Performs constraints left after action → view after = view result
  restored : ∀ {manipulator result left after : ScheduleManipulator scorer}
      {change back : Change} {action : Action},
    steady manipulator → change.Revertible schedule manipulator.assignments →
      change.Performs constraints manipulator result action →
        change.Inverse manipulator.assignments back → view left = view result →
          back.updateScorer scorer left.assignments left.scorerState = .ok after.scorerState →
            after.assignments = back.apply left.assignments → view after = view manipulator

section Views

variable {schedule : AS_Schedule} {scorer : Scorer schedule}
  {constraints : CompositeConstraint}

theorem determines_assignments :
    Determines constraints
      (fun manipulator : ScheduleManipulator scorer => manipulator.assignments)
      (fun manipulator => WellPlaced schedule manipulator.assignments) where
  assignments same := same
  placed placed := placed
  congr same placed := by
    rw [same]
    exact placed
  next placed revertible performs := by
    rw [performs.assignments]
    exact Change.wellPlaced_apply placed revertible.registered performs.possible
  determined performs same again := by
    rw [again.assignments, performs.assignments, same]
  restored := by
    intro manipulator result left after change back action placed revertible performs inverse
      same _ reverted
    rw [reverted, same, performs.assignments]
    exact Change.apply_inverse placed revertible.registered performs.possible inverse
      revertible.retraceable

/-- The assignments and the state of the scorer determine what calls do, where the scorer is
in step with a sound schedule. -/
theorem determines_states {inStep : Assignments → scorer.State → Prop}
    (steady : Steady scorer inStep) :
    Determines constraints
      (fun manipulator : ScheduleManipulator scorer =>
        (manipulator.assignments, manipulator.scorerState))
      (fun manipulator => Sound schedule manipulator.assignments ∧
        inStep manipulator.assignments manipulator.scorerState) where
  assignments same := congrArg Prod.fst same
  placed sound := sound.1.placed
  congr same sound := by
    have sameAssignments := congrArg Prod.fst same
    have sameState := congrArg Prod.snd same
    dsimp only at sameAssignments sameState
    rw [sameAssignments, sameState]
    exact sound
  next := by
    intro manipulator result change action sound revertible performs
    have admissible : Admissible schedule manipulator.assignments change :=
      admissible_of_accepted sound.1 revertible.registered
        (Change.distinct_of_possible performs.possible) performs.accepted
    rcases steady.step sound.1 admissible revertible.tracks sound.2 with ⟨state, hook, inStep⟩
    rw [performs.updated, Except.ok.injEq] at hook
    rw [performs.assignments, hook]
    exact ⟨admissible.sound, inStep⟩
  determined := by
    intro manipulator result left after change action performs same again
    have sameAssignments := congrArg Prod.fst same
    have sameState := congrArg Prod.snd same
    dsimp only at sameAssignments sameState
    have updated := again.updated
    rw [sameAssignments, sameState, performs.updated, Except.ok.injEq] at updated
    rw [again.assignments, performs.assignments, sameAssignments, updated]
  restored := by
    intro manipulator result left after change back action sound revertible performs inverse
      same hook reverted
    have sameAssignments := congrArg Prod.fst same
    have sameState := congrArg Prod.snd same
    dsimp only at sameAssignments sameState
    have admissible : Admissible schedule manipulator.assignments change :=
      admissible_of_accepted sound.1 revertible.registered
        (Change.distinct_of_possible performs.possible) performs.accepted
    have restored := steady.back sound.1 admissible revertible.tracks inverse
      revertible.retraceable sound.2 performs.updated
    rw [sameAssignments, sameState, performs.assignments, restored, Except.ok.injEq] at hook
    rw [reverted, sameAssignments, performs.assignments, ← hook,
      Change.apply_inverse sound.1.placed revertible.registered performs.possible inverse
        revertible.retraceable]

end Views

/-! ## Sequences of actions -/

/-- The actions, performed one after the other, lead from one view to another, and can all be
reverted. -/
inductive Leads {schedule : AS_Schedule} {scorer : Scorer schedule} {View : Type}
    (constraints : CompositeConstraint) (view : ScheduleManipulator scorer → View)
    (steady : ScheduleManipulator scorer → Prop) (start : View) :
    List Action → View → Prop where
  | nil : Leads constraints view steady start [] start
  | snoc {actions : List Action} {action : Action} {change : Change}
      {manipulator result : ScheduleManipulator scorer}
      (earlier : Leads constraints view steady start actions (view manipulator))
      (isSteady : steady manipulator)
      (revertible : change.Revertible schedule manipulator.assignments)
      (performs : change.Performs constraints manipulator result action) :
      Leads constraints view steady start (actions ++ [action]) (view result)

section Sequences

variable {schedule : AS_Schedule} {scorer : Scorer schedule} {View : Type}
  {constraints : CompositeConstraint} {view : ScheduleManipulator scorer → View}
  {steady : ScheduleManipulator scorer → Prop} {start middle final : View}
  {actions more : List Action} {manipulator result : ScheduleManipulator scorer}
  {history : List Action}

theorem Leads.trans (first : Leads constraints view steady start actions middle)
    (second : Leads constraints view steady middle more final) :
    Leads constraints view steady start (actions ++ more) final := by
  induction second with
  | nil =>
      rw [List.append_nil]
      exact first
  | snoc earlier isSteady revertible performs ih =>
      rw [← List.append_assoc]
      exact .snoc ih isSteady revertible performs

theorem last_history_eq_ok {action : Action}
    (recorded : manipulator.history = history ++ [action]) :
    last manipulator.history = .ok action := by
  rw [last, recorded, List.getLast?_concat]

theorem Determines.undo (determines : Determines constraints view steady)
    {change : Change} {action : Action} {before after left : ScheduleManipulator scorer}
    {answer : Bool} (isSteady : steady before)
    (revertible : change.Revertible schedule before.assignments)
    (performs : change.Performs constraints before after action) (same : view left = view after)
    (recorded : left.history = history ++ [action])
    (returned : left.undo constraints = .ok (answer, result)) :
    view result = view before ∧ result.history = history := by
  rcases Change.inverse_of_record performs.recorded with ⟨back, revert, inverse⟩
  rcases (ScheduleManipulator.undo_eq_ok recorded revert).mp returned with
    ⟨-, reverted, backPerformed, rfl⟩
  have placed := determines.placed isSteady
  have placedAfter := determines.placed
    (determines.congr same (determines.next isSteady revertible performs))
  have backRegistered := Change.registered_inverse placed revertible.registered inverse
  have placedPopped : WellPlaced schedule
      ({ left with history := history } : ScheduleManipulator scorer).assignments := placedAfter
  rcases (Change.perform_eq_ok placedPopped backRegistered).mp backPerformed with
    ⟨-, _, scorerState, -, hook, rfl⟩
  exact ⟨determines.restored isSteady revertible performs inverse same hook rfl,
    List.dropLast_concat⟩

theorem Leads.revert (leads : Leads constraints view steady start actions final)
    (determines : Determines constraints view steady) (same : view manipulator = final)
    (recorded : manipulator.history = history ++ actions)
    (returned : SearchOptimizer.revert constraints actions.length manipulator = .ok result) :
    view result = start ∧ result.history = history := by
  induction leads generalizing manipulator with
  | nil =>
      rw [List.append_nil] at recorded
      cases returned
      exact ⟨same, recorded⟩
  | snoc earlier isSteady revertible performs ih =>
      rw [List.length_append, List.length_singleton, SearchOptimizer.revert] at returned
      rcases bind_eq_ok.mp returned with ⟨⟨answer, undone⟩, first, later⟩
      rw [← List.append_assoc] at recorded
      have before := determines.undo isSteady revertible performs same recorded first
      exact ih before.1 before.2 later

theorem performBest_append : SearchOptimizer.performBest constraints (actions ++ more) manipulator =
    SearchOptimizer.performBest constraints actions manipulator >>=
      SearchOptimizer.performBest constraints more := by
  induction actions generalizing manipulator with
  | nil => rfl
  | cons action rest ih =>
      rw [List.cons_append, SearchOptimizer.performBest, SearchOptimizer.performBest, bind_assoc]
      refine congrArg _ (funext fun returned => ?_)
      exact ih

theorem Leads.performBest (leads : Leads constraints view steady start actions final)
    (determines : Determines constraints view steady) (same : view manipulator = start)
    (returned : SearchOptimizer.performBest constraints actions manipulator = .ok result) :
    view result = final ∧ result.history = manipulator.history ++ actions := by
  induction leads generalizing result with
  | nil =>
      cases returned
      exact ⟨same, (List.append_nil _).symm⟩
  | @snoc actions action change before after earlier isSteady revertible performs ih =>
      rw [performBest_append] at returned
      rcases bind_eq_ok.mp returned with ⟨left, first, second⟩
      rcases bind_eq_ok.mp second with ⟨⟨answer, right⟩, performed, isResult⟩
      cases isResult
      rcases ih first with ⟨sameBefore, recorded⟩
      rw [ScheduleManipulator.performAction_eq (Change.replay_of_record performs.recorded)]
        at performed
      have again := performs.again (determines.placed isSteady) revertible.registered
        (determines.assignments sameBefore) performed
      refine ⟨determines.determined performs sameBefore again.2, ?_⟩
      rw [again.2.history, recorded, List.append_assoc]

theorem performActions_append
    (performed : ScheduleManipulator.performActions constraints actions manipulator =
      .ok (true, result)) :
    ScheduleManipulator.performActions constraints (actions ++ more) manipulator =
      ScheduleManipulator.performActions constraints more result := by
  induction actions generalizing manipulator with
  | nil =>
      cases performed
      rfl
  | cons action rest ih =>
      rw [ScheduleManipulator.performActions] at performed
      rcases bind_eq_ok.mp performed with ⟨⟨success, middle⟩, first, later⟩
      rw [List.cons_append, ScheduleManipulator.performActions, first, ok_bind]
      cases success with
      | true => exact ih later
      | false => cases later

theorem Leads.performActions {assignments after : Assignments}
    (leads : Leads constraints
      (fun manipulator : ScheduleManipulator scorer => manipulator.assignments)
      (fun manipulator => WellPlaced schedule manipulator.assignments) assignments actions
      after) :
    ScheduleManipulator.performActions constraints actions
        (⟨assignments, (), []⟩ : ScheduleManipulator (compositeOf schedule [])) =
      .ok (true, ⟨after, (), actions⟩) := by
  induction leads with
  | nil => rfl
  | @snoc actions action change before result earlier placed revertible performs ih =>
      let left : ScheduleManipulator (compositeOf schedule []) := ⟨before.assignments, (), actions⟩
      let right : ScheduleManipulator (compositeOf schedule []) :=
        ⟨result.assignments, (), actions ++ [action]⟩
      have again : change.Performs constraints left right action := {
        accepted := (Change.refuses_congr rfl).trans performs.accepted
        possible := performs.possible
        recorded := performs.recorded
        updated := by
          rw [CompositeScorer.updateScorer_eq]
          rfl
        assignments := performs.assignments
        history := rfl }
      have placedLeft : WellPlaced schedule left.assignments := placed
      have called : change.call constraints left false = .ok (true, right) :=
        (Change.call_performs placedLeft revertible.registered).mpr ⟨action, again⟩
      rw [performActions_append ih, ScheduleManipulator.performActions,
        ScheduleManipulator.performAction_eq (Change.replay_of_record performs.recorded), called]
      rfl

end Sequences

end EspWebsite.Autoscheduler
