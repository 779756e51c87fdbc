import EspWebsite.Autoscheduler.SearchResults

/-!
# The history after a search

A search that leaves an evicted section without a place reverts what it proposed once for that
section and once more at the end, so it undoes actions of its caller as well.
-/

namespace EspWebsite.Autoscheduler

open Python

/-! ## The length of the history -/

section Lengths

variable {schedule : AS_Schedule} {scorer : Scorer schedule} {constraints : CompositeConstraint}
  {manipulator result : ScheduleManipulator scorer} {change : Change} {action : Action}
  {actions : List Action} {force answer : Bool}

theorem Change.length_perform (performed : change.perform manipulator = .ok result) :
    result.history.length = manipulator.history.length + 1 := by
  rw [Change.perform_eq] at performed
  rcases bind_eq_ok.mp performed with ⟨action, _, later⟩
  rcases bind_eq_ok.mp later with ⟨scorerState, _, later⟩
  rcases bind_eq_ok.mp later with ⟨assignments, _, isResult⟩
  cases isResult
  rw [List.length_append, List.length_singleton]

theorem Change.length_call (returned : change.call constraints manipulator force =
    .ok (answer, result)) :
    result.history.length = manipulator.history.length + answer.toNat := by
  cases answer with
  | true => exact Change.length_perform (Change.call_eq_true.mp returned).2
  | false => rw [(Change.call_eq_false.mp returned).2.2, Bool.toNat_false, add_zero]

namespace SearchOptimizer

theorem length_undo (returned : manipulator.undo constraints = .ok (answer, result)) :
    result.history.length = manipulator.history.length - 1 := by
  rcases List.eq_nil_or_concat manipulator.history with empty | ⟨history, action, recorded⟩
  · rw [ScheduleManipulator.undo_nil empty] at returned
    cases returned
    rw [empty]
    rfl
  · rw [List.concat_eq_append] at recorded
    cases revert : action.revert with
    | some change =>
        rcases (ScheduleManipulator.undo_eq_ok recorded revert).mp returned with
          ⟨-, reverted, performed, rfl⟩
        have length := Change.length_perform performed
        rw [List.length_dropLast, length, recorded, List.length_append, List.length_singleton]
    | none =>
        have popped : manipulator.history.dropLast = history := by simp [recorded]
        have isLast : manipulator.history.getLast? = some action := by simp [recorded]
        cases action with
        | schedule _ _ => cases revert
        | move _ _ _ => cases revert
        | unschedule _ _ => cases revert
        | swap sections originalRoomslots =>
            simp only [ScheduleManipulator.undo, isLast, ScheduleManipulator.revertAction,
              ScheduleManipulator.swapUnpacked] at returned
            rw [ActionDict.revert] at revert
            split at revert
            next => cases revert
            next notPair =>
              split at returned
              next section1 section2 isPair => exact absurd isPair (notPair section1 section2)
              next => cases returned

theorem length_revert {number : ℕ}
    (returned : revert constraints number manipulator = .ok result) :
    result.history.length = manipulator.history.length - number := by
  induction number generalizing manipulator with
  | zero =>
      cases returned
      rfl
  | succ number ih =>
      rw [revert] at returned
      rcases bind_eq_ok.mp returned with ⟨⟨answer, undone⟩, first, later⟩
      rw [ih later, length_undo first, Nat.sub_sub, Nat.add_comm 1]

theorem length_performAction (returned : manipulator.performAction constraints action =
    .ok (answer, result)) :
    result.history.length ≤ manipulator.history.length + 1 := by
  cases replay : action.replay with
  | some change =>
      rw [ScheduleManipulator.performAction_eq replay] at returned
      rw [Change.length_call returned]
      exact Nat.add_le_add_left (Bool.toNat_le answer) _
  | none =>
      cases action with
      | schedule _ _ => cases replay
      | move _ _ _ => cases replay
      | unschedule _ _ => cases replay
      | swap sections originalRoomslots =>
          rw [ScheduleManipulator.performAction, ScheduleManipulator.swapUnpacked] at returned
          rw [ActionDict.replay] at replay
          split at replay
          next => cases replay
          next notPair =>
            split at returned
            next section1 section2 isPair => exact absurd isPair (notPair section1 section2)
            next => cases returned

theorem length_performBest (returned : performBest constraints actions manipulator = .ok result) :
    result.history.length ≤ manipulator.history.length + actions.length := by
  induction actions generalizing manipulator with
  | nil =>
      cases returned
      exact le_rfl
  | cons action rest ih =>
      rw [performBest] at returned
      rcases bind_eq_ok.mp returned with ⟨⟨answer, middle⟩, performed, later⟩
      have first := length_performAction performed
      have others := ih later
      rw [List.length_cons]
      omega

theorem length_clearSlots {depth length : ℕ} {slots : List AS_RoomSlot}
    {otherSections : List AS_ClassSection} {cleared : Cleared scorer}
    (recorded : manipulator.history.length = length + actions.length)
    (untouched : depth = 1 → actions = [])
    (returned : clearSlots constraints depth slots otherSections actions manipulator =
      .ok cleared) :
    cleared.manipulator.history.length =
      length + if cleared.failed then 0 else cleared.proposedActions.length := by
  induction slots generalizing otherSections actions manipulator with
  | nil =>
      cases returned
      rw [if_neg Bool.false_ne_true]
      exact recorded
  | cons slot rest ih =>
      rw [clearSlots] at returned
      split at returned
      next => exact ih recorded untouched returned
      next other _ =>
        split at returned
        next shallow =>
          cases returned
          rw [if_pos rfl, recorded, untouched shallow, List.length_nil]
        next deep =>
          rcases bind_eq_ok.mp returned with ⟨⟨success, after⟩, unscheduled, later⟩
          have called : Change.call constraints manipulator false (.unschedule other) =
              .ok (success, after) := unscheduled
          have length := Change.length_call called
          cases success with
          | true =>
              rcases bind_eq_ok.mp later with ⟨proposed, isProposed, later⟩
              rw [updateProposedActions] at isProposed
              rcases bind_eq_ok.mp isProposed with ⟨action, _, isProposed⟩
              cases isProposed
              refine ih ?_ (fun isOne => absurd isOne deep) later
              rw [length, recorded, List.length_append, List.length_singleton, Bool.toNat_true,
                Nat.add_assoc]
          | false =>
              rcases bind_eq_ok.mp later with ⟨reverted, isReverted, isCleared⟩
              cases isCleared
              rw [if_pos rfl, length_revert isReverted, length, recorded, Bool.toNat_false]
              omega

theorem length_place {sec : AS_ClassSection} {roomslot : AS_RoomSlot}
    (returned : place constraints sec roomslot manipulator = .ok (answer, result)) :
    result.history.length = manipulator.history.length + answer.toNat := by
  rw [place] at returned
  split at returned
  next =>
    have called : Change.call constraints manipulator false (.move sec roomslot) =
        .ok (answer, result) := returned
    exact Change.length_call called
  next =>
    have called : Change.call constraints manipulator false (.schedule sec roomslot) =
        .ok (answer, result) := returned
    exact Change.length_call called

/-! ## Searches that strand a section -/

variable {nested : AS_ClassSection → SearchState scorer → Bool}
  {optimizeSection :
    AS_ClassSection → SearchState scorer → Raises (List Action × SearchState scorer)}
  {state after : SearchState scorer} {sec : AS_ClassSection}

/-- A search of the given depth, or in its place a function that does what it does: the history
grows by the returned actions at most, and by fewer if a section is stranded. -/
def Loses (nested : AS_ClassSection → SearchState scorer → Bool)
    (optimizeSection :
      AS_ClassSection → SearchState scorer → Raises (List Action × SearchState scorer)) : Prop :=
  ∀ (sec : AS_ClassSection) (before after : SearchState scorer) (actions : List Action),
    optimizeSection sec before = .ok (actions, after) →
      after.manipulator.history.length ≤
          before.manipulator.history.length + actions.length ∧
        (nested sec before = false → 0 < before.manipulator.history.length →
          after.manipulator.history.length <
            before.manipulator.history.length + actions.length)

/-- When an evicted section finds no place, the history gets shorter than what is proposed. -/
theorem length_rehome (loses : Loses nested optimizeSection) {length : ℕ}
    {otherSections : List AS_ClassSection} {proposed : List Action} (proposes : 0 < actions.length)
    (recorded : state.manipulator.history.length ≤ length + actions.length)
    (returned : rehome constraints optimizeSection otherSections actions state =
      .ok (proposed, after)) :
    after.manipulator.history.length ≤ length + proposed.length ∧
      (state.manipulator.history.length < length + actions.length ∨
          rehomesAll nested optimizeSection otherSections state = false →
        after.manipulator.history.length < length + proposed.length) := by
  induction otherSections generalizing actions state with
  | nil =>
      cases returned
      exact ⟨recorded, fun lost => lost.resolve_right Bool.true_eq_false_eq_False⟩
  | cons other rest ih =>
      rw [rehome] at returned
      rcases bind_eq_ok.mp returned with ⟨⟨found, middle⟩, search, later⟩
      rcases loses other _ _ _ search with ⟨grows, losesThere⟩
      have total : (actions ++ found).length = actions.length + found.length :=
        List.length_append
      cases scheduled : middle.manipulator.isScheduled other with
      | true =>
          simp only [scheduled, if_true] at later
          rcases ih (by omega) (by omega) later with ⟨atMost, fewer⟩
          refine ⟨atMost, fun lost => fewer ?_⟩
          simp only [rehomesAll, search, scheduled, Bool.true_and, Bool.and_eq_false_iff] at lost
          rcases lost with lostBefore | strands | strandsLater
          · left
            omega
          · left
            by_cases empty : state.manipulator.history.length = 0
            · omega
            · have lostThere := losesThere strands (Nat.pos_of_ne_zero empty)
              omega
          · exact .inr strandsLater
      | false =>
          -- what is reverted here is reverted once more at the end
          simp only [scheduled, Bool.false_eq_true, if_false] at later
          rcases bind_eq_ok.mp later with ⟨reverted, isReverted, later⟩
          have length := length_revert isReverted
          rcases ih (by omega) (by dsimp only; omega) later with ⟨atMost, fewer⟩
          refine ⟨atMost, fun _ => fewer (.inl ?_)⟩
          dsimp only
          omega

theorem evictsMovable_true {depth : ℕ} {slots : List AS_RoomSlot} :
    evictsMovable constraints (fun _ _ => true) depth slots manipulator = true := by
  induction slots generalizing manipulator with
  | nil => rfl
  | cons slot rest ih =>
      rw [evictsMovable]
      split
      next => exact ih
      next other _ =>
        split
        next => rfl
        next =>
          split
          next after _ => exact ih
          next => rfl

variable {depth : ℕ} {best better : Best} {roomslot : AS_RoomSlot}

theorem length_tryRoomslot (loses : Loses nested optimizeSection)
    (returned : tryRoomslot constraints optimizeSection depth sec roomslot best state =
      .ok (better, after)) :
    after.manipulator.history.length ≤ state.manipulator.history.length ∧
      (triesSafely constraints (fun _ _ => true) nested optimizeSection depth sec
          roomslot state = false → 0 < state.manipulator.history.length →
        after.manipulator.history.length < state.manipulator.history.length) := by
  rw [tryRoomslot] at returned
  rcases bind_eq_ok.mp returned with ⟨cleared, isCleared, later⟩
  have starts : state.manipulator.history.length =
      state.manipulator.history.length + ([] : List Action).length := rfl
  have clearedLength := length_clearSlots starts (fun _ => rfl) isCleared
  rw [triesSafely, evictsMovable_true, Bool.true_and, isCleared]
  dsimp only
  split at later
  next failed =>
    cases later
    rw [if_pos failed] at clearedLength
    exact ⟨clearedLength.le, fun strands => by simp [failed] at strands⟩
  next cleared' =>
    rw [if_neg cleared'] at clearedLength
    rcases bind_eq_ok.mp later with ⟨⟨success, manipulator⟩, placed, later⟩
    have placedLength := length_place placed
    cases success with
    | false =>
        simp only [Bool.not_false, if_true] at later
        rcases bind_eq_ok.mp later with ⟨reverted, isReverted, isResult⟩
        cases isResult
        have length := length_revert isReverted
        rw [placed]
        refine ⟨by simp only [Bool.toNat_false] at placedLength; dsimp only; omega, ?_⟩
        intro strands
        simp at strands
    | true =>
        simp only [Bool.not_true, Bool.false_eq_true, if_false] at later
        rcases bind_eq_ok.mp later with ⟨proposed, isProposed, later⟩
        rcases bind_eq_ok.mp later with ⟨⟨whole, found⟩, isRehomed, later⟩
        rcases bind_eq_ok.mp later with ⟨newScore, _, later⟩
        rcases bind_eq_ok.mp later with ⟨reverted, isReverted, isResult⟩
        cases isResult
        rw [updateProposedActions] at isProposed
        rcases bind_eq_ok.mp isProposed with ⟨action, _, isProposed⟩
        cases isProposed
        have proposes : 0 < (cleared.proposedActions ++ [action]).length := by
          rw [List.length_append]
          exact Nat.succ_pos _
        have recorded : manipulator.history.length ≤
            state.manipulator.history.length + (cleared.proposedActions ++ [action]).length := by
          rw [placedLength, clearedLength, List.length_append, List.length_singleton,
            Bool.toNat_true, Nat.add_assoc]
        rcases length_rehome loses proposes recorded isRehomed with ⟨atMost, fewer⟩
        have length := length_revert isReverted
        dsimp only at length
        rw [placed]
        refine ⟨by dsimp only; omega, fun strands nonempty => ?_⟩
        simp only [Bool.eq_false_iff.mpr cleared', Bool.false_or, Bool.true_and] at strands
        have lost := fewer (.inr strands)
        dsimp only
        omega

theorem length_tryRoomslots (loses : Loses nested optimizeSection) {roomslots : List AS_RoomSlot}
    (returned : tryRoomslots constraints optimizeSection depth sec roomslots best state =
      .ok (better, after)) :
    after.manipulator.history.length ≤ state.manipulator.history.length ∧
      (searchesSafely constraints (fun _ _ => true) nested optimizeSection depth sec
          roomslots best state = false → 0 < state.manipulator.history.length →
        after.manipulator.history.length < state.manipulator.history.length) := by
  induction roomslots generalizing best state with
  | nil =>
      cases returned
      exact ⟨le_rfl, fun strands => nomatch strands⟩
  | cons roomslot rest ih =>
      rw [tryRoomslots] at returned
      rcases bind_eq_ok.mp returned with ⟨⟨bestSoFar, middle⟩, tried, later⟩
      rcases length_tryRoomslot loses tried with ⟨atMost, fewer⟩
      rcases ih later with ⟨atMostLater, fewerLater⟩
      refine ⟨atMostLater.trans atMost, fun strands nonempty => ?_⟩
      simp only [searchesSafely, tried, Bool.and_eq_false_iff] at strands
      rcases strands with strands | strandsLater
      · exact atMostLater.trans_lt (fewer strands nonempty)
      · by_cases empty : middle.manipulator.history.length = 0
        · omega
        · exact (fewerLater strandsLater (Nat.pos_of_ne_zero empty)).trans_le atMost

theorem length_optimizeSection (expired : ℕ → Bool) (depth : ℕ) :
    Loses (strandsNone constraints (fun _ _ => true) expired depth)
      (SearchOptimizer.optimizeSection constraints expired depth : AS_ClassSection →
        SearchState scorer → Raises (List Action × SearchState scorer)) := by
  induction depth with
  | zero =>
      intro sec before after actions returned
      cases returned
      exact ⟨le_rfl, fun strands => nomatch strands⟩
  | succ depth ih =>
      intro sec before after actions returned
      rw [SearchOptimizer.optimizeSection] at returned
      rw [strandsNone]
      split at returned
      next isExpired =>
        cases returned
        exact ⟨le_rfl, fun strands => by simp [isExpired] at strands⟩
      next inTime =>
        rcases bind_eq_ok.mp returned with ⟨score, isScore, later⟩
        rcases bind_eq_ok.mp later with ⟨⟨best, middle⟩, tried, later⟩
        rcases bind_eq_ok.mp later with ⟨manipulator, performed, isResult⟩
        cases isResult
        rcases length_tryRoomslots ih tried with ⟨atMost, fewer⟩
        have performs := length_performBest performed
        dsimp only at atMost fewer isScore
        refine ⟨by dsimp only; omega, fun strands nonempty => ?_⟩
        simp only [Bool.eq_false_iff.mpr inTime, Bool.false_or, isScore] at strands
        have lost := fewer strands nonempty
        dsimp only
        omega

end SearchOptimizer

end Lengths

/-! ## What a search promises -/

namespace SearchOptimizer

section Promises

variable {schedule : AS_Schedule} {constraints : CompositeConstraint} {expired : ℕ → Bool}
  {depth : ℕ} {sec : AS_ClassSection} {actions : List Action}

/-- The history has grown by the returned actions, and these lead from the schedule before the
search to the one after it. -/
def Accounts {scorer : Scorer schedule} (constraints : CompositeConstraint)
    (before after : ScheduleManipulator scorer) (actions : List Action) : Prop :=
  after.history = before.history ++ actions ∧
    ScheduleManipulator.performActions constraints actions
        (⟨before.assignments, (), []⟩ : ScheduleManipulator (compositeOf schedule [])) =
      .ok (true, ⟨after.assignments, (), actions⟩)

/-- A search accounts for what it does if no evicted section is left without a place, and the
sections that it evicts and moves have just the roomslots that their duration takes.  With
something in the history before, it does so only if no evicted section is left without a
place. -/
theorem optimizeSection_accounts {scorer : Scorer schedule} {before after : SearchState scorer}
    (passes : PassesChecks schedule before.manipulator.assignments)
    (listed : sec ∈ schedule.classSections)
    (returned : SearchOptimizer.optimizeSection constraints expired depth sec before =
      .ok (actions, after)) :
    (strandsNone constraints canonical expired depth sec before = true →
        Accounts constraints before.manipulator after.manipulator actions) ∧
      (before.manipulator.history ≠ [] →
        Accounts constraints before.manipulator after.manipulator actions →
          strandsNone constraints (fun _ _ => true) expired depth sec before = true) := by
  constructor
  · intro safe
    have finds := optimizeSection_spec determines_assignments expired depth sec listed
      before after actions passes.sound.placed safe returned
    exact ⟨finds.reaches.history, finds.reaches.leads.performActions⟩
  · intro nonempty accounts
    by_contra strands
    have fewer := (length_optimizeSection expired depth sec before after actions
      returned).2 (Bool.eq_false_iff.mpr strands) (List.length_pos_iff.mpr nonempty)
    rw [accounts.1, List.length_append] at fewer
    exact lt_irrefl _ fewer

/-- No section has lost its place, and the score has not fallen. -/
def Improves {scorer : Scorer schedule} (before after : ScheduleManipulator scorer) : Prop :=
  Keeps before after ∧
    ∀ score better, scorer.scoreSchedule before.scorerState = .ok score →
      scorer.scoreSchedule after.scorerState = .ok better → score ≤ better

end Promises

/-! ## Two hours for two sections -/

namespace TwoHours

open SmallSchedule

def room : AS_Classroom := ⟨"A", 20, [ten, eleven], [], by decide⟩

/-- One room, two hours, and three hours of sections. -/
def twoHours : AS_Schedule where
  timeslots := [ten, eleven]
  classSections := [long, short]
  teachers := [teacher]
  classrooms := [room]
  lunchTimeslots := []
  timeslotIds := by decide
  sectionIds := small.sectionIds
  teacherIds := small.teacherIds
  classroomNames := by decide
  teachersRegistered := small.teachersRegistered
  teachersDistinct := small.teachersDistinct
  timeslotsRegistered := by decide

/-- The number of sections is scored. -/
abbrev counting : Scorer twoHours := compositeOf twoHours [(.numSections, 1)]

/-- The long section has been scheduled. -/
def started : Raises (ScheduleManipulator counting) := do
  let manipulator ← ScheduleManipulator.create counting vacant
  let (_, manipulator) ← manipulator.scheduleSection required long ⟨ten, room⟩
  return manipulator

/-- The records that there are before and after a search for a place for the short section, and
whether the long one has a place. -/
def searched : Raises (List Action × (Bool × ℕ) × (Bool × ℕ)) := do
  let manipulator ← started
  let (actions, after) ← SearchOptimizer.optimizeSection required (fun _ => false) 2 short
    ⟨manipulator, 0⟩
  return (actions, (manipulator.isScheduled long, manipulator.history.length),
    after.manipulator.isScheduled long, after.manipulator.history.length)

/-- At eleven the short section evicts the long one, which finds no place.  The search of that
is reverted twice, with the call that had scheduled the long section. -/
theorem search_undoes_start :
    ∃ (manipulator : ScheduleManipulator counting) (after : SearchState counting),
      started = .ok manipulator ∧ PassesChecks twoHours manipulator.assignments ∧
        SearchOptimizer.optimizeSection required (fun _ => false) 2 short ⟨manipulator, 0⟩ =
          .ok ([], after) ∧
        manipulator.isScheduled long = true ∧ manipulator.history.length = 1 ∧
          after.manipulator.isScheduled long = false ∧ after.manipulator.history.length = 0 := by
  have computed : searched = .ok ([], (true, 1), false, 0) := by decide +kernel
  have consistent : (started >>= fun manipulator =>
      runAllConsistencyChecks twoHours manipulator.assignments) = .ok () := by decide +kernel
  have accepted : ∀ constraint ∈ Constraint.required, (started >>= fun manipulator =>
      constraint.checkSchedule twoHours manipulator.assignments) = .ok none := by decide +kernel
  rcases bind_eq_ok.mp computed with ⟨manipulator, isStarted, later⟩
  rcases bind_eq_ok.mp later with ⟨⟨actions, after⟩, returned, shown⟩
  simp only [isStarted, ok_bind] at consistent accepted
  simp only [pure_eq_ok, Except.ok.injEq, Prod.mk.injEq] at shown
  rcases shown with ⟨rfl, ⟨wasScheduled, wasRecorded⟩, isScheduled, isRecorded⟩
  exact ⟨manipulator, after, isStarted, ⟨consistent, accepted⟩, returned, wasScheduled,
    wasRecorded, isScheduled, isRecorded⟩

/-- The call that had scheduled the long section is gone from the history, though the search
returns no actions. -/
theorem not_accounts_twoHours :
    ∃ (manipulator : ScheduleManipulator counting) (after : SearchState counting)
        (actions : List Action),
      started = .ok manipulator ∧ PassesChecks twoHours manipulator.assignments ∧
        SearchOptimizer.optimizeSection required (fun _ => false) 2 short ⟨manipulator, 0⟩ =
          .ok (actions, after) ∧
        ¬ Accounts required manipulator after.manipulator actions := by
  rcases search_undoes_start with
    ⟨manipulator, after, isStarted, passes, returned, -, wasRecorded, -, isRecorded⟩
  refine ⟨manipulator, after, [], isStarted, passes, returned, fun accounts => ?_⟩
  rw [accounts.1, List.append_nil, wasRecorded] at isRecorded
  cases isRecorded

theorem search_vacant :
    ∃ (manipulator : ScheduleManipulator counting) (after : SearchState counting)
        (actions : List Action),
      ScheduleManipulator.create counting vacant = .ok manipulator ∧
        PassesChecks twoHours manipulator.assignments ∧
        SearchOptimizer.optimizeSection required (fun _ => false) 2 long ⟨manipulator, 0⟩ =
          .ok (actions, after) ∧
        actions.length = 1 ∧
          strandsNone required canonical (fun _ => false) 2 long ⟨manipulator, 0⟩ = true := by
  have computed : (do
      let manipulator ← ScheduleManipulator.create counting vacant
      let (actions, _) ← SearchOptimizer.optimizeSection required (fun _ => false) 2 long
        ⟨manipulator, 0⟩
      return (actions.length,
        strandsNone required canonical (fun _ => false) 2 long ⟨manipulator, 0⟩)) =
      .ok (1, true) := by decide +kernel
  rcases bind_eq_ok.mp computed with ⟨manipulator, created, later⟩
  rcases bind_eq_ok.mp later with ⟨⟨actions, after⟩, returned, shown⟩
  simp only [pure_eq_ok, Except.ok.injEq, Prod.mk.injEq] at shown
  have passes : PassesChecks twoHours manipulator.assignments := by
    rw [(create_eq_ok.mp created).2.1]
    exact ⟨by decide, by decide⟩
  exact ⟨manipulator, after, actions, created, passes, returned, shown.1, shown.2⟩

theorem accounts_vacant :
    ∃ (manipulator : ScheduleManipulator counting) (after : SearchState counting)
        (actions : List Action),
      actions.length = 1 ∧ Accounts required manipulator after.manipulator actions := by
  rcases search_vacant with ⟨manipulator, after, actions, -, passes, returned, found, safe⟩
  exact ⟨manipulator, after, actions, found,
    (optimizeSection_accounts passes (by decide) returned).1 safe⟩

end TwoHours

end SearchOptimizer

end EspWebsite.Autoscheduler
