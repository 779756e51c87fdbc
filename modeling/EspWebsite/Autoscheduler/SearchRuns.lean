import EspWebsite.Autoscheduler.SearchHistory

/-!
# Searches as runs

Whatever a search does is a run of calls that are not forced, and of undos.  Everything that is
known of such runs holds of searches, also where they strand sections.
-/

namespace EspWebsite.Autoscheduler

open Python SmallSchedule

variable {schedule : AS_Schedule} {scorer : Scorer schedule} {constraints : CompositeConstraint}

/-- What a search may do: undo, or call without force on what is in the schedule. -/
def Operation.Plain (schedule : AS_Schedule) (operation : Operation) : Prop :=
  operation.Registered schedule ∧ operation.NonForced

namespace SearchOptimizer

variable {manipulator result : ScheduleManipulator scorer} {actions : List Action}
  {answer : Bool} {depth : ℕ} {sec : AS_ClassSection} {roomslot : AS_RoomSlot}
  {best found : Best} {before after : SearchState scorer}
  {nested : AS_ClassSection → SearchState scorer → Raises (List Action × SearchState scorer)}

/-- Performing the actions again calls for registered changes. -/
def Proposes (schedule : AS_Schedule) (actions : List Action) : Prop :=
  ∀ action ∈ actions, ∃ change, action.replay = some change ∧ change.Registered schedule

/-- A manipulator is reached by a run, with actions that can be proposed. -/
structure Plays (constraints : CompositeConstraint) (manipulator : ScheduleManipulator scorer)
    (actions : List Action) (result : ScheduleManipulator scorer) : Prop where
  run : Run constraints (Operation.Plain schedule) manipulator result
  proposes : Proposes schedule actions

/-- A search plays, on a section of the schedule. -/
def AlwaysPlays (constraints : CompositeConstraint)
    (nested : AS_ClassSection → SearchState scorer →
      Raises (List Action × SearchState scorer)) : Prop :=
  ∀ sec before actions after,
    Undoable schedule before.manipulator.assignments before.manipulator.history →
      sec ∈ schedule.classSections → nested sec before = .ok (actions, after) →
        Plays constraints before.manipulator actions after.manipulator

theorem run_call {change : Change} (registered : change.Registered schedule)
    (called : change.call constraints manipulator false = .ok (answer, result)) :
    Run constraints (Operation.Plain schedule) manipulator result :=
  .single ⟨.call change false, answer, ⟨registered, rfl⟩, called⟩

theorem run_revert {number : ℕ} (returned : revert constraints number manipulator = .ok result) :
    Run constraints (Operation.Plain schedule) manipulator result := by
  induction number generalizing manipulator with
  | zero =>
      cases returned
      exact .refl
  | succ number ih =>
      rcases bind_eq_ok.mp returned with ⟨⟨answer, undone⟩, first, later⟩
      exact .head ⟨.undo, answer, ⟨trivial, trivial⟩, first⟩ (ih later)

theorem proposes_append {more : List Action} (first : Proposes schedule actions)
    (second : Proposes schedule more) : Proposes schedule (actions ++ more) := by
  intro action listed
  rcases List.mem_append.mp listed with earlier | later
  · exact first action earlier
  · exact second action later

/-- A record that can be undone was made by a registered change. -/
theorem proposes_updateProposedActions {proposed : List Action}
    (undoable : Undoable schedule manipulator.assignments manipulator.history)
    (proposes : Proposes schedule actions)
    (returned : updateProposedActions actions manipulator = .ok proposed) :
    Proposes schedule proposed := by
  rcases bind_eq_ok.mp returned with ⟨action, isLast, same⟩
  cases same
  refine proposes_append proposes fun other listed => ?_
  rw [List.mem_singleton.mp listed]
  generalize manipulator.history = history at undoable isLast
  cases undoable with
  | nil _ => cases isLast
  | snoc _ admissible recorded _ _ =>
      rw [last, List.getLast?_concat] at isLast
      cases isLast
      exact ⟨_, Change.replay_of_record recorded, admissible.registered⟩

theorem plays_clearSlots {slots : List AS_RoomSlot} {otherSections : List AS_ClassSection}
    {cleared : Cleared scorer}
    (undoable : Undoable schedule manipulator.assignments manipulator.history)
    (registered : ∀ slot ∈ slots, slot ∈ schedule.roomslots)
    (proposes : Proposes schedule actions)
    (listed : ∀ other ∈ otherSections, other ∈ schedule.classSections)
    (returned : clearSlots constraints depth slots otherSections actions manipulator =
      .ok cleared) :
    Plays constraints manipulator cleared.proposedActions cleared.manipulator ∧
      ∀ other ∈ cleared.otherSections, other ∈ schedule.classSections := by
  induction slots generalizing otherSections actions manipulator with
  | nil =>
      cases returned
      exact ⟨⟨.refl, proposes⟩, listed⟩
  | cons slot rest ih =>
      rw [List.forall_mem_cons] at registered
      rw [clearSlots] at returned
      split at returned
      next => exact ih undoable registered.2 proposes listed returned
      next other holder =>
        split at returned
        next =>
          cases returned
          exact ⟨⟨.refl, proposes⟩, listed⟩
        next =>
          have isListed := undoable.sound.placed.agrees.owner_of_holder slot registered.1 other holder
          have allListed : ∀ evicted ∈ otherSections ++ [other],
              evicted ∈ schedule.classSections := by
            simpa [or_imp, forall_and] using ⟨listed, isListed⟩
          rcases bind_eq_ok.mp returned with ⟨⟨success, middle⟩, unscheduled, later⟩
          have run : Run constraints (Operation.Plain schedule) manipulator middle :=
            @run_call _ _ _ _ _ _ (.unschedule other) isListed unscheduled
          cases success with
          | true =>
              rcases bind_eq_ok.mp later with ⟨proposed, isProposed, later⟩
              have undoableAfter := undoable_run undoable run
              rcases ih undoableAfter registered.2
                  (proposes_updateProposedActions undoableAfter proposes isProposed)
                  allListed later with ⟨plays, stillListed⟩
              exact ⟨⟨run.trans plays.run, plays.proposes⟩, stillListed⟩
          | false =>
              rcases bind_eq_ok.mp later with ⟨reverted, isReverted, isCleared⟩
              cases isCleared
              exact ⟨⟨run.trans (run_revert isReverted), proposes⟩, allListed⟩

theorem run_place (listed : sec ∈ schedule.classSections)
    (registered : roomslot ∈ schedule.roomslots)
    (returned : place constraints sec roomslot manipulator = .ok (answer, result)) :
    Run constraints (Operation.Plain schedule) manipulator result := by
  rw [place] at returned
  split at returned
  next => exact @run_call _ _ _ _ _ _ (.move sec roomslot) ⟨listed, registered⟩ returned
  next => exact @run_call _ _ _ _ _ _ (.schedule sec roomslot) ⟨listed, registered⟩ returned

theorem plays_rehome (always : AlwaysPlays constraints nested)
    {otherSections : List AS_ClassSection} {proposed : List Action}
    (undoable : Undoable schedule before.manipulator.assignments before.manipulator.history)
    (proposes : Proposes schedule proposed)
    (listed : ∀ other ∈ otherSections, other ∈ schedule.classSections)
    (returned : rehome constraints nested otherSections proposed before = .ok (actions, after)) :
    Plays constraints before.manipulator actions after.manipulator := by
  induction otherSections generalizing proposed before with
  | nil =>
      cases returned
      exact ⟨.refl, proposes⟩
  | cons other rest ih =>
      rw [List.forall_mem_cons] at listed
      rcases bind_eq_ok.mp returned with ⟨⟨more, middle⟩, searched, later⟩
      have plays := always other before more middle undoable listed.1 searched
      have undoableAfter := undoable_run undoable plays.run
      have allProposed := proposes_append proposes plays.proposes
      dsimp only at later
      split at later
      next =>
        have rehomed := ih undoableAfter allProposed listed.2 later
        exact ⟨plays.run.trans rehomed.run, rehomed.proposes⟩
      next =>
        rcases bind_eq_ok.mp later with ⟨reverted, isReverted, later⟩
        have run := run_revert isReverted
        have rehomed := ih (undoable_run undoableAfter run) allProposed listed.2 later
        exact ⟨plays.run.trans (run.trans rehomed.run), rehomed.proposes⟩

theorem plays_tryRoomslot (always : AlwaysPlays constraints nested)
    (undoable : Undoable schedule before.manipulator.assignments before.manipulator.history)
    (listed : sec ∈ schedule.classSections) (registered : roomslot ∈ schedule.roomslots)
    (proposes : Proposes schedule best.actions)
    (returned : tryRoomslot constraints nested depth sec roomslot best before =
      .ok (found, after)) :
    Plays constraints before.manipulator found.actions after.manipulator := by
  rcases bind_eq_ok.mp returned with ⟨cleared, isCleared, later⟩
  have slotsRegistered : ∀ slot ∈ getRoomslotsByDuration roomslot sec.duration,
      slot ∈ schedule.roomslots := by
    rcases WellPlaced.run_of_start sec.duration registered with ⟨room, isRoom, isRun⟩
    exact fun slot isSlot => List.mem_flatMap.mpr ⟨room, isRoom, isRun.subset isSlot⟩
  rcases plays_clearSlots undoable slotsRegistered (List.forall_mem_nil _)
    (List.forall_mem_nil _) isCleared with ⟨clears, allListed⟩
  split at later
  next =>
    cases later
    exact ⟨clears.run, proposes⟩
  next =>
    rcases bind_eq_ok.mp later with ⟨⟨success, placed⟩, isPlaced, later⟩
    have places := clears.run.trans (run_place listed registered isPlaced)
    dsimp only at later
    split at later
    next =>
      rcases bind_eq_ok.mp later with ⟨reverted, isReverted, same⟩
      cases same
      exact ⟨places.trans (run_revert isReverted), proposes⟩
    next =>
      rcases bind_eq_ok.mp later with ⟨proposed, isProposed, later⟩
      rcases bind_eq_ok.mp later with ⟨⟨allProposed, rehomed⟩, isRehomed, later⟩
      rcases bind_eq_ok.mp later with ⟨newScore, -, later⟩
      rcases bind_eq_ok.mp later with ⟨reverted, isReverted, same⟩
      have undoableAfter := undoable_run undoable places
      have rehomes := plays_rehome always undoableAfter
        (proposes_updateProposedActions undoableAfter clears.proposes isProposed) allListed
        isRehomed
      cases same
      refine ⟨places.trans (rehomes.run.trans (run_revert isReverted)), ?_⟩
      dsimp only
      split
      next => exact rehomes.proposes
      next => exact proposes

theorem plays_tryRoomslots (always : AlwaysPlays constraints nested)
    (undoable : Undoable schedule before.manipulator.assignments before.manipulator.history)
    (listed : sec ∈ schedule.classSections) {roomslots : List AS_RoomSlot}
    (registered : ∀ roomslot ∈ roomslots, roomslot ∈ schedule.roomslots)
    (proposes : Proposes schedule best.actions)
    (returned : tryRoomslots constraints nested depth sec roomslots best before =
      .ok (found, after)) :
    Plays constraints before.manipulator found.actions after.manipulator := by
  induction roomslots generalizing best before with
  | nil =>
      cases returned
      exact ⟨.refl, proposes⟩
  | cons roomslot rest ih =>
      rw [List.forall_mem_cons] at registered
      rcases bind_eq_ok.mp returned with ⟨⟨better, middle⟩, tried, later⟩
      have first := plays_tryRoomslot always undoable listed registered.1 proposes tried
      have others := ih (undoable_run undoable first.run) registered.2 first.proposes later
      exact ⟨first.run.trans others.run, others.proposes⟩

theorem run_performBest (proposes : Proposes schedule actions)
    (returned : performBest constraints actions manipulator = .ok result) :
    Run constraints (Operation.Plain schedule) manipulator result := by
  induction actions generalizing manipulator with
  | nil =>
      cases returned
      exact .refl
  | cons action rest ih =>
      rcases List.forall_mem_cons.mp proposes with ⟨⟨change, replay, registered⟩, others⟩
      rcases bind_eq_ok.mp returned with ⟨⟨answer, middle⟩, performed, later⟩
      rw [ScheduleManipulator.performAction_eq replay] at performed
      exact (run_call registered performed).trans (ih others later)

theorem alwaysPlays_optimizeSection (expired : ℕ → Bool) (depth : ℕ) :
    AlwaysPlays constraints (@optimizeSection _ scorer constraints expired depth) := by
  induction depth with
  | zero =>
      intro sec before actions after undoable listed returned
      cases returned
      exact ⟨.refl, List.forall_mem_nil _⟩
  | succ depth ih =>
      intro sec before actions after undoable listed returned
      rw [optimizeSection] at returned
      dsimp only at returned
      split at returned
      next =>
        cases returned
        exact ⟨.refl, List.forall_mem_nil _⟩
      next =>
        rcases bind_eq_ok.mp returned with ⟨score, -, later⟩
        rcases bind_eq_ok.mp later with ⟨⟨best, searched⟩, tried, later⟩
        rcases bind_eq_ok.mp later with ⟨performed, isPerformed, same⟩
        cases same
        have none : Proposes schedule (Best.mk score []).actions := List.forall_mem_nil _
        have tries : Plays constraints before.manipulator best.actions searched.manipulator :=
          @plays_tryRoomslots _ _ _ _ _ _ _ ⟨before.manipulator, before.readings + 1⟩ searched _
            ih undoable listed _ (fun _ isRoomslot => isRoomslot) none tried
        exact ⟨tries.run.trans (run_performBest tries.proposes isPerformed), tries.proposes⟩

/-- From a schedule that passes all checks, a search after a run without forced calls goes on
with such a run, and leads to a schedule that passes them, whatever it strands. -/
theorem passesChecks_of_search {assignments : Assignments} {expired : ℕ → Bool}
    (passes : PassesChecks schedule assignments)
    (created : ScheduleManipulator.create scorer assignments = .ok manipulator)
    (run : Run constraints (Operation.Plain schedule) manipulator before.manipulator)
    (listed : sec ∈ schedule.classSections)
    (returned : optimizeSection constraints expired depth sec before = .ok (actions, after)) :
    Run constraints (Operation.Plain schedule) before.manipulator after.manipulator ∧
      PassesChecks schedule after.manipulator.assignments := by
  obtain ⟨-, sameAssignments, empty⟩ := create_eq_ok.mp created
  have undoable : Undoable schedule manipulator.assignments manipulator.history := by
    rw [sameAssignments, empty]
    exact .nil passes.sound
  have undoableBefore := undoable_run undoable run
  have searches := alwaysPlays_optimizeSection expired depth sec before actions after
    undoableBefore listed returned
  have sound := (undoable_run undoableBefore searches.run).sound
  exact ⟨searches.run, sound.consistent passes.consistent, sound.required⟩

/-- The theorem at the search that undoes the call before it. -/
theorem passesChecks_of_search_twoHours :
    ∃ (manipulator : ScheduleManipulator TwoHours.counting)
        (after : SearchState TwoHours.counting),
      manipulator.isScheduled long = true ∧ after.manipulator.isScheduled long = false ∧
        Run required (Operation.Plain TwoHours.twoHours) manipulator after.manipulator ∧
        PassesChecks TwoHours.twoHours after.manipulator.assignments := by
  rcases TwoHours.search_undoes_start with
    ⟨manipulator, after, isStarted, -, returned, wasScheduled, -, isScheduled, -⟩
  rcases bind_eq_ok.mp isStarted with ⟨empty, created, later⟩
  rcases bind_eq_ok.mp later with ⟨⟨answer, _⟩, scheduled, same⟩
  cases same
  have run := @run_call _ _ _ _ _ _ (.schedule long ⟨ten, TwoHours.room⟩)
    ⟨by decide, by decide⟩ scheduled
  exact ⟨manipulator, after, wasScheduled, isScheduled,
    passesChecks_of_search ⟨by decide, by decide⟩ created run (by decide) returned⟩

end SearchOptimizer

end EspWebsite.Autoscheduler
