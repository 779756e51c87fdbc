import EspWebsite.Autoscheduler.Manipulator

/-!
# The search for a better place for a section

`search.py`: a depth-limited search that puts a section into each roomslot in
turn, unscheduling whatever is in the way and searching a new place for it.

The clock is read once for each call that has depth left.  Whether the k-th
reading is past the timeout is a parameter, so that the results hold for every
timing; without a timeout no reading is.
-/

namespace EspWebsite.Autoscheduler

open Python

variable {schedule : AS_Schedule} {scorer : Scorer schedule}

/-- The state of a search: the manipulator, and how often the clock was read. -/
structure SearchState (scorer : Scorer schedule) where
  manipulator : ScheduleManipulator scorer
  readings : Nat

namespace SearchOptimizer

variable (constraints : CompositeConstraint)

/-- `revert`: undoes the last `n` actions. -/
def revert : Nat → ScheduleManipulator scorer → Raises (ScheduleManipulator scorer)
  | 0, manipulator => .ok manipulator
  | n + 1, manipulator => do
      let (_, manipulator) ← manipulator.undo constraints
      revert n manipulator

/-- `update_proposed_actions`: appends the last item in history. -/
def updateProposedActions (proposedActions : List Action)
    (manipulator : ScheduleManipulator scorer) : Raises (List Action) := do
  return proposedActions ++ [← last manipulator.history]

structure Cleared (scorer : Scorer schedule) where
  failed : Bool
  otherSections : List AS_ClassSection
  proposedActions : List Action
  manipulator : ScheduleManipulator scorer

/-- The loop that kicks everyone else out of the needed slots. -/
def clearSlots (depth : Nat) : List AS_RoomSlot → List AS_ClassSection → List Action →
    ScheduleManipulator scorer → Raises (Cleared scorer)
  | [], otherSections, proposedActions, manipulator =>
      .ok ⟨false, otherSections, proposedActions, manipulator⟩
  | neededSlot :: rest, otherSections, proposedActions, manipulator =>
      match manipulator.assignments.assignedSection neededSlot with
      | none => clearSlots depth rest otherSections proposedActions manipulator
      | some otherSection =>
          -- A class is not ejected at depth 1.
          if depth = 1 then .ok ⟨true, otherSections, proposedActions, manipulator⟩
          else do
            let otherSections := otherSections ++ [otherSection]
            let (success, manipulator) ←
              manipulator.unscheduleSection constraints otherSection
            if success then
              let proposedActions ← updateProposedActions proposedActions manipulator
              clearSlots depth rest otherSections proposedActions manipulator
            else
              let manipulator ← revert constraints proposedActions.length manipulator
              return ⟨true, otherSections, proposedActions, manipulator⟩

/-- Moves the section to the roomslot, or schedules it there. -/
def place (sec : AS_ClassSection) (roomslot : AS_RoomSlot)
    (manipulator : ScheduleManipulator scorer) :
    Raises (Bool × ScheduleManipulator scorer) :=
  if manipulator.isScheduled sec then
    manipulator.moveSection constraints sec roomslot
  else
    manipulator.scheduleSection constraints sec roomslot

/-- The loop that searches a place for each evicted section.  When one is left
unscheduled everything proposed is reverted, but the loop goes on. -/
def rehome
    (optimizeSection :
      AS_ClassSection → SearchState scorer → Raises (List Action × SearchState scorer)) :
    List AS_ClassSection → List Action → SearchState scorer →
      Raises (List Action × SearchState scorer)
  | [], proposedActions, state => .ok (proposedActions, state)
  | otherSection :: rest, proposedActions, state => do
      let (actions, state) ← optimizeSection otherSection state
      let proposedActions := proposedActions ++ actions
      if state.manipulator.isScheduled otherSection then
        rehome optimizeSection rest proposedActions state
      else
        let manipulator ← revert constraints proposedActions.length state.manipulator
        rehome optimizeSection rest proposedActions { state with manipulator := manipulator }

structure Best where
  score : ℚ
  actions : List Action

/-- One iteration of the main loop: puts the section into one roomslot. -/
def tryRoomslot
    (optimizeSection :
      AS_ClassSection → SearchState scorer → Raises (List Action × SearchState scorer))
    (depth : Nat) (sec : AS_ClassSection) (roomslot : AS_RoomSlot) (best : Best)
    (state : SearchState scorer) : Raises (Best × SearchState scorer) := do
  let neededSlots := getRoomslotsByDuration roomslot sec.duration
  let cleared ← clearSlots constraints depth neededSlots [] [] state.manipulator
  if cleared.failed then
    return (best, { state with manipulator := cleared.manipulator })
  let (success, manipulator) ← place constraints sec roomslot cleared.manipulator
  if !success then
    let manipulator ← revert constraints cleared.proposedActions.length manipulator
    return (best, { state with manipulator := manipulator })
  let proposedActions ← updateProposedActions cleared.proposedActions manipulator
  let (proposedActions, state) ← rehome constraints optimizeSection cleared.otherSections
    proposedActions { state with manipulator := manipulator }
  let newScore ← scorer.scoreSchedule state.manipulator.scorerState
  let manipulator ← revert constraints proposedActions.length state.manipulator
  return (if newScore > best.score then ⟨newScore, proposedActions⟩ else best,
    { state with manipulator := manipulator })

/-- The main loop over all roomslots. -/
def tryRoomslots
    (optimizeSection :
      AS_ClassSection → SearchState scorer → Raises (List Action × SearchState scorer))
    (depth : Nat) (sec : AS_ClassSection) :
    List AS_RoomSlot → Best → SearchState scorer → Raises (Best × SearchState scorer)
  | [], best, state => .ok (best, state)
  | roomslot :: rest, best, state => do
      let (best, state) ← tryRoomslot constraints optimizeSection depth sec roomslot
        best state
      tryRoomslots optimizeSection depth sec rest best state

/-- The last loop, which performs the best actions; their success is not
checked. -/
def performBest : List Action → ScheduleManipulator scorer →
    Raises (ScheduleManipulator scorer)
  | [], manipulator => .ok manipulator
  | action :: rest, manipulator => do
      let (_, manipulator) ← manipulator.performAction constraints action
      performBest rest manipulator

/-- `optimize_section`, with the answers of the clock. -/
def optimizeSection (expired : Nat → Bool) :
    (depth : Nat) → AS_ClassSection → SearchState scorer →
      Raises (List Action × SearchState scorer)
  | 0, _, state => .ok ([], state)
  | depth + 1, sec, state =>
      let read := { state with readings := state.readings + 1 }
      if expired state.readings then .ok ([], read)
      else do
        let score ← scorer.scoreSchedule read.manipulator.scorerState
        let (best, state) ← tryRoomslots constraints (optimizeSection expired depth)
          (depth + 1) sec schedule.roomslots ⟨score, []⟩ read
        let manipulator ← performBest constraints best.actions state.manipulator
        return (best.actions, { state with manipulator := manipulator })

end SearchOptimizer

end EspWebsite.Autoscheduler
