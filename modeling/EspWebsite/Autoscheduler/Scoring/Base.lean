import EspWebsite.Autoscheduler.DataModel

/-!
# Scorers

The interface of `BaseScorer` and the composite scorer of `scoring.py`.  Scores
are in exact arithmetic.  What a scorer computes from the fixed data of the
schedule is not part of its state.
-/

namespace EspWebsite.Autoscheduler

open Python

variable {schedule : AS_Schedule}

/-- A scorer: its state is built from a schedule by `update_schedule` and brought
up to date by one hook for each manipulation.  The hooks are called before the
manipulation is made, with the assignments as they then are. -/
structure Scorer (schedule : AS_Schedule) where
  State : Type
  scaling : ℚ
  updateSchedule : Assignments → Raises State
  scoreSchedule : State → Raises ℚ
  updateScheduleSection :
    Assignments → AS_ClassSection → AS_RoomSlot → State → Raises State
  updateMoveSection :
    Assignments → AS_ClassSection → AS_RoomSlot → State → Raises State
  updateUnscheduleSection : Assignments → AS_ClassSection → State → Raises State
  updateSwapSections :
    Assignments → AS_ClassSection → AS_ClassSection → State → Raises State

namespace BaseScorer

variable {State : Type}
  (updateScheduleSection :
    Assignments → AS_ClassSection → AS_RoomSlot → State → Raises State)
  (updateUnscheduleSection : Assignments → AS_ClassSection → State → Raises State)

/-- The default `update_move_section`: unscheduling, then scheduling, both with
the section still at its old place. -/
def updateMoveSection (assignments : Assignments) (sec : AS_ClassSection)
    (startRoomslot : AS_RoomSlot) (state : State) : Raises State := do
  let state ← updateUnscheduleSection assignments sec state
  updateScheduleSection assignments sec startRoomslot state

/-- The default `update_swap_sections`: each section is moved to where the other
one starts. -/
def updateSwapSections (assignments : Assignments) (section1 section2 : AS_ClassSection)
    (state : State) : Raises State := do
  let start2 ← first (assignments.assignedRoomslots section2)
  let state ← updateMoveSection updateScheduleSection updateUnscheduleSection assignments
    section1 start2 state
  let start1 ← first (assignments.assignedRoomslots section1)
  updateMoveSection updateScheduleSection updateUnscheduleSection assignments section2
    start1 state

end BaseScorer

namespace CompositeScorer

/-- The states of the component scorers. -/
def State : List (Scorer schedule × ℚ) → Type
  | [] => Unit
  | (scorer, _) :: rest => scorer.State × State rest

/-- Calls one hook of every component. -/
def forScorers (hook : (scorer : Scorer schedule) → scorer.State → Raises scorer.State) :
    (scorersAndWeights : List (Scorer schedule × ℚ)) → State scorersAndWeights →
      Raises (State scorersAndWeights)
  | [], () => .ok ()
  | (scorer, _) :: rest, (state, states) => do
      let state ← hook scorer state
      let states ← forScorers hook rest states
      return (state, states)

def updateSchedule (assignments : Assignments) :
    (scorersAndWeights : List (Scorer schedule × ℚ)) → Raises (State scorersAndWeights)
  | [] => .ok ()
  | (scorer, _) :: rest => do
      let state ← scorer.updateSchedule assignments
      let states ← updateSchedule assignments rest
      return (state, states)

/-- `compute_total_weight`. -/
def totalWeight (scorersAndWeights : List (Scorer schedule × ℚ)) : ℚ :=
  let total := (scorersAndWeights.map fun entry => entry.1.scaling * entry.2).sum
  if total = 0 then 1 else total

/-- The weighted sum in `score_schedule`. -/
def totalScore :
    (scorersAndWeights : List (Scorer schedule × ℚ)) → State scorersAndWeights → Raises ℚ
  | [], () => .ok 0
  | (scorer, weight) :: rest, (state, states) => do
      let score ← scorer.scoreSchedule state
      let total ← totalScore rest states
      return score * weight * scorer.scaling + total

end CompositeScorer

/-- A scorer that weights several others. -/
def CompositeScorer (scorersAndWeights : List (Scorer schedule × ℚ)) : Scorer schedule where
  State := CompositeScorer.State scorersAndWeights
  scaling := 1
  updateSchedule assignments := CompositeScorer.updateSchedule assignments scorersAndWeights
  scoreSchedule state := do
    let totalScore ← CompositeScorer.totalScore scorersAndWeights state
    div totalScore (CompositeScorer.totalWeight scorersAndWeights)
  updateScheduleSection assignments sec startRoomslot :=
    CompositeScorer.forScorers
      (fun scorer => scorer.updateScheduleSection assignments sec startRoomslot)
      scorersAndWeights
  updateMoveSection assignments sec startRoomslot :=
    CompositeScorer.forScorers
      (fun scorer => scorer.updateMoveSection assignments sec startRoomslot)
      scorersAndWeights
  updateUnscheduleSection assignments sec :=
    CompositeScorer.forScorers
      (fun scorer => scorer.updateUnscheduleSection assignments sec)
      scorersAndWeights
  updateSwapSections assignments section1 section2 :=
    CompositeScorer.forScorers
      (fun scorer => scorer.updateSwapSections assignments section1 section2)
      scorersAndWeights

end EspWebsite.Autoscheduler
