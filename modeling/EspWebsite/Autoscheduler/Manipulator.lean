import EspWebsite.Autoscheduler.Constraints
import EspWebsite.Autoscheduler.Scoring.Base

/-!
# The schedule manipulator

`manipulator.py`: the manipulations of a schedule under a set of constraints,
their history, undoing, and exporting and replaying a history.
-/

namespace EspWebsite.Autoscheduler

open Calendar Python

/-- A record of the history, with the keys of its kind of action.  The history of
a manipulator refers to sections and roomslots; an exported one to section ids
and to the times and room names of roomslots. -/
inductive ActionDict (Section RoomSlot : Type) where
  | schedule (sec : Section) (startRoomslot : RoomSlot)
  | move (sec : Section) (startRoomslot prevStartRoomslot : RoomSlot)
  | unschedule (sec : Section) (prevStartRoomslot : RoomSlot)
  | swap (sections : PySeq Section) (originalRoomslots : PySeq RoomSlot)
  deriving DecidableEq

/-- A record of a manipulator's history. -/
abbrev Action := ActionDict AS_ClassSection AS_RoomSlot

/-- A roomslot in an exported history: the fields of its times and the name of
its room. -/
structure JsonRoomSlot where
  startTime : List Nat
  endTime : List Nat
  roomName : String
  deriving DecidableEq

/-- A record of an exported history. -/
abbrev JsonAction := ActionDict Nat JsonRoomSlot

variable {schedule : AS_Schedule} {scorer : Scorer schedule}

/-- A manipulator: the assignments of its schedule, the state of its scorer and
the history of actions taken. -/
structure ScheduleManipulator (scorer : Scorer schedule) where
  assignments : Assignments
  scorerState : scorer.State
  history : List Action

namespace ScheduleManipulator

/-- A new manipulator of a schedule, whose scorer is built from it. -/
def create (scorer : Scorer schedule) (assignments : Assignments) :
    Raises (ScheduleManipulator scorer) := do
  let scorerState ← scorer.updateSchedule assignments
  return ⟨assignments, scorerState, []⟩

variable (constraints : CompositeConstraint) (manipulator : ScheduleManipulator scorer)

def assignedRoomslots (sec : AS_ClassSection) : List AS_RoomSlot :=
  manipulator.assignments.assignedRoomslots sec

def isScheduled (sec : AS_ClassSection) : Bool :=
  manipulator.assignments.isScheduled sec

/-- A manipulation: nothing is changed when it is refused, which a forced one
never is. -/
def unlessRefused (force : Bool) (refused : Raises Bool)
    (perform : Raises (ScheduleManipulator scorer)) :
    Raises (Bool × ScheduleManipulator scorer) := do
  if ← (if force then .ok false else refused) then
    return (false, manipulator)
  else
    return (true, ← perform)

/-- The guards of `schedule_section`. -/
def refusesSchedule (sec : AS_ClassSection) (startRoomslot : AS_RoomSlot) :
    Raises Bool := do
  if manipulator.isScheduled sec then return true
  let violation ← constraints.checkScheduleSection schedule manipulator.assignments
    sec startRoomslot
  return violation.isSome

/-- The body of `schedule_section` after its guards. -/
def performSchedule (sec : AS_ClassSection) (startRoomslot : AS_RoomSlot) :
    Raises (ScheduleManipulator scorer) := do
  let history := manipulator.history ++ [.schedule sec startRoomslot]
  let scorerState ← scorer.updateScheduleSection manipulator.assignments sec
    startRoomslot manipulator.scorerState
  let roomslotsToUse := getRoomslotsByDuration startRoomslot sec.duration
  let assignments ← manipulator.assignments.assignRoomslots sec roomslotsToUse
  return ⟨assignments, scorerState, history⟩

def scheduleSection (sec : AS_ClassSection) (startRoomslot : AS_RoomSlot)
    (force : Bool := false) : Raises (Bool × ScheduleManipulator scorer) :=
  manipulator.unlessRefused force
    (manipulator.refusesSchedule constraints sec startRoomslot)
    (manipulator.performSchedule sec startRoomslot)

/-- The guards of `move_section`. -/
def refusesMove (sec : AS_ClassSection) (startRoomslot : AS_RoomSlot) :
    Raises Bool := do
  if !manipulator.isScheduled sec then return true
  let violation ← constraints.checkMoveSection schedule manipulator.assignments
    sec startRoomslot
  return violation.isSome

/-- The body of `move_section` after its guards. -/
def performMove (sec : AS_ClassSection) (startRoomslot : AS_RoomSlot) :
    Raises (ScheduleManipulator scorer) := do
  let prevStartRoomslot ← first (manipulator.assignedRoomslots sec)
  let history :=
    manipulator.history ++ [.move sec startRoomslot prevStartRoomslot]
  let scorerState ← scorer.updateMoveSection manipulator.assignments sec
    startRoomslot manipulator.scorerState
  let roomslotsToUse := getRoomslotsByDuration startRoomslot sec.duration
  let assignments ← (manipulator.assignments.clearRoomslots sec).assignRoomslots
    sec roomslotsToUse
  return ⟨assignments, scorerState, history⟩

def moveSection (sec : AS_ClassSection) (startRoomslot : AS_RoomSlot)
    (force : Bool := false) : Raises (Bool × ScheduleManipulator scorer) :=
  manipulator.unlessRefused force
    (manipulator.refusesMove constraints sec startRoomslot)
    (manipulator.performMove sec startRoomslot)

/-- The guards of `unschedule_section`. -/
def refusesUnschedule (sec : AS_ClassSection) : Raises Bool := do
  if !manipulator.isScheduled sec then return true
  let violation ← constraints.checkUnscheduleSection manipulator.assignments sec
  return violation.isSome

/-- The body of `unschedule_section` after its guards. -/
def performUnschedule (sec : AS_ClassSection) :
    Raises (ScheduleManipulator scorer) := do
  let prevStartRoomslot ← first (manipulator.assignedRoomslots sec)
  let history := manipulator.history ++ [.unschedule sec prevStartRoomslot]
  let scorerState ← scorer.updateUnscheduleSection manipulator.assignments sec
    manipulator.scorerState
  return ⟨manipulator.assignments.clearRoomslots sec, scorerState, history⟩

def unscheduleSection (sec : AS_ClassSection) (force : Bool := false) :
    Raises (Bool × ScheduleManipulator scorer) :=
  manipulator.unlessRefused force (manipulator.refusesUnschedule constraints sec)
    (manipulator.performUnschedule sec)

/-- The guards of `swap_sections`. -/
def refusesSwap (section1 section2 : AS_ClassSection) : Raises Bool := do
  if !(manipulator.isScheduled section1 && manipulator.isScheduled section2) then
    return true
  if section1.duration ≠ section2.duration then return true
  let violation ← constraints.checkSwapSections schedule manipulator.assignments section1
    section2
  return violation.isSome

/-- The body of `swap_sections` after its guards. -/
def performSwap (section1 section2 : AS_ClassSection) :
    Raises (ScheduleManipulator scorer) := do
  let original1 ← first (manipulator.assignedRoomslots section1)
  let original2 ← first (manipulator.assignedRoomslots section2)
  let history := manipulator.history ++
    [.swap (.tuple [section1, section2]) (.tuple [original1, original2])]
  let scorerState ← scorer.updateSwapSections manipulator.assignments section1 section2
    manipulator.scorerState
  let roomslots1 := manipulator.assignedRoomslots section1
  let roomslots2 := manipulator.assignedRoomslots section2
  let assignments :=
    (manipulator.assignments.clearRoomslots section1).clearRoomslots section2
  let assignments ← assignments.assignRoomslots section1 roomslots2
  let assignments ← assignments.assignRoomslots section2 roomslots1
  return ⟨assignments, scorerState, history⟩

def swapSections (section1 section2 : AS_ClassSection) (force : Bool := false) :
    Raises (Bool × ScheduleManipulator scorer) :=
  manipulator.unlessRefused force (manipulator.refusesSwap constraints section1 section2)
    (manipulator.performSwap section1 section2)

/-- `swap_sections(*sections)`: unpacking anything but a pair raises. -/
def swapUnpacked (sections : PySeq AS_ClassSection) (force : Bool := false) :
    Raises (Bool × ScheduleManipulator scorer) :=
  match sections.items with
  | [section1, section2] => manipulator.swapSections constraints section1 section2 force
  | _ => .error .typeError

/-- The forced call with which `undo` reverts an action. -/
def revertAction (lastAction : Action) : Raises (Bool × ScheduleManipulator scorer) :=
  match lastAction with
  | .schedule sec _ => manipulator.unscheduleSection constraints sec true
  | .move sec _ prevStartRoomslot =>
      manipulator.moveSection constraints sec prevStartRoomslot true
  | .unschedule sec prevStartRoomslot =>
      manipulator.scheduleSection constraints sec prevStartRoomslot true
  | .swap sections _ => manipulator.swapUnpacked constraints sections true

/-- `undo`: pops the last record, reverts its action, and pops the record which
that added. -/
def undo : Raises (Bool × ScheduleManipulator scorer) :=
  match manipulator.history.getLast? with
  | none => .ok (false, manipulator)
  | some lastAction => do
      let popped := { manipulator with history := manipulator.history.dropLast }
      let (success, reverted) ← popped.revertAction constraints lastAction
      assert success "Undo failed"
      return (true, { reverted with history := reverted.history.dropLast })

def performAction (action : Action) : Raises (Bool × ScheduleManipulator scorer) :=
  match action with
  | .schedule sec startRoomslot =>
      manipulator.scheduleSection constraints sec startRoomslot
  | .move sec startRoomslot _ =>
      manipulator.moveSection constraints sec startRoomslot
  | .unschedule sec _ => manipulator.unscheduleSection constraints sec
  | .swap sections _ => manipulator.swapUnpacked constraints sections

end ScheduleManipulator

def jsonifyRoomslot (roomslot : AS_RoomSlot) : JsonRoomSlot where
  startTime := datetimedump roomslot.timeslot.startTime
  endTime := datetimedump roomslot.timeslot.endTime
  roomName := roomslot.room.name

def jsonifyAction : Action → JsonAction
  | .schedule sec startRoomslot =>
      .schedule sec.id (jsonifyRoomslot startRoomslot)
  | .move sec startRoomslot prevStartRoomslot =>
      .move sec.id (jsonifyRoomslot startRoomslot)
        (jsonifyRoomslot prevStartRoomslot)
  | .unschedule sec prevStartRoomslot =>
      .unschedule sec.id (jsonifyRoomslot prevStartRoomslot)
  | .swap sections originalRoomslots =>
      .swap (.list (sections.items.map AS_ClassSection.id))
        (.list (originalRoomslots.items.map jsonifyRoomslot))

namespace ScheduleManipulator

variable (constraints : CompositeConstraint) (manipulator : ScheduleManipulator scorer)

def jsonifyHistory : List JsonAction :=
  manipulator.history.map jsonifyAction

/-- The second loop of `load_history`: performs actions until one is refused. -/
def performActions : List Action → ScheduleManipulator scorer →
    Raises (Bool × ScheduleManipulator scorer)
  | [], manipulator => .ok (true, manipulator)
  | action :: rest, manipulator => do
      let (success, manipulator) ← manipulator.performAction constraints action
      if success then performActions rest manipulator else return (false, manipulator)

end ScheduleManipulator

end EspWebsite.Autoscheduler
