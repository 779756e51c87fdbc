import EspWebsite.Autoscheduler.ConsistencyChecks
import EspWebsite.Autoscheduler.ResourceChecker

/-!
# Constraints

The constraints of `constraints.py`.  Each one checks a whole schedule, and
whether a manipulation of a valid schedule would violate it.
-/

namespace EspWebsite.Autoscheduler

open Calendar Python

/-- A constraint violation with its help text. -/
structure ConstraintViolation where
  constraintName : String
  reason : String
  deriving DecidableEq, Repr

/-- The answer of a check: a violation, `none` if there is none, or an
exception. -/
abbrev CheckResult := Raises (Option ConstraintViolation)

namespace AS_RoomSlot

def times (roomslot : AS_RoomSlot) : DateTime × DateTime :=
  roomslot.timeslot.times

end AS_RoomSlot

variable (schedule : AS_Schedule) (assignments : Assignments)

namespace ContiguousConstraint

def violation (reason : String) : ConstraintViolation :=
  ⟨"ContiguousConstraint", reason⟩

/-- The inner loop of `check_schedule` over a section's further roomslots. -/
def checkRoomslots (sec : AS_ClassSection) (sectionRoom : AS_Classroom) :
    AS_Timeslot → List AS_RoomSlot → Option ConstraintViolation
  | _, [] => none
  | prevTimeslot, roomslot :: rest =>
      if !contiguous prevTimeslot roomslot.timeslot then
        let sectionId := sec.id
        violation s!"Section id {sectionId} had noncontiguous rooms"
      else if roomslot.room.name ≠ sectionRoom.name then
        let sectionId := sec.id
        violation s!"Section id {sectionId} is in 2 different rooms"
      else
        checkRoomslots sec sectionRoom roomslot.timeslot rest

def checkSchedule : Option ConstraintViolation :=
  schedule.classSections.findSome? fun sec =>
    match assignments.assignedRoomslots sec with
    | [] => none
    | first :: rest => checkRoomslots sec first.room first.timeslot rest

/-- The loop of `check_schedule_section` over the further roomslots. -/
def checkContiguous : AS_Timeslot → List AS_RoomSlot → Option ConstraintViolation
  | _, [] => none
  | prevTimeslot, roomslot :: rest =>
      if !contiguous prevTimeslot roomslot.timeslot then
        violation "Insufficiently many contiguous timeslots to schedule"
      else
        checkContiguous roomslot.timeslot rest

/-- `check_schedule_section`, which is also `check_move_section`. -/
def checkScheduleSection (sec : AS_ClassSection) (startRoomslot : AS_RoomSlot) :
    Option ConstraintViolation :=
  match getRoomslotsByDuration startRoomslot sec.duration with
  | [] => violation "Section won't be assigned any roomslots"
  | _ :: rest => checkContiguous startRoomslot.timeslot rest

end ContiguousConstraint

namespace LunchConstraint

/-- `check_schedule`.  Its loop runs over the keys of the section dictionary,
which are integers without an `assigned_roomslots`. -/
def checkSchedule : CheckResult := do
  forEach schedule.lunchTimeslots fun entry => do
    let _ ← first entry.2
    let _ ← last entry.2
    if schedule.classSections = [] then return () else .error .attributeError
  return none

/-- Whether the roomslots start no later than lunch and end no earlier. -/
def coversLunch (lunchSlots : List AS_Timeslot) (roomslots : List AS_RoomSlot) :
    Raises Bool := do
  let startLunch ← first lunchSlots
  let endLunch ← last lunchSlots
  let startSection ← first roomslots
  let endSection ← last roomslots
  return decide (startSection.timeslot.startTime ≤ startLunch.startTime) &&
    decide (endLunch.endTime ≤ endSection.timeslot.endTime)

/-- The loop of `check_schedule_section` over the days with lunch. -/
def checkDays (roomslots : List AS_RoomSlot) :
    List ((Nat × Nat × Nat) × List AS_Timeslot) → CheckResult
  | [] => .ok none
  | entry :: rest => do
      if ← coversLunch entry.2 roomslots then
        return some ⟨"LunchConstraint", "Section would be scheduled over lunch"⟩
      else
        checkDays roomslots rest

/-- `check_schedule_section`, which is also `check_move_section`. -/
def checkScheduleSection (sec : AS_ClassSection) (startRoomslot : AS_RoomSlot) :
    CheckResult :=
  checkDays (getRoomslotsByDuration startRoomslot sec.duration)
    schedule.lunchTimeslots

end LunchConstraint

namespace PreconditionConstraint

def violation (reason : String) : ConstraintViolation :=
  ⟨"PreconditionConstraint", reason⟩

def checkScheduleSection (sec : AS_ClassSection) : Option ConstraintViolation :=
  if assignments.assignedRoomslots sec ≠ [] then
    violation "Section is already scheduled."
  else none

/-- `check_move_section`, which is also `check_unschedule_section`. -/
def checkMoveSection (sec : AS_ClassSection) : Option ConstraintViolation :=
  if assignments.assignedRoomslots sec = [] then
    violation "Section isn't scheduled"
  else none

def checkSwapSections (section1 section2 : AS_ClassSection) : Option ConstraintViolation :=
  if (assignments.assignedRoomslots section1).length ≠
      (assignments.assignedRoomslots section2).length then
    violation "Sections aren't assigned to the same number of roomslots"
  else if assignments.assignedRoomslots section1 = [] then
    violation "Sections aren't scheduled"
  else none

end PreconditionConstraint

namespace ResourceCriteriaConstraint

/-- `check_schedule_section`, which is also `check_move_section`. -/
def checkScheduleSection (resourceCriteria : List ResourceCriterion)
    (sec : AS_ClassSection) (startRoomslot : AS_RoomSlot) :
    Option ConstraintViolation :=
  resourceCriteria.findSome? fun criterion =>
    if !criterion.checkMatch sec startRoomslot.room then
      let name := criterion.name
      some ⟨"ResourceCriteriaConstraint", s!"Violates resource criterion '{name}'."⟩
    else none

/-- `check_swap_sections`: once both sections' first roomslots are read, the call
of `check_schedule_section` lacks its last argument. -/
def checkSwapSections (_section1 section2 : AS_ClassSection) : CheckResult := do
  let _ ← first (assignments.assignedRoomslots section2)
  .error .typeError

end ResourceCriteriaConstraint

namespace RoomConcurrencyConstraint

def violation (reason : String) : ConstraintViolation :=
  ⟨"RoomConcurrencyConstraint", reason⟩

/-- Whether every roomslot the section would get may be taken, given which
assigned sections are allowed. -/
def checkFree (allowed : Option AS_ClassSection → Bool) (sec : AS_ClassSection)
    (startRoomslot : AS_RoomSlot) : Option ConstraintViolation :=
  match getRoomslotsByDuration startRoomslot sec.duration with
  | [] => violation "Section wouldn't be assigned any roomslots"
  | assignedRoomslots =>
      assignedRoomslots.findSome? fun roomslot =>
        if !allowed (assignments.assignedSection roomslot) then
          some (violation "Room would be double-booked")
        else none

/-- `check_schedule_section`: every roomslot must be free. -/
def checkScheduleSection (sec : AS_ClassSection) (startRoomslot : AS_RoomSlot) :
    Option ConstraintViolation :=
  checkFree assignments (fun assigned => assigned == none) sec startRoomslot

/-- `check_move_section`: every roomslot must be free or the section's own. -/
def checkMoveSection (sec : AS_ClassSection) (startRoomslot : AS_RoomSlot) :
    Option ConstraintViolation :=
  checkFree assignments (fun assigned => assigned == none || assigned == some sec)
    sec startRoomslot

end RoomConcurrencyConstraint

namespace SectionDurationConstraint

def violation (reason : String) : ConstraintViolation :=
  ⟨"SectionDurationConstraint", reason⟩

/-- Hours from the start of the first roomslot to the end of the last one. -/
def scheduledDuration (firstRoomslot : AS_RoomSlot) (roomslots : List AS_RoomSlot) : ℚ :=
  hoursDifference firstRoomslot.timeslot.startTime
    (roomslots.getLast?.getD firstRoomslot).timeslot.endTime

def checkSchedule : Option ConstraintViolation :=
  schedule.classSections.findSome? fun sec =>
    match assignments.assignedRoomslots sec with
    | [] => none
    | first :: rest =>
        let hours := scheduledDuration first (first :: rest)
        if |hours - sec.duration| > deltaTime then
          let sectionId := sec.id
          let duration := sec.duration
          some (violation
            s!"Section {sectionId} is scheduled for {hours} hours but should be scheduled for {duration} hours")
        else none

/-- `check_schedule_section`, which is also `check_move_section`. -/
def checkScheduleSection (sec : AS_ClassSection) (startRoomslot : AS_RoomSlot) :
    Option ConstraintViolation :=
  match getRoomslotsByDuration startRoomslot sec.duration with
  | [] => violation "Section wouldn't receive any roomslots"
  | first :: rest =>
      let hours := scheduledDuration first (first :: rest)
      if |hours - sec.duration| > deltaTime then
        let duration := sec.duration
        violation s!"Section would be scheduled for {hours} hours instead of {duration}"
      else none

end SectionDurationConstraint

namespace TeacherAvailabilityConstraint

def violation (reason : String) : ConstraintViolation :=
  ⟨"TeacherAvailabilityConstraint", reason⟩

def checkSchedule : Option ConstraintViolation :=
  schedule.teachers.findSome? fun teacher =>
    (schedule.taughtSections teacher).findSome? fun sec =>
      (assignments.assignedRoomslots sec).findSome? fun roomslot =>
        if !teacher.isAvailable roomslot.times then
          let teacherId := teacher.id
          let startTime := roomslot.timeslot.startTime.str
          let endTime := roomslot.timeslot.endTime.str
          some (violation
            s!"User {teacherId} is teaching from {startTime} to {endTime} but isn't available")
        else none

/-- Whether some teacher would be unavailable at one of the roomslots, whose
times are not among the existing ones. -/
def checkAvailable (teachers : List AS_Teacher) (roomslots : List AS_RoomSlot)
    (existingTimeslots : List (DateTime × DateTime)) (reason : String) :
    Option ConstraintViolation :=
  teachers.findSome? fun teacher =>
    roomslots.findSome? fun roomslot =>
      if !teacher.isAvailable roomslot.times && roomslot.times ∉ existingTimeslots then
        some (violation reason)
      else none

def checkScheduleSection (sec : AS_ClassSection) (startRoomslot : AS_RoomSlot) :
    Option ConstraintViolation :=
  checkAvailable sec.teachers
    (getRoomslotsByDuration startRoomslot sec.duration) [] "Teacher isn't available"

def checkMoveSection (sec : AS_ClassSection) (startRoomslot : AS_RoomSlot) :
    Option ConstraintViolation :=
  checkAvailable sec.teachers
    (getRoomslotsByDuration startRoomslot sec.duration)
    ((assignments.assignedRoomslots sec).map AS_RoomSlot.times)
    "Teacher isn't available"

def checkSwapSections (section1 section2 : AS_ClassSection) : Option ConstraintViolation :=
  let roomslots1 := assignments.assignedRoomslots section1
  let roomslots2 := assignments.assignedRoomslots section2
  checkAvailable section1.teachers roomslots2 (roomslots1.map AS_RoomSlot.times)
      "Teacher from first section won't be available" <|>
    checkAvailable section2.teachers roomslots1 (roomslots2.map AS_RoomSlot.times)
      "Teacher from second section won't be available"

end TeacherAvailabilityConstraint

namespace TeacherConcurrencyConstraint

def violation (reason : String) : ConstraintViolation :=
  ⟨"TeacherConcurrencyConstraint", reason⟩

/-- `get_already_teaching_set`, as the list of its elements. -/
def getAlreadyTeachingSet (teacher : AS_Teacher) : List (DateTime × DateTime) :=
  ((schedule.taughtSections teacher).flatMap assignments.assignedRoomslots).map
    AS_RoomSlot.times

/-- Whether a time comes twice, or is already taught at; the loops of
`check_schedule` over a teacher's sections and their roomslots. -/
def teachesTwice : List (DateTime × DateTime) → List (DateTime × DateTime) → Bool
  | _, [] => false
  | alreadyTeaching, time :: rest =>
      time ∈ alreadyTeaching || teachesTwice (time :: alreadyTeaching) rest

def checkSchedule : Option ConstraintViolation :=
  schedule.teachers.findSome? fun teacher =>
    if teachesTwice [] (getAlreadyTeachingSet schedule assignments teacher) then
      let teacherId := teacher.id
      some (violation s!"Teacher id {teacherId} is teaching twice at once")
    else none

/-- A violation if the teacher is already teaching at one of the roomslots. -/
def checkTeaching (alreadyTeaching : List (DateTime × DateTime))
    (assignedRoomslots : List AS_RoomSlot) : Option ConstraintViolation :=
  assignedRoomslots.findSome? fun roomslot =>
    if roomslot.times ∈ alreadyTeaching then
      some (violation "Teacher is already teaching")
    else none

def checkScheduleSection (sec : AS_ClassSection) (startRoomslot : AS_RoomSlot) :
    Option ConstraintViolation :=
  sec.teachers.findSome? fun teacher =>
    checkTeaching (getAlreadyTeachingSet schedule assignments teacher)
      (getRoomslotsByDuration startRoomslot sec.duration)

/-- `already_teaching.remove` for the times of the given roomslots. -/
def removeTimes : List AS_RoomSlot → List (DateTime × DateTime) →
    Raises (List (DateTime × DateTime))
  | [], alreadyTeaching => .ok alreadyTeaching
  | roomslot :: rest, alreadyTeaching =>
      if roomslot.times ∈ alreadyTeaching then
        removeTimes rest (alreadyTeaching.filter fun time => time ≠ roomslot.times)
      else .error .keyError

/-- The loop of `check_move_section` over the teachers. -/
def checkMoveTeachers (sec : AS_ClassSection) (startRoomslot : AS_RoomSlot) :
    List AS_Teacher → CheckResult
  | [] => .ok none
  | teacher :: rest => do
      let alreadyTeaching ← removeTimes (assignments.assignedRoomslots sec)
        (getAlreadyTeachingSet schedule assignments teacher)
      match checkTeaching alreadyTeaching
          (getRoomslotsByDuration startRoomslot sec.duration) with
      | some violation => return some violation
      | none => checkMoveTeachers sec startRoomslot rest

def checkMoveSection (sec : AS_ClassSection) (startRoomslot : AS_RoomSlot) :
    CheckResult :=
  checkMoveTeachers schedule assignments sec startRoomslot sec.teachers

/-- Whether some teacher already teaches at one of the new times, other than at
the old ones. -/
def checkSwapTeachers (teachers : List AS_Teacher)
    (oldTimes newTimes : List (DateTime × DateTime)) (reason : String) :
    Option ConstraintViolation :=
  teachers.findSome? fun teacher =>
    newTimes.findSome? fun time =>
      if time ∈ getAlreadyTeachingSet schedule assignments teacher ∧ time ∉ oldTimes then
        some (violation reason)
      else none

def checkSwapSections (section1 section2 : AS_ClassSection) : Option ConstraintViolation :=
  let timeslots1 := (assignments.assignedRoomslots section1).map AS_RoomSlot.times
  let timeslots2 := (assignments.assignedRoomslots section2).map AS_RoomSlot.times
  checkSwapTeachers schedule assignments section1.teachers timeslots1 timeslots2
      "Teacher in first section is already teaching" <|>
    checkSwapTeachers schedule assignments section2.teachers timeslots2 timeslots1
      "Teacher in second section is already teaching"

end TeacherConcurrencyConstraint

inductive Constraint where
  | contiguous
  | lunch
  | precondition
  | resourceCriteria (resourceCriteria : List ResourceCriterion)
  | roomAvailability
  | roomConcurrency
  | sectionDuration
  | teacherAvailability
  | teacherConcurrency

namespace Constraint

/-- `check_schedule` of each class. -/
def checkSchedule : Constraint → CheckResult
  | contiguous => .ok (ContiguousConstraint.checkSchedule schedule assignments)
  | lunch => LunchConstraint.checkSchedule schedule
  | sectionDuration => .ok (SectionDurationConstraint.checkSchedule schedule assignments)
  | teacherAvailability =>
      .ok (TeacherAvailabilityConstraint.checkSchedule schedule assignments)
  | teacherConcurrency =>
      .ok (TeacherConcurrencyConstraint.checkSchedule schedule assignments)
  | precondition | resourceCriteria _ | roomAvailability | roomConcurrency => .ok none

/-- `check_schedule_section` of each class. -/
def checkScheduleSection (sec : AS_ClassSection) (startRoomslot : AS_RoomSlot) :
    Constraint → CheckResult
  | contiguous => .ok (ContiguousConstraint.checkScheduleSection sec startRoomslot)
  | lunch => LunchConstraint.checkScheduleSection schedule sec startRoomslot
  | precondition =>
      .ok (PreconditionConstraint.checkScheduleSection assignments sec)
  | resourceCriteria criteria =>
      .ok (ResourceCriteriaConstraint.checkScheduleSection criteria sec
        startRoomslot)
  | roomAvailability => .ok none
  | roomConcurrency =>
      .ok (RoomConcurrencyConstraint.checkScheduleSection assignments sec
        startRoomslot)
  | sectionDuration =>
      .ok (SectionDurationConstraint.checkScheduleSection sec startRoomslot)
  | teacherAvailability =>
      .ok (TeacherAvailabilityConstraint.checkScheduleSection sec startRoomslot)
  | teacherConcurrency =>
      .ok (TeacherConcurrencyConstraint.checkScheduleSection schedule assignments
        sec startRoomslot)

/-- `check_move_section` of each class. -/
def checkMoveSection (sec : AS_ClassSection) (startRoomslot : AS_RoomSlot) :
    Constraint → CheckResult
  | contiguous => .ok (ContiguousConstraint.checkScheduleSection sec startRoomslot)
  | lunch => LunchConstraint.checkScheduleSection schedule sec startRoomslot
  | precondition => .ok (PreconditionConstraint.checkMoveSection assignments sec)
  | resourceCriteria criteria =>
      .ok (ResourceCriteriaConstraint.checkScheduleSection criteria sec
        startRoomslot)
  | roomAvailability => .ok none
  | roomConcurrency =>
      .ok (RoomConcurrencyConstraint.checkMoveSection assignments sec startRoomslot)
  | sectionDuration =>
      .ok (SectionDurationConstraint.checkScheduleSection sec startRoomslot)
  | teacherAvailability =>
      .ok (TeacherAvailabilityConstraint.checkMoveSection assignments sec
        startRoomslot)
  | teacherConcurrency =>
      TeacherConcurrencyConstraint.checkMoveSection schedule assignments sec
        startRoomslot

/-- `check_unschedule_section` of each class. -/
def checkUnscheduleSection (sec : AS_ClassSection) : Constraint → CheckResult
  | precondition => .ok (PreconditionConstraint.checkMoveSection assignments sec)
  | _ => .ok none

/-- `check_swap_sections` of each class. -/
def checkSwapSections (section1 section2 : AS_ClassSection) : Constraint → CheckResult
  | precondition =>
      .ok (PreconditionConstraint.checkSwapSections assignments section1 section2)
  | resourceCriteria _ =>
      ResourceCriteriaConstraint.checkSwapSections assignments section1 section2
  | teacherAvailability =>
      .ok (TeacherAvailabilityConstraint.checkSwapSections assignments section1 section2)
  | teacherConcurrency =>
      .ok (TeacherConcurrencyConstraint.checkSwapSections schedule assignments section1
        section2)
  | contiguous | lunch | roomAvailability | roomConcurrency | sectionDuration => .ok none

/-- `get_required_constraint_names`: the classes marked `required`. -/
def required : List Constraint :=
  [contiguous, precondition, roomAvailability, roomConcurrency, sectionDuration,
    teacherAvailability, teacherConcurrency]

end Constraint

/-- A constraint that checks several: all the required ones, and any others.
The source holds them in a set, so their order is arbitrary. -/
structure CompositeConstraint where
  constraints : List Constraint
  hasRequired : ∀ constraint ∈ Constraint.required, constraint ∈ constraints

/-- The loop of the composite checks: the first violation found, or the first
exception. -/
def firstViolation (check : Constraint → CheckResult) : List Constraint → CheckResult
  | [] => .ok none
  | constraint :: rest => do
      match ← check constraint with
      | some violation => return some violation
      | none => firstViolation check rest

theorem firstViolation_eq_none {check : Constraint → CheckResult}
    {constraints : List Constraint} :
    firstViolation check constraints = .ok none ↔
      ∀ constraint ∈ constraints, check constraint = .ok none := by
  induction constraints with
  | nil => simp [firstViolation]
  | cons constraint rest ih =>
      cases outcome : check constraint with
      | error raised => simp [firstViolation, outcome]
      | ok violation =>
          cases violation with
          | none => simp [firstViolation, outcome, ih]
          | some violation => simp [firstViolation, outcome]

namespace CompositeConstraint

variable (composite : CompositeConstraint)

def checkSchedule : CheckResult :=
  firstViolation (Constraint.checkSchedule schedule assignments) composite.constraints

def checkScheduleSection (sec : AS_ClassSection) (startRoomslot : AS_RoomSlot) :
    CheckResult :=
  firstViolation
    (Constraint.checkScheduleSection schedule assignments sec startRoomslot)
    composite.constraints

def checkMoveSection (sec : AS_ClassSection) (startRoomslot : AS_RoomSlot) :
    CheckResult :=
  firstViolation
    (Constraint.checkMoveSection schedule assignments sec startRoomslot)
    composite.constraints

def checkUnscheduleSection (sec : AS_ClassSection) : CheckResult :=
  firstViolation (Constraint.checkUnscheduleSection assignments sec)
    composite.constraints

def checkSwapSections (section1 section2 : AS_ClassSection) : CheckResult :=
  firstViolation (Constraint.checkSwapSections schedule assignments section1 section2)
    composite.constraints

end CompositeConstraint

end EspWebsite.Autoscheduler
