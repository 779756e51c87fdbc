import EspWebsite.Autoscheduler.DataModel

/-!
# Consistency checks

The checks of `consistency_checks.py` that the representation does not already
enforce.  Left out are the ones that compare a dictionary with the list it
repeats, a cached value with its definition, or a key with the same field of its
value.
-/

namespace EspWebsite.Autoscheduler

open Python

/-- A check that raises `ConsistencyError` when the condition fails. -/
def consistent (condition : Prop) [Decidable condition] (message : String) : Raises Unit :=
  if condition then .ok () else .error (.raised "ConsistencyError" message)

@[simp] theorem consistent_eq_ok {condition : Prop} [Decidable condition]
    {message : String} {result : Unit} :
    consistent condition message = .ok result ↔ condition := by
  rw [consistent]
  split <;> simp_all

/-- Two neighbours in a list of timeslots are distinct, in order and do not
overlap. -/
def checkNeighbours (duplicate unsorted overlapping : String)
    (neighbours : AS_Timeslot × AS_Timeslot) : Raises Unit := do
  consistent (neighbours.1.times ≠ neighbours.2.times) duplicate
  consistent (¬ neighbours.2.before neighbours.1) unsorted
  consistent (neighbours.1.endTime ≤ neighbours.2.startTime) overlapping

theorem checkNeighbours_eq_ok {duplicate unsorted overlapping : String}
    {neighbours : AS_Timeslot × AS_Timeslot} {result : Unit} :
    checkNeighbours duplicate unsorted overlapping neighbours = .ok result ↔
      neighbours.1.times ≠ neighbours.2.times ∧ ¬ neighbours.2.before neighbours.1 ∧
        neighbours.1.endTime ≤ neighbours.2.startTime := by
  simp only [checkNeighbours, andThen_eq_ok, consistent_eq_ok]

def checkTimeslotConsistency (schedule : AS_Schedule) : Raises Unit :=
  forEach (schedule.timeslots.zip schedule.timeslots.tail)
    (checkNeighbours "Duplicate timeslots detected." "Timeslots weren't sorted."
      "Timeslots are overlapping.")

def checkTimeslotSpanConsistency (schedule : AS_Schedule) : Raises Unit :=
  forEach schedule.timeslots fun timeslot =>
    consistent (timeslot.startTime.date = timeslot.endTime.date)
      "Timeslot spans multiple days"

def checkLunchConsistency (schedule : AS_Schedule) : Raises Unit :=
  forEach schedule.lunchTimeslots fun entry => do
    forEach (entry.2.zip entry.2.tail)
      (checkNeighbours "Duplicate lunch timeslots detected."
        "Lunch timeslots weren't sorted." "Lunch timeslots are overlapping.")
    forEach entry.2 fun timeslot => do
      consistent (timeslot.startTime.date = entry.1) "Incorrect mapping of slots in lunch."
      consistent (timeslot ∈ schedule.timeslots) "Lunch timeslot isn't registered"

/-- The roomslots that `check_roomslots_consistency` finds: those of the rooms
and those of the sections. -/
def existingRoomslots (schedule : AS_Schedule) (assignments : Assignments) :
    List AS_RoomSlot :=
  schedule.roomslots ++ schedule.classSections.flatMap assignments.assignedRoomslots

/-- The last check of `check_roomslots_consistency`, on the section a roomslot is
assigned to. -/
def checkAssignedSection (schedule : AS_Schedule) (assignments : Assignments)
    (roomslot : AS_RoomSlot) : Raises Unit :=
  match assignments.assignedSection roomslot with
  | none => .ok ()
  | some assignedSection => do
      consistent (assignedSection ∈ schedule.classSections)
        "Event had an unregistered section"
      consistent (roomslot ∈ assignments.assignedRoomslots assignedSection)
        "Event wasn't in section's assigned roomslots"

def checkRoomslotsConsistency (schedule : AS_Schedule) (assignments : Assignments) :
    Raises Unit := do
  forEach schedule.classSections fun sec =>
    forEach (assignments.assignedRoomslots sec) fun roomslot =>
      consistent (assignments.assignedSection roomslot = some sec)
        "Section and roomslot were inconsistent"
  forEach (existingRoomslots schedule assignments) fun roomslot => do
    consistent (roomslot.timeslot ∈ schedule.timeslots) "Event's timeslot wasn't registered"
    consistent (roomslot.room ∈ schedule.classrooms) "Event's room wasn't registered"
    consistent (roomslot ∈ roomslot.room.availability) "Event wasn't in room's availability"
    checkAssignedSection schedule assignments roomslot

/-- `check_sorting_consistency`, for sections and teachers; a classroom keeps its
timeslots sorted by construction. -/
def checkSortingConsistency (schedule : AS_Schedule) (assignments : Assignments) :
    Raises Unit := do
  forEach schedule.classSections fun sec =>
    let roomslots := assignments.assignedRoomslots sec
    consistent (∀ neighbours ∈ roomslots.zip roomslots.tail,
        neighbours.1.timeslot.before neighbours.2.timeslot)
      "Section assigned roomslots weren't sorted."
  forEach schedule.teachers fun teacher =>
    consistent (∀ neighbours ∈ teacher.availability.zip teacher.availability.tail,
        neighbours.1.before neighbours.2)
      "Teacher availability wasn't sorted."

/-- `run_all_consistency_checks`, in the order of the checks' names. -/
def runAllConsistencyChecks (schedule : AS_Schedule) (assignments : Assignments) :
    Raises Unit := do
  checkLunchConsistency schedule
  checkRoomslotsConsistency schedule assignments
  checkSortingConsistency schedule assignments
  checkTimeslotConsistency schedule
  checkTimeslotSpanConsistency schedule

end EspWebsite.Autoscheduler
