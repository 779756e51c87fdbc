import EspWebsite.Autoscheduler.Util

/-!
# The in-memory schedule

The classes of `data_model.py`.  An object is represented by its fixed data:
dictionaries whose keys repeat a field of their values are lists of these
values, and what one object stores about another redundantly (a timeslot its
roomslots, a teacher the sections taught) is computed.  What the manipulations
change, the roomslots assigned to a section and the section assigned to a
roomslot, is kept apart in `Assignments`, in both directions as in the source.
-/

namespace EspWebsite.Autoscheduler

open Calendar Python

/-- A timeslot, not specific to any teacher, class or room.  The constructor
refuses one shorter than `DELTA_TIME`. -/
structure AS_Timeslot where
  id : Nat
  startTime : DateTime
  endTime : DateTime
  longEnough : deltaTime ≤ hoursDifference startTime endTime
  deriving DecidableEq

namespace AS_Timeslot

/-- Length of the timeslot in hours. -/
def duration (timeslot : AS_Timeslot) : ℚ :=
  hoursDifference timeslot.startTime timeslot.endTime

/-- The pair of times that keys the availability dictionaries. -/
def times (timeslot : AS_Timeslot) : DateTime × DateTime :=
  (timeslot.startTime, timeslot.endTime)

/-- Timeslots are ordered by start time, then by end time. -/
def before (left right : AS_Timeslot) : Prop :=
  if left.startTime = right.startTime then left.endTime < right.endTime
  else left.startTime < right.startTime

instance (left right : AS_Timeslot) : Decidable (before left right) := by
  unfold before
  infer_instance

end AS_Timeslot

/-- `contiguous`: the second timeslot starts at the end of the first one or less
than twenty minutes later. -/
def contiguous (timeslot1 timeslot2 : AS_Timeslot) : Bool :=
  if timeslot2.startTime < timeslot1.endTime then false
  else
    decide (DateTime.microsecondsBetween timeslot1.endTime timeslot2.startTime <
      contiguousTolerance)

/-- A kind of resource, with the value asked for or provided. -/
structure AS_ResourceType where
  id : Nat
  name : String
  value : String
  deriving DecidableEq

/-- A teacher with the timeslots at which the teacher is available. -/
structure AS_Teacher where
  id : Nat
  availability : List AS_Timeslot
  isAdmin : Bool
  deriving DecidableEq

/-- Whether the pair of times is a key of the teacher's availability
dictionary. -/
def AS_Teacher.isAvailable (teacher : AS_Teacher) (times : DateTime × DateTime) : Bool :=
  teacher.availability.any fun timeslot => timeslot.times == times

/-- The fixed data of a class section; its duration is in hours. -/
structure AS_ClassSection where
  id : Nat
  parentClass : Nat
  duration : ℚ
  teachers : List AS_Teacher
  capacity : Int
  gradeMin : Nat
  gradeMax : Nat
  category : Nat
  resourceRequests : List AS_ResourceType
  deriving DecidableEq

/-- A classroom with the timeslots at which it is available.  The constructor
sorts them and refuses duplicates. -/
structure AS_Classroom where
  name : String
  capacity : Int
  timeslots : List AS_Timeslot
  furnishings : List AS_ResourceType
  sorted : timeslots.Pairwise AS_Timeslot.before
  deriving DecidableEq

/-- A specific timeslot at which a specific room is available. -/
structure AS_RoomSlot where
  timeslot : AS_Timeslot
  room : AS_Classroom
  deriving DecidableEq

/-- `availability`: the roomslots of a classroom, sorted by timeslot. -/
def AS_Classroom.availability (room : AS_Classroom) : List AS_RoomSlot :=
  room.timeslots.map fun timeslot => ⟨timeslot, room⟩

namespace AS_RoomSlot

/-- `index`: the position of the roomslot in its room's availability. -/
def index (roomslot : AS_RoomSlot) : Nat :=
  roomslot.room.availability.idxOf roomslot

/-- `next`: the roomslot after this one in its room's availability. -/
def next (roomslot : AS_RoomSlot) : Option AS_RoomSlot :=
  roomslot.room.availability[roomslot.index + 1]?

end AS_RoomSlot

/-- The loop of `get_roomslots_by_duration`: roomslots are taken while the time
from the start to the end of the last one falls short of the duration by more
than the tolerance. -/
def takeRoomslots (duration : ℚ) (startTime : DateTime) :
    DateTime → List AS_RoomSlot → List AS_RoomSlot
  | _, [] => []
  | endTime, current :: rest =>
      if duration - hoursDifference startTime endTime > deltaTime then
        current :: takeRoomslots duration startTime current.timeslot.endTime rest
      else []

/-- `get_roomslots_by_duration`: the roomslots from the given one on that cover
the duration, or as many as there are. -/
def getRoomslotsByDuration (startRoomslot : AS_RoomSlot) (duration : ℚ) :
    List AS_RoomSlot :=
  let classroomAvailability := startRoomslot.room.availability
  if startRoomslot ∉ classroomAvailability then []
  else
    startRoomslot ::
      takeRoomslots duration startRoomslot.timeslot.startTime
        startRoomslot.timeslot.endTime
        (classroomAvailability.drop (startRoomslot.index + 1))

/-- The data of a schedule that no manipulation changes.  Sections, teachers and
classrooms are the values of dictionaries keyed by id or name; timeslot ids are
database keys; a section's teachers come from the teacher dictionary, and a
classroom's timeslots from the list of all timeslots. -/
structure AS_Schedule where
  timeslots : List AS_Timeslot
  classSections : List AS_ClassSection
  teachers : List AS_Teacher
  classrooms : List AS_Classroom
  /-- The lunch timeslots of each day that has some. -/
  lunchTimeslots : List ((Nat × Nat × Nat) × List AS_Timeslot)
  timeslotIds : (timeslots.map AS_Timeslot.id).Nodup
  sectionIds : (classSections.map AS_ClassSection.id).Nodup
  teacherIds : (teachers.map AS_Teacher.id).Nodup
  classroomNames : (classrooms.map AS_Classroom.name).Nodup
  teachersRegistered :
    ∀ sec ∈ classSections, ∀ teacher ∈ sec.teachers, teacher ∈ teachers
  teachersDistinct : ∀ sec ∈ classSections, sec.teachers.Nodup
  timeslotsRegistered :
    ∀ room ∈ classrooms, ∀ timeslot ∈ room.timeslots, timeslot ∈ timeslots

namespace AS_Schedule

/-- The roomslots of all classrooms, in the order in which the search visits
them. -/
def roomslots (schedule : AS_Schedule) : List AS_RoomSlot :=
  schedule.classrooms.flatMap AS_Classroom.availability

/-- `taught_sections`: the sections that list the teacher. -/
def taughtSections (schedule : AS_Schedule) (teacher : AS_Teacher) :
    List AS_ClassSection :=
  schedule.classSections.filter fun sec => teacher ∈ sec.teachers

end AS_Schedule

/-- The state that manipulations change: which roomslots a section is assigned,
and which section a roomslot is assigned to. -/
structure Assignments where
  assignedRoomslots : AS_ClassSection → List AS_RoomSlot
  assignedSection : AS_RoomSlot → Option AS_ClassSection

namespace Assignments

variable (assignments : Assignments)

def isScheduled (sec : AS_ClassSection) : Bool :=
  !(assignments.assignedRoomslots sec).isEmpty

/-- The loop of `assign_roomslots`, which marks free roomslots one by one. -/
def occupy (sec : AS_ClassSection) :
    List AS_RoomSlot → (AS_RoomSlot → Option AS_ClassSection) →
      Raises (AS_RoomSlot → Option AS_ClassSection)
  | [], assignedSection => .ok assignedSection
  | roomslot :: rest, assignedSection => do
      assert (assignedSection roomslot = none) "Roomslot is occupied"
      occupy sec rest
        (Function.update assignedSection roomslot (some sec))

/-- `assign_roomslots`, called without `clear_existing` by the manipulator. -/
def assignRoomslots (sec : AS_ClassSection) (roomslots : List AS_RoomSlot) :
    Raises Assignments := do
  assert (assignments.assignedRoomslots sec = []) "Already assigned to roomslots"
  let sorted := roomslots.insertionSort fun left right =>
    ¬ right.timeslot.before left.timeslot
  let assignedSection ← occupy sec sorted assignments.assignedSection
  return {
    assignedRoomslots := Function.update assignments.assignedRoomslots sec sorted
    assignedSection := assignedSection }

/-- The loop of `clear_roomslots`. -/
def vacate : List AS_RoomSlot → (AS_RoomSlot → Option AS_ClassSection) →
    AS_RoomSlot → Option AS_ClassSection
  | [], assignedSection => assignedSection
  | roomslot :: rest, assignedSection =>
      vacate rest (Function.update assignedSection roomslot none)

def clearRoomslots (sec : AS_ClassSection) : Assignments where
  assignedRoomslots := Function.update assignments.assignedRoomslots sec []
  assignedSection :=
    vacate (assignments.assignedRoomslots sec) assignments.assignedSection

end Assignments

end EspWebsite.Autoscheduler
