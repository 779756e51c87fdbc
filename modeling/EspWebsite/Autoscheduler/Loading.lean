import EspWebsite.Autoscheduler.Saving

/-!
# Loading the schedule

`load_sections_and_teachers_and_classrooms` of `db_interface.py`, which converts the rows of a
program to the schedule in memory.  Rows come in the order of their tables.
-/

namespace EspWebsite.Autoscheduler.DbInterface

open Calendar Python Resources

/-- A row of `ClassSubject`. -/
structure ClassSubject where
  id : ℕ
  parentProgram : ℕ
  category : ℕ
  isLunch : Bool
  teachers : List ℕ
  gradeMin : ℕ
  gradeMax : ℕ
  classSizeMax : Option ℤ
  distinctTeachers : teachers.Nodup

/-- A row of `ClassSection` with its class, its meeting times and its resource requests. -/
structure ClassSection where
  id : ℕ
  parentClass : ClassSubject
  status : ℤ
  duration : Option ℚ
  maxClassCapacity : Option ℤ
  meetingTimes : List Event
  resourceRequests : List AS_ResourceType
  distinctTimes : (meetingTimes.map Event.id).Nodup

/-- The rows that loading reads, of all programs, and what it asks about one program. -/
structure Rows where
  program : ℕ
  events : List Event
  isClassTimeBlock : Event → Bool
  resources : List Resource
  numStudents : Resource → ℤ
  asResourceType : Resource → AS_ResourceType
  resourceAssignments : List ResourceAssignment
  classSections : List ClassSection
  openClassRegistration : Bool
  openClassCategory : ℕ
  lockedSections : List ℕ
  hasAvailabilityModule : Bool
  userAvailabilities : List (ℕ × Event)
  administrators : List ℕ
  emailcode : ClassSection → String
  eventIds : (events.map Event.id).Nodup
  resourceIds : (resources.map Resource.id).Nodup
  sectionIds : (classSections.map ClassSection.id).Nodup
  resourceEvents : ∀ resource ∈ resources, resource.event ∈ events
  meetingEvents : ∀ sec ∈ classSections, ∀ time ∈ sec.meetingTimes, time ∈ events
  availabilityEvents : ∀ row ∈ userAvailabilities, row.2 ∈ events

/-- The filters of `load_schedule_from_db`. -/
structure Filters where
  requireApproved : Bool
  excludeLunch : Bool
  excludeWalkins : Bool
  excludeScheduled : Bool
  excludeLocked : Bool

/-- `ClassStatus.ACCEPTED`. -/
def accepted : ℤ := 10

/-- When an event starts and ends. -/
def timesOf (event : Event) : DateTime × DateTime := (event.startTime, event.endTime)

/-- `sorted` on events, which are ordered by their starts. -/
def sortedEvents (events : List Event) : List Event :=
  events.insertionSort fun event other => event.start ≤ other.start

/-- `contiguous` on events. -/
def contiguousEvents (event1 event2 : Event) : Bool :=
  if event2.startTime < event1.endTime then false
  else
    decide (DateTime.microsecondsBetween event1.endTime event2.startTime < contiguousTolerance)

/-! ## Timeslots -/

def convertEvent (program : ℕ) (event : Event) : Raises AS_Timeslot := do
  assert (event.program = some program) "Event parent program doesn't match"
  assert (event.startTime < event.endTime) "Timeslot doesn't end after start time"
  if longEnough : deltaTime ≤ hoursDifference event.startTime event.endTime then
    .ok ⟨event.id, event.startTime, event.endTime, longEnough⟩
  else
    let duration := hoursDifference event.startTime event.endTime
    .error (schedulingError s!"Timeslot duration {duration} is too short")

/-- `sorted` on timeslots. -/
def sortedTimeslots (timeslots : List AS_Timeslot) : List AS_Timeslot :=
  timeslots.insertionSort fun left right => ¬ right.before left

/-- `build_timeslot_dict`: of the timeslots with the same times, the last one stays. -/
def timeslotDict (timeslots : List AS_Timeslot) (times : DateTime × DateTime) :
    Option AS_Timeslot :=
  timeslots.reverse.find? fun timeslot => timeslot.times = times

/-- The loop of `bisect_left` between two positions. -/
def bisectLeft (timeslots : List AS_Timeslot) (timeslot : AS_Timeslot) : ℕ → ℕ → ℕ → ℕ
  | 0, low, _ => low
  | steps + 1, low, high =>
      if low < high then
        let middle := (low + high) / 2
        match timeslots[middle]? with
        | none => low
        | some other =>
            if other.before timeslot then bisectLeft timeslots timeslot steps (middle + 1) high
            else bisectLeft timeslots timeslot steps low middle
      else low

/-- `insort_left`.  The distance of the positions falls with each step. -/
def insortLeft (timeslots : List AS_Timeslot) (timeslot : AS_Timeslot) : List AS_Timeslot :=
  let position := bisectLeft timeslots timeslot timeslots.length 0 timeslots.length
  timeslots.take position ++ timeslot :: timeslots.drop position

/-- An `AS_Teacher` under construction.  Its key is the id of a teacher, or `None`, which stands in
for the teachers of a class without teachers. -/
structure LoadedTeacher where
  id : Option ℕ
  availability : List AS_Timeslot
  isAdmin : Bool

def LoadedTeacher.addAvailability (teacher : LoadedTeacher) (timeslot : AS_Timeslot) :
    LoadedTeacher :=
  if teacher.availability.any fun other => other.times = timeslot.times then teacher
  else { teacher with availability := insortLeft teacher.availability timeslot }

/-- An `AS_ClassSection` as its constructor leaves it, with the keys of its teachers. -/
structure LoadedSection where
  id : ℕ
  parentClass : ℕ
  duration : ℚ
  teachers : List (Option ℕ)
  capacity : Option ℤ
  gradeMin : ℕ
  gradeMax : ℕ
  category : ℕ
  assignedRoomslots : List AS_RoomSlot
  resourceRequests : List AS_ResourceType

/-- `scheduling_hash` of a section. -/
def LoadedSection.initialState (sec : LoadedSection) : SchedulingHash :=
  ((sec.assignedRoomslots.map fun roomslot => roomslot.timeslot.times :
      List (DateTime × DateTime)),
    (sec.assignedRoomslots.map fun roomslot => roomslot.room.name.toList).toFinset)

/-- `{r.name: r for r in resources}`, as the list of its values. -/
def namedResources : List AS_ResourceType → List AS_ResourceType
  | [] => []
  | resource :: rest =>
      if rest.any fun other => other.name = resource.name then
        -- the name stays where it was first, and gets the last value
        let last := rest.reverse.find? fun other => other.name = resource.name
        last.getD resource ::
          (namedResources rest).filter fun other => other.name ≠ resource.name
      else resource :: namedResources rest

namespace Rows

variable (rows : Rows) (filters : Filters)

def getTimeSlots : List Event :=
  sortedEvents (rows.events.filter fun event =>
    decide (event.program = some rows.program) && rows.isClassTimeBlock event)

def timeslots : Raises (List AS_Timeslot) :=
  (rows.getTimeSlots.mapM (convertEvent rows.program)).map sortedTimeslots

def sections : List ClassSection :=
  rows.classSections.filter fun sec =>
    decide (sec.parentClass.parentProgram = rows.program) &&
      (!filters.requireApproved || decide (sec.status = accepted)) &&
      (!filters.excludeScheduled || sec.meetingTimes.isEmpty) &&
      !(filters.excludeLunch && sec.parentClass.isLunch) &&
      !(filters.excludeWalkins && rows.openClassRegistration &&
        decide (sec.parentClass.category = rows.openClassCategory)) &&
      !(filters.excludeLocked && decide (sec.id ∈ rows.lockedSections))

/-! ## Teachers -/

/-- A join on the teachers of a class, which yields `None` for a class without teachers. -/
def teacherKeys (cls : ClassSubject) : List (Option ℕ) :=
  match cls.teachers with
  | [] => [none]
  | teachers => teachers.map some

def teacherIds : List (Option ℕ) :=
  ((rows.sections filters).flatMap fun sec => teacherKeys sec.parentClass).reverse.dedup.reverse

/-- `teaching_times_by_teacher`: the events at which the sections of the program meet. -/
def teachingTimes (teacher : Option ℕ) : List ℕ :=
  (rows.classSections.filter fun sec =>
    decide (sec.parentClass.parentProgram = rows.program) &&
      decide (teacher ∈ teacherKeys sec.parentClass)).flatMap fun sec =>
        sec.meetingTimes.map Event.id

/-- `availabilities_by_teacher`. -/
def availabilities (timeslots : List AS_Timeslot) (teacher : Option ℕ) : List AS_Timeslot :=
  if rows.hasAvailabilityModule = true then
    ((rows.userAvailabilities.filter fun row => row.2.program = some rows.program).insertionSort
      fun row other => row.2.start ≤ other.2.start).filterMap fun row =>
        if some row.1 = teacher ∧ row.2.id ∉ rows.teachingTimes teacher then
          timeslotDict timeslots (timesOf row.2)
        else none
  else timeslots.filter fun timeslot => timeslot.id ∉ rows.teachingTimes teacher

def initialTeachers (timeslots : List AS_Timeslot) : List LoadedTeacher :=
  (rows.teacherIds filters).map fun teacher =>
    ⟨teacher, rows.availabilities timeslots teacher,
      rows.administrators.any fun admin => some admin = teacher⟩

/-! ## Assignments -/

def isClassroom (resource : ℕ) : Bool :=
  rows.resources.any fun other => other.id = resource && other.isClassroom

/-- `known_sections`, by id. -/
def knownSection (id : ℕ) : Option ClassSection :=
  (rows.sections filters).find? fun sec => sec.id = id

/-- `sections_by_resource`: of the known sections that a classroom is assigned to, the last one
stays. -/
def sectionsByResource (resource : ℕ) : Option ℕ :=
  (rows.resourceAssignments.reverse.find? fun row =>
    decide (row.resource = resource) && rows.isClassroom row.resource &&
      row.target.any fun target => (rows.knownSection filters target).isSome).bind
        ResourceAssignment.target

def roomsBySection (sec : ClassSection) : List Resource :=
  rows.resources.filter fun resource => rows.sectionsByResource filters resource.id = some sec.id

end Rows

/-- `zip(classrooms, meeting_times, classrooms[1:], meeting_times[1:])`: the loop over adjacent
pairs. -/
def adjacentAgree : List (Resource × Event) → Bool
  | (room1, time1) :: (room2, time2) :: rest =>
      if !contiguousEvents time1 time2 then false
      else if room1.event.start ≠ time1.start ∨ room2.event.start ≠ time2.start then false
      else if room1.name ≠ room2.name then false
      else adjacentAgree ((room2, time2) :: rest)
  | _ => true

/-- `sorted` on classrooms, by their events. -/
def sortedRooms (classrooms : List Resource) : List Resource :=
  classrooms.insertionSort fun room other => room.event.start ≤ other.event.start

/-- Whether sorted meeting times last as long as the section. -/
def satisfiesDuration (duration : Option ℚ) : List Event → Raises Bool
  | [] => .ok true
  | first :: rest =>
      let last := (first :: rest).getLast (List.cons_ne_nil _ _)
      match duration with
      | none => .error .typeError
      | some hours =>
          .ok (decide (|hoursDifference first.startTime last.endTime - hours| ≤ deltaTime))

/-- `section_satisfies_constraints`, for the classrooms and the meeting times of a section. -/
def sectionSatisfiesConstraints (duration : Option ℚ) (rooms : List Resource)
    (times : List Event) : Raises Bool :=
  let classrooms := sortedRooms rooms
  let meetingTimes := sortedEvents times
  if classrooms.length ≠ meetingTimes.length then .ok false
  else if adjacentAgree (classrooms.zip meetingTimes) = false then .ok false
  else satisfiesDuration duration meetingTimes

namespace Rows

variable (rows : Rows) (filters : Filters)

/-- `section_satisfies_constraints` of a section. -/
def satisfiesConstraints (sec : ClassSection) : Raises Bool :=
  sectionSatisfiesConstraints sec.duration (rows.roomsBySection filters sec) sec.meetingTimes

/-! ## Classrooms -/

def getClassrooms : List Resource :=
  (rows.resources.filter fun resource =>
    decide (resource.event.program = some rows.program) && resource.isClassroom).insertionSort
      fun resource other => resource.event.id ≤ other.event.id

/-- `all_assignments`: the room name, the event and the target of each assignment of some
classrooms. -/
def allAssignments (classrooms : List Resource) : List ((List Char × ℕ) × Option ℕ) :=
  rows.resourceAssignments.filterMap fun row =>
    (classrooms.find? fun classroom => classroom.id = row.resource).map fun classroom =>
      ((classroom.name, classroom.event.id), row.target)

/-- `assignments_dict`.  Its keys are pairs, so that a name is never one of them, and each row
starts a new list. -/
def assignmentsDict (assignments : List ((List Char × ℕ) × Option ℕ)) :
    List Char × ℕ → List (Option ℕ) :=
  assignments.foldl (fun dict row => Function.update dict row.1 [row.2]) fun _ => []

def unavailable (classroom : Resource) : List (Option ℕ) → Raises Bool
  | [] => .ok false
  | [target] =>
      match target.bind (rows.knownSection filters) with
      | none => .ok true
      | some sec => (rows.satisfiesConstraints filters sec).map fun satisfied => !satisfied
  | targets =>
      match targets.find? fun target => (target.bind (rows.knownSection filters)).isSome with
      | none => .ok true
      | some target =>
          let name := String.ofList classroom.name
          let number := (target.map toString).getD "None"
          .error (schedulingError
            s!"Room {name} is double-booked and has known section num {number}")

/-- An entry of `classroom_info_dict`. -/
structure ClassroomInfo where
  name : List Char
  timeslots : List AS_Timeslot
  numStudents : ℤ
  furnishings : List AS_ResourceType

/-- The furnishings of a classroom: what its group has besides classrooms. -/
def furnishings (classroom : Resource) : List AS_ResourceType :=
  match classroom.resGroup with
  | none => []
  | some group => namedResources ((rows.resources.filter fun resource =>
      decide (resource.resGroup = some group) && !resource.isClassroom).map rows.asResourceType)

/-- A timeslot of a classroom is added to `classroom_info_dict`. -/
def addTimeslot (classroom : Resource) (timeslot : AS_Timeslot) :
    List ClassroomInfo → List ClassroomInfo
  | [] =>
      [⟨classroom.name, [timeslot], rows.numStudents classroom, rows.furnishings classroom⟩]
  | info :: rest =>
      if info.name = classroom.name then
        { info with timeslots := info.timeslots ++ [timeslot] } :: rest
      else info :: addTimeslot classroom timeslot rest

/-- The loop of `convert_classroom_resources` over the classrooms. -/
def classroomInfos (timeslots : List AS_Timeslot) (dict : List Char × ℕ → List (Option ℕ)) :
    List Resource → List ClassroomInfo → Raises (List ClassroomInfo)
  | [], infos => .ok infos
  | classroom :: rest, infos => do
      if ← rows.unavailable filters classroom (dict (classroom.name, classroom.event.id)) then
        classroomInfos timeslots dict rest infos
      else
        match timeslotDict timeslots (timesOf classroom.event) with
        | none => .error .keyError
        | some timeslot =>
            classroomInfos timeslots dict rest (rows.addTimeslot classroom timeslot infos)

/-- The constructor of `AS_Classroom`. -/
def asClassroom (info : ClassroomInfo) : Raises AS_Classroom :=
  if distinct : (sortedTimeslots info.timeslots).Pairwise AS_Timeslot.before then
    .ok ⟨String.ofList info.name, info.numStudents, sortedTimeslots info.timeslots,
      info.furnishings, distinct⟩
  else
    let name := String.ofList info.name
    .error (schedulingError s!"Room {name} has duplicate resources")

def convertClassroomResources (timeslots : List AS_Timeslot) : Raises (List AS_Classroom) := do
  let classrooms := rows.getClassrooms
  let infos ← rows.classroomInfos filters timeslots
    (assignmentsDict (rows.allAssignments classrooms)) classrooms []
  infos.mapM asClassroom

/-! ## Sections -/

/-- `rooms[classroom.name].availability_dict[(event.start, event.end)]`. -/
def roomslotOf (rooms : List AS_Classroom) (classroom : Resource) : Raises AS_RoomSlot :=
  match rooms.find? fun room => room.name = String.ofList classroom.name with
  | none => .error .keyError
  | some room =>
      match room.availability.find? fun roomslot =>
        roomslot.timeslot.times = timesOf classroom.event with
      | none => .error .keyError
      | some roomslot => .ok roomslot

/-- `scheduling_hash_of`, with the assignments that were loaded. -/
def schedulingHashOf (sec : ClassSection) : SchedulingHash :=
  ((sec.meetingTimes.map timesOf : List (DateTime × DateTime)),
    ((rows.roomsBySection filters sec).map Resource.name).toFinset)

def getSectionCapacity (sec : ClassSection) : Option ℤ :=
  match sec.maxClassCapacity with
  | some capacity => some capacity
  | none => sec.parentClass.classSizeMax

/-- The section that `convert_classection_obj` constructs. -/
def asClassSection (sec : ClassSection) (duration : ℚ) (roomslots : List AS_RoomSlot) :
    LoadedSection where
  id := sec.id
  parentClass := sec.parentClass.id
  duration := duration
  teachers := teacherKeys sec.parentClass
  capacity := getSectionCapacity sec
  gradeMin := sec.parentClass.gradeMin
  gradeMax := sec.parentClass.gradeMax
  category := sec.parentClass.category
  assignedRoomslots := roomslots.insertionSort fun left right =>
    ¬ right.timeslot.before left.timeslot
  resourceRequests := namedResources sec.resourceRequests

/-- `convert_classection_obj`: `None` if the section is skipped. -/
def convertClassectionObj (rooms : List AS_Classroom) (sec : ClassSection) :
    Raises (Option LoadedSection) := do
  if ← rows.satisfiesConstraints filters sec then
    let roomslots ← (rows.roomsBySection filters sec).mapM (roomslotOf rooms)
    match sec.duration with
    | none => .error .typeError
    | some duration => do
        let converted := asClassSection sec duration roomslots
        let code := rows.emailcode sec
        assert (rows.schedulingHashOf filters sec = converted.initialState)
          ("AS_ClassSection state doesn't match ClassSection state " ++ s!"for section {code}")
        return some converted
  else return none

/-- What the constructor of a section does to its teachers. -/
def teach (sec : LoadedSection) (teachers : List LoadedTeacher) : List LoadedTeacher :=
  teachers.map fun teacher =>
    if teacher.id ∈ sec.teachers then
      sec.assignedRoomslots.foldl
        (fun teacher roomslot => teacher.addAvailability roomslot.timeslot) teacher
    else teacher

def batchConvertSections (rooms : List AS_Classroom) :
    List ClassSection → List LoadedTeacher → Raises (List LoadedSection × List LoadedTeacher)
  | [], teachers => .ok ([], teachers)
  | sec :: rest, teachers => do
      match ← rows.convertClassectionObj filters rooms sec with
      | none => batchConvertSections rooms rest teachers
      | some converted => do
          let others ← batchConvertSections rooms rest (teach converted teachers)
          return (converted :: others.1, others.2)

end Rows

structure Loaded where
  timeslots : List AS_Timeslot
  classSections : List LoadedSection
  teachers : List LoadedTeacher
  classrooms : List AS_Classroom

/-- `load_sections_and_teachers_and_classrooms`, with the timeslots of the schedule. -/
def loadSectionsAndTeachersAndClassrooms (rows : Rows) (filters : Filters) : Raises Loaded := do
  let timeslots ← rows.timeslots
  let rooms ← rows.convertClassroomResources filters timeslots
  let converted ← rows.batchConvertSections filters rooms (rows.sections filters)
    (rows.initialTeachers filters timeslots)
  return ⟨timeslots, converted.1, converted.2, rooms⟩

end EspWebsite.Autoscheduler.DbInterface
