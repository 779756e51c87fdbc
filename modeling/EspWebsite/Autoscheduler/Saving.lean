import EspWebsite.AjaxScheduling.Requests
import EspWebsite.Autoscheduler.Constraints

/-!
# Saving the schedule

`save` of `db_interface.py`, which writes the changed sections to the database in a transaction.
-/

namespace EspWebsite.Autoscheduler.DbInterface

open AjaxScheduling Calendar Python Resources Transactions

/-- What `scheduling_hash` dumps: when the roomslots of a section start and end, sorted, and the
names of their rooms, sorted and without duplicates. -/
abbrev SchedulingHash := Multiset (DateTime × DateTime) × Finset (List Char)

def schedulingHash (assignments : Assignments) (classSection : AS_ClassSection) : SchedulingHash :=
  let roomslots := assignments.assignedRoomslots classSection
  ((roomslots.map fun roomslot => roomslot.timeslot.times : List (DateTime × DateTime)),
    (roomslots.map fun roomslot => roomslot.room.name.toList).toFinset)

def schedulingHashOf (tables : Tables) (db : Database) (sec : ℕ) : SchedulingHash :=
  (((db.meetingTimes sec).map fun event => (event.startTime, event.endTime) :
      List (DateTime × DateTime)),
    ((db.classrooms tables sec).map Resource.name).toFinset)

/-- A schedule in memory, with the hash of each section when it was loaded. -/
structure LoadedSchedule where
  schedule : AS_Schedule
  assignments : Assignments
  constraints : CompositeConstraint
  initialState : AS_ClassSection → SchedulingHash

/-- What `save` only reads: the sections that are locked, the sections that each teacher teaches,
the email codes of sections, and the texts of the errors of `assign_room`. -/
structure SectionRows where
  locked : List ℕ
  taughtSections : ℕ → List ℕ
  emailcode : ℕ → String
  errorText : RoomError → String

/-- An entry of `section_infos`. -/
structure SectionInfo where
  classSection : AS_ClassSection
  possibleConflicts : List (ℕ × List ℕ)
  meetingTimes : List Resources.Event
  roomObjs : List Resource

def schedulingError (message : String) : PyError := .raised "SchedulingError" message

section Save

variable (tables : Tables) (rows : SectionRows) (loaded : LoadedSchedule)

def runConstraintChecks : Raises Unit := do
  match ← loaded.constraints.checkSchedule loaded.schedule loaded.assignments with
  | none => .ok ()
  | some violation =>
      let name := violation.constraintName
      let reason := violation.reason
      .error (schedulingError (s!"Schedule violated constraints: Constraint {name} was violated "
        ++ s!"because {reason}. If this is intended, consider locking the offending class(es)."))

/-- `changed_sections`, in the order of the rows of `section_objs`. -/
def sectionObjs : List AS_ClassSection :=
  tables.sections.filterMap fun id => loaded.schedule.classSections.find? fun classSection =>
    classSection.id = id &&
      decide (loaded.initialState classSection ≠ schedulingHash loaded.assignments classSection)

/-- The meeting times of some roomslots. -/
def eventsOf (roomslots : List AS_RoomSlot) : List Resources.Event :=
  tables.events.filter fun event => event.id ∈ roomslots.map fun roomslot => roomslot.timeslot.id

/-- The entry of `section_infos` for a section. -/
def sectionInfo (classSection : AS_ClassSection) : Raises SectionInfo := do
  let possibleConflicts := classSection.teachers.map fun teacher =>
    (teacher.id, (rows.taughtSections teacher.id).filter fun other => other ≠ classSection.id)
  match loaded.assignments.assignedRoomslots classSection with
  | [] => .ok ⟨classSection, possibleConflicts, [], []⟩
  | first :: rest =>
      let meetingTimes := eventsOf tables (first :: rest)
      let initialRoomNum := first.room.name
      assert (∀ roomslot ∈ first :: rest, roomslot.room.name = initialRoomNum)
        "Section was assigned to multiple rooms"
      .ok ⟨classSection, possibleConflicts, meetingTimes, tables.resources.filter fun resource =>
        resource.name = initialRoomNum.toList && resource.isClassroom &&
          decide (resource.event.id ∈ meetingTimes.map Resources.Event.id)⟩

def ensureSectionNotMoved (db : Database) (sec : ℕ) (initialState : SchedulingHash) :
    Raises Unit :=
  if schedulingHashOf tables db sec ≠ initialState then
    let code := rows.emailcode sec
    .error (schedulingError s!"Section {code} was moved.")
  else .ok ()

def unscheduleSection (sec : ℕ) (time : ℤ) : Transactions.Action Database PUnit := do
  Action.change fun db => db.clearMeetingTimes sec
  Action.change fun db => db.clearRooms tables sec
  appendScheduling [] [] sec none time

def scheduleSection (sec : ℕ) (times : List Resources.Event) (room : Resource) (time : ℤ) :
    Transactions.Action Database PUnit := do
  Action.change fun db => db.assignMeetingTimes sec times
  let db ← Action.read
  let outcome := db.assignRoom tables sec room.name false false 0
  Action.change fun _ => outcome.2
  if outcome.1.1 = true then appendScheduling (times.map Resources.Event.id) room.name sec none time
  else do
    Action.change fun db => db.clearMeetingTimes sec
    Action.raise (schedulingError ("Room assignment failed with errors: " ++
      " | ".intercalate (outcome.1.2.map rows.errorText)))

/-- The teachers of a section must not teach another one between its start and its end. -/
def checkTeachers (db : Database) (info : SectionInfo) (startTime endTime : DateTime) :
    Raises Unit :=
  Python.forEach info.possibleConflicts fun conflict =>
    Python.forEach conflict.2 fun other =>
      Python.forEach (db.meetingTimes other) fun otherTime =>
        if otherTime.startTime ≥ endTime ∨ otherTime.endTime ≤ startTime then .ok ()
        else
          let teacher := conflict.1
          let code := rows.emailcode info.classSection.id
          let otherCode := rows.emailcode other
          .error (schedulingError (s!"Teacher {teacher} of section {code} is already teaching "
            ++ s!"section {otherCode}"))

/-- The rooms of a section must not be assigned to another one. -/
def checkRooms (db : Database) (info : SectionInfo) : Raises Unit :=
  Python.forEach info.roomObjs fun room =>
    if db.isTaken room = true then
      Python.forEach (db.assignments tables room) fun occupier =>
        match occupier.target with
        | none => .error .attributeError
        | some other =>
            if other ≠ info.classSection.id then
              let name := String.ofList room.name
              let code := rows.emailcode info.classSection.id
              let otherCode := rows.emailcode other
              .error (schedulingError (s!"Destination room {name} of section {code} was "
                ++ s!"already occupied by section {otherCode}"))
            else .ok ()
    else .ok ()

def checkCanScheduleSections (db : Database) (infos : List SectionInfo) : Raises Unit :=
  Python.forEach infos fun info => do
    if info.classSection.id ∈ rows.locked then
      let code := rows.emailcode info.classSection.id
      .error (schedulingError s!"Section {code} is locked!")
    match loaded.assignments.assignedRoomslots info.classSection with
    | [] => .ok ()
    | first :: rest => do
        checkTeachers rows db info first.timeslot.startTime
          ((first :: rest).getLast (List.cons_ne_nil _ _)).timeslot.endTime
        checkRooms tables rows db info

/-- The loop that checks that no section was moved, and unschedules the sections.  It tests the
times of the section that `section_obj` is left at. -/
def unscheduleSections (sectionObj : ℕ) (time : ℤ) :
    List AS_ClassSection → Transactions.Action Database PUnit
  | [] => return ⟨⟩
  | classSection :: rest => do
      let db ← Action.read
      Action.lift (ensureSectionNotMoved tables rows db classSection.id
        (loaded.initialState classSection))
      Action.onlyIf (db.meetingTimes sectionObj ≠ [])
        (unscheduleSection tables classSection.id time)
      unscheduleSections sectionObj time rest

def unscheduleChanged (time : ℤ) (sections : List AS_ClassSection) :
    Transactions.Action Database PUnit :=
  match sections.getLast? with
  | none => return ⟨⟩
  | some sectionObj => unscheduleSections tables rows loaded sectionObj.id time sections

def scheduleSections (time : ℤ) : List SectionInfo → Transactions.Action Database PUnit
  | [] => return ⟨⟩
  | info :: rest => do
      Action.onlyIf (loaded.assignments.isScheduled info.classSection = true) do
        let room ← Action.lift (Python.first info.roomObjs)
        scheduleSection tables rows info.classSection.id info.meetingTimes room time
      scheduleSections time rest

/-- The last check that the sections are where they belong, after their hashes were computed
again. -/
def ensureSaved (db : Database) (sections : List AS_ClassSection) : Raises Unit :=
  Python.forEach sections fun classSection =>
    ensureSectionNotMoved tables rows db classSection.id
      (schedulingHash loaded.assignments classSection)

/-- The transaction of `save`. -/
def saveChanged (time : ℤ) : Transactions.Action Database PUnit := do
  let sections := sectionObjs tables loaded
  let infos ← Action.lift (sections.mapM (sectionInfo tables rows loaded))
  unscheduleChanged tables rows loaded time sections
  let unscheduled ← Action.read
  Action.lift (checkCanScheduleSections tables rows loaded unscheduled infos)
  scheduleSections tables rows loaded time infos
  let saved ← Action.read
  Action.lift (ensureSaved tables rows loaded saved sections)
  Action.lift (checkCanScheduleSections tables rows loaded saved infos)

def save (checkConsistency checkConstraints : Bool) (time : ℤ) :
    Transactions.Action Database PUnit := do
  Action.onlyIf (checkConsistency = true)
    (Action.lift (runAllConsistencyChecks loaded.schedule loaded.assignments))
  Action.onlyIf (checkConstraints = true) (Action.lift (runConstraintChecks loaded))
  Action.atomic (saveChanged tables rows loaded time)

end Save

end EspWebsite.Autoscheduler.DbInterface
