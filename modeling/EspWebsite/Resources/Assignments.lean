import EspWebsite.AjaxScheduling.ChangeLog
import EspWebsite.Library.Calendar
import EspWebsite.Library.Transactions

/-!
# Meeting times and rooms

The rows that schedule a section, and the methods of `ClassSection` and `Resource` that read and
change them.
-/

namespace EspWebsite.Resources

open AjaxScheduling Calendar Python Transactions

/-- A row of `Event`. -/
structure Event where
  id : ℕ
  program : Option ℕ
  startTime : DateTime
  endTime : DateTime
  deriving DecidableEq

/-- A row of `Resource`.  `isClassroom` tells whether its type is the classroom. -/
structure Resource where
  id : ℕ
  name : List Char
  isClassroom : Bool
  resGroup : Option ℕ
  event : Event
  deriving DecidableEq

/-- A row of `ResourceAssignment`: a resource, and the section that has it, if it is not a class
that has it. -/
structure ResourceAssignment where
  resource : ℕ
  target : Option ℕ
  lockLevel : ℤ
  deriving DecidableEq

/-- The rows that scheduling only reads, for one program. -/
structure Tables where
  program : ℕ
  events : List Event
  resources : List Resource
  sections : List ℕ
  eventIds : (events.map Event.id).Nodup
  resourceIds : (resources.map Resource.id).Nodup
  sectionIds : sections.Nodup

/-- The rows that scheduling changes. -/
structure Database where
  meetingTimes : ℕ → List Event
  resourceAssignments : List ResourceAssignment
  changeLog : AJAXChangeLog

/-- Why a room could not be assigned. -/
inductive RoomError where
  | doesNotExist (roomName : List Char) (sec : ℕ)
  | occupied (room : Resource) (occupiers : List ResourceAssignment)
  deriving DecidableEq

def Event.start (event : Event) : ℕ := event.startTime.toMicroseconds

/-- Whether the resource is one of the `grouped_resources` of another. -/
def Resource.grouped (resource other : Resource) : Bool :=
  match resource.resGroup with
  | none => other.id = resource.id
  | some group => other.resGroup = some group

namespace Tables

variable (tables : Tables)

def identicalResources (name : List Char) : List Resource :=
  tables.resources.filter fun resource => resource.name = name

/-- `identical_id` of a resource with this name, for the program: the least of several ids. -/
def identicalId (name : List Char) : Option ℕ :=
  (((tables.identicalResources name).filter fun resource =>
    resource.event.program = some tables.program).map Resource.id).min?

/-- The first resource with a name at an event. -/
def roomAt (name : List Char) (event : Event) : Option Resource :=
  ((tables.identicalResources name).filter fun resource =>
    resource.event.id = event.id).argmin Resource.id

/-- `rooms_to_assign`: one room for each event, in the order of the events. -/
def roomsToAssign (name : List Char) (events : List Event) : List Resource :=
  (events.insertionSort fun event other => event.id ≤ other.id).filterMap (tables.roomAt name)

def isClassroom (resource : ℕ) : Bool :=
  tables.resources.any fun other => other.id = resource && other.isClassroom

/-- Whether an assignment is one of the `classroomassignments` of a section. -/
def assignsClassroom (sec : ℕ) (row : ResourceAssignment) : Bool :=
  row.target = some sec && tables.isClassroom row.resource

end Tables

/-- `set(event_list)`: of the events that start together, which are equal, the first one stays. -/
def eventSet (events : List Event) : List Event :=
  (events.reverse.pwFilter fun event other => event.start ≠ other.start).reverse

namespace Database

variable (tables : Tables) (db : Database)

def classrooms (sec : ℕ) : List Resource :=
  tables.resources.filter fun resource => db.resourceAssignments.any fun row =>
    tables.assignsClassroom sec row && row.resource = resource.id

/-- `initial_rooms`: the classrooms of a section at its earliest meeting time. -/
def initialRooms (sec : ℕ) : List Resource :=
  match (db.meetingTimes sec).argmin Event.start with
  | none => []
  | some initial => ((db.classrooms tables sec).filter fun room =>
      room.event.id = initial.id).insertionSort fun room other => room.id ≤ other.id

def isTaken (resource : Resource) : Bool :=
  db.resourceAssignments.any fun row => row.resource = resource.id

/-- The `assignments` of a resource: those of its group. -/
def assignments (resource : Resource) : List ResourceAssignment :=
  db.resourceAssignments.filter fun row => tables.resources.any fun other =>
    resource.grouped other && other.id = row.resource

def clearAssignments (resource : Resource) : Database :=
  { db with resourceAssignments := db.resourceAssignments.filter fun row =>
      row ∉ db.assignments tables resource }

def clearRooms (sec : ℕ) : Database :=
  { db with resourceAssignments := db.resourceAssignments.filter fun row =>
      !tables.assignsClassroom sec row }

def clearMeetingTimes (sec : ℕ) : Database :=
  { db with meetingTimes := Function.update db.meetingTimes sec [] }

def assignMeetingTimes (sec : ℕ) (events : List Event) : Database :=
  { db with meetingTimes := Function.update db.meetingTimes sec (eventSet events) }

/-- Rooms become those of a section, whether they are taken or not. -/
def withRooms (sec : ℕ) (lock : ℤ) (rooms : List Resource) : Database :=
  { db with resourceAssignments :=
      db.resourceAssignments ++ rooms.map fun room => ⟨room.id, some sec, lock⟩ }

def assignClassRoom (sec : ℕ) (classroom : Resource) (lockLevel : ℤ) : Bool × Database :=
  if db.isTaken classroom then (false, db)
  else (true, db.withRooms sec lockLevel [classroom])

/-- The loop of `assign_room` over the rooms, after some `earlier` ones. -/
def assignRooms (sec : ℕ) (allowPartial : Bool) (lock : ℤ) :
    List Resource → List Resource → Bool × List RoomError → Database →
      (Bool × List RoomError) × Database
  | _, [], outcome, db => (outcome, db)
  | earlier, room :: rest, (status, errors), db =>
      match db.assignClassRoom sec room lock with
      | (true, db) => assignRooms sec allowPartial lock (earlier ++ [room]) rest (status, errors) db
      | (false, db) =>
          let errors := errors ++ [.occupied room (db.assignments tables room)]
          if allowPartial then
            assignRooms sec allowPartial lock (earlier ++ [room]) rest (false, errors) db
          else
            ((false, errors), earlier.foldl (fun db room => db.clearAssignments tables room) db)

/-- `assign_room`, for a room with this name. -/
def assignRoom (sec : ℕ) (name : List Char) (clearOthers allowPartial : Bool) (lock : ℤ) :
    (Bool × List RoomError) × Database :=
  let rooms := tables.roomsToAssign name (db.meetingTimes sec)
  let db := if clearOthers then db.clearRooms tables sec else db
  if rooms.length ≠ (db.meetingTimes sec).length then
    if allowPartial then
      db.assignRooms tables sec allowPartial lock [] rooms (false, [.doesNotExist name sec])
    else ((false, [.doesNotExist name sec]), db)
  else db.assignRooms tables sec allowPartial lock [] rooms (true, [])

end Database

theorem eventSet_sublist (events : List Event) : (eventSet events).Sublist events := by
  have reversed := (List.pwFilter_sublist (R := fun event other : Event => event.start ≠ other.start)
    events.reverse).reverse
  rwa [List.reverse_reverse] at reversed

theorem eventSet_eq_self {events : List Event}
    (apart : events.Pairwise fun event other => event.start ≠ other.start) :
    eventSet events = events := by
  rw [eventSet, List.pwFilter_eq_self.mpr, List.reverse_reverse]
  exact List.pairwise_reverse.mpr (apart.imp fun different => different.symm)

/-! ## Rooms of a name -/

namespace Tables

variable {tables : Tables} {name : List Char} {event : Event} {room other : Resource}

theorem resource_eq (isRoom : room ∈ tables.resources) (isOther : other ∈ tables.resources)
    (same : room.id = other.id) : room = other :=
  List.inj_on_of_nodup_map tables.resourceIds isRoom isOther same

theorem isClassroom_iff (isRoom : room ∈ tables.resources) :
    tables.isClassroom room.id = true ↔ room.isClassroom = true := by
  rw [isClassroom, List.any_eq_true]
  constructor
  · intro some
    rcases some with ⟨other, isOther, both⟩
    rw [Bool.and_eq_true, decide_eq_true_eq] at both
    rw [← resource_eq isOther isRoom both.1]
    exact both.2
  · intro classroom
    exact ⟨room, isRoom, by simp [classroom]⟩

theorem mem_of_roomAt (found : tables.roomAt name event = some room) :
    room ∈ tables.resources ∧ room.name = name ∧ room.event.id = event.id := by
  have isFound := List.argmin_mem (Option.mem_def.mpr found)
  rw [List.mem_filter, identicalResources, List.mem_filter] at isFound
  exact ⟨isFound.1.1, of_decide_eq_true isFound.1.2, of_decide_eq_true isFound.2⟩

theorem roomAt_of_length {events : List Event}
    (all : (tables.roomsToAssign name events).length = events.length) (isEvent : event ∈ events) :
    ∃ room ∈ tables.roomsToAssign name events, tables.roomAt name event = some room := by
  rw [roomsToAssign] at all ⊢
  have isSorted : event ∈ events.insertionSort fun event other => event.id ≤ other.id :=
    (List.mem_insertionSort _).mpr isEvent
  rw [← List.length_insertionSort (fun event other : Event => event.id ≤ other.id) events,
    List.filterMap_length_eq_length] at all
  rcases Option.isSome_iff_exists.mp (all event isSorted) with ⟨room, found⟩
  exact ⟨room, List.mem_filterMap.mpr ⟨event, isSorted, found⟩, found⟩

theorem mem_roomsToAssign {events : List Event} (isRoom : room ∈ tables.roomsToAssign name events) :
    room ∈ tables.resources ∧ room.name = name := by
  rcases List.mem_filterMap.mp isRoom with ⟨event, _, found⟩
  exact ⟨(mem_of_roomAt found).1, (mem_of_roomAt found).2.1⟩

theorem pairwise_roomsToAssign {events : List Event} (distinct : (events.map Event.id).Nodup) :
    (tables.roomsToAssign name events).Pairwise fun room other => room.id ≠ other.id := by
  have sorted : (events.insertionSort fun event other => event.id ≤ other.id).Pairwise
      fun event other => event.id ≠ other.id :=
    ((List.perm_insertionSort _ events).pairwise_iff fun different => different.symm).mpr
      (List.pairwise_map.mp distinct)
  refine List.pairwise_filterMap.mpr (sorted.imp ?_)
  intro event other different room found otherRoom otherFound same
  have isFound := mem_of_roomAt found
  have isOther := mem_of_roomAt otherFound
  rw [resource_eq isFound.1 isOther.1 same] at isFound
  exact different (isFound.2.2.symm.trans isOther.2.2)

end Tables

/-! ## Classrooms of a section -/

namespace Database

variable {tables : Tables} {db after : Database} {sec cls : ℕ} {lock : ℤ}
  {room other taken : Resource} {rooms earlier : List Resource} {errors : List RoomError}

theorem mem_classrooms : room ∈ db.classrooms tables sec ↔
    room ∈ tables.resources ∧ room.isClassroom = true ∧
      ∃ row ∈ db.resourceAssignments, row.target = some sec ∧ row.resource = room.id := by
  rw [classrooms, List.mem_filter, List.any_eq_true]
  refine and_congr_right fun isRoom => ?_
  simp only [Tables.assignsClassroom, Bool.and_eq_true, decide_eq_true_eq]
  constructor
  · intro some
    rcases some with ⟨row, isRow, ⟨target, classroom⟩, resource⟩
    rw [resource, Tables.isClassroom_iff isRoom] at classroom
    exact ⟨classroom, row, isRow, target, resource⟩
  · intro both
    rcases both with ⟨classroom, row, isRow, target, resource⟩
    refine ⟨row, isRow, ⟨target, ?_⟩, resource⟩
    rw [resource, Tables.isClassroom_iff isRoom]
    exact classroom

theorem mem_classrooms_clearRooms : room ∈ (db.clearRooms tables cls).classrooms tables sec ↔
    sec ≠ cls ∧ room ∈ db.classrooms tables sec := by
  rw [mem_classrooms, mem_classrooms, clearRooms]
  constructor
  · intro still
    rcases still with ⟨isRoom, classroom, row, isRow, target, resource⟩
    rw [List.mem_filter, Tables.assignsClassroom, target, resource,
      (Tables.isClassroom_iff isRoom).mpr classroom] at isRow
    refine ⟨fun same => ?_, isRoom, classroom, row, isRow.1, target, resource⟩
    simp [same] at isRow
  · intro both
    rcases both with ⟨different, isRoom, classroom, row, isRow, target, resource⟩
    refine ⟨isRoom, classroom, row, List.mem_filter.mpr ⟨isRow, ?_⟩, target, resource⟩
    simp [Tables.assignsClassroom, target, different]

theorem mem_classrooms_withRooms :
    room ∈ (db.withRooms cls lock rooms).classrooms tables sec ↔
      room ∈ db.classrooms tables sec ∨ (sec = cls ∧ room ∈ tables.resources ∧
        room.isClassroom = true ∧ ∃ other ∈ rooms, other.id = room.id) := by
  rw [mem_classrooms, mem_classrooms, withRooms]
  simp only [List.mem_append, List.mem_map]
  constructor
  · intro still
    rcases still with ⟨isRoom, classroom, row, isOld | ⟨other, isOther, rfl⟩, target, resource⟩
    · exact .inl ⟨isRoom, classroom, row, isOld, target, resource⟩
    · exact .inr ⟨(Option.some.inj target).symm, isRoom, classroom, other, isOther, resource⟩
  · intro either
    rcases either with ⟨isRoom, classroom, row, isRow, target, resource⟩ |
      ⟨same, isRoom, classroom, other, isOther, resource⟩
    · exact ⟨isRoom, classroom, row, .inl isRow, target, resource⟩
    · exact ⟨isRoom, classroom, _, .inr ⟨other, isOther, rfl⟩, by rw [same], resource⟩

theorem mem_classrooms_clearAssignments :
    room ∈ (db.clearAssignments tables other).classrooms tables sec ↔
      room ∈ db.classrooms tables sec ∧ other.grouped room = false := by
  rw [mem_classrooms, mem_classrooms, clearAssignments, assignments]
  simp only [List.mem_filter, List.any_eq_true, Bool.and_eq_true, decide_eq_true_eq]
  constructor
  · intro still
    rcases still with ⟨isRoom, classroom, row, ⟨isRow, kept⟩, target, resource⟩
    refine ⟨⟨isRoom, classroom, row, isRow, target, resource⟩, ?_⟩
    by_contra grouped
    exact kept ⟨isRow, room, isRoom, Bool.of_not_eq_false grouped, resource.symm⟩
  · intro both
    rcases both with ⟨⟨isRoom, classroom, row, isRow, target, resource⟩, apart⟩
    refine ⟨isRoom, classroom, row, ⟨isRow, fun deleted => ?_⟩, target, resource⟩
    rcases deleted with ⟨_, member, isMember, grouped, same⟩
    rw [Tables.resource_eq isMember isRoom (same.trans resource)] at grouped
    exact absurd (grouped.symm.trans apart) (by decide)

theorem mem_classrooms_foldl_clearAssignments :
    room ∈ (rooms.foldl (fun db room => db.clearAssignments tables room) db).classrooms tables sec ↔
      room ∈ db.classrooms tables sec ∧ ∀ other ∈ rooms, other.grouped room = false := by
  induction rooms generalizing db with
  | nil => simp
  | cons first rest ih =>
      rw [List.foldl_cons, ih, mem_classrooms_clearAssignments, List.forall_mem_cons, and_assoc]

theorem classrooms_congr
    (rooms : ∀ room, room ∈ after.classrooms tables sec ↔ room ∈ db.classrooms tables sec) :
    after.classrooms tables sec = db.classrooms tables sec := by
  refine List.filter_congr fun room isRoom => ?_
  have same := rooms room
  rw [classrooms, classrooms, List.mem_filter, List.mem_filter] at same
  exact Bool.eq_iff_iff.mpr (and_congr_right_iff.mp same isRoom)

theorem initialRooms_congr (times : after.meetingTimes sec = db.meetingTimes sec)
    (rooms : ∀ initial ∈ (db.meetingTimes sec).argmin Event.start, ∀ room ∈ tables.resources,
      room.event.id = initial.id →
        (room ∈ after.classrooms tables sec ↔ room ∈ db.classrooms tables sec)) :
    after.initialRooms tables sec = db.initialRooms tables sec := by
  rw [initialRooms, initialRooms, times]
  cases earliest : (db.meetingTimes sec).argmin Event.start with
  | none => rfl
  | some initial =>
      dsimp only
      congr 1
      rw [classrooms, classrooms, List.filter_filter, List.filter_filter]
      refine List.filter_congr fun room isRoom => ?_
      by_cases here : room.event.id = initial.id
      · have same := rooms initial earliest room isRoom here
        rw [classrooms, classrooms, List.mem_filter, List.mem_filter] at same
        simp only [here, decide_true, Bool.true_and]
        exact Bool.eq_iff_iff.mpr ((and_congr_right_iff.mp same) isRoom)
      · simp only [here, decide_false, Bool.false_and]

theorem mem_initialRooms {initial : Event}
    (earliest : (db.meetingTimes sec).argmin Event.start = some initial) :
    room ∈ db.initialRooms tables sec ↔
      room ∈ db.classrooms tables sec ∧ room.event.id = initial.id := by
  rw [initialRooms, earliest]
  dsimp only
  rw [List.mem_insertionSort, List.mem_filter, decide_eq_true_eq]

/-! ## Assigning rooms -/

theorem isTaken_withRooms : (db.withRooms cls lock rooms).isTaken room =
    (db.isTaken room || rooms.any fun other => other.id = room.id) := by
  rw [isTaken, isTaken, withRooms, List.any_append, List.any_map]
  rfl

theorem withRooms_withRooms {more : List Resource} :
    (db.withRooms cls lock rooms).withRooms cls lock more =
      db.withRooms cls lock (rooms ++ more) := by
  simp [withRooms]

theorem withRooms_nil : db.withRooms cls lock [] = db := by
  simp [withRooms]

theorem assignRooms_of_status
    (assigned : (db.assignRooms tables cls false lock earlier rooms (true, errors)).1.1 = true) :
    db.assignRooms tables cls false lock earlier rooms (true, errors) =
      ((true, errors), db.withRooms cls lock rooms) := by
  induction rooms generalizing earlier db with
  | nil => rw [assignRooms, withRooms_nil]
  | cons room rest ih =>
      rw [assignRooms.eq_def] at assigned ⊢
      dsimp only [assignClassRoom] at assigned ⊢
      cases isTaken : db.isTaken room with
      | true =>
          rw [isTaken] at assigned
          cases assigned
      | false =>
          rw [isTaken] at assigned
          exact (ih assigned).trans (by rw [withRooms_withRooms, List.singleton_append])

theorem status_assignRooms_of_free (free : ∀ room ∈ rooms, db.isTaken room = false)
    (distinct : rooms.Pairwise fun room other => room.id ≠ other.id) :
    (db.assignRooms tables cls false lock earlier rooms (true, errors)).1.1 = true := by
  induction rooms generalizing earlier db with
  | nil => rfl
  | cons room rest ih =>
      rw [assignRooms.eq_def]
      dsimp only [assignClassRoom]
      rw [free room List.mem_cons_self]
      rw [List.pairwise_cons] at distinct
      refine ih (fun other isOther => ?_) distinct.2
      rw [isTaken_withRooms, free other (List.mem_cons_of_mem _ isOther)]
      simpa using distinct.1 other isOther

theorem free_of_assignRooms
    (assigned : (db.assignRooms tables cls false lock earlier rooms (true, errors)).1.1 = true)
    (isRoom : room ∈ rooms) : db.isTaken room = false := by
  induction rooms generalizing earlier db with
  | nil => cases isRoom
  | cons first rest ih =>
      rw [assignRooms.eq_def] at assigned
      dsimp only [assignClassRoom] at assigned
      cases isTaken : db.isTaken first with
      | true =>
          rw [isTaken] at assigned
          cases assigned
      | false =>
          rw [isTaken] at assigned
          rcases List.mem_cons.mp isRoom with same | isRest
          · rw [same]
            exact isTaken
          · have free := ih assigned isRest
            rw [isTaken_withRooms, Bool.or_eq_false_iff] at free
            exact free.1

theorem assignRooms_of_not_status
    (refused : (db.assignRooms tables cls false lock earlier rooms (true, errors)).1.1 = false) :
    ∃ assigned taken rest, rooms = assigned ++ taken :: rest ∧
      (∀ room ∈ assigned, db.isTaken room = false) ∧
      (db.withRooms cls lock assigned).isTaken taken = true ∧
      (db.assignRooms tables cls false lock earlier rooms (true, errors)).2 =
        (earlier ++ assigned).foldl (fun db room => db.clearAssignments tables room)
          (db.withRooms cls lock assigned) := by
  induction rooms generalizing earlier db with
  | nil => cases refused
  | cons room rest ih =>
      rw [assignRooms.eq_def] at refused ⊢
      dsimp only [assignClassRoom] at refused ⊢
      cases isTaken : db.isTaken room with
      | true =>
          refine ⟨[], room, rest, rfl, by simp, by rw [withRooms_nil]; exact isTaken, ?_⟩
          rw [List.append_nil, withRooms_nil]
          rfl
      | false =>
          rw [isTaken] at refused
          rcases ih refused with ⟨assigned, taken, later, split, free, occupied, outcome⟩
          rw [withRooms_withRooms, List.singleton_append] at occupied outcome
          rw [List.append_assoc, List.singleton_append] at outcome
          refine ⟨room :: assigned, taken, later, by rw [split, List.cons_append], ?_, occupied,
            outcome⟩
          intro other isOther
          rcases List.mem_cons.mp isOther with same | isAssigned
          · rw [same]
            exact isTaken
          · have notTaken := free other isAssigned
            rw [isTaken_withRooms, Bool.or_eq_false_iff] at notTaken
            exact notTaken.1

theorem meetingTimes_clearOthers {clearOthers : Bool} :
    (if clearOthers then db.clearRooms tables cls else db).meetingTimes = db.meetingTimes := by
  cases clearOthers with
  | false => rfl
  | true => rfl

theorem assignRoom_eq {name : List Char} {clearOthers : Bool} :
    db.assignRoom tables cls name clearOthers false lock =
      if (tables.roomsToAssign name (db.meetingTimes cls)).length =
        (db.meetingTimes cls).length then
        (if clearOthers then db.clearRooms tables cls else db).assignRooms tables cls false lock []
          (tables.roomsToAssign name (db.meetingTimes cls)) (true, [])
      else ((false, [.doesNotExist name cls]),
        if clearOthers then db.clearRooms tables cls else db) := by
  rw [assignRoom, meetingTimes_clearOthers, ite_not]
  rfl

theorem assignRoom_of_status {name : List Char} {clearOthers : Bool}
    (assigned : (db.assignRoom tables cls name clearOthers false lock).1.1 = true) :
    (tables.roomsToAssign name (db.meetingTimes cls)).length = (db.meetingTimes cls).length ∧
      (db.assignRoom tables cls name clearOthers false lock).2 =
        (if clearOthers then db.clearRooms tables cls else db).withRooms cls lock
          (tables.roomsToAssign name (db.meetingTimes cls)) := by
  rw [assignRoom_eq] at assigned ⊢
  by_cases all : (tables.roomsToAssign name (db.meetingTimes cls)).length =
      (db.meetingTimes cls).length
  · rw [if_pos all] at assigned ⊢
    exact ⟨all, by rw [assignRooms_of_status assigned]⟩
  · rw [if_neg all] at assigned
    cases assigned

theorem status_assignRoom {name : List Char} {clearOthers : Bool}
    (distinct : ((db.meetingTimes cls).map Event.id).Nodup) :
    (db.assignRoom tables cls name clearOthers false lock).1.1 = true ↔
      (tables.roomsToAssign name (db.meetingTimes cls)).length = (db.meetingTimes cls).length ∧
        ∀ room ∈ tables.roomsToAssign name (db.meetingTimes cls),
          (if clearOthers then db.clearRooms tables cls else db).isTaken room = false := by
  rw [assignRoom_eq]
  by_cases all : (tables.roomsToAssign name (db.meetingTimes cls)).length =
      (db.meetingTimes cls).length
  · rw [if_pos all]
    constructor
    · intro assigned
      exact ⟨all, fun room isRoom => free_of_assignRooms assigned isRoom⟩
    · intro both
      exact status_assignRooms_of_free both.2 (Tables.pairwise_roomsToAssign distinct)
  · rw [if_neg all]
    exact iff_of_false Bool.false_ne_true fun both => all both.1

theorem classrooms_assignRoom_of_not_status {name : List Char}
    (refused : (db.assignRoom tables cls name true false lock).1.1 = false) (different : sec ≠ cls)
    (apart : room ∈ db.classrooms tables sec →
      (tables.roomsToAssign name (db.meetingTimes cls)).length = (db.meetingTimes cls).length →
      ∀ other ∈ (tables.roomsToAssign name (db.meetingTimes cls)).takeWhile fun room =>
        !(db.clearRooms tables cls).isTaken room, other.grouped room = false) :
    room ∈ (db.assignRoom tables cls name true false lock).2.classrooms tables sec ↔
      room ∈ db.classrooms tables sec := by
  rw [assignRoom_eq] at refused ⊢
  rw [if_pos rfl] at refused ⊢
  by_cases all : (tables.roomsToAssign name (db.meetingTimes cls)).length =
      (db.meetingTimes cls).length
  · rw [if_pos all] at refused ⊢
    rcases assignRooms_of_not_status refused with ⟨assigned, taken, rest, split, free, _, outcome⟩
    rw [outcome, List.nil_append, mem_classrooms_foldl_clearAssignments, mem_classrooms_withRooms,
      mem_classrooms_clearRooms]
    have spared : room ∈ db.classrooms tables sec →
        ∀ other ∈ assigned, other.grouped room = false := by
      intro isClassroom other isAssigned
      refine apart isClassroom all other ?_
      rw [split, List.takeWhile_append_of_pos fun room isAssigned =>
        by rw [free room isAssigned]; rfl]
      exact List.mem_append_left _ isAssigned
    simp only [different, false_and, or_false, ne_eq, not_false_eq_true, true_and]
    exact and_iff_left_of_imp spared
  · rw [if_neg all, mem_classrooms_clearRooms]
    exact and_iff_right different

theorem frame_foldl_clearAssignments :
    (rooms.foldl (fun db room => db.clearAssignments tables room) db).meetingTimes =
        db.meetingTimes ∧
      (rooms.foldl (fun db room => db.clearAssignments tables room) db).changeLog =
        db.changeLog := by
  induction rooms generalizing db with
  | nil => exact ⟨rfl, rfl⟩
  | cons room rest ih => exact ih

theorem frame_assignRooms :
    (db.assignRooms tables cls false lock [] rooms (true, errors)).2.meetingTimes =
        db.meetingTimes ∧
      (db.assignRooms tables cls false lock [] rooms (true, errors)).2.changeLog =
        db.changeLog := by
  cases status : (db.assignRooms tables cls false lock [] rooms (true, errors)).1.1 with
  | true =>
      rw [assignRooms_of_status status]
      exact ⟨rfl, rfl⟩
  | false =>
      rcases assignRooms_of_not_status status with ⟨assigned, _, _, _, _, _, outcome⟩
      rw [outcome]
      exact frame_foldl_clearAssignments

theorem frame_assignRoom {name : List Char} {clearOthers : Bool} :
    (db.assignRoom tables cls name clearOthers false lock).2.meetingTimes = db.meetingTimes ∧
      (db.assignRoom tables cls name clearOthers false lock).2.changeLog = db.changeLog := by
  have before : (if clearOthers then db.clearRooms tables cls else db).changeLog =
      db.changeLog := by
    cases clearOthers with
    | false => rfl
    | true => rfl
  rw [assignRoom_eq]
  split
  next =>
    exact ⟨frame_assignRooms.1.trans meetingTimes_clearOthers, frame_assignRooms.2.trans before⟩
  next => exact ⟨meetingTimes_clearOthers, before⟩

end Database

/-! ## A Saturday morning -/

namespace Sample

theorem nine_valid : Calendar.ValidFields 2024 1 6 9 0 0 0 := by decide

theorem ten_valid : Calendar.ValidFields 2024 1 6 10 0 0 0 := by decide

theorem sections_nodup : [1, 2].Nodup := by decide

end Sample

end EspWebsite.Resources
