import EspWebsite.Resources.Assignments

/-!
# Requests that change the schedule

`ajax_schedule_deletereg`, `ajax_schedule_assignreg` and `ajax_schedule_swap` of
`program/modules/handlers/ajaxschedulingmodule.py`, and `ClassSection.cancel` with `unschedule`.
-/

namespace EspWebsite.AjaxScheduling

open Python Resources Transactions

/-- What a request is answered, by the message of the answer. -/
inductive Response where
  | removed
  | noTimesSpecified
  | noClassroomsSpecified
  | multipleRooms
  | eventsNotFound
  | classroomsNotFound
  | cannotSchedule
  | roomErrors (errors : List RoomError)
  | scheduled
  | swapped
  deriving DecidableEq

/-- The `ret` of an answer. -/
def Response.ret : Response → Bool
  | .removed | .scheduled | .swapped => true
  | _ => false

/-- A new assignment of `ajax_schedule_swap`, without a room if `room_id` is null or empty. -/
structure SwapAssignment where
  sec : ℕ
  timeslots : List (List Char)
  roomId : Option (List Char)

/-- Whether a section cannot be scheduled at some times, by the availability of its teachers. -/
abbrev CannotSchedule := Database → ℕ → List Resources.Event → Bool

/-- `int(text)`. -/
def int (text : List Char) : Raises ℤ :=
  match parseInt text with
  | none => .error .valueError
  | some number => .ok number

def fitsColumns (timeslots : List ℕ) (roomName : List Char) : Bool :=
  (timeslotsText timeslots).length ≤ 256 && roomName.length ≤ 256

def appendScheduling (timeslots : List ℕ) (roomName : List Char) (clsId : ℕ) (user : Option ℕ)
    (time : ℤ) : Action Database PUnit :=
  if fitsColumns timeslots roomName = true then
    Action.change fun db => { db with
      changeLog := db.changeLog ++
        [⟨db.changeLog.getLatestIndex + 1, .scheduling timeslots roomName, clsId, user, time⟩] }
  else Action.raise (.raised "DataError" "value too long for type character varying(256)")

section Requests

variable (tables : Tables)

/-- `ClassSection.objects.get`. -/
def getSection (sec : ℕ) : Action Database PUnit :=
  Action.onlyIf (sec ∉ tables.sections)
    (Action.raise (.raised "DoesNotExist" "ClassSection matching query does not exist."))

def ajaxScheduleDeletereg (cls : ℕ) (user : Option ℕ) (time : ℤ) : Action Database Response := do
  Action.change fun db => db.clearRooms tables cls
  Action.change fun db => db.clearMeetingTimes cls
  appendScheduling [] [] cls user time
  return .removed

/-- `Event.objects.filter(id__in=timeslot_ids).order_by('start')`. -/
def eventsWithIds (ids : List ℤ) : List Resources.Event :=
  (tables.events.filter fun event => (event.id : ℤ) ∈ ids).insertionSort fun event other =>
    event.start ≤ other.start

/-- The checks that `ajax_schedule_assignreg` makes first: an answer, or the times and the
classroom. -/
def checkAssignreg (timeslotIds classroomIds : List (List Char)) (override : Bool)
    (cannotSchedule : List Resources.Event → Bool) :
    Raises (Except Response (List Resources.Event × Resource)) :=
  if timeslotIds = [] then .ok (.error .noTimesSpecified)
  else
    match classroomIds with
    | [] => .ok (.error .noClassroomsSpecified)
    | basicCls :: rest =>
        if ∃ other ∈ rest, other ≠ basicCls then .ok (.error .multipleRooms)
        else do
          let ids ← timeslotIds.mapM int
          let times := eventsWithIds tables ids
          if times = [] then .ok (.error .eventsNotFound)
          else do
            let id ← int basicCls
            match tables.resources.find? fun resource =>
                (resource.id : ℤ) = id && resource.isClassroom with
            | none => .ok (.error .classroomsNotFound)
            | some classroom =>
                if override = false ∧ cannotSchedule times then .ok (.error .cannotSchedule)
                else .ok (.ok (times, classroom))

/-- The part of `ajax_schedule_assignreg` that changes the schedule. -/
def assignTimesAndRoom (cls : ℕ) (times : List Resources.Event) (classroom : Resource)
    (classroomId : List Char) (user : Option ℕ) (time : ℤ) : Action Database Response := do
  Action.change fun db => db.assignMeetingTimes cls times
  let db ← Action.read
  let outcome := db.assignRoom tables cls classroom.name true false 0
  Action.change fun _ => outcome.2
  if outcome.1.1 = true then do
    appendScheduling (times.map Resources.Event.id) classroomId cls user time
    return .scheduled
  else do
    Action.change fun db => db.clearMeetingTimes cls
    return .roomErrors outcome.1.2

def ajaxScheduleAssignreg (cls : ℕ) (timeslotIds classroomIds : List (List Char))
    (user : Option ℕ) (override : Bool) (cannotSchedule : CannotSchedule) (time : ℤ) :
    Action Database Response := do
  let db ← Action.read
  let checked ← Action.lift
    (checkAssignreg tables timeslotIds classroomIds override (cannotSchedule db cls))
  match checked with
  | .error refused => return refused
  | .ok (times, classroom) =>
      assignTimesAndRoom tables cls times classroom (classroomIds.headD []) user time

/-- The first loop of `ajax_schedule_swap`. -/
def unscheduleAll (user : Option ℕ) (time : ℤ) : List SwapAssignment → Action Database PUnit
  | [] => return ⟨⟩
  | asmt :: rest => do
      getSection tables asmt.sec
      let _ ← ajaxScheduleDeletereg tables asmt.sec user time
      unscheduleAll user time rest

/-- The second loop of `ajax_schedule_swap`, which stops at the first answer with `ret` False. -/
def rescheduleAll (user : Option ℕ) (override : Bool) (cannotSchedule : CannotSchedule)
    (time : ℤ) : List SwapAssignment → Action Database Response
  | [] => return .swapped
  | asmt :: rest =>
      match asmt.roomId with
      | none => rescheduleAll user override cannotSchedule time rest
      | some roomId => do
          getSection tables asmt.sec
          let retval ← ajaxScheduleAssignreg tables asmt.sec asmt.timeslots [roomId] user override
            cannotSchedule time
          if retval.ret = true then rescheduleAll user override cannotSchedule time rest
          else return retval

def ajaxScheduleSwap (assignments : List SwapAssignment) (user : Option ℕ) (override : Bool)
    (cannotSchedule : CannotSchedule) (time : ℤ) : Action Database Response := do
  unscheduleAll tables user time assignments
  rescheduleAll tables user override cannotSchedule time assignments

/-- What `cancel` with `unschedule` does in its transaction, which something else in it may
raise an exception from. -/
def cancel (sec : ℕ) (raises : Bool) (time : ℤ) : Action Database PUnit :=
  Action.atomic do
    Action.change fun db => db.clearRooms tables sec
    Action.change fun db => db.clearMeetingTimes sec
    appendScheduling [] [] sec none time
    Action.onlyIf (raises = true) (Action.raise (.raised "Exception" ""))

end Requests

end EspWebsite.AjaxScheduling
