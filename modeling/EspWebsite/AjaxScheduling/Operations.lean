import EspWebsite.AjaxScheduling.Replay
import EspWebsite.Autoscheduler.Saving
import EspWebsite.Library.Runs

/-!
# Operations that change the schedule

When the requests, the cancellation of a section and the autoscheduler append entries that replay
to the schedule of the database, over whole runs.
-/

namespace EspWebsite.AjaxScheduling

open Python Resources Runs Transactions

section Conditions

variable (tables : Tables)

/-- A room exists at all times, and nobody has it but the section. -/
def RoomFree (db : Database) (cls : ℕ) (name : List Char) (times : List Resources.Event) : Prop :=
  (tables.roomsToAssign name (eventSet times)).length = (eventSet times).length ∧
    ∀ room ∈ tables.roomsToAssign name (eventSet times),
      (db.clearRooms tables cls).isTaken room = false

/-- No other section is at first in a room that belongs to the group of one that is free before one
that is taken. -/
def SparesOthers (db : Database) (cls : ℕ) (name : List Char) (times : List Resources.Event) :
    Prop :=
  (tables.roomsToAssign name (eventSet times)).length = (eventSet times).length →
    ∀ sec, sec ≠ cls → ∀ initial ∈ db.initialRooms tables sec,
      ∀ other ∈ (tables.roomsToAssign name (eventSet times)).takeWhile fun room =>
        !(db.clearRooms tables cls).isTaken room, other.grouped initial = false

/-- A room that is free gets an entry that fits, with different times and the room by its id; for
one that is not, the section was not scheduled, and no other section loses its room. -/
def AssignsFaithfully (db : Database) (cls : ℕ) (times : List Resources.Event)
    (name text : List Char) : Prop :=
  (RoomFree tables db cls name times → fitsColumns (times.map Resources.Event.id) text = true ∧
    (times.Pairwise fun event other => event.start ≠ other.start) ∧
      NamesRoom tables times name text) ∧
    (¬RoomFree tables db cls name times →
      db.meetingTimes cls = [] ∧ SparesOthers tables db cls name times)

/-- If `ajax_schedule_assignreg` passes its checks, what it assigns is faithful. -/
def AssignregFits (db : Database) (cls : ℕ) (timeslotIds classroomIds : List (List Char))
    (override : Bool) (cannotSchedule : CannotSchedule) : Prop :=
  ∀ times classroom, checkAssignreg tables timeslotIds classroomIds override
      (cannotSchedule db cls) = .ok (.ok (times, classroom)) →
    AssignsFaithfully tables db cls times classroom.name (classroomIds.headD [])

/-- So is each assignment of the second loop of `ajax_schedule_swap`, when it is made. -/
def RescheduleFits (user : Option ℕ) (override : Bool) (cannotSchedule : CannotSchedule)
    (time : ℤ) : List SwapAssignment → Database → Prop
  | [], _ => True
  | asmt :: rest, db =>
      match asmt.roomId with
      | none => RescheduleFits user override cannotSchedule time rest db
      | some roomId => asmt.sec ∈ tables.sections →
          AssignregFits tables db asmt.sec asmt.timeslots [roomId] override cannotSchedule ∧
          ∀ retval after, ajaxScheduleAssignreg tables asmt.sec asmt.timeslots [roomId] user
              override cannotSchedule time db = (.ok retval, after) → retval.ret = true →
            RescheduleFits user override cannotSchedule time rest after

end Conditions

variable {tables : Tables} {db after : Database} {cls sec : ℕ} {user : Option ℕ} {time : ℤ}

/-! ## Requests -/

theorem sameSchedule_clear (different : sec ≠ cls) :
    SameSchedule tables db ((db.clearRooms tables cls).clearMeetingTimes cls) sec := by
  refine SameSchedule.of_classrooms (Function.update_of_ne different _ _) fun room => ?_
  change room ∈ (db.clearRooms tables cls).classrooms tables sec ↔ _
  rw [Database.mem_classrooms_clearRooms]
  exact and_iff_right different

theorem fitsColumns_nil : fitsColumns [] [] = true := by decide

/-- A section is unscheduled, with an entry that says so. -/
theorem tracks_unschedule {index : ℕ}
    (cleared : after = { (db.clearRooms tables cls).clearMeetingTimes cls with
      changeLog := db.changeLog ++ [⟨index, .scheduling [] [], cls, user, time⟩] }) :
    Tracks tables db after := by
  have unscheduled : after.meetingTimes cls = [] := by
    rw [cleared]
    exact Function.update_self cls _ db.meetingTimes
  refine Tracks.of_entry (by rw [cleared]) (fun sec different => ?_) (shows_unscheduled unscheduled)
  rw [cleared]
  exact sameSchedule_clear different

theorem ajaxScheduleDeletereg_eq :
    ajaxScheduleDeletereg tables cls user time db =
      (.ok .removed, { (db.clearRooms tables cls).clearMeetingTimes cls with
        changeLog := db.changeLog ++
          [⟨db.changeLog.getLatestIndex + 1, .scheduling [] [], cls, user, time⟩] }) := by
  rw [ajaxScheduleDeletereg, appendScheduling, if_pos fitsColumns_nil]
  rfl

theorem getSection_eq : getSection tables sec db =
    if sec ∈ tables.sections then (.ok ⟨⟩, db)
    else (.error (.raised "DoesNotExist" "ClassSection matching query does not exist."), db) := by
  rw [getSection, Action.onlyIf]
  by_cases found : sec ∈ tables.sections
  · rw [if_pos found, if_neg (not_not.mpr found)]
    rfl
  · rw [if_neg found, if_pos found]
    rfl

theorem getSection_eq_ok {value : PUnit} :
    getSection tables sec db = (.ok value, after) ↔ sec ∈ tables.sections ∧ after = db := by
  rw [getSection_eq]
  split
  next isSection => simp [isSection, eq_comm]
  next notSection => simp [notSection]

theorem nodup_eventsWithIds {ids : List ℤ} :
    ((eventsWithIds tables ids).map Resources.Event.id).Nodup := by
  have filtered : ((tables.events.filter fun event => (event.id : ℤ) ∈ ids).map
      Resources.Event.id).Nodup :=
    tables.eventIds.sublist (List.filter_sublist.map _)
  exact ((List.perm_insertionSort _ _).map _).nodup_iff.mpr filtered

theorem checkAssignreg_eq_ok {timeslotIds classroomIds : List (List Char)} {override : Bool}
    {cannotSchedule : List Resources.Event → Bool} {times : List Resources.Event}
    {classroom : Resource} :
    checkAssignreg tables timeslotIds classroomIds override cannotSchedule =
        .ok (.ok (times, classroom)) ↔
      timeslotIds ≠ [] ∧ ∃ basicCls rest, classroomIds = basicCls :: rest ∧
        (¬∃ other ∈ rest, other ≠ basicCls) ∧ ∃ ids, timeslotIds.mapM int = .ok ids ∧
        eventsWithIds tables ids = times ∧ times ≠ [] ∧ ∃ id, int basicCls = .ok id ∧
        (tables.resources.find? fun resource =>
          (resource.id : ℤ) = id && resource.isClassroom) = some classroom ∧
        ¬(override = false ∧ cannotSchedule times) := by
  rw [checkAssignreg.eq_def]
  constructor
  · intro passes
    split at passes
    next => cases passes
    next specified =>
      split at passes
      next => cases passes
      next basicCls rest =>
        split at passes
        next => cases passes
        next single =>
          rcases bind_eq_ok.mp passes with ⟨ids, isIds, passes⟩
          dsimp only at passes
          split at passes
          next => cases passes
          next found =>
            rcases bind_eq_ok.mp passes with ⟨id, isId, passes⟩
            split at passes
            next => cases passes
            next isClassroom =>
              split at passes
              next => cases passes
              next can =>
                cases passes
                exact ⟨specified, basicCls, rest, rfl, single, ids, isIds, rfl, found, id, isId,
                  isClassroom, can⟩
  · rintro ⟨specified, basicCls, rest, rfl, single, ids, isIds, rfl, found, id, isId, isClassroom,
      can⟩
    rw [if_neg specified]
    dsimp only
    rw [if_neg single]
    refine bind_eq_ok.mpr ⟨ids, isIds, ?_⟩
    rw [if_neg found]
    refine bind_eq_ok.mpr ⟨id, isId, ?_⟩
    rw [isClassroom]
    exact if_neg can

theorem times_of_checkAssignreg {timeslotIds classroomIds : List (List Char)} {override : Bool}
    {cannotSchedule : List Resources.Event → Bool} {times : List Resources.Event}
    {classroom : Resource}
    (passes : checkAssignreg tables timeslotIds classroomIds override cannotSchedule =
      .ok (.ok (times, classroom))) :
    (times.map Resources.Event.id).Nodup ∧ times ≠ [] := by
  rcases checkAssignreg_eq_ok.mp passes with ⟨_, _, _, _, _, _, _, rfl, found, _⟩
  exact ⟨nodup_eventsWithIds, found⟩

section Assigning

variable {times : List Resources.Event} {name : List Char}

theorem meetingTimes_assignMeetingTimes :
    (db.assignMeetingTimes cls times).meetingTimes cls = eventSet times :=
  Function.update_self cls _ db.meetingTimes

theorem nodup_eventSet (distinct : (times.map Resources.Event.id).Nodup) :
    ((eventSet times).map Resources.Event.id).Nodup :=
  distinct.sublist ((eventSet_sublist times).map _)

theorem status_assignRoom_iff (distinct : (times.map Resources.Event.id).Nodup) :
    ((db.assignMeetingTimes cls times).assignRoom tables cls name true false 0).1.1 = true ↔
      RoomFree tables db cls name times := by
  have own := @meetingTimes_assignMeetingTimes db cls times
  have distinctSet := nodup_eventSet distinct
  rw [← own] at distinctSet
  have exactly := @Database.status_assignRoom tables (db.assignMeetingTimes cls times) cls 0
    name true distinctSet
  rw [own] at exactly
  exact exactly

end Assigning

theorem tracks_assignTimesAndRoom {times : List Resources.Event} {classroom : Resource}
    {classroomId : List Char} (distinct : (times.map Resources.Event.id).Nodup)
    (nonempty : times ≠ [])
    (faithful : AssignsFaithfully tables db cls times classroom.name classroomId) :
    Tracks tables db
      (assignTimesAndRoom tables cls times classroom classroomId user time db).2 := by
  have own := @meetingTimes_assignMeetingTimes db cls times
  have others : ∀ sec, sec ≠ cls →
      (db.assignMeetingTimes cls times).meetingTimes sec = db.meetingTimes sec :=
    fun sec different => Function.update_of_ne different _ _
  have frame := @Database.frame_assignRoom tables (db.assignMeetingTimes cls times) cls 0
    classroom.name true
  rw [assignTimesAndRoom]
  simp only [Action.change_bind, Action.read_bind]
  cases status : ((db.assignMeetingTimes cls times).assignRoom tables cls classroom.name true false
    0).1.1 with
  | true =>
      have isFree := (status_assignRoom_iff distinct).mp status
      rcases faithful.1 isFree with ⟨fits, apart, names⟩
      have outcome := (Database.assignRoom_of_status status).2
      have whole : eventSet times = times := eventSet_eq_self apart
      rw [own, whole, if_pos rfl] at outcome
      rw [if_pos rfl, appendScheduling, if_pos fits]
      rw [outcome] at frame ⊢
      have classrooms : ∀ sec room, room ∈
          (((db.assignMeetingTimes cls times).clearRooms tables cls).withRooms cls 0
            (tables.roomsToAssign classroom.name times)).classrooms tables sec ↔
          (sec ≠ cls ∧ room ∈ db.classrooms tables sec) ∨ (sec = cls ∧ room ∈ tables.resources ∧
            room.isClassroom = true ∧
              ∃ other ∈ tables.roomsToAssign classroom.name times, other.id = room.id) := by
        intro sec room
        rw [Database.mem_classrooms_withRooms, Database.mem_classrooms_clearRooms]
        rfl
      refine Tracks.of_entry rfl (fun sec different => ?_) ?_
      · refine SameSchedule.of_classrooms (others sec different) fun room => ?_
        refine (classrooms sec room).trans ?_
        simp [different]
      · refine shows_scheduled (own.trans whole) nonempty names ?_ ?_
        · intro room isRoom
          rcases (classrooms cls room).mp isRoom with old | ⟨_, isResource, _, other, isOther, same⟩
          · exact absurd rfl old.1
          · have isAssigned := Tables.mem_roomsToAssign isOther
            rw [← Tables.resource_eq isAssigned.1 isResource same]
            exact isAssigned.2
        · intro event isEvent
          have all := isFree.1
          rw [whole] at all
          rcases Tables.roomAt_of_length all isEvent with ⟨room, isRoom, found⟩
          refine ⟨room, found, fun isClassroom => (classrooms cls room).mpr (.inr ⟨rfl, ?_⟩)⟩
          exact ⟨(Tables.mem_of_roomAt found).1, isClassroom, room, isRoom, rfl⟩
  | false =>
      have notFree : ¬RoomFree tables db cls classroom.name times := by
        intro isFree
        rw [(status_assignRoom_iff distinct).mpr isFree] at status
        cases status
      rcases faithful.2 notFree with ⟨unscheduled, spares⟩
      rw [if_neg Bool.false_ne_true]
      change Tracks tables db (((db.assignMeetingTimes cls times).assignRoom tables cls
        classroom.name true false 0).2.clearMeetingTimes cls)
      refine Tracks.of_same frame.2 fun sec => ?_
      by_cases same : sec = cls
      · rw [same]
        exact SameSchedule.of_unscheduled unscheduled (Function.update_self cls _ _)
      · have times' : (((db.assignMeetingTimes cls times).assignRoom tables cls classroom.name true
            false 0).2.clearMeetingTimes cls).meetingTimes sec = db.meetingTimes sec := by
          refine (Function.update_of_ne same _ _).trans ?_
          rw [frame.1]
          exact others sec same
        refine ⟨times', Database.initialRooms_congr times' fun initial earliest room _ here => ?_⟩
        refine Database.classrooms_assignRoom_of_not_status status same fun isClassroom all => ?_
        rw [own] at all ⊢
        refine spares all sec same room ?_
        exact (Database.mem_initialRooms earliest).mpr ⟨isClassroom, here⟩

theorem tracks_ajaxScheduleAssignreg {timeslotIds classroomIds : List (List Char)}
    {override : Bool} {cannotSchedule : CannotSchedule}
    (fits : AssignregFits tables db cls timeslotIds classroomIds override cannotSchedule) :
    Tracks tables db (ajaxScheduleAssignreg tables cls timeslotIds classroomIds user override
      cannotSchedule time db).2 := by
  rw [ajaxScheduleAssignreg, Action.read_bind]
  cases checked : checkAssignreg tables timeslotIds classroomIds override
      (cannotSchedule db cls) with
  | error raised => exact Tracks.refl db
  | ok answer =>
      cases answer with
      | error refused => exact Tracks.refl db
      | ok selected =>
          have passes := times_of_checkAssignreg checked
          exact tracks_assignTimesAndRoom passes.1 passes.2 (fits _ _ checked)

theorem tracks_unscheduleAll {assignments : List SwapAssignment} :
    Tracks tables db (unscheduleAll tables user time assignments db).2 := by
  induction assignments generalizing db with
  | nil => exact Tracks.refl db
  | cons asmt rest ih =>
      rw [unscheduleAll]
      have found := @getSection_eq tables db asmt.sec
      by_cases isSection : asmt.sec ∈ tables.sections
      · rw [if_pos isSection] at found
        rw [Action.bind_of_ok found, Action.bind_of_ok ajaxScheduleDeletereg_eq]
        exact (tracks_unschedule rfl).trans ih
      · rw [if_neg isSection] at found
        rw [Action.bind_of_error found]
        exact Tracks.refl db

theorem tracks_rescheduleAll {override : Bool} {cannotSchedule : CannotSchedule}
    {assignments : List SwapAssignment}
    (fit : RescheduleFits tables user override cannotSchedule time assignments db) :
    Tracks tables db
      (rescheduleAll tables user override cannotSchedule time assignments db).2 := by
  induction assignments generalizing db with
  | nil => exact Tracks.refl db
  | cons asmt rest ih =>
      rw [rescheduleAll]
      rw [RescheduleFits] at fit
      cases isRoom : asmt.roomId with
      | none =>
          rw [isRoom] at fit
          exact ih fit
      | some roomId =>
          rw [isRoom] at fit
          dsimp only at fit ⊢
          have found := @getSection_eq tables db asmt.sec
          by_cases isSection : asmt.sec ∈ tables.sections
          · rw [if_pos isSection] at found
            rw [Action.bind_of_ok found]
            rcases fit isSection with ⟨fits, further⟩
            have tracks := @tracks_ajaxScheduleAssignreg tables db asmt.sec user time asmt.timeslots
              [roomId] override cannotSchedule fits
            cases outcome : ajaxScheduleAssignreg tables asmt.sec asmt.timeslots [roomId] user
              override cannotSchedule time db with
            | mk answer after =>
                rw [outcome] at tracks
                cases answer with
                | error raised =>
                    rw [Action.bind_of_error outcome]
                    exact tracks
                | ok retval =>
                    rw [Action.bind_of_ok outcome]
                    cases succeeded : retval.ret with
                    | true =>
                        rw [if_pos rfl]
                        exact tracks.trans (ih (further retval after outcome succeeded))
                    | false =>
                        rw [if_neg Bool.false_ne_true]
                        exact tracks
          · rw [if_neg isSection] at found
            rw [Action.bind_of_error found]
            exact Tracks.refl db

theorem tracks_ajaxScheduleSwap {override : Bool} {cannotSchedule : CannotSchedule}
    {assignments : List SwapAssignment}
    (fit : ∀ between, unscheduleAll tables user time assignments db = (.ok ⟨⟩, between) →
      RescheduleFits tables user override cannotSchedule time assignments between) :
    Tracks tables db
      (ajaxScheduleSwap tables assignments user override cannotSchedule time db).2 := by
  have tracks := @tracks_unscheduleAll tables db user time assignments
  rw [ajaxScheduleSwap]
  cases outcome : unscheduleAll tables user time assignments db with
  | mk answer between =>
      rw [outcome] at tracks
      cases answer with
      | error raised =>
          rw [Action.bind_of_error outcome]
          exact tracks
      | ok done =>
          rw [Action.bind_of_ok outcome]
          exact tracks.trans (tracks_rescheduleAll (fit between outcome))

theorem tracks_cancel {raises : Bool} :
    Tracks tables db (cancel tables sec raises time db).2 := by
  have appended : (appendScheduling [] [] sec none time : Action Database PUnit) =
      Action.change fun db => { db with
        changeLog := db.changeLog ++
          [⟨db.changeLog.getLatestIndex + 1, .scheduling [] [], sec, none, time⟩] } :=
    if_pos fitsColumns_nil
  rw [cancel, appended]
  cases raises with
  | true => exact Tracks.refl db
  | false => exact tracks_unschedule rfl

/-! ## The autoscheduler -/

section Saving

open Autoscheduler.DbInterface
open Autoscheduler (AS_ClassSection AS_RoomSlot)

variable {rows : SectionRows} {loaded : LoadedSchedule} {between : Database}

theorem schedulingHashOf_congr (times : after.meetingTimes sec = db.meetingTimes sec)
    (rooms : ∀ room, room ∈ after.classrooms tables sec ↔ room ∈ db.classrooms tables sec) :
    schedulingHashOf tables after sec = schedulingHashOf tables db sec := by
  rw [schedulingHashOf, schedulingHashOf, times, Database.classrooms_congr rooms]

theorem scheduleSection_eq_ok {times : List Resources.Event} {room : Resource} {value : PUnit}
    (returns : scheduleSection tables rows sec times room time db = (.ok value, after)) :
    (tables.roomsToAssign room.name (eventSet times)).length = (eventSet times).length ∧
      after.meetingTimes = (db.assignMeetingTimes sec times).meetingTimes ∧
      after.resourceAssignments = (db.withRooms sec 0
        (tables.roomsToAssign room.name (eventSet times))).resourceAssignments ∧
      after.changeLog = db.changeLog ++ [⟨db.changeLog.getLatestIndex + 1,
        .scheduling (times.map Resources.Event.id) room.name, sec, none, time⟩] := by
  have own := @meetingTimes_assignMeetingTimes db sec times
  rw [scheduleSection] at returns
  simp only [Action.change_bind, Action.read_bind] at returns
  cases status : ((db.assignMeetingTimes sec times).assignRoom tables sec room.name false false
    0).1.1 with
  | true =>
      have outcome := Database.assignRoom_of_status status
      have frame := @Database.frame_assignRoom tables (db.assignMeetingTimes sec times) sec 0
        room.name false
      rw [own, if_neg Bool.false_ne_true] at outcome
      rw [status, if_pos rfl, appendScheduling] at returns
      split at returns
      next =>
        rw [Action.change_apply] at returns
        have isAfter := (Prod.mk.inj returns).2
        rw [← isAfter]
        refine ⟨outcome.1, frame.1, ?_, ?_⟩
        · dsimp only
          rw [outcome.2]
          rfl
        · dsimp only
          rw [frame.2]
          rfl
      next => cases (Prod.mk.inj returns).1
  | false =>
      rw [status, if_neg Bool.false_ne_true] at returns
      cases (Prod.mk.inj returns).1

theorem mem_classrooms_congr {room : Resource}
    (same : after.resourceAssignments = db.resourceAssignments) :
    room ∈ after.classrooms tables sec ↔ room ∈ db.classrooms tables sec := by
  rw [Database.mem_classrooms, Database.mem_classrooms, same]

theorem meetingTimes_scheduleSection {times : List Resources.Event} {room : Resource}
    {value : PUnit} (returns : scheduleSection tables rows cls times room time db =
      (.ok value, after)) (different : sec ≠ cls) :
    after.meetingTimes sec = db.meetingTimes sec := by
  rw [(scheduleSection_eq_ok returns).2.1]
  exact Function.update_of_ne different _ _

theorem classrooms_scheduleSection {times : List Resources.Event} {room other : Resource}
    {value : PUnit} (returns : scheduleSection tables rows cls times room time db =
      (.ok value, after)) (different : sec ≠ cls) :
    other ∈ after.classrooms tables sec ↔ other ∈ db.classrooms tables sec := by
  rw [mem_classrooms_congr (scheduleSection_eq_ok returns).2.2.1, Database.mem_classrooms_withRooms]
  exact or_iff_left fun own => different own.1

/-- A section that is scheduled as in memory is shown by its entry, if the name of its room is read
as the id of the room. -/
theorem tracks_scheduleSection {classSection : AS_ClassSection} {first : AS_RoomSlot}
    {rest : List AS_RoomSlot} {room : Resource} {value : PUnit}
    (returns : scheduleSection tables rows classSection.id (eventsOf tables (first :: rest))
      room time
      db = (.ok value, after))
    (roomslots : loaded.assignments.assignedRoomslots classSection = first :: rest)
    (oneRoom : ∀ roomslot ∈ first :: rest, roomslot.room.name = first.room.name)
    (isRoom : room.name = first.room.name.toList)
    (names : NamesRoom tables (eventsOf tables (first :: rest)) room.name room.name)
    (saved : schedulingHashOf tables after classSection.id =
      schedulingHash loaded.assignments classSection) : Tracks tables db after := by
  have outcome := scheduleSection_eq_ok returns
  have own : after.meetingTimes classSection.id = eventSet (eventsOf tables (first :: rest)) := by
    rw [outcome.2.1]
    exact Function.update_self _ _ _
  have lengths : (eventSet (eventsOf tables (first :: rest))).length = (first :: rest).length := by
    have times := congrArg (fun hash => Multiset.card hash.1) saved
    rw [schedulingHashOf, schedulingHash, own, roomslots] at times
    simpa using times
  have fewer : (eventsOf tables (first :: rest)).length ≤ (first :: rest).length := by
    have distinct : ((eventsOf tables (first :: rest)).map Resources.Event.id).Nodup :=
      tables.eventIds.sublist (List.filter_sublist.map _)
    have among : (eventsOf tables (first :: rest)).map Resources.Event.id ⊆
        (first :: rest).map fun roomslot => roomslot.timeslot.id := by
      intro id isId
      rcases List.mem_map.mp isId with ⟨event, isEvent, rfl⟩
      exact of_decide_eq_true (List.mem_filter.mp isEvent).2
    have atMost := (List.subperm_of_subset distinct among).length_le
    rwa [List.length_map, List.length_map] at atMost
  have whole : eventSet (eventsOf tables (first :: rest)) = eventsOf tables (first :: rest) :=
    (eventSet_sublist _).eq_of_length_le (by rw [lengths]; exact fewer)
  rw [whole] at own outcome lengths
  have nonempty : eventsOf tables (first :: rest) ≠ [] := by
    intro empty
    rw [empty] at lengths
    cases lengths
  have classrooms : ∀ other ∈ after.classrooms tables classSection.id, other.name = room.name := by
    intro other isOther
    have isName : other.name ∈ (schedulingHashOf tables after classSection.id).2 :=
      List.mem_toFinset.mpr (List.mem_map_of_mem isOther)
    rw [saved, schedulingHash, roomslots] at isName
    rcases List.mem_map.mp (List.mem_toFinset.mp isName) with ⟨roomslot, isRoomslot, same⟩
    rw [← same, oneRoom roomslot isRoomslot, isRoom]
  refine Tracks.of_entry outcome.2.2.2 (fun sec different => ?_) ?_
  · exact SameSchedule.of_classrooms (meetingTimes_scheduleSection returns different) fun other =>
      classrooms_scheduleSection returns different
  · refine shows_scheduled own nonempty names classrooms fun event isEvent => ?_
    rcases Tables.roomAt_of_length outcome.1 isEvent with ⟨assigned, isAssigned, found⟩
    refine ⟨assigned, found, fun isClassroom => ?_⟩
    rw [mem_classrooms_congr outcome.2.2.1, Database.mem_classrooms_withRooms]
    exact .inr ⟨rfl, (Tables.mem_of_roomAt found).1, isClassroom, assigned, isAssigned, rfl⟩

theorem sectionInfo_eq_ok {classSection : AS_ClassSection} {info : SectionInfo}
    (returns : sectionInfo tables rows loaded classSection = .ok info) :
      info.classSection = classSection ∧
      ∀ first rest, loaded.assignments.assignedRoomslots classSection = first :: rest →
        info.meetingTimes = eventsOf tables (first :: rest) ∧
        (∀ roomslot ∈ first :: rest, roomslot.room.name = first.room.name) ∧
        ∀ room ∈ info.roomObjs, room.name = first.room.name.toList := by
  rw [sectionInfo.eq_def] at returns
  dsimp only at returns
  split at returns
  next none =>
    rw [← Except.ok.inj returns]
    refine ⟨rfl, fun first rest roomslots => ?_⟩
    rw [none] at roomslots
    cases roomslots
  next first rest roomslots =>
    rw [andThen_eq_ok, assert_eq_ok] at returns
    rw [← Except.ok.inj returns.2]
    refine ⟨rfl, fun first' rest' roomslots' => ?_⟩
    rw [roomslots] at roomslots'
    cases roomslots'
    refine ⟨rfl, returns.1, fun room isRoom => ?_⟩
    have found := (List.mem_filter.mp isRoom).2
    simp only [Bool.and_eq_true, decide_eq_true_eq] at found
    exact found.1.1

theorem infos_of_mapM {sections : List AS_ClassSection} {infos : List SectionInfo}
    (returns : sections.mapM (sectionInfo tables rows loaded) = .ok infos) :
    infos.map SectionInfo.classSection = sections ∧
      ∀ info ∈ infos, sectionInfo tables rows loaded info.classSection = .ok info := by
  induction mapM_eq_ok.mp returns with
  | nil => exact ⟨rfl, fun info isInfo => nomatch isInfo⟩
  | cons first later ih =>
      rcases ih (mapM_eq_ok.mpr later) with ⟨sections, each⟩
      have isSection := (sectionInfo_eq_ok first).1
      refine ⟨by rw [List.map_cons, isSection, sections], fun other isInfo => ?_⟩
      rcases List.mem_cons.mp isInfo with same | isRest
      · rw [same, isSection]
        exact first
      · exact each other isRest

theorem nodup_sectionObjs : ((sectionObjs tables loaded).map AS_ClassSection.id).Nodup := by
  have among : ((sectionObjs tables loaded).map AS_ClassSection.id).Sublist tables.sections := by
    rw [sectionObjs]
    generalize tables.sections = ids
    induction ids with
    | nil => exact List.Sublist.refl []
    | cons id rest ih =>
        rw [List.filterMap_cons]
        split
        next => exact ih.cons id
        next classSection found =>
          have isId := List.find?_some found
          rw [Bool.and_eq_true, decide_eq_true_eq] at isId
          rw [List.map_cons, isId.1]
          exact ih.cons_cons id
  exact tables.sectionIds.sublist among

theorem tracks_unscheduleSections {sectionObj : ℕ} {sections : List AS_ClassSection}
    {value : PUnit} (returns : unscheduleSections tables rows loaded sectionObj time sections db =
      (.ok value, after)) : Tracks tables db after := by
  induction sections generalizing db with
  | nil =>
      rw [unscheduleSections] at returns
      rw [← (Prod.mk.inj returns).2]
      exact Tracks.refl db
  | cons classSection rest ih =>
      rw [unscheduleSections, Action.read_bind] at returns
      rcases Action.lift_bind_eq_ok.mp returns with ⟨_, _, returns⟩
      rcases Action.bind_eq_ok.mp returns with ⟨_, between, unscheduled, returns⟩
      refine Tracks.trans ?_ (ih returns)
      rw [Action.onlyIf] at unscheduled
      split at unscheduled
      next =>
        rw [unscheduleSection, appendScheduling, if_pos fitsColumns_nil] at unscheduled
        rw [← (Prod.mk.inj unscheduled).2]
        exact tracks_unschedule rfl
      next =>
        rw [← (Prod.mk.inj unscheduled).2]
        exact Tracks.refl db

theorem tracks_unscheduleChanged {sections : List AS_ClassSection} {value : PUnit}
    (returns : unscheduleChanged tables rows loaded time sections db = (.ok value, after)) :
    Tracks tables db after := by
  rw [unscheduleChanged] at returns
  cases last : sections.getLast? with
  | none =>
      rw [last] at returns
      rw [← (Prod.mk.inj returns).2]
      exact Tracks.refl db
  | some sectionObj =>
      rw [last] at returns
      exact tracks_unscheduleSections returns

theorem scheduleSections_cons {info : SectionInfo} {infos : List SectionInfo} {value : PUnit}
    (returns : scheduleSections tables rows loaded time (info :: infos) db = (.ok value, after)) :
    ∃ between, scheduleSections tables rows loaded time infos between = (.ok value, after) ∧
      ((loaded.assignments.isScheduled info.classSection = false ∧ between = db) ∨
        ∃ room ∈ info.roomObjs, ∃ value, loaded.assignments.isScheduled info.classSection = true ∧
          scheduleSection tables rows info.classSection.id info.meetingTimes room time db =
            (.ok value, between)) := by
  rw [scheduleSections] at returns
  rcases Action.bind_eq_ok.mp returns with ⟨value, between, scheduled, later⟩
  refine ⟨between, later, ?_⟩
  rw [Action.onlyIf] at scheduled
  split at scheduled
  next isScheduled =>
    rcases Action.lift_bind_eq_ok.mp scheduled with ⟨room, first, scheduled⟩
    cases rooms : info.roomObjs with
    | nil =>
        rw [rooms] at first
        cases first
    | cons head tail =>
        rw [rooms] at first
        cases first
        exact .inr ⟨room, List.mem_cons_self, value, isScheduled, scheduled⟩
  next isScheduled =>
    exact .inl ⟨Bool.of_not_eq_true isScheduled, (Prod.mk.inj scheduled).2.symm⟩

theorem schedulingHashOf_scheduleSections {infos : List SectionInfo} {value : PUnit}
    (returns : scheduleSections tables rows loaded time infos db = (.ok value, after))
    (different : ∀ info ∈ infos, info.classSection.id ≠ sec) :
    schedulingHashOf tables after sec = schedulingHashOf tables db sec := by
  induction infos generalizing db with
  | nil =>
      rw [scheduleSections] at returns
      rw [← (Prod.mk.inj returns).2]
  | cons info infos ih =>
      rcases scheduleSections_cons returns with ⟨between, later, round⟩
      rw [ih later fun other isOther => different other (List.mem_cons_of_mem _ isOther)]
      have apart := (different info List.mem_cons_self).symm
      rcases round with ⟨_, same⟩ | ⟨room, _, _, _, scheduled⟩
      · rw [same]
      · exact schedulingHashOf_congr (meetingTimes_scheduleSection scheduled apart) fun other =>
          classrooms_scheduleSection scheduled apart

/-- The name of the room of each section that is scheduled is read as the id of the room. -/
def NamesRooms (tables : Tables) (loaded : LoadedSchedule) (sections : List AS_ClassSection) :
    Prop :=
  ∀ classSection ∈ sections, ∀ first rest,
    loaded.assignments.assignedRoomslots classSection = first :: rest →
      NamesRoom tables (eventsOf tables (first :: rest)) first.room.name.toList
        first.room.name.toList

theorem tracks_scheduleSections {infos : List SectionInfo} {value : PUnit}
    (returns : scheduleSections tables rows loaded time infos db = (.ok value, after))
    (each : ∀ info ∈ infos, sectionInfo tables rows loaded info.classSection = .ok info)
    (distinct : (infos.map fun info => info.classSection.id).Nodup)
    (names : NamesRooms tables loaded (infos.map SectionInfo.classSection))
    (saved : ∀ info ∈ infos, schedulingHashOf tables after info.classSection.id =
      schedulingHash loaded.assignments info.classSection) : Tracks tables db after := by
  induction infos generalizing db with
  | nil =>
      rw [scheduleSections] at returns
      rw [← (Prod.mk.inj returns).2]
      exact Tracks.refl db
  | cons info infos ih =>
      rcases scheduleSections_cons returns with ⟨between, later, round⟩
      rw [List.map_cons, List.nodup_cons] at distinct
      have further : Tracks tables between after := by
        refine ih later (fun other isOther => each other (List.mem_cons_of_mem _ isOther))
          distinct.2 (fun classSection isSection => ?_) fun other isOther =>
            saved other (List.mem_cons_of_mem _ isOther)
        rw [List.map_cons] at names
        exact names classSection (List.mem_cons_of_mem _ isSection)
      rcases round with ⟨_, same⟩ | ⟨room, isRoom, _, isScheduled, scheduled⟩
      · rw [← same]
        exact further
      · refine Tracks.trans ?_ further
        cases roomslots : loaded.assignments.assignedRoomslots info.classSection with
        | nil =>
            rw [Autoscheduler.Assignments.isScheduled, roomslots] at isScheduled
            cases isScheduled
        | cons first rest =>
            have known := (sectionInfo_eq_ok (each info List.mem_cons_self)).2 first rest roomslots
            have hash : schedulingHashOf tables between info.classSection.id =
                schedulingHash loaded.assignments info.classSection := by
              rw [← saved info List.mem_cons_self]
              refine (schedulingHashOf_scheduleSections later fun other isOther same => ?_).symm
              exact distinct.1 (List.mem_map.mpr ⟨other, isOther, same⟩)
            have named := names info.classSection (by rw [List.map_cons]; exact List.mem_cons_self)
              first rest roomslots
            rw [known.1] at scheduled
            rw [← known.2.2 room isRoom] at named
            exact tracks_scheduleSection scheduled roomslots known.2.1 (known.2.2 room isRoom) named
              hash

theorem tracks_saveChanged {value : PUnit}
    (returns : saveChanged tables rows loaded time db = (.ok value, after))
    (names : NamesRooms tables loaded (sectionObjs tables loaded)) : Tracks tables db after := by
  rw [saveChanged] at returns
  rcases Action.lift_bind_eq_ok.mp returns with ⟨infos, found, returns⟩
  rcases Action.bind_eq_ok.mp returns with ⟨_, between, unscheduled, returns⟩
  rw [Action.read_bind] at returns
  rcases Action.lift_bind_eq_ok.mp returns with ⟨_, _, returns⟩
  rcases Action.bind_eq_ok.mp returns with ⟨_, final, scheduled, returns⟩
  rw [Action.read_bind] at returns
  rcases Action.lift_bind_eq_ok.mp returns with ⟨_, ensured, returns⟩
  rw [Action.lift_apply] at returns
  have isFinal := (Prod.mk.inj returns).2
  rcases infos_of_mapM found with ⟨sections, each⟩
  rw [← isFinal]
  refine (tracks_unscheduleChanged unscheduled).trans (tracks_scheduleSections scheduled each ?_ ?_
    fun info isInfo => ?_)
  · have distinct := @nodup_sectionObjs tables loaded
    rw [← sections, List.map_map] at distinct
    exact distinct
  · rw [sections]
    exact names
  · rw [ensureSaved, forEach_eq_ok] at ensured
    have isSection : info.classSection ∈ sectionObjs tables loaded := by
      rw [← sections]
      exact List.mem_map_of_mem isInfo
    have notMoved := ensured info.classSection isSection
    rw [ensureSectionNotMoved] at notMoved
    split at notMoved
    next => cases notMoved
    next same => exact not_not.mp same

theorem tracks_save {checkConsistency checkConstraints : Bool}
    (fits : (∃ raised, (save tables rows loaded checkConsistency checkConstraints time db).1 =
      .error raised) ∨ NamesRooms tables loaded (sectionObjs tables loaded)) :
    Tracks tables db
      (save tables rows loaded checkConsistency checkConstraints time db).2 := by
  have checked : ∀ (condition : Prop) [Decidable condition] (check : Raises PUnit) outcome,
      Action.onlyIf condition (Action.lift check) db = outcome → outcome.2 = db := by
    intro condition _ check outcome isOutcome
    rw [← isOutcome, Action.onlyIf]
    split
    next => rfl
    next => rfl
  cases outcome : save tables rows loaded checkConsistency checkConstraints time db with
  | mk answer after =>
      cases answer with
      | error raised =>
          rw [save] at outcome
          have same : after = db := by
            rcases Action.bind_eq_error.mp outcome with early | ⟨_, first, passed, outcome⟩
            · exact checked _ _ _ early
            · have isFirst := checked _ _ _ passed
              dsimp only at isFirst
              rw [isFirst] at outcome
              rcases Action.bind_eq_error.mp outcome with early | ⟨_, second, passed, outcome⟩
              · exact checked _ _ _ early
              · have isSecond := checked _ _ _ passed
                dsimp only at isSecond
                rw [isSecond] at outcome
                exact (Action.atomic_eq_error.mp outcome).2
          rw [same]
          exact Tracks.refl db
      | ok value =>
          rw [outcome] at fits
          have names := fits.resolve_left fun raises => by
            rcases raises with ⟨_, isError⟩
            cases isError
          rw [save] at outcome
          rcases Action.bind_eq_ok.mp outcome with ⟨_, first, passed, outcome⟩
          have isFirst := checked _ _ _ passed
          dsimp only at isFirst
          rw [isFirst] at outcome
          rcases Action.bind_eq_ok.mp outcome with ⟨_, second, passed, outcome⟩
          have isSecond := checked _ _ _ passed
          dsimp only at isSecond
          rw [isSecond] at outcome
          exact tracks_saveChanged (Action.atomic_eq_ok.mp outcome) names

end Saving

/-! ## Runs -/

/-- What changes the schedule on the server. -/
inductive Operation where
  | deletereg (cls : ℕ) (user : Option ℕ) (time : ℤ)
  | assignreg (cls : ℕ) (timeslotIds classroomIds : List (List Char)) (user : Option ℕ)
      (override : Bool) (cannotSchedule : CannotSchedule) (time : ℤ)
  | swap (assignments : List SwapAssignment) (user : Option ℕ) (override : Bool)
      (cannotSchedule : CannotSchedule) (time : ℤ)
  | cancel (sec : ℕ) (raises : Bool) (time : ℤ)
  | save (rows : Autoscheduler.DbInterface.SectionRows)
    (loaded : Autoscheduler.DbInterface.LoadedSchedule)
      (checkConsistency checkConstraints : Bool) (time : ℤ)

/-- What an operation leaves in the database, whether it returns or raises. -/
def perform (tables : Tables) (db : Database) : Operation → Database
  | .deletereg cls user time => (ajaxScheduleDeletereg tables cls user time db).2
  | .assignreg cls timeslotIds classroomIds user override cannotSchedule time =>
      (ajaxScheduleAssignreg tables cls timeslotIds classroomIds user override cannotSchedule time
        db).2
  | .swap assignments user override cannotSchedule time =>
      (ajaxScheduleSwap tables assignments user override cannotSchedule time db).2
  | .cancel sec raises time => (cancel tables sec raises time db).2
  | .save rows loaded checkConsistency checkConstraints time =>
      (Autoscheduler.DbInterface.save tables rows loaded checkConsistency checkConstraints
        time db).2

/-- What an operation assigns is faithful when it is assigned, and a save raises or schedules
sections in rooms whose names are read as their ids. -/
def Faithful (tables : Tables) (db : Database) : Operation → Prop
  | .assignreg cls timeslotIds classroomIds _ override cannotSchedule _ =>
      AssignregFits tables db cls timeslotIds classroomIds override cannotSchedule
  | .swap assignments user override cannotSchedule time => ∀ between,
      unscheduleAll tables user time assignments db = (.ok ⟨⟩, between) →
        RescheduleFits tables user override cannotSchedule time assignments between
  | .save rows loaded checkConsistency checkConstraints time =>
      (∃ raised, (Autoscheduler.DbInterface.save tables rows loaded checkConsistency
        checkConstraints time
        db).1 = .error raised) ∨
      NamesRooms tables loaded (Autoscheduler.DbInterface.sectionObjs tables loaded)
  | _ => True

/-- The entries that were appended since a state replay its schedule to the one of the database. -/
def Replays (tables : Tables) (start : Database) (schedule : ℕ → Assignment) (db : Database) :
    Prop :=
  ∃ entries, db.changeLog = start.changeLog ++ entries ∧
    ∀ sec, Shows tables db sec (replay schedule entries sec)

theorem tracks_perform {operation : Operation} (faithful : Faithful tables db operation) :
    Tracks tables db (perform tables db operation) := by
  cases operation with
  | deletereg cls user time =>
      rw [perform, ajaxScheduleDeletereg_eq]
      exact tracks_unschedule rfl
  | assignreg cls timeslotIds classroomIds user override cannotSchedule time =>
      exact tracks_ajaxScheduleAssignreg faithful
  | swap assignments user override cannotSchedule time => exact tracks_ajaxScheduleSwap faithful
  | cancel sec raises time => exact tracks_cancel
  | save rows loaded checkConsistency checkConstraints time => exact tracks_save faithful

/-- In every run of faithful operations, replaying the appended entries from the initial schedule
yields the times and the room of every section. -/
theorem replays_throughout {start : Database} {schedule : ℕ → Assignment}
    {operations : List Operation} (shown : ∀ sec, Shows tables start sec (schedule sec))
    (faithful : AtEach (perform tables) (Faithful tables) start operations) :
    Throughout (perform tables) (Replays tables start schedule) start operations := by
  refine throughout_of_steps (fun before operation replays allowed => ?_)
    ⟨[], (List.append_nil _).symm, shown⟩ faithful
  rcases replays with ⟨entries, appended, shown⟩
  rcases tracks_perform allowed with ⟨more, further, tracks⟩
  refine ⟨entries ++ more, by rw [further, appended, List.append_assoc], ?_⟩
  rw [replay, List.foldl_append]
  exact tracks _ shown

namespace Sample

/-- An hour of a program. -/
def morning : Resources.Event :=
  ⟨1, some 1, ⟨2024, 1, 6, 9, 0, 0, 0, Resources.Sample.nine_valid⟩, ⟨2024, 1, 6, 10, 0, 0, 0, Resources.Sample.ten_valid⟩⟩

/-- Two rooms, with the ids 10 and 20. -/
def campus : Tables where
  program := 1
  events := [morning]
  resources := [⟨10, ['A'], true, some 1, morning⟩, ⟨20, ['B'], true, some 2, morning⟩]
  sections := [1, 2]
  eventIds := by decide
  resourceIds := by decide
  sectionIds := Resources.Sample.sections_nodup

/-- The first section meets in the first room, the second one in the second room. -/
def opening : Database where
  meetingTimes := fun sec => if sec = 1 ∨ sec = 2 then [morning] else []
  resourceAssignments := [⟨10, some 1, 0⟩, ⟨20, some 2, 0⟩]
  changeLog := []

def openingSchedule (sec : ℕ) : Assignment :=
  if sec = 1 then ⟨.id 10, [1]⟩ else if sec = 2 then ⟨.id 20, [1]⟩ else ⟨.null, []⟩

/-- A request to put a section into a room in the morning. -/
def moves (cls : ℕ) (room : List Char) : Operation :=
  .assignreg cls [['1']] [room] none true (fun _ _ _ => false) 0

theorem shows_opening (sec : ℕ) : Shows campus opening sec (openingSchedule sec) := by
  by_cases isFirst : sec = 1
  · rw [isFirst]
    refine ⟨fun timeslot => ?_, by decide⟩
    change timeslot ∈ [(1 : ℤ)] ↔ ∃ event ∈ [morning], (event.id : ℤ) = timeslot
    simp [morning, eq_comm]
  · by_cases isSecond : sec = 2
    · rw [isSecond]
      refine ⟨fun timeslot => ?_, by decide⟩
      change timeslot ∈ [(1 : ℤ)] ↔ ∃ event ∈ [morning], (event.id : ℤ) = timeslot
      simp [morning, eq_comm]
    · have unscheduled : opening.meetingTimes sec = [] := if_neg (not_or.mpr ⟨isFirst, isSecond⟩)
      rw [openingSchedule, if_neg isFirst, if_neg isSecond]
      exact @shows_unscheduled campus opening sec [] unscheduled

/-- A section is taken away and put back. -/
theorem replays_moves : Throughout (perform campus) (Replays campus opening openingSchedule) opening
    [.deletereg 1 none 0, moves 1 ['1', '0']] := by
  refine replays_throughout shows_opening (atEach_cons.mpr ⟨trivial, atEach_cons.mpr ⟨?_,
    atEach_nil⟩⟩)
  intro times classroom passes
  cases passes
  refine ⟨fun _ => ⟨by decide, List.pairwise_singleton _ _, ⟨10, by decide, by decide⟩, ?_⟩,
    fun notFree => absurd ⟨by decide, by decide⟩ notFree⟩
  intro initial isInitial room isRoom
  cases isInitial
  cases isRoom
  rfl

/-- The first section is to move into the second room, which is taken: it loses its time and its
room without an entry. -/
theorem cleared_without_entry : (∀ sec, Shows campus opening sec (openingSchedule sec)) ∧
    ¬Throughout (perform campus) (Replays campus opening openingSchedule) opening
      [moves 1 ['2', '0']] := by
  refine ⟨shows_opening, fun replays => ?_⟩
  rcases replays _ (List.prefix_refl _) with ⟨entries, appended, shown⟩
  have none : entries = [] := appended.symm
  have still := ((shown 1).times 1).mp (by rw [none]; decide)
  rcases still with ⟨event, isTime, _⟩
  have cleared : (run (perform campus) opening [moves 1 ['2', '0']]).meetingTimes 1 = [] := by
    decide
  rw [cleared] at isTime
  cases isTime

end Sample

end EspWebsite.AjaxScheduling
