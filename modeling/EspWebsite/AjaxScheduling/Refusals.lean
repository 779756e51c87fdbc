import EspWebsite.AjaxScheduling.Operations

/-!
# Refused requests

What `ajax_schedule_assignreg` and `ajax_schedule_swap` leave of the schedule when they answer
with `ret` False.  Nothing puts back what was cleared before the refusal.
-/

namespace EspWebsite.AjaxScheduling

open Python Resources Transactions

/-! ## Schedules -/

/-- The times and the rooms of a section. -/
abbrev Slot := Set Resources.Event × Set Resource

def scheduleOf (tables : Tables) (db : Database) (sec : ℕ) : Slot :=
  ({event | event ∈ db.meetingTimes sec}, {room | room ∈ db.classrooms tables sec})

/-- No section has other times or rooms than before. -/
def Unchanged (tables : Tables) (db after : Database) : Prop :=
  scheduleOf tables after = scheduleOf tables db

/-- What a section gets that is scheduled. -/
def slotAt (tables : Tables) (times : List Resources.Event) (classroom : Resource) : Slot :=
  ({event | event ∈ eventSet times},
    {room | room.isClassroom = true ∧
      room ∈ tables.roomsToAssign classroom.name (eventSet times)})

/-- The rooms that are assigned before one turns out to be taken. -/
def assignedFirst (tables : Tables) (db : Database) (cls : ℕ) (name : List Char)
    (times : List Resources.Event) : List Resource :=
  let rooms := tables.roomsToAssign name (eventSet times)
  if rooms.length = (eventSet times).length then
    rooms.takeWhile fun room => !(db.clearRooms tables cls).isTaken room
  else []

/-- The resources whose assignments are cleared together with those of rooms. -/
def groupsOf (rooms : List Resource) : Set Resource :=
  {room | ∃ other ∈ rooms, other.grouped room = true}

/-- A schedule after a section could not get a room. -/
def afterRefusal (tables : Tables) (schedule : ℕ → Slot) (db : Database) (cls : ℕ)
    (name : List Char) (times : List Resources.Event) (sec : ℕ) : Slot :=
  if sec = cls then (∅, ∅)
  else
    ((schedule sec).1, (schedule sec).2 \ groupsOf (assignedFirst tables db cls name times))

/-- What `ajax_schedule_assignreg` makes of a schedule when it answers with `ret` False. -/
def leftOver (tables : Tables) (schedule : ℕ → Slot) (db : Database) (cls : ℕ)
    (timeslotIds classroomIds : List (List Char)) (override : Bool)
    (cannotSchedule : CannotSchedule) : ℕ → Slot :=
  match checkAssignreg tables timeslotIds classroomIds override (cannotSchedule db cls) with
  | .ok (.ok (times, classroom)) => afterRefusal tables schedule db cls classroom.name times
  | .ok (.error _) | .error _ => schedule

def SwapAssignment.slot (tables : Tables) (asmt : SwapAssignment) : Option Slot :=
  match asmt.roomId with
  | none => none
  | some roomId =>
      match checkAssignreg tables asmt.timeslots [roomId] true fun _ => false with
      | .ok (.ok (times, classroom)) => some (slotAt tables times classroom)
      | .ok (.error _) | .error _ => none

/-- What the last of some assignments for a section gives it. -/
def lastSlot (tables : Tables) : List SwapAssignment → ℕ → Option Slot
  | [], _ => none
  | asmt :: rest, sec =>
      (lastSlot tables rest sec).or (if asmt.sec = sec then asmt.slot tables else none)

/-- What a section has when `ajax_schedule_swap` has taken away everything and then made some
of its assignments. -/
def givenBack (tables : Tables) (db : Database) (assignments made : List SwapAssignment)
    (sec : ℕ) : Slot :=
  (lastSlot tables made sec).getD
    (if ∃ asmt ∈ assignments, asmt.sec = sec then (∅, ∅) else scheduleOf tables db sec)

section Conditions

variable (tables : Tables) (db : Database)

/-- `ajax_schedule_assignreg` refuses at one of its checks, or because of the room. -/
def Refuses (cls : ℕ) (timeslotIds classroomIds : List (List Char)) (override : Bool)
    (cannotSchedule : CannotSchedule) : Prop :=
  match checkAssignreg tables timeslotIds classroomIds override (cannotSchedule db cls) with
  | .ok (.ok (times, classroom)) => ¬RoomFree tables db cls classroom.name times
  | .ok (.error _) => True
  | .error _ => False

/-- If the room is what is refused, the section had nothing to lose, and no other section has a
room in the group of one that was assigned first. -/
def AssignregKeeps (cls : ℕ) (timeslotIds classroomIds : List (List Char)) (override : Bool)
    (cannotSchedule : CannotSchedule) : Prop :=
  match checkAssignreg tables timeslotIds classroomIds override (cannotSchedule db cls) with
  | .ok (.ok (times, classroom)) =>
      scheduleOf tables db cls = (∅, ∅) ∧ ∀ sec, sec ≠ cls →
        Disjoint (scheduleOf tables db sec).2
          (groupsOf (assignedFirst tables db cls classroom.name times))
  | .ok (.error _) | .error _ => True

/-- The assignment that `ajax_schedule_swap` refuses, the ones it has made before, and what they
have left. -/
structure RefusedAt (assignments : List SwapAssignment) (user : Option ℕ) (override : Bool)
    (cannotSchedule : CannotSchedule) (time : ℤ) (made : List SwapAssignment)
    (asmt : SwapAssignment) (roomId : List Char) (between : Database) : Prop where
  split : ∃ rest, assignments = made ++ asmt :: rest
  isRoom : asmt.roomId = some roomId
  isSection : asmt.sec ∈ tables.sections
  isMade : ∃ cleared, unscheduleAll tables user time assignments db = (.ok ⟨⟩, cleared) ∧
    rescheduleAll tables user override cannotSchedule time made cleared = (.ok .swapped, between)
  refuses : Refuses tables between asmt.sec asmt.timeslots [roomId] override cannotSchedule

/-- All sections have been given back the times and rooms that they had; if the room is what is
refused, the section had none, and the rooms that the others have lost are none of theirs. -/
def GivesBack (assignments made : List SwapAssignment) (asmt : SwapAssignment)
    (roomId : List Char) (between : Database) (override : Bool)
    (cannotSchedule : CannotSchedule) : Prop :=
  match checkAssignreg tables asmt.timeslots [roomId] override
      (cannotSchedule between asmt.sec) with
  | .ok (.ok (times, classroom)) =>
      scheduleOf tables db asmt.sec = (∅, ∅) ∧ ∀ sec, sec ≠ asmt.sec →
        ((givenBack tables db assignments made sec).1,
          (givenBack tables db assignments made sec).2 \
            groupsOf (assignedFirst tables between asmt.sec classroom.name times)) =
          scheduleOf tables db sec
  | .ok (.error _) | .error _ =>
      ∀ sec, givenBack tables db assignments made sec = scheduleOf tables db sec

inductive Request where
  | assignreg (cls : ℕ) (timeslotIds classroomIds : List (List Char))
  | swap (assignments : List SwapAssignment)

def Request.answer (user : Option ℕ) (override : Bool) (cannotSchedule : CannotSchedule)
    (time : ℤ) : Request → Action Database Response
  | .assignreg cls timeslotIds classroomIds =>
      ajaxScheduleAssignreg tables cls timeslotIds classroomIds user override cannotSchedule time
  | .swap assignments =>
      ajaxScheduleSwap tables assignments user override cannotSchedule time

def Request.Keeps (user : Option ℕ) (override : Bool) (cannotSchedule : CannotSchedule)
    (time : ℤ) : Request → Prop
  | .assignreg cls timeslotIds classroomIds =>
      AssignregKeeps tables db cls timeslotIds classroomIds override cannotSchedule
  | .swap assignments => ∃ made asmt roomId between,
      RefusedAt tables db assignments user override cannotSchedule time made asmt roomId
        between ∧
      GivesBack tables db assignments made asmt roomId between override cannotSchedule

end Conditions

section Steps

variable {tables : Tables} {db after : Database} {cls sec : ℕ} {user : Option ℕ} {time : ℤ}
  {times : List Resources.Event} {classroom room : Resource} {name : List Char}

theorem scheduleOf_eq {slot : Slot}
    (sameTimes : ∀ event, event ∈ db.meetingTimes sec ↔ event ∈ slot.1)
    (sameRooms : ∀ room, room ∈ db.classrooms tables sec ↔ room ∈ slot.2) :
    scheduleOf tables db sec = slot :=
  Prod.ext (Set.ext sameTimes) (Set.ext sameRooms)

theorem grouped_self (room : Resource) : room.grouped room = true := by
  rw [Resource.grouped]
  cases room.resGroup with
  | none => simp
  | some group => simp

theorem mem_classrooms_assignRoom_of_refused
    (distinct : ((db.meetingTimes cls).map Resources.Event.id).Nodup)
    (own : db.meetingTimes cls = eventSet times)
    (refused : (db.assignRoom tables cls name true false 0).1.1 = false) :
    room ∈ (db.assignRoom tables cls name true false 0).2.classrooms tables sec ↔
      sec ≠ cls ∧ room ∈ db.classrooms tables sec ∧
        room ∉ groupsOf (assignedFirst tables db cls name times) := by
  rw [Database.assignRoom_eq, own] at refused ⊢
  rw [own] at distinct
  rw [if_pos rfl] at refused ⊢
  rw [assignedFirst]
  by_cases all : (tables.roomsToAssign name (eventSet times)).length = (eventSet times).length
  · rw [if_pos all] at refused ⊢
    rw [if_pos all]
    rcases Database.assignRooms_of_not_status refused with
      ⟨assigned, taken, rest, split, free, occupied, outcome⟩
    have apart := @Tables.pairwise_roomsToAssign tables name _ distinct
    rw [split, List.pairwise_append] at apart
    rw [Database.isTaken_withRooms, Bool.or_eq_true] at occupied
    have isTaken : (db.clearRooms tables cls).isTaken taken = true := by
      refine occupied.resolve_right fun sameRoom => ?_
      rcases List.any_eq_true.mp sameRoom with ⟨other, isOther, same⟩
      exact apart.2.2 other isOther taken List.mem_cons_self (of_decide_eq_true same)
    have before : (tables.roomsToAssign name (eventSet times)).takeWhile (fun room =>
        !(db.clearRooms tables cls).isTaken room) = assigned := by
      rw [split, List.takeWhile_append_of_pos (fun room isAssigned => by
        rw [free room isAssigned]; rfl), List.takeWhile_cons_of_neg (by simp [isTaken]),
        List.append_nil]
    rw [outcome, List.nil_append, Database.mem_classrooms_foldl_clearAssignments,
      Database.mem_classrooms_withRooms, Database.mem_classrooms_clearRooms, before]
    have spared : room ∉ groupsOf assigned ↔ ∀ other ∈ assigned, other.grouped room = false := by
      simp [groupsOf]
    rw [spared]
    constructor
    · rintro ⟨⟨different, isRoom⟩ | ⟨_, isResource, _, other, isOther, same⟩, ungrouped⟩
      · exact ⟨different, isRoom, ungrouped⟩
      · have isAssigned : other ∈ tables.roomsToAssign name (eventSet times) := by
          rw [split]
          exact List.mem_append_left _ isOther
        have sameRoom :=
          Tables.resource_eq (Tables.mem_roomsToAssign isAssigned).1 isResource same
        have notGrouped := ungrouped other isOther
        rw [sameRoom, grouped_self] at notGrouped
        cases notGrouped
    · rintro ⟨different, isRoom, ungrouped⟩
      exact ⟨Or.inl ⟨different, isRoom⟩, ungrouped⟩
  · rw [if_neg all, if_neg all, Database.mem_classrooms_clearRooms]
    simp [groupsOf]

section AssignRoom

variable {assigned : Database} (isAssigned : assigned = db.assignMeetingTimes cls times)

include isAssigned

theorem meetingTimes_assigned : assigned.meetingTimes cls = eventSet times := by
  rw [isAssigned]
  exact meetingTimes_assignMeetingTimes

theorem meetingTimes_assignRoom :
    (assigned.assignRoom tables cls name true false 0).2.meetingTimes =
      Function.update db.meetingTimes cls (eventSet times) := by
  rw [Database.frame_assignRoom.1, isAssigned]
  rfl

theorem scheduleOf_assignRoom
    (status : (assigned.assignRoom tables cls classroom.name true false 0).1.1 = true) :
    scheduleOf tables (assigned.assignRoom tables cls classroom.name true false 0).2 =
      Function.update (scheduleOf tables db) cls (slotAt tables times classroom) := by
  have newTimes :=
    @meetingTimes_assignRoom tables db cls times classroom.name assigned isAssigned
  have outcome := (Database.assignRoom_of_status status).2
  rw [meetingTimes_assigned isAssigned, if_pos rfl] at outcome
  funext sec
  by_cases same : sec = cls
  · rw [same, Function.update_self]
    apply scheduleOf_eq
    · intro event
      rw [newTimes, Function.update_self]
      rfl
    · intro room
      rw [outcome, Database.mem_classrooms_withRooms, Database.mem_classrooms_clearRooms]
      constructor
      · rintro (⟨different, _⟩ | ⟨_, isResource, isClassroom, other, isOther, sameId⟩)
        · exact absurd rfl different
        · have sameRoom :=
            Tables.resource_eq (Tables.mem_roomsToAssign isOther).1 isResource sameId
          exact ⟨isClassroom, sameRoom ▸ isOther⟩
      · rintro ⟨isClassroom, isRoom⟩
        exact Or.inr ⟨rfl, (Tables.mem_roomsToAssign isRoom).1, isClassroom, room, isRoom, rfl⟩
  · rw [Function.update_of_ne same]
    apply scheduleOf_eq
    · intro event
      rw [newTimes, Function.update_of_ne same]
      rfl
    · intro room
      rw [outcome, Database.mem_classrooms_withRooms, Database.mem_classrooms_clearRooms,
        isAssigned]
      simp only [same, false_and, or_false, ne_eq, not_false_eq_true, true_and]
      rfl

theorem scheduleOf_refused (distinct : (times.map Resources.Event.id).Nodup)
    (status : (assigned.assignRoom tables cls name true false 0).1.1 = false) :
    scheduleOf tables
        ((assigned.assignRoom tables cls name true false 0).2.clearMeetingTimes cls) =
      afterRefusal tables (scheduleOf tables db) db cls name times := by
  have cleared : ((assigned.assignRoom tables cls name true false 0).2.clearMeetingTimes
      cls).meetingTimes = Function.update db.meetingTimes cls [] := by
    rw [Database.clearMeetingTimes, meetingTimes_assignRoom isAssigned, Function.update_idem]
  have own := meetingTimes_assigned isAssigned
  have distinctSet := nodup_eventSet distinct
  rw [← own] at distinctSet
  funext sec
  have rooms (room : Resource) :=
    @mem_classrooms_assignRoom_of_refused tables assigned cls sec times room name distinctSet own
      status
  rw [isAssigned] at rooms
  rw [afterRefusal]
  split
  · rename_i same
    apply scheduleOf_eq
    · intro event
      rw [cleared, same, Function.update_self]
      simp
    · intro room
      rw [isAssigned]
      refine (rooms room).trans ?_
      simp [same]
  · rename_i different
    apply scheduleOf_eq
    · intro event
      rw [cleared, Function.update_of_ne different]
      rfl
    · intro room
      rw [isAssigned]
      refine (rooms room).trans ?_
      simp only [different, ne_eq, not_false_eq_true, true_and]
      rfl

end AssignRoom

theorem assignTimesAndRoom_cases {classroomId : List Char} {response : Response}
    (distinct : (times.map Resources.Event.id).Nodup)
    (run : assignTimesAndRoom tables cls times classroom classroomId user time db =
      (.ok response, after)) :
    (response = .scheduled ∧
        scheduleOf tables after =
          Function.update (scheduleOf tables db) cls (slotAt tables times classroom)) ∨
      ((∃ errors, response = .roomErrors errors) ∧
        scheduleOf tables after =
          afterRefusal tables (scheduleOf tables db) db cls classroom.name times) := by
  rw [assignTimesAndRoom] at run
  simp only [Action.change_bind, Action.read_bind] at run
  cases status : ((db.assignMeetingTimes cls times).assignRoom tables cls classroom.name true
    false 0).1.1 with
  | true =>
      left
      rw [status, if_pos rfl, appendScheduling] at run
      split at run
      · cases run
        exact ⟨rfl, scheduleOf_assignRoom rfl status⟩
      · cases congrArg Prod.fst run
  | false =>
      right
      rw [status, if_neg Bool.false_ne_true] at run
      cases run
      exact ⟨⟨_, rfl⟩, scheduleOf_refused rfl distinct status⟩

theorem checkAssignreg_of_override {timeslotIds classroomIds : List (List Char)}
    {override : Bool} {cannotSchedule : List Resources.Event → Bool}
    (passes : checkAssignreg tables timeslotIds classroomIds override cannotSchedule =
      .ok (.ok (times, classroom))) :
    checkAssignreg tables timeslotIds classroomIds true (fun _ => false) =
      .ok (.ok (times, classroom)) := by
  rcases checkAssignreg_eq_ok.mp passes with
    ⟨specified, basicCls, rest, isRoom, single, ids, isIds, isTimes, found, id, isId, isClassroom,
      _⟩
  exact checkAssignreg_eq_ok.mpr
    ⟨specified, basicCls, rest, isRoom, single, ids, isIds, isTimes, found, id, isId, isClassroom,
      by simp⟩

theorem ret_of_checkAssignreg {timeslotIds classroomIds : List (List Char)} {override : Bool}
    {cannotSchedule : List Resources.Event → Bool} {response : Response}
    (refuses : checkAssignreg tables timeslotIds classroomIds override cannotSchedule =
      .ok (.error response)) : response.ret = false := by
  rw [checkAssignreg.eq_def] at refuses
  split at refuses
  · cases refuses
    rfl
  · split at refuses
    · cases refuses
      rfl
    · split at refuses
      · cases refuses
        rfl
      · rcases bind_eq_ok.mp refuses with ⟨ids, _, refuses⟩
        dsimp only at refuses
        split at refuses
        · cases refuses
          rfl
        · rcases bind_eq_ok.mp refuses with ⟨id, _, refuses⟩
          split at refuses
          · cases refuses
            rfl
          · split at refuses
            · cases refuses
              rfl
            · cases refuses

section Assignreg

variable {timeslotIds classroomIds : List (List Char)} {override : Bool}
  {cannotSchedule : CannotSchedule} {response : Response}

theorem ajaxScheduleAssignreg_cases
    (run : ajaxScheduleAssignreg tables cls timeslotIds classroomIds user override cannotSchedule
      time db = (.ok response, after)) :
    (response.ret = true ∧ ∃ times classroom,
        checkAssignreg tables timeslotIds classroomIds override (cannotSchedule db cls) =
          .ok (.ok (times, classroom)) ∧
        scheduleOf tables after =
          Function.update (scheduleOf tables db) cls (slotAt tables times classroom)) ∨
      (response.ret = false ∧
        scheduleOf tables after = leftOver tables (scheduleOf tables db) db cls timeslotIds
          classroomIds override cannotSchedule) := by
  rw [ajaxScheduleAssignreg, Action.read_bind] at run
  rw [leftOver]
  cases checked : checkAssignreg tables timeslotIds classroomIds override
      (cannotSchedule db cls) with
  | error raised =>
      rw [checked] at run
      cases congrArg Prod.fst run
  | ok answer =>
      rw [checked] at run
      cases answer with
      | error refused =>
          cases run
          exact Or.inr ⟨ret_of_checkAssignreg checked, rfl⟩
      | ok selected =>
          rcases selected with ⟨times, classroom⟩
          have passes := times_of_checkAssignreg checked
          rcases assignTimesAndRoom_cases passes.1 run with
            ⟨rfl, scheduled⟩ | ⟨⟨errors, rfl⟩, refused⟩
          · exact Or.inl ⟨rfl, times, classroom, rfl, scheduled⟩
          · exact Or.inr ⟨rfl, refused⟩

theorem refuses_iff (user : Option ℕ) (time : ℤ) :
    Refuses tables db cls timeslotIds classroomIds override cannotSchedule ↔
      ∃ response after, ajaxScheduleAssignreg tables cls timeslotIds classroomIds user override
        cannotSchedule time db = (.ok response, after) ∧ response.ret = false := by
  rw [Refuses, ajaxScheduleAssignreg, Action.read_bind]
  cases checked : checkAssignreg tables timeslotIds classroomIds override
      (cannotSchedule db cls) with
  | error raised =>
      refine iff_of_false not_false ?_
      rintro ⟨response, after, run, _⟩
      cases congrArg Prod.fst run
  | ok answer =>
      cases answer with
      | error refused => exact iff_of_true trivial ⟨refused, db, rfl, ret_of_checkAssignreg checked⟩
      | ok selected =>
          rcases selected with ⟨times, classroom⟩
          have distinct := (times_of_checkAssignreg checked).1
          dsimp only
          rw [← status_assignRoom_iff distinct]
          change _ ↔ ∃ response after, assignTimesAndRoom tables cls times classroom
            (classroomIds.headD []) user time db = (.ok response, after) ∧ response.ret = false
          rw [assignTimesAndRoom]
          simp only [Action.change_bind, Action.read_bind]
          constructor
          · intro taken
            rw [if_neg taken]
            exact ⟨_, _, rfl, rfl⟩
          · rintro ⟨response, after, run, refused⟩ free
            rw [if_pos free, appendScheduling] at run
            split at run
            · cases run
              cases refused
            · cases congrArg Prod.fst run

end Assignreg

section Swap

variable {override : Bool} {cannotSchedule : CannotSchedule} {response : Response}
  {assignments made : List SwapAssignment} {asmt : SwapAssignment} {between : Database}

theorem scheduleOf_clear :
    scheduleOf tables ((db.clearRooms tables cls).clearMeetingTimes cls) =
      Function.update (scheduleOf tables db) cls (∅, ∅) := by
  funext sec
  by_cases same : sec = cls
  · rw [same, Function.update_self]
    apply scheduleOf_eq
    · intro event
      simp [Database.clearMeetingTimes]
    · intro room
      refine Database.mem_classrooms_clearRooms.trans ?_
      simp
  · rw [Function.update_of_ne same]
    apply scheduleOf_eq
    · intro event
      simp only [Database.clearMeetingTimes, Function.update_of_ne same]
      rfl
    · intro room
      refine Database.mem_classrooms_clearRooms.trans ?_
      simp only [same, ne_eq, not_false_eq_true, true_and]
      rfl

/-- The first loop of `ajax_schedule_swap` takes away what the listed sections have. -/
theorem scheduleOf_unscheduleAll {value : PUnit}
    (run : unscheduleAll tables user time assignments db = (.ok value, after)) :
    scheduleOf tables after = givenBack tables db assignments [] := by
  induction assignments generalizing db with
  | nil =>
      cases run
      funext sec
      simp [givenBack, lastSlot]
  | cons asmt rest ih =>
      rw [unscheduleAll] at run
      rcases Action.bind_eq_ok.mp run with ⟨_, found, isFound, unschedules⟩
      rcases getSection_eq_ok.mp isFound with ⟨_, rfl⟩
      rw [Action.bind_of_ok ajaxScheduleDeletereg_eq] at unschedules
      rw [ih unschedules]
      funext sec
      have cleared : ∀ changeLog, scheduleOf tables
          { (found.clearRooms tables asmt.sec).clearMeetingTimes asmt.sec with changeLog } =
            Function.update (scheduleOf tables found) asmt.sec (∅, ∅) := fun _ => scheduleOf_clear
      rw [givenBack, givenBack, cleared, lastSlot, Option.getD_none, Option.getD_none]
      by_cases isRest : ∃ other ∈ rest, other.sec = sec
      · simp [isRest]
      · by_cases isFirst : sec = asmt.sec
        · simp [isFirst]
        · simp [isRest, isFirst, Ne.symm isFirst]

/-- The second loop gives sections what the assignments for them name. -/
theorem scheduleOf_rescheduleAll
    (run : rescheduleAll tables user override cannotSchedule time made db =
      (.ok .swapped, after)) :
    scheduleOf tables after = fun sec =>
      (lastSlot tables made sec).getD (scheduleOf tables db sec) := by
  induction made generalizing db with
  | nil =>
      cases run
      rfl
  | cons asmt rest ih =>
      rw [rescheduleAll] at run
      cases isRoom : asmt.roomId with
      | none =>
          rw [isRoom] at run
          rw [ih run]
          funext sec
          simp [lastSlot, SwapAssignment.slot, isRoom]
      | some roomId =>
          rw [isRoom] at run
          rcases Action.bind_eq_ok.mp run with ⟨_, found, isFound, goesOn⟩
          rcases getSection_eq_ok.mp isFound with ⟨_, rfl⟩
          rcases Action.bind_eq_ok.mp goesOn with ⟨retval, next, assigns, goesOn⟩
          split at goesOn
          · rename_i succeeded
            rcases ajaxScheduleAssignreg_cases assigns with
              ⟨_, times, classroom, passes, scheduled⟩ | ⟨failed, _⟩
            · have slot : asmt.slot tables = some (slotAt tables times classroom) := by
                rw [SwapAssignment.slot, isRoom]
                dsimp only
                rw [checkAssignreg_of_override passes]
              rw [ih goesOn, scheduled]
              funext sec
              rw [lastSlot, slot]
              cases lastSlot tables rest sec with
              | some later => rfl
              | none =>
                  by_cases same : asmt.sec = sec
                  · rw [if_pos same, ← same, Function.update_self]
                    rfl
                  · rw [if_neg same, Function.update_of_ne (Ne.symm same)]
                    rfl
            · cases succeeded.symm.trans failed
          · rename_i failed
            cases goesOn
            exact absurd rfl failed

theorem rescheduleAll_refused
    (run : rescheduleAll tables user override cannotSchedule time assignments db =
      (.ok response, after)) (refused : response.ret = false) :
    ∃ made asmt rest roomId between, assignments = made ++ asmt :: rest ∧
      asmt.roomId = some roomId ∧ asmt.sec ∈ tables.sections ∧
      rescheduleAll tables user override cannotSchedule time made db =
        (.ok .swapped, between) ∧
      ajaxScheduleAssignreg tables asmt.sec asmt.timeslots [roomId] user override cannotSchedule
        time between = (.ok response, after) := by
  induction assignments generalizing db with
  | nil =>
      cases run
      cases refused
  | cons asmt rest ih =>
      rw [rescheduleAll] at run
      cases isRoom : asmt.roomId with
      | none =>
          rw [isRoom] at run
          rcases ih run with
            ⟨made, last, others, roomId, between, split, lastRoom, isSection, done, refuses⟩
          refine ⟨asmt :: made, last, others, roomId, between, by rw [split]; rfl, lastRoom,
            isSection, ?_, refuses⟩
          rw [rescheduleAll, isRoom]
          exact done
      | some roomId =>
          rw [isRoom] at run
          rcases Action.bind_eq_ok.mp run with ⟨_, found, isFound, goesOn⟩
          rcases getSection_eq_ok.mp isFound with ⟨isSection, rfl⟩
          rcases Action.bind_eq_ok.mp goesOn with ⟨retval, next, assigns, goesOn⟩
          split at goesOn
          · rename_i succeeded
            rcases ih goesOn with
              ⟨made, last, others, lastId, between, split, lastRoom, isSection, done, refuses⟩
            refine ⟨asmt :: made, last, others, lastId, between, by rw [split]; rfl, lastRoom,
              isSection, ?_, refuses⟩
            rw [rescheduleAll, isRoom]
            refine (Action.bind_of_ok isFound).trans ((Action.bind_of_ok assigns).trans ?_)
            rw [if_pos succeeded]
            exact done
          · cases goesOn
            exact ⟨[], asmt, rest, roomId, found, rfl, isRoom, isSection, rfl, assigns⟩

/-- After the assignments that are made, the second loop goes on with the others. -/
theorem rescheduleAll_append {rest : List SwapAssignment}
    (isMade : rescheduleAll tables user override cannotSchedule time made db =
      (.ok .swapped, between)) :
    rescheduleAll tables user override cannotSchedule time (made ++ rest) db =
      rescheduleAll tables user override cannotSchedule time rest between := by
  induction made generalizing db with
  | nil =>
      cases isMade
      rfl
  | cons asmt others ih =>
      rw [List.cons_append, rescheduleAll]
      rw [rescheduleAll] at isMade
      cases isRoom : asmt.roomId with
      | none =>
          rw [isRoom] at isMade
          exact ih isMade
      | some roomId =>
          rw [isRoom] at isMade
          rcases Action.bind_eq_ok.mp isMade with ⟨_, found, isFound, isMade⟩
          rcases Action.bind_eq_ok.mp isMade with ⟨retval, next, assigns, isMade⟩
          refine (Action.bind_of_ok isFound).trans ((Action.bind_of_ok assigns).trans ?_)
          split at isMade
          · rename_i succeeded
            rw [if_pos succeeded]
            exact ih isMade
          · rename_i failed
            cases isMade
            exact absurd rfl failed

theorem ajaxScheduleSwap_refusedAt {roomId : List Char}
    (refusedAt : RefusedAt tables db assignments user override cannotSchedule time made asmt
      roomId between)
    (run : ajaxScheduleSwap tables assignments user override cannotSchedule time db =
      (.ok response, after)) :
    scheduleOf tables after =
      leftOver tables (givenBack tables db assignments made) between asmt.sec asmt.timeslots
        [roomId] override cannotSchedule := by
  rcases refusedAt with ⟨⟨rest, split⟩, isRoom, isSection, ⟨cleared, unscheduled, isMade⟩, refuses⟩
  rcases (refuses_iff user time).mp refuses with
    ⟨retval, final, assigns, failed⟩
  have isCleared := scheduleOf_unscheduleAll unscheduled
  have isGiven := scheduleOf_rescheduleAll isMade
  rw [ajaxScheduleSwap, Action.bind_of_ok unscheduled, split, rescheduleAll_append isMade,
    rescheduleAll, isRoom] at run
  have found : getSection tables asmt.sec between = (.ok ⟨⟩, between) := by
    rw [getSection_eq, if_pos isSection]
  have isAfter := ((Action.bind_of_ok found).trans (Action.bind_of_ok assigns)).symm.trans run
  rw [if_neg (by simp [failed])] at isAfter
  cases isAfter
  rcases ajaxScheduleAssignreg_cases assigns with ⟨succeeded, _⟩ | ⟨_, left⟩
  · cases succeeded.symm.trans failed
  · rw [left, isGiven, isCleared]
    rfl

end Swap

/-! ## When nothing is lost -/

theorem afterRefusal_eq_iff {schedule target : ℕ → Slot} :
    afterRefusal tables schedule db cls name times = target ↔
      target cls = (∅, ∅) ∧ ∀ sec, sec ≠ cls →
        ((schedule sec).1,
          (schedule sec).2 \ groupsOf (assignedFirst tables db cls name times)) =
          target sec := by
  constructor
  · rintro rfl
    refine ⟨if_pos rfl, fun sec different => ?_⟩
    rw [afterRefusal, if_neg different]
  · rintro ⟨own, others⟩
    funext sec
    rw [afterRefusal]
    split
    · rename_i same
      rw [same, own]
    · rename_i different
      exact others sec different

theorem leftOver_eq_scheduleOf_iff {timeslotIds classroomIds : List (List Char)}
    {override : Bool} {cannotSchedule : CannotSchedule} :
    leftOver tables (scheduleOf tables db) db cls timeslotIds classroomIds override
        cannotSchedule = scheduleOf tables db ↔
      AssignregKeeps tables db cls timeslotIds classroomIds override cannotSchedule := by
  rw [leftOver, AssignregKeeps]
  split
  · rw [afterRefusal_eq_iff]
    refine and_congr_right fun _ => forall_congr' fun sec => imp_congr_right fun _ => ?_
    rw [← sdiff_eq_left]
    exact ⟨fun same => congrArg Prod.snd same, fun same => Prod.ext rfl same⟩
  · exact iff_of_true rfl trivial
  · exact iff_of_true rfl trivial

theorem givesBack_iff {assignments made : List SwapAssignment} {asmt : SwapAssignment}
    {roomId : List Char} {between : Database} {override : Bool}
    {cannotSchedule : CannotSchedule} :
    leftOver tables (givenBack tables db assignments made) between asmt.sec asmt.timeslots
        [roomId] override cannotSchedule = scheduleOf tables db ↔
      GivesBack tables db assignments made asmt roomId between override cannotSchedule := by
  rw [leftOver, GivesBack]
  split
  · exact afterRefusal_eq_iff
  · exact funext_iff
  · exact funext_iff

theorem exists_refusedAt {assignments : List SwapAssignment} {override : Bool}
    {cannotSchedule : CannotSchedule} {response : Response}
    (run : ajaxScheduleSwap tables assignments user override cannotSchedule time db =
      (.ok response, after)) (refused : response.ret = false) :
    ∃ made asmt roomId between,
      RefusedAt tables db assignments user override cannotSchedule time made asmt roomId
        between := by
  rcases Action.bind_eq_ok.mp run with ⟨value, cleared, unscheduled, run⟩
  rcases rescheduleAll_refused run refused with
    ⟨made, asmt, rest, roomId, between, split, isRoom, isSection, isMade, assigns⟩
  exact ⟨made, asmt, roomId, between, ⟨rest, split⟩, isRoom, isSection,
    ⟨cleared, unscheduled, isMade⟩, (refuses_iff user time).mpr ⟨response, after, assigns, refused⟩⟩

/-- A refused request leaves the schedule as it was, exactly if it has taken nothing away or has
given it back. -/
theorem unchanged_iff_keeps {request : Request} {override : Bool}
    {cannotSchedule : CannotSchedule} {response : Response}
    (run : request.answer tables user override cannotSchedule time db = (.ok response, after))
    (refused : response.ret = false) :
    Unchanged tables db after ↔ request.Keeps tables db user override cannotSchedule time := by
  cases request with
  | assignreg cls timeslotIds classroomIds =>
      rcases ajaxScheduleAssignreg_cases run with ⟨succeeded, _⟩ | ⟨_, left⟩
      · cases succeeded.symm.trans refused
      · rw [Unchanged, left]
        exact leftOver_eq_scheduleOf_iff
  | swap assignments =>
      rw [Unchanged, Request.Keeps]
      constructor
      · intro unchanged
        rcases exists_refusedAt run refused with ⟨made, asmt, roomId, between, refusedAt⟩
        refine ⟨made, asmt, roomId, between, refusedAt, givesBack_iff.mp ?_⟩
        rw [← ajaxScheduleSwap_refusedAt refusedAt run]
        exact unchanged
      · rintro ⟨made, asmt, roomId, between, refusedAt, givesBack⟩
        rw [ajaxScheduleSwap_refusedAt refusedAt run]
        exact givesBack_iff.mpr givesBack

end Steps

namespace Sample

/-- Only the second section is scheduled. -/
def halfOpening : Database where
  meetingTimes := fun sec => if sec = 2 then [morning] else []
  resourceAssignments := [⟨20, some 2, 0⟩]
  changeLog := []

def intoSecondRoom : Request := .assignreg 1 [['1']] [['2', '0']]

def answered (request : Request) (db : Database) : Raises Response × Database :=
  request.answer campus none true (fun _ _ _ => false) 0 db

/-- The second section has the room. -/
def occupied : Response :=
  .roomErrors [.occupied ⟨20, ['B'], true, some 2, morning⟩ [⟨20, some 2, 0⟩]]

/-- A section that is not scheduled has nothing to lose. -/
theorem unchanged_halfOpening :
    Unchanged campus halfOpening (answered intoSecondRoom halfOpening).2 := by
  have run : intoSecondRoom.answer campus none true (fun _ _ _ => false) 0 halfOpening =
      (.ok occupied, (answered intoSecondRoom halfOpening).2) :=
    Prod.ext (by decide) rfl
  refine (unchanged_iff_keeps run rfl).mpr ?_
  have first : assignedFirst campus halfOpening 1 ['B'] [morning] = [] := by decide
  change scheduleOf campus halfOpening 1 = (∅, ∅) ∧ ∀ sec, sec ≠ 1 →
    Disjoint (scheduleOf campus halfOpening sec).2
      (groupsOf (assignedFirst campus halfOpening 1 ['B'] [morning]))
  constructor
  · apply scheduleOf_eq
    · intro event
      simp [halfOpening]
    · intro room
      have none : halfOpening.classrooms campus 1 = [] := by decide
      simp [none]
  · intro sec _
    have nothing : groupsOf [] = ∅ := by simp [groupsOf]
    rw [first, nothing]
    exact Set.disjoint_empty _

/-- The same as a swap of one section. -/
def swapIntoSecondRoom : Request := .swap [⟨1, [['1']], some ['2', '0']⟩]

/-- Without its time, the schedule of the first section is another one. -/
theorem not_unchanged_opening {after : Database} (cleared : after.meetingTimes 1 = []) :
    ¬Unchanged campus opening after := by
  intro unchanged
  have times := congrArg Prod.fst (congrFun unchanged 1)
  have isTime : morning ∈ (scheduleOf campus opening 1).1 := by
    change morning ∈ opening.meetingTimes 1
    decide
  rw [← times] at isTime
  change morning ∈ after.meetingTimes 1 at isTime
  rw [cleared] at isTime
  cases isTime

/-- The first section loses its time, by the request alone and by the swap. -/
theorem changed_opening :
    ((answered intoSecondRoom opening).1.map Response.ret = .ok false ∧
        ¬Unchanged campus opening (answered intoSecondRoom opening).2) ∧
      (answered swapIntoSecondRoom opening).1.map Response.ret = .ok false ∧
        ¬Unchanged campus opening (answered swapIntoSecondRoom opening).2 :=
  ⟨⟨by decide, not_unchanged_opening (by decide)⟩, by decide, not_unchanged_opening (by decide)⟩

end Sample

end EspWebsite.AjaxScheduling
