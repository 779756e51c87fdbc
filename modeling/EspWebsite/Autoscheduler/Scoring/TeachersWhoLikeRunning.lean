import EspWebsite.Autoscheduler.Scoring.Following

/-!
# The scorer of running teachers

`TeachersWhoLikeRunningScorer` counts how often a teacher goes from a section to one in
another room without a break.  Its hooks look at the first timeslot of a section where
they should look at the last one, so they miss some of these runs.
-/

namespace EspWebsite.Autoscheduler

open Python Tally

namespace TeachersWhoLikeRunningScorer

/-- The state: `times_teacher_is_teaching`, by teacher id and timeslot id, and
`running_count`. -/
structure State where
  timesTeacherIsTeaching : Nat → Nat → Option AS_RoomSlot
  runningCount : ℚ

/-- Whether a teacher with the given dictionary is in different rooms in two
timeslots. -/
def changesRoom (timesTeaching : Nat → Option AS_RoomSlot) (timeslot1 timeslot2 : AS_Timeslot) :
    Bool :=
  match timesTeaching timeslot1.id, timesTeaching timeslot2.id with
  | some roomslot1, some roomslot2 => roomslot1.room != roomslot2.room
  | _, _ => false

def runs (timesTeaching : Nat → Option AS_RoomSlot) (timeslot1 timeslot2 : AS_Timeslot) : ℚ :=
  if contiguous timeslot1 timeslot2 && changesRoom timesTeaching timeslot1 timeslot2 then 1
  else 0

/-- The inner loop of `update_schedule`.  It visits a teacher's timeslots in the order of
the schedule, which makes no difference to the count. -/
def countRuns (timesTeaching : Nat → Option AS_RoomSlot) : List AS_Timeslot → ℚ
  | timeslot :: nextTimeslot :: rest =>
      runs timesTeaching timeslot nextTimeslot +
        countRuns timesTeaching (nextTimeslot :: rest)
  | _ => 0

/-- The innermost loops that enter roomslots into a teacher's dictionary. -/
def enter (roomslots : List AS_RoomSlot) (timesTeaching : Nat → Option AS_RoomSlot) :
    Nat → Option AS_RoomSlot :=
  roomslots.foldl (fun timesTeaching roomslot =>
    Function.update timesTeaching roomslot.timeslot.id (some roomslot)) timesTeaching

/-- The loops that enter roomslots into the dictionaries of all teachers of a section. -/
def enterAll (sec : AS_ClassSection) (roomslots : List AS_RoomSlot) :
    (Nat → Nat → Option AS_RoomSlot) → Nat → Nat → Option AS_RoomSlot :=
  updateAll (sec.teachers.map AS_Teacher.id) (enter roomslots)

/-- The innermost loop of `update_unschedule_section`; a missing key raises. -/
def delete : List AS_RoomSlot → (Nat → Option AS_RoomSlot) → Raises (Nat → Option AS_RoomSlot)
  | [], timesTeaching => .ok timesTeaching
  | roomslot :: rest, timesTeaching =>
      match timesTeaching roomslot.timeslot.id with
      | none => .error .keyError
      | some _ => delete rest (Function.update timesTeaching roomslot.timeslot.id none)

/-- The loop of `update_unschedule_section` over the ids of the teachers. -/
def deleteAll (roomslots : List AS_RoomSlot) :
    List Nat → (Nat → Nat → Option AS_RoomSlot) → Raises (Nat → Nat → Option AS_RoomSlot)
  | [], times => .ok times
  | teacherId :: rest, times => do
      let timesTeaching ← delete roomslots (times teacherId)
      deleteAll roomslots rest (Function.update times teacherId timesTeaching)

variable (schedule : AS_Schedule)

/-- An entry of `timeslot_indices`. -/
def timeslotIndex (timeslot : AS_Timeslot) : Raises Nat :=
  match schedule.timeslots.findIdx? fun other => other.id == timeslot.id with
  | none => .error .keyError
  | some index => .ok index

/-- The dictionaries that `update_schedule` builds. -/
def timesTeaching (assignments : Assignments) : Nat → Nat → Option AS_RoomSlot :=
  schedule.classSections.foldl (fun times sec =>
    enterAll sec (assignments.assignedRoomslots sec) times) fun _ _ => none

/-- The count that `update_schedule` makes. -/
def totalRuns (times : Nat → Nat → Option AS_RoomSlot) : ℚ :=
  ((schedule.teachers.map AS_Teacher.id).map fun teacherId =>
    countRuns (times teacherId) schedule.timeslots).sum

/-- The first entry of `timeslot_pairs`, if there is one. -/
def previousPairs (timeslot : AS_Timeslot) (index : Nat) : List (AS_Timeslot × AS_Timeslot) :=
  if index > 0 then
    match schedule.timeslots[index - 1]? with
    | none => []
    | some prevTimeslot =>
        if contiguous prevTimeslot timeslot then [(prevTimeslot, timeslot)] else []
  else []

/-- The last entry of `timeslot_pairs`, if there is one. -/
def nextPairs (timeslot : AS_Timeslot) (index : Nat) : List (AS_Timeslot × AS_Timeslot) :=
  match schedule.timeslots[index + 1]? with
  | none => []
  | some nextTimeslot =>
      if contiguous timeslot nextTimeslot then [(timeslot, nextTimeslot)] else []

/-- `process_section`.  Its end roomslot, too, is the first one of the list. -/
def processSection (times : Nat → Nat → Option AS_RoomSlot) (sec : AS_ClassSection)
    (roomslots : List AS_RoomSlot) : Raises ℚ := do
  let startRoomslot ← first roomslots
  let startTimeslot := startRoomslot.timeslot
  let startTimeslotIdx ← timeslotIndex schedule startTimeslot
  let endRoomslot ← first roomslots
  let endTimeslot := endRoomslot.timeslot
  let endTimeslotIdx ← timeslotIndex schedule endTimeslot
  let timeslotPairs := previousPairs schedule startTimeslot startTimeslotIdx ++
    nextPairs schedule endTimeslot endTimeslotIdx
  return (sec.teachers.map fun teacher =>
    (timeslotPairs.countP fun pair => changesRoom (times teacher.id) pair.1 pair.2 : ℚ)).sum

def updateSchedule (assignments : Assignments) : Raises State :=
  let times := timesTeaching schedule assignments
  .ok ⟨times, totalRuns schedule times⟩

def updateScheduleSection (_ : Assignments) (sec : AS_ClassSection)
    (startRoomslot : AS_RoomSlot) (state : State) : Raises State := do
  let roomslots := getRoomslotsByDuration startRoomslot sec.duration
  let times := enterAll sec roomslots state.timesTeacherIsTeaching
  let runningCount ← processSection schedule times sec roomslots
  return ⟨times, state.runningCount + runningCount⟩

def updateUnscheduleSection (assignments : Assignments) (sec : AS_ClassSection)
    (state : State) : Raises State := do
  let roomslots := assignments.assignedRoomslots sec
  let runningCount ← processSection schedule state.timesTeacherIsTeaching sec roomslots
  let times ← deleteAll roomslots (sec.teachers.map AS_Teacher.id)
    state.timesTeacherIsTeaching
  return ⟨times, state.runningCount - runningCount⟩

end TeachersWhoLikeRunningScorer

/-- Minimizes teachers teaching back-to-back classes in different locations. -/
def TeachersWhoLikeRunningScorer (schedule : AS_Schedule) : Scorer schedule where
  State := TeachersWhoLikeRunningScorer.State
  scaling := 1
  updateSchedule := TeachersWhoLikeRunningScorer.updateSchedule schedule
  scoreSchedule state := do
    let running ← div state.runningCount schedule.classSections.length
    return 1 - running
  updateScheduleSection := TeachersWhoLikeRunningScorer.updateScheduleSection schedule
  updateUnscheduleSection := TeachersWhoLikeRunningScorer.updateUnscheduleSection schedule
  updateMoveSection := BaseScorer.updateMoveSection
    (TeachersWhoLikeRunningScorer.updateScheduleSection schedule)
    (TeachersWhoLikeRunningScorer.updateUnscheduleSection schedule)
  updateSwapSections := BaseScorer.updateSwapSections
    (TeachersWhoLikeRunningScorer.updateScheduleSection schedule)
    (TeachersWhoLikeRunningScorer.updateUnscheduleSection schedule)

namespace TeachersWhoLikeRunningScorer

/-! ## Entering and deleting roomslots -/

section Rows

variable {roomslots : List AS_RoomSlot} {roomslot : AS_RoomSlot} {timeslotId : Nat}
  {row : Nat → Option AS_RoomSlot}

theorem enter_cons : enter (roomslot :: roomslots) row =
    enter roomslots (Function.update row roomslot.timeslot.id (some roomslot)) := rfl

theorem enter_of_notMem
    (unlisted : timeslotId ∉ roomslots.map fun roomslot => roomslot.timeslot.id) :
    enter roomslots row timeslotId = row timeslotId := by
  induction roomslots generalizing row with
  | nil => rfl
  | cons head roomslots ih =>
      obtain ⟨different, unlistedRest⟩ := not_or.mp (List.mem_cons.not.mp unlisted)
      rw [enter_cons, ih unlistedRest, Function.update_of_ne different]

theorem enter_of_mem (nodup : (roomslots.map fun roomslot => roomslot.timeslot.id).Nodup)
    (listed : roomslot ∈ roomslots) :
    enter roomslots row roomslot.timeslot.id = some roomslot := by
  induction roomslots generalizing row with
  | nil => simp at listed
  | cons head roomslots ih =>
      obtain ⟨fresh, nodupRest⟩ := List.nodup_cons.mp nodup
      rw [enter_cons]
      rcases List.mem_cons.mp listed with same | later
      · subst same
        rw [enter_of_notMem fresh, Function.update_self]
      · exact ih nodupRest later

theorem delete_enter (nodup : (roomslots.map fun roomslot => roomslot.timeslot.id).Nodup)
    (idle : ∀ roomslot ∈ roomslots, row roomslot.timeslot.id = none) :
    delete roomslots (enter roomslots row) = .ok row := by
  induction roomslots generalizing row with
  | nil => rfl
  | cons head roomslots ih =>
      obtain ⟨fresh, nodupRest⟩ := List.nodup_cons.mp nodup
      have entered : enter (head :: roomslots) row head.timeslot.id = some head :=
        enter_of_mem nodup List.mem_cons_self
      have rest : Function.update (enter (head :: roomslots) row) head.timeslot.id none =
          enter roomslots row := by
        funext timeslotId
        by_cases same : timeslotId = head.timeslot.id
        · subst same
          rw [Function.update_self, enter_of_notMem fresh, idle head List.mem_cons_self]
        · rw [Function.update_of_ne same, enter_cons]
          by_cases listed : timeslotId ∈ roomslots.map fun roomslot => roomslot.timeslot.id
          · obtain ⟨roomslot, member, rfl⟩ := List.mem_map.mp listed
            rw [enter_of_mem nodupRest member, enter_of_mem nodupRest member]
          · rw [enter_of_notMem listed, enter_of_notMem listed, Function.update_of_ne same]
      rw [delete, entered]
      simp only [rest]
      exact ih nodupRest fun roomslot member => idle roomslot (List.mem_cons_of_mem _ member)

/-- Deleting from the dictionaries of several teachers what was entered there. -/
theorem deleteAll_updateAll {teacherIds : List Nat} {times : Nat → Nat → Option AS_RoomSlot}
    (nodup : (roomslots.map fun roomslot => roomslot.timeslot.id).Nodup)
    (teachersNodup : teacherIds.Nodup)
    (idle : ∀ teacherId ∈ teacherIds, ∀ roomslot ∈ roomslots,
      times teacherId roomslot.timeslot.id = none) :
    deleteAll roomslots teacherIds (updateAll teacherIds (enter roomslots) times) =
      .ok times := by
  induction teacherIds generalizing times with
  | nil => rfl
  | cons head teacherIds ih =>
      obtain ⟨fresh, nodupRest⟩ := List.nodup_cons.mp teachersNodup
      have deleted := delete_enter nodup (idle head List.mem_cons_self)
      have restored : Function.update (updateAll (head :: teacherIds) (enter roomslots) times)
          head (times head) = updateAll teacherIds (enter roomslots) times := by
        funext teacherId
        by_cases same : teacherId = head
        · subst same
          rw [Function.update_self, updateAll_of_notMem fresh]
        · rw [Function.update_of_ne same]
          by_cases listed : teacherId ∈ teacherIds
          · rw [updateAll_of_mem nodupRest listed,
              updateAll_of_mem teachersNodup (List.mem_cons_of_mem _ listed)]
          · rw [updateAll_of_notMem listed, updateAll_of_notMem (by simp [same, listed])]
      rw [deleteAll, updateAll_of_mem teachersNodup List.mem_cons_self, deleted, ok_bind,
        restored]
      exact ih nodupRest fun teacherId listed => idle teacherId (List.mem_cons_of_mem _ listed)

end Rows

/-! ## Runs in a row of timeslots -/

section Counting

variable {row otherRow : Nat → Option AS_RoomSlot} {timeslots otherTimeslots : List AS_Timeslot}
  {timeslot nextTimeslot : AS_Timeslot}

/-- Whether the teacher runs from the last timeslot of one list to the first one of the
other. -/
def boundary (row : Nat → Option AS_RoomSlot) (timeslots otherTimeslots : List AS_Timeslot) :
    ℚ :=
  match timeslots.getLast?, otherTimeslots.head? with
  | some timeslot, some nextTimeslot => runs row timeslot nextTimeslot
  | _, _ => 0

theorem countRuns_append : countRuns row (timeslots ++ otherTimeslots) =
    countRuns row timeslots + boundary row timeslots otherTimeslots +
      countRuns row otherTimeslots := by
  induction timeslots with
  | nil => simp [countRuns, boundary]
  | cons timeslot timeslots ih =>
      cases timeslots with
      | nil =>
          cases otherTimeslots with
          | nil => simp [countRuns, boundary]
          | cons nextTimeslot rest => simp [countRuns, boundary]
      | cons nextTimeslot rest =>
          have sameBoundary : boundary row (timeslot :: nextTimeslot :: rest) otherTimeslots =
              boundary row (nextTimeslot :: rest) otherTimeslots := by
            rw [boundary, boundary, List.getLast?_cons_cons]
          rw [List.cons_append, List.cons_append, countRuns, ← List.cons_append, ih,
            sameBoundary, countRuns]
          ring

theorem countRuns_congr
    (same : ∀ timeslot ∈ timeslots, row timeslot.id = otherRow timeslot.id) :
    countRuns row timeslots = countRuns otherRow timeslots := by
  induction timeslots with
  | nil => rfl
  | cons timeslot timeslots ih =>
      cases timeslots with
      | nil => rfl
      | cons nextTimeslot rest =>
          have sameRuns : runs row timeslot nextTimeslot =
              runs otherRow timeslot nextTimeslot := by
            rw [runs, runs, changesRoom, changesRoom, same timeslot (by simp),
              same nextTimeslot (by simp)]
          rw [countRuns, countRuns, sameRuns,
            ih fun other member => same other (List.mem_cons_of_mem _ member)]

theorem runs_eq_zero {room : AS_Classroom}
    (stays : ∀ roomslot, row timeslot.id = some roomslot → roomslot.room = room)
    (staysNext : ∀ roomslot, row nextTimeslot.id = some roomslot → roomslot.room = room) :
    runs row timeslot nextTimeslot = 0 := by
  have stillThere : changesRoom row timeslot nextTimeslot = false := by
    rw [changesRoom]
    split
    next roomslot1 roomslot2 found1 found2 =>
      simp [stays roomslot1 found1, staysNext roomslot2 found2]
    next => rfl
  simp [runs, stillThere]

theorem countRuns_eq_zero {room : AS_Classroom}
    (stays : ∀ timeslot ∈ timeslots, ∀ roomslot, row timeslot.id = some roomslot →
      roomslot.room = room) : countRuns row timeslots = 0 := by
  induction timeslots with
  | nil => rfl
  | cons timeslot timeslots ih =>
      cases timeslots with
      | nil => rfl
      | cons nextTimeslot rest =>
          rw [countRuns, runs_eq_zero (stays timeslot (by simp)) (stays nextTimeslot (by simp)),
            ih fun other member => stays other (List.mem_cons_of_mem _ member), add_zero]

theorem runs_of_idle (idle : row timeslot.id = none ∨ row nextTimeslot.id = none) :
    runs row timeslot nextTimeslot = 0 := by
  have notTeaching : changesRoom row timeslot nextTimeslot = false := by
    rw [changesRoom]
    rcases idle with idle | idle
    · rw [idle]
    · rw [idle]
      split <;> simp_all
  simp [runs, notTeaching]

end Counting

/-! ## What is processed and what is missed -/

section Entering

variable {schedule : AS_Schedule} {sec : AS_ClassSection} {first : AS_RoomSlot}
  {rest : List AS_RoomSlot} {timeslot : AS_Timeslot} {before after : List AS_Timeslot}
  {times otherTimes : Nat → Nat → Option AS_RoomSlot}

/-- How many teachers run from the last timeslot of a section of several timeslots.
`process_section` does not look there. -/
def missed (schedule : AS_Schedule) (times : Nat → Nat → Option AS_RoomSlot)
    (sec : AS_ClassSection) : List AS_RoomSlot → ℚ
  | _ :: second :: rest =>
      let lastTimeslot := ((second :: rest).getLast (List.cons_ne_nil _ _)).timeslot
      match schedule.timeslots[schedule.timeslots.idxOf lastTimeslot + 1]? with
      | none => 0
      | some nextTimeslot =>
          (sec.teachers.map fun teacher =>
            runs (times teacher.id) lastTimeslot nextTimeslot).sum
  | _ => 0

theorem timeslots_nodup (schedule : AS_Schedule) : schedule.timeslots.Nodup :=
  schedule.timeslotIds.of_map

theorem timeslotIndex_eq (split : schedule.timeslots = before ++ timeslot :: after) :
    timeslotIndex schedule timeslot = .ok before.length := by
  have ids := schedule.timeslotIds
  rw [split, List.map_append, List.nodup_append] at ids
  have absent : before.findIdx? (fun other => other.id == timeslot.id) = none := by
    rw [List.findIdx?_eq_none_iff]
    intro other member
    have different := ids.2.2 other.id (List.mem_map_of_mem member) timeslot.id (by simp)
    simp [different]
  rw [timeslotIndex, split, List.findIdx?_append, absent]
  simp [List.findIdx?_cons]

theorem getElem?_idxOf_succ (split : schedule.timeslots = before ++ timeslot :: after) :
    schedule.timeslots[schedule.timeslots.idxOf timeslot + 1]? = after.head? := by
  have nodup := timeslots_nodup schedule
  rw [split] at nodup
  have fresh : timeslot ∉ before := by
    intro earlier
    exact (List.nodup_append.mp nodup).2.2 _ earlier _ List.mem_cons_self rfl
  rw [split, List.idxOf_append_of_notMem fresh, List.idxOf_cons_self,
    List.getElem?_append_right (by omega)]
  simp [List.head?_eq_getElem?]

theorem countP_pairs (row : Nat → Option AS_RoomSlot)
    (split : schedule.timeslots = before ++ timeslot :: after) :
    ((previousPairs schedule timeslot before.length ++
        nextPairs schedule timeslot before.length).countP
          (fun pair => changesRoom row pair.1 pair.2) : ℚ) =
      boundary row before [timeslot] + boundary row [timeslot] after := by
  have previous : ((previousPairs schedule timeslot before.length).countP
      (fun pair => changesRoom row pair.1 pair.2) : ℚ) = boundary row before [timeslot] := by
    rw [previousPairs]
    rcases List.eq_nil_or_concat before with empty | ⟨earlier, last, isLast⟩
    · subst empty
      simp [boundary]
    · rw [List.concat_eq_append] at isLast
      subst isLast
      have found : schedule.timeslots[(earlier ++ [last]).length - 1]? = some last := by
        rw [split]
        simp
      have positive : (earlier ++ [last]).length > 0 := by simp
      simp only [found, if_pos positive, boundary, List.getLast?_append, List.getLast?_singleton,
        Option.some_or, List.head?_cons, runs]
      cases contiguous last timeslot <;> cases changed : changesRoom row last timeslot <;>
        simp [changed]
  have following : ((nextPairs schedule timeslot before.length).countP
      (fun pair => changesRoom row pair.1 pair.2) : ℚ) = boundary row [timeslot] after := by
    have found : schedule.timeslots[before.length + 1]? = after.head? := by
      rw [split, List.getElem?_append_right (by omega)]
      simp [List.head?_eq_getElem?]
    rw [nextPairs, found]
    cases after with
    | nil => simp [boundary]
    | cons nextTimeslot after =>
        simp only [List.head?_cons, boundary, List.getLast?_singleton, runs]
        cases contiguous timeslot nextTimeslot <;>
          cases changed : changesRoom row timeslot nextTimeslot <;> simp [changed]
  rw [List.countP_append, Nat.cast_add, previous, following]

theorem processSection_eq (split : schedule.timeslots = before ++ first.timeslot :: after) :
    processSection schedule times sec (first :: rest) =
      .ok (sec.teachers.map fun teacher =>
        boundary (times teacher.id) before [first.timeslot] +
          boundary (times teacher.id) [first.timeslot] after).sum := by
  simp only [processSection, Python.first, ok_bind, timeslotIndex_eq split, pure_eq_ok,
    countP_pairs _ split]

theorem missed_single : missed schedule times sec [first] = 0 := rfl

theorem missed_eq {second : AS_RoomSlot}
    (split : schedule.timeslots = before ++
      ((first :: second :: rest).map AS_RoomSlot.timeslot ++ after)) :
    missed schedule times sec (first :: second :: rest) =
      (sec.teachers.map fun teacher => boundary (times teacher.id)
        ((first :: second :: rest).map AS_RoomSlot.timeslot) after).sum := by
  obtain ⟨earlier, lastRoomslot, isLast⟩ : ∃ earlier lastRoomslot,
      second :: rest = earlier ++ [lastRoomslot] :=
    ⟨_, _, (List.dropLast_append_getLast (List.cons_ne_nil second rest)).symm⟩
  have lastEq : (second :: rest).getLast (List.cons_ne_nil _ _) = lastRoomslot := by
    simp [isLast]
  have splitLast : schedule.timeslots =
      (before ++ (first :: earlier).map AS_RoomSlot.timeslot) ++
        lastRoomslot.timeslot :: after := by
    rw [split, isLast]
    simp
  have lastTimeslot : ((first :: second :: rest).map AS_RoomSlot.timeslot).getLast? =
      some lastRoomslot.timeslot := by
    rw [isLast, List.getLast?_map, ← List.cons_append, List.getLast?_append]
    simp
  simp only [missed, lastEq, getElem?_idxOf_succ splitLast, boundary, lastTimeslot]
  cases after with
  | nil => simp
  | cons nextTimeslot after => simp

/-- Roomslots that may be entered into the dictionaries of a section's teachers: they lie
in one room, at neighbouring timeslots at which the teachers do not teach. -/
structure Enterable (schedule : AS_Schedule) (times : Nat → Nat → Option AS_RoomSlot)
    (sec : AS_ClassSection) (roomslots : List AS_RoomSlot) : Prop where
  listed : sec ∈ schedule.classSections
  sameRoom : ∃ room, ∀ roomslot ∈ roomslots, roomslot.room = room
  neighbours : ∃ before after, schedule.timeslots =
    before ++ (roomslots.map AS_RoomSlot.timeslot ++ after)
  idle : ∀ teacherId ∈ sec.teachers.map AS_Teacher.id, ∀ roomslot ∈ roomslots,
    times teacherId roomslot.timeslot.id = none

namespace Enterable

variable {roomslots : List AS_RoomSlot}

theorem ids_nodup (enterable : Enterable schedule times sec roomslots) :
    (roomslots.map fun roomslot => roomslot.timeslot.id).Nodup := by
  obtain ⟨before, after, split⟩ := enterable.neighbours
  have ids := schedule.timeslotIds
  rw [split, List.map_append, List.map_append, List.nodup_append] at ids
  have nodup := (List.nodup_append.mp ids.2.1).1
  rwa [List.map_map] at nodup

theorem deleteAll_eq (enterable : Enterable schedule times sec roomslots) :
    deleteAll roomslots (sec.teachers.map AS_Teacher.id)
      (enterAll sec roomslots times) = .ok times :=
  deleteAll_updateAll enterable.ids_nodup (AS_Schedule.teacherIds_nodup enterable.listed)
    enterable.idle

theorem enterAll_eq (enterable : Enterable schedule times sec roomslots)
    {teacher : AS_Teacher} (teaches : teacher ∈ sec.teachers) :
    enterAll sec roomslots times teacher.id = enter roomslots (times teacher.id) :=
  updateAll_of_mem (AS_Schedule.teacherIds_nodup enterable.listed) (List.mem_map_of_mem teaches)

theorem countRuns_enter (enterable : Enterable schedule times sec roomslots)
    (split : schedule.timeslots =
      before ++ (roomslots.map AS_RoomSlot.timeslot ++ after))
    {teacherId : Nat} (teaches : teacherId ∈ sec.teachers.map AS_Teacher.id)
    (nonempty : roomslots ≠ []) :
    countRuns (enter roomslots (times teacherId)) schedule.timeslots -
        countRuns (times teacherId) schedule.timeslots =
      boundary (enter roomslots (times teacherId)) before
          (roomslots.map AS_RoomSlot.timeslot) +
        boundary (enter roomslots (times teacherId)) (roomslots.map AS_RoomSlot.timeslot)
          after := by
  obtain ⟨room, sameRoom⟩ := enterable.sameRoom
  have idle := enterable.idle teacherId teaches
  have nodup := enterable.ids_nodup
  have ids := schedule.timeslotIds
  rw [split, List.map_append, List.map_append, List.nodup_append, List.nodup_append] at ids
  obtain ⟨-, ⟨-, -, apartAfter⟩, apartBefore⟩ := ids
  have unlistedBefore : ∀ timeslot ∈ before,
      timeslot.id ∉ roomslots.map fun roomslot => roomslot.timeslot.id := by
    intro timeslot member listed
    obtain ⟨roomslot, inRun, sameId⟩ := List.mem_map.mp listed
    exact apartBefore timeslot.id (List.mem_map_of_mem member) roomslot.timeslot.id
      (List.mem_append_left _ (List.mem_map_of_mem (List.mem_map_of_mem inRun))) sameId.symm
  have unlistedAfter : ∀ timeslot ∈ after,
      timeslot.id ∉ roomslots.map fun roomslot => roomslot.timeslot.id := by
    intro timeslot member listed
    obtain ⟨roomslot, inRun, sameId⟩ := List.mem_map.mp listed
    exact apartAfter roomslot.timeslot.id
      (List.mem_map_of_mem (List.mem_map_of_mem inRun)) timeslot.id
      (List.mem_map_of_mem member) sameId
  have sameBefore : countRuns (enter roomslots (times teacherId)) before =
      countRuns (times teacherId) before :=
    countRuns_congr fun timeslot member => enter_of_notMem (unlistedBefore timeslot member)
  have sameAfter : countRuns (enter roomslots (times teacherId)) after =
      countRuns (times teacherId) after :=
    countRuns_congr fun timeslot member => enter_of_notMem (unlistedAfter timeslot member)
  have inside : countRuns (enter roomslots (times teacherId))
      (roomslots.map AS_RoomSlot.timeslot) = 0 := by
    apply @countRuns_eq_zero _ _ room
    intro timeslot member roomslot found
    obtain ⟨entered, inRun, rfl⟩ := List.mem_map.mp member
    rw [enter_of_mem nodup inRun, Option.some.injEq] at found
    exact found ▸ sameRoom entered inRun
  have insideBefore : countRuns (times teacherId) (roomslots.map AS_RoomSlot.timeslot) = 0 := by
    apply @countRuns_eq_zero _ _ room
    intro timeslot member roomslot found
    obtain ⟨entered, inRun, rfl⟩ := List.mem_map.mp member
    rw [idle entered inRun] at found
    cases found
  have noneFrom : boundary (times teacherId) before (roomslots.map AS_RoomSlot.timeslot) = 0 := by
    rw [boundary]
    split
    next timeslot nextTimeslot _ isHead =>
      obtain ⟨entered, inRun, rfl⟩ := List.mem_map.mp (List.mem_of_head? isHead)
      exact runs_of_idle (Or.inr (idle entered inRun))
    next => rfl
  have noneTo : boundary (times teacherId) (roomslots.map AS_RoomSlot.timeslot) after = 0 := by
    rw [boundary]
    split
    next timeslot nextTimeslot isLast _ =>
      obtain ⟨entered, inRun, rfl⟩ := List.mem_map.mp (List.mem_of_getLast? isLast)
      exact runs_of_idle (Or.inl (idle entered inRun))
    next => rfl
  have passing : ∀ row : Nat → Option AS_RoomSlot,
      boundary row before (roomslots.map AS_RoomSlot.timeslot ++ after) =
        boundary row before (roomslots.map AS_RoomSlot.timeslot) := by
    intro row
    obtain ⟨first, rest, same⟩ := List.exists_cons_of_ne_nil nonempty
    rw [boundary, boundary, same]
    rfl
  rw [split, countRuns_append, countRuns_append, countRuns_append, countRuns_append, passing,
    passing, sameBefore, sameAfter, inside, insideBefore, noneFrom, noneTo]
  ring

theorem totalRuns_enterAll
    (enterable : Enterable schedule times sec (first :: rest)) :
    ∃ processed,
      processSection schedule (enterAll sec (first :: rest) times) sec
          (first :: rest) = .ok processed ∧
        totalRuns schedule (enterAll sec (first :: rest) times) =
          totalRuns schedule times + processed +
            missed schedule (enterAll sec (first :: rest) times) sec
              (first :: rest) := by
  obtain ⟨before, after, split⟩ := enterable.neighbours
  obtain ⟨room, sameRoom⟩ := enterable.sameRoom
  have splitFirst : schedule.timeslots =
      before ++ first.timeslot :: (rest.map AS_RoomSlot.timeslot ++ after) := by
    rw [split]
    rfl
  have registered : ∀ teacherId ∈ sec.teachers.map AS_Teacher.id,
      teacherId ∈ schedule.teachers.map AS_Teacher.id := by
    intro teacherId member
    obtain ⟨teacher, teaches, rfl⟩ := List.mem_map.mp member
    exact List.mem_map_of_mem
      (schedule.teachersRegistered sec enterable.listed teacher teaches)
  have changed : tally (schedule.teachers.map AS_Teacher.id)
      (fun _ row => countRuns row schedule.timeslots)
      (updateAll (sec.teachers.map AS_Teacher.id) (enter (first :: rest)) times) = _ :=
    tally_updateAll _ schedule.teacherIds (AS_Schedule.teacherIds_nodup enterable.listed) registered
  refine ⟨_, processSection_eq splitFirst, ?_⟩
  refine changed.trans ?_
  rw [add_assoc]
  refine congrArg (fun gain => totalRuns schedule times + gain) ?_
  rw [List.map_map]
  have each : ∀ teacher ∈ sec.teachers,
      countRuns (enter (first :: rest) (times teacher.id)) schedule.timeslots -
          countRuns (times teacher.id) schedule.timeslots =
        boundary (enterAll sec (first :: rest) times teacher.id) before
            [first.timeslot] +
          boundary (enterAll sec (first :: rest) times teacher.id)
            ((first :: rest).map AS_RoomSlot.timeslot) after := by
    intro teacher teaches
    rw [enterable.countRuns_enter split (List.mem_map_of_mem teaches) (List.cons_ne_nil _ _),
      enterable.enterAll_eq teaches]
    rfl
  cases rest with
  | nil =>
      rw [missed_single, add_zero]
      exact congrArg List.sum (List.map_congr_left each)
  | cons second rest =>
      have staysInside : ∀ teacher ∈ sec.teachers,
          boundary (enterAll sec (first :: second :: rest) times teacher.id)
            [first.timeslot] ((second :: rest).map AS_RoomSlot.timeslot ++ after) = 0 := by
        intro teacher teaches
        rw [enterable.enterAll_eq teaches]
        change runs _ first.timeslot second.timeslot = 0
        apply @runs_eq_zero _ _ _ room
        · intro roomslot found
          rw [enter_of_mem enterable.ids_nodup List.mem_cons_self, Option.some.injEq] at found
          exact found ▸ sameRoom first List.mem_cons_self
        · intro roomslot found
          have listed : second ∈ first :: second :: rest := by simp
          rw [enter_of_mem enterable.ids_nodup listed, Option.some.injEq] at found
          exact found ▸ sameRoom second listed
      rw [missed_eq split, ← List.sum_map_add]
      apply congrArg List.sum
      apply List.map_congr_left
      intro teacher teaches
      rw [staysInside teacher teaches, add_zero]
      exact each teacher teaches

end Enterable

end Entering

/-! ## The dictionaries of a schedule -/

section Dictionaries

variable {schedule : AS_Schedule} {assignments : Assignments}
  {sec section1 section2 : AS_ClassSection} {roomslots : List AS_RoomSlot}
  {roomslot roomslot1 roomslot2 : AS_RoomSlot} {teacherId timeslotId : Nat}
  {times : Nat → Nat → Option AS_RoomSlot}

/-- The section has its teacher at the roomslot in the timeslot. -/
def Enters (assignments : Assignments) (sec : AS_ClassSection)
    (teacherId timeslotId : Nat) (roomslot : AS_RoomSlot) : Prop :=
  teacherId ∈ sec.teachers.map AS_Teacher.id ∧
    roomslot ∈ assignments.assignedRoomslots sec ∧ roomslot.timeslot.id = timeslotId

theorem enterAll_of_mem (listed : sec ∈ schedule.classSections)
    (nodup : (roomslots.map fun roomslot => roomslot.timeslot.id).Nodup)
    (teaches : teacherId ∈ sec.teachers.map AS_Teacher.id)
    (member : roomslot ∈ roomslots) :
    enterAll sec roomslots times teacherId roomslot.timeslot.id = some roomslot := by
  rw [enterAll, updateAll_of_mem (AS_Schedule.teacherIds_nodup listed) teaches,
    enter_of_mem nodup member]

theorem enterAll_of_notMem (listed : sec ∈ schedule.classSections)
    (outside : ¬ (teacherId ∈ sec.teachers.map AS_Teacher.id ∧
      timeslotId ∈ roomslots.map fun roomslot => roomslot.timeslot.id)) :
    enterAll sec roomslots times teacherId timeslotId =
      times teacherId timeslotId := by
  by_cases teaches : teacherId ∈ sec.teachers.map AS_Teacher.id
  · have unlisted := fun member => outside ⟨teaches, member⟩
    rw [enterAll, updateAll_of_mem (AS_Schedule.teacherIds_nodup listed) teaches,
      enter_of_notMem unlisted]
  · rw [enterAll, updateAll_of_notMem teaches]

theorem roomslot_unique (placed : WellPlaced schedule assignments)
    (listed : sec ∈ schedule.classSections)
    (assigned1 : roomslot1 ∈ assignments.assignedRoomslots sec)
    (assigned2 : roomslot2 ∈ assignments.assignedRoomslots sec)
    (sameId : roomslot1.timeslot.id = roomslot2.timeslot.id) : roomslot1 = roomslot2 := by
  have sameTimeslot : roomslot1.timeslot = roomslot2.timeslot :=
    List.inj_on_of_nodup_map schedule.timeslotIds
      (placed.timeslot_of_assigned listed assigned1)
      (placed.timeslot_of_assigned listed assigned2) sameId
  obtain ⟨room, -, isRun⟩ := placed.runs sec listed (List.ne_nil_of_mem assigned1)
  have room1 := AS_Classroom.room_eq_of_mem (isRun.subset assigned1)
  have room2 := AS_Classroom.room_eq_of_mem (isRun.subset assigned2)
  cases roomslot1
  cases roomslot2
  simp_all

theorem assignedIds_nodup (placed : WellPlaced schedule assignments)
    (listed : sec ∈ schedule.classSections) :
    ((assignments.assignedRoomslots sec).map
      fun roomslot => roomslot.timeslot.id).Nodup := by
  have nodup : (assignments.assignedRoomslots sec).Nodup := by
    by_cases scheduled : assignments.assignedRoomslots sec = []
    · rw [scheduled]
      exact List.nodup_nil
    · obtain ⟨room, -, isRun⟩ := placed.runs sec listed scheduled
      exact room.availability_nodup.sublist isRun.sublist
  exact nodup.map_on fun left leftAssigned right rightAssigned sameId =>
    roomslot_unique placed listed leftAssigned rightAssigned sameId

theorem enters_unique (placed : WellPlaced schedule assignments)
    (apart : TeachersApart schedule assignments)
    (listed1 : section1 ∈ schedule.classSections)
    (listed2 : section2 ∈ schedule.classSections)
    (enters1 : Enters assignments section1 teacherId timeslotId roomslot1)
    (enters2 : Enters assignments section2 teacherId timeslotId roomslot2) :
    section1 = section2 ∧ roomslot1 = roomslot2 := by
  obtain ⟨member1, assigned1, timeslotId1⟩ := enters1
  obtain ⟨member2, assigned2, timeslotId2⟩ := enters2
  have same : section1 = section2 := by
    by_contra different
    obtain ⟨teacher1, teaches1, teacherId1⟩ := List.mem_map.mp member1
    obtain ⟨teacher2, teaches2, teacherId2⟩ := List.mem_map.mp member2
    have sameTeacher := AS_Schedule.teacher_eq_of_id listed1 listed2 teaches1 teaches2
      (teacherId1.trans teacherId2.symm)
    have sameTimeslot : roomslot1.timeslot = roomslot2.timeslot :=
      List.inj_on_of_nodup_map schedule.timeslotIds
        (placed.timeslot_of_assigned listed1 assigned1)
        (placed.timeslot_of_assigned listed2 assigned2) (timeslotId1.trans timeslotId2.symm)
    apply apart section1 listed1 section2 listed2 different teacher1 teaches1
      (sameTeacher ▸ teaches2) roomslot1 assigned1 roomslot2 assigned2
    rw [AS_RoomSlot.times, AS_RoomSlot.times, sameTimeslot]
  subst same
  exact ⟨rfl, roomslot_unique placed listed1 assigned1 assigned2
    (timeslotId1.trans timeslotId2.symm)⟩

theorem timesTeaching_eq_some (placed : WellPlaced schedule assignments)
    (apart : TeachersApart schedule assignments) :
    timesTeaching schedule assignments teacherId timeslotId = some roomslot ↔
      ∃ sec ∈ schedule.classSections,
        Enters assignments sec teacherId timeslotId roomslot := by
  have entered : ∀ classSections : List AS_ClassSection,
      (∀ other ∈ classSections, other ∈ schedule.classSections) →
      (classSections.foldl (fun times sec => enterAll sec
          (assignments.assignedRoomslots sec) times) (fun _ _ => none) teacherId
            timeslotId = some roomslot ↔
        ∃ sec ∈ classSections,
          Enters assignments sec teacherId timeslotId roomslot) := by
    intro classSections listed
    induction classSections using List.reverseRecOn with
    | nil => simp
    | append_singleton classSections last ih =>
        have lastListed := listed last (by simp)
        have earlier := ih fun other member => listed other (List.mem_append_left _ member)
        rw [List.foldl_append, List.foldl_cons, List.foldl_nil]
        by_cases inside : teacherId ∈ last.teachers.map AS_Teacher.id ∧ timeslotId ∈
            (assignments.assignedRoomslots last).map fun roomslot => roomslot.timeslot.id
        · obtain ⟨teaches, member⟩ := inside
          obtain ⟨lastRoomslot, assigned, rfl⟩ := List.mem_map.mp member
          rw [enterAll_of_mem lastListed (assignedIds_nodup placed lastListed) teaches assigned,
            Option.some.injEq]
          constructor
          · intro same
            subst same
            exact ⟨last, by simp, teaches, assigned, rfl⟩
          · rintro ⟨other, member, enters⟩
            exact (enters_unique placed apart lastListed (listed other member)
              ⟨teaches, assigned, rfl⟩ enters).2
        · rw [enterAll_of_notMem lastListed inside, earlier]
          constructor
          · rintro ⟨other, member, enters⟩
            exact ⟨other, List.mem_append_left _ member, enters⟩
          · rintro ⟨other, member, enters⟩
            rcases List.mem_append.mp member with early | isLast
            · exact ⟨other, early, enters⟩
            · have same := List.mem_singleton.mp isLast
              subst same
              obtain ⟨teaches, assigned, sameId⟩ := enters
              exact absurd ⟨teaches, List.mem_map.mpr ⟨roomslot, assigned, sameId⟩⟩ inside
  exact entered schedule.classSections fun other member => member

/-- Giving a section roomslots enters them into the dictionaries of its teachers, if the
teachers are still apart then. -/
theorem timesTeaching_acquire
    (placed : WellPlaced schedule (assignments.acquire sec roomslots))
    (apart : TeachersApart schedule (assignments.acquire sec roomslots))
    (placedBefore : WellPlaced schedule assignments)
    (apartBefore : TeachersApart schedule assignments)
    (listed : sec ∈ schedule.classSections)
    (unscheduled : assignments.assignedRoomslots sec = []) :
    enterAll sec roomslots (timesTeaching schedule assignments) =
      timesTeaching schedule (assignments.acquire sec roomslots) := by
  have others : ∀ other, other ≠ sec → ∀ teacherId timeslotId roomslot,
      (Enters (assignments.acquire sec roomslots) other teacherId timeslotId
          roomslot ↔ Enters assignments other teacherId timeslotId roomslot) := by
    intro other different teacherId timeslotId roomslot
    rw [Enters, Assignments.acquire_of_ne different, ← Enters]
  have nodup := assignedIds_nodup placed listed
  rw [Assignments.acquire_self] at nodup
  funext teacherId timeslotId
  apply Option.ext
  intro roomslot
  rw [timesTeaching_eq_some placed apart]
  by_cases inside : teacherId ∈ sec.teachers.map AS_Teacher.id ∧
      timeslotId ∈ roomslots.map fun roomslot => roomslot.timeslot.id
  · obtain ⟨teaches, member⟩ := inside
    obtain ⟨entered, inRun, rfl⟩ := List.mem_map.mp member
    have enters : Enters (assignments.acquire sec roomslots) sec teacherId
        entered.timeslot.id entered := by
      refine ⟨teaches, ?_, rfl⟩
      rwa [Assignments.acquire_self]
    rw [enterAll_of_mem listed nodup teaches inRun, Option.some.injEq]
    constructor
    · intro same
      subst same
      exact ⟨sec, listed, enters⟩
    · rintro ⟨other, otherListed, otherEnters⟩
      exact (enters_unique placed apart listed otherListed enters otherEnters).2
  · rw [enterAll_of_notMem listed inside, timesTeaching_eq_some placedBefore apartBefore]
    constructor
    · rintro ⟨other, otherListed, enters⟩
      have different : other ≠ sec := by
        intro same
        subst same
        simp [Enters, unscheduled] at enters
      exact ⟨other, otherListed, (others other different _ _ _).mpr enters⟩
    · rintro ⟨other, otherListed, enters⟩
      have different : other ≠ sec := by
        intro same
        subst same
        obtain ⟨teaches, assigned, sameId⟩ := enters
        rw [Assignments.acquire_self] at assigned
        exact inside ⟨teaches, List.mem_map.mpr ⟨roomslot, assigned, sameId⟩⟩
      exact ⟨other, otherListed, (others other different _ _ _).mp enters⟩

end Dictionaries

end TeachersWhoLikeRunningScorer

end EspWebsite.Autoscheduler
