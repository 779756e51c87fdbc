import EspWebsite.Autoscheduler.Conversion
import EspWebsite.Autoscheduler.Validity

/-!
# When teachers are available

Loading removes the times at which a teacher teaches any section of the program, and adds back those
of the sections that were converted.
-/

namespace EspWebsite.Autoscheduler.DbInterface

open Calendar Python Resources

/-- Whether some teacher with this key is available at these times. -/
def AvailableAt (teachers : List LoadedTeacher) (key : Option ℕ) (times : DateTime × DateTime) :
    Prop :=
  ∃ teacher ∈ teachers, teacher.id = key ∧
    ∃ timeslot ∈ teacher.availability, timeslot.times = times

namespace Loaded

variable (loaded : Loaded)

/-- A section of the teacher that was loaded is scheduled at the timeslot. -/
def ScheduledAt (teacher : ℕ) (timeslot : AS_Timeslot) : Prop :=
  ∃ sec ∈ loaded.classSections, some teacher ∈ sec.teachers ∧
    ∃ roomslot ∈ sec.assignedRoomslots, roomslot.timeslot = timeslot

def DisjointTimeslots : Prop :=
  loaded.timeslots.Pairwise fun timeslot other =>
    ¬ (timeslot.startTime < other.endTime ∧ other.startTime < timeslot.endTime)

/-- A schedule has the sections and the teachers that were loaded. -/
structure IsIn (schedule : AS_Schedule) : Prop where
  sections : schedule.classSections.map AS_ClassSection.id =
    loaded.classSections.map LoadedSection.id
  teachers : ∀ classSection ∈ schedule.classSections, ∀ sec ∈ loaded.classSections,
    classSection.id = sec.id →
      classSection.teachers.map (fun teacher => some teacher.id) = sec.teachers
  availability : ∀ asTeacher ∈ schedule.teachers, ∀ teacher ∈ loaded.teachers,
    teacher.id = some asTeacher.id → asTeacher.availability = teacher.availability

end Loaded

/-- Two events are the same or overlap. -/
def AtOnce (event other : Event) : Prop :=
  event.id = other.id ∨ (event.startTime < other.endTime ∧ other.startTime < event.endTime)

namespace Rows

variable (rows : Rows)

/-- The teacher declared to be available at the timeslot, if that can be declared. -/
def Declared (teacher : ℕ) (timeslot : AS_Timeslot) : Prop :=
  rows.hasAvailabilityModule = true →
    ∃ row ∈ rows.userAvailabilities, row.1 = teacher ∧ row.2.id = timeslot.id

/-- No section of the teacher meets at the timeslot. -/
def Free (teacher : ℕ) (timeslot : AS_Timeslot) : Prop :=
  ∀ sec ∈ rows.classSections, teacher ∈ sec.parentClass.teachers →
    ∀ time ∈ sec.meetingTimes, time.id ≠ timeslot.id

def NoTwoAtOnce : Prop :=
  ∀ sec ∈ rows.classSections, ∀ other ∈ rows.classSections, sec.id ≠ other.id →
    ∀ teacher, teacher ∈ sec.parentClass.teachers → teacher ∈ other.parentClass.teachers →
      ∀ time ∈ sec.meetingTimes, ∀ otherTime ∈ other.meetingTimes, ¬ AtOnce time otherTime

/-- A section meets at a timeslot: in the schedule if it is in it, and else in the database. -/
def MeetsAt (schedule : AS_Schedule) (assignments : Assignments) (sec : ClassSection)
    (timeslot : AS_Timeslot) : Prop :=
  (∃ classSection ∈ schedule.classSections, classSection.id = sec.id ∧
    ∃ roomslot ∈ assignments.assignedRoomslots classSection, roomslot.timeslot = timeslot) ∨
  (sec.id ∉ schedule.classSections.map AS_ClassSection.id ∧
    ∃ time ∈ sec.meetingTimes, time.id = timeslot.id)

/-- A teacher is available at a timeslot exactly if the teacher declared it and meets no section
then, or if a section of the teacher that was loaded is scheduled then. -/
def Restores (loaded : Loaded) : Prop :=
  ∀ teacher, some teacher ∈ loaded.teachers.map LoadedTeacher.id →
    ∀ timeslot ∈ loaded.timeslots,
      (AvailableAt loaded.teachers (some teacher) timeslot.times ↔
        (rows.Declared teacher timeslot ∧ rows.Free teacher timeslot) ∨
          loaded.ScheduledAt teacher timeslot)

/-- If no teacher meets two sections at once in the database, no schedule that satisfies the
constraints on teachers makes a teacher meet two sections at a timeslot. -/
def StaysSafe (loaded : Loaded) : Prop :=
  rows.NoTwoAtOnce → ∀ schedule assignments, loaded.IsIn schedule →
    TeacherAvailabilityConstraint.checkSchedule schedule assignments = none →
    TeacherConcurrencyConstraint.checkSchedule schedule assignments = none →
    ∀ sec ∈ rows.classSections, ∀ other ∈ rows.classSections, sec.id ≠ other.id →
      ∀ teacher, teacher ∈ sec.parentClass.teachers → teacher ∈ other.parentClass.teachers →
        ∀ timeslot ∈ loaded.timeslots, MeetsAt schedule assignments sec timeslot →
          ¬ MeetsAt schedule assignments other timeslot

/-- What is declared or taught elsewhere does not matter: a teacher who declared to be available at
another event with the times of a timeslot, and one who meets a section of another program at a
timeslot, are available then for another reason, or are not available. -/
structure NothingElsewhere (loaded : Loaded) : Prop where
  declared : rows.hasAvailabilityModule = true →
    ∀ row ∈ rows.userAvailabilities, some row.1 ∈ loaded.teachers.map LoadedTeacher.id →
      ∀ timeslot ∈ loaded.timeslots, row.2.program = some rows.program →
        timesOf row.2 = timeslot.times → row.2.id ≠ timeslot.id →
        row.2.id ∉ rows.teachingTimes (some row.1) →
          (rows.Declared row.1 timeslot ∧ rows.Free row.1 timeslot) ∨
            loaded.ScheduledAt row.1 timeslot
  taught : ∀ teacher, some teacher ∈ loaded.teachers.map LoadedTeacher.id →
    ∀ timeslot ∈ loaded.timeslots, rows.Declared teacher timeslot →
      timeslot.id ∉ rows.teachingTimes (some teacher) →
        rows.Free teacher timeslot ∨ loaded.ScheduledAt teacher timeslot

end Rows

/-! ## Availability is added -/

section Availability

variable {teachers : List LoadedTeacher} {key : Option ℕ} {times : DateTime × DateTime}

theorem mem_insortLeft {timeslots : List AS_Timeslot} {timeslot other : AS_Timeslot} :
    other ∈ insortLeft timeslots timeslot ↔ other ∈ timeslots ∨ other = timeslot := by
  rw [insortLeft, List.mem_append, List.mem_cons, or_left_comm, ← List.mem_append,
    List.take_append_drop, or_comm]

def LoadedTeacher.IsAvailable (teacher : LoadedTeacher) (times : DateTime × DateTime) : Prop :=
  ∃ timeslot ∈ teacher.availability, timeslot.times = times

theorem isAvailable_addAvailability {teacher : LoadedTeacher} {timeslot : AS_Timeslot} :
    (teacher.addAvailability timeslot).IsAvailable times ↔
      teacher.IsAvailable times ∨ timeslot.times = times := by
  rw [LoadedTeacher.addAvailability]
  split
  next known =>
    rw [List.any_eq_true] at known
    rcases known with ⟨other, isOther, same⟩
    refine (or_iff_left_of_imp fun isTimes => ?_).symm
    exact ⟨other, isOther, (of_decide_eq_true same).trans isTimes⟩
  next =>
    rw [LoadedTeacher.IsAvailable, LoadedTeacher.IsAvailable]
    simp only [mem_insortLeft, or_and_right, exists_or, exists_eq_left]

theorem id_addAvailability {teacher : LoadedTeacher} {timeslot : AS_Timeslot} :
    (teacher.addAvailability timeslot).id = teacher.id := by
  rw [LoadedTeacher.addAvailability]
  split
  next => rfl
  next => rfl

theorem id_foldl_addAvailability {roomslots : List AS_RoomSlot} {teacher : LoadedTeacher} :
    (roomslots.foldl (fun teacher roomslot => teacher.addAvailability roomslot.timeslot)
      teacher).id = teacher.id := by
  induction roomslots generalizing teacher with
  | nil => rfl
  | cons roomslot rest ih => rw [List.foldl_cons, ih, id_addAvailability]

theorem isAvailable_foldl_addAvailability {roomslots : List AS_RoomSlot}
    {teacher : LoadedTeacher} :
    (roomslots.foldl (fun teacher roomslot => teacher.addAvailability roomslot.timeslot)
        teacher).IsAvailable times ↔
      teacher.IsAvailable times ∨ ∃ roomslot ∈ roomslots, roomslot.timeslot.times = times := by
  induction roomslots generalizing teacher with
  | nil => simp
  | cons roomslot rest ih =>
      rw [List.foldl_cons, ih, isAvailable_addAvailability, or_assoc, List.exists_mem_cons_iff]

theorem ids_teach {sec : LoadedSection} :
    (Rows.teach sec teachers).map LoadedTeacher.id = teachers.map LoadedTeacher.id := by
  rw [Rows.teach, List.map_map]
  refine List.map_congr_left fun teacher _ => ?_
  rw [Function.comp_apply]
  split
  next => exact id_foldl_addAvailability
  next => rfl

theorem availableAt_iff : AvailableAt teachers key times ↔
    ∃ teacher ∈ teachers, teacher.id = key ∧ teacher.IsAvailable times := Iff.rfl

theorem availableAt_teach {sec : LoadedSection} (isKey : key ∈ teachers.map LoadedTeacher.id) :
    AvailableAt (Rows.teach sec teachers) key times ↔
      AvailableAt teachers key times ∨
        (key ∈ sec.teachers ∧ ∃ roomslot ∈ sec.assignedRoomslots,
          roomslot.timeslot.times = times) := by
  rw [availableAt_iff, availableAt_iff, Rows.teach]
  simp only [List.mem_map, exists_exists_and_eq_and]
  constructor
  · intro some
    rcases some with ⟨teacher, isTeacher, named, available⟩
    split at named
    next teaches =>
      rw [if_pos teaches, isAvailable_foldl_addAvailability] at available
      rw [id_foldl_addAvailability] at named
      cases available with
      | inl before => exact .inl ⟨teacher, isTeacher, named, before⟩
      | inr added => exact .inr ⟨named ▸ teaches, added⟩
    next other =>
      rw [if_neg other] at available
      exact .inl ⟨teacher, isTeacher, named, available⟩
  · intro either
    cases either with
    | inl before =>
        rcases before with ⟨teacher, isTeacher, named, available⟩
        refine ⟨teacher, isTeacher, ?_⟩
        split
        next =>
          rw [id_foldl_addAvailability, isAvailable_foldl_addAvailability]
          exact ⟨named, .inl available⟩
        next => exact ⟨named, available⟩
    | inr added =>
        rcases List.mem_map.mp isKey with ⟨teacher, isTeacher, named⟩
        refine ⟨teacher, isTeacher, ?_⟩
        rw [if_pos (named ▸ added.1), id_foldl_addAvailability, isAvailable_foldl_addAvailability]
        exact ⟨named, .inr added.2⟩

theorem batchConvertSections_eq_ok {rows : Rows} {filters : Filters} {rooms : List AS_Classroom}
    {sections : List ClassSection} {result : List LoadedSection × List LoadedTeacher}
    (returns : rows.batchConvertSections filters rooms sections teachers = .ok result) :
    result.2.map LoadedTeacher.id = teachers.map LoadedTeacher.id ∧
      (∀ sec ∈ result.1, ∃ row ∈ sections,
        rows.convertClassectionObj filters rooms row = .ok (some sec)) ∧
      ∀ key ∈ teachers.map LoadedTeacher.id, ∀ times,
        (AvailableAt result.2 key times ↔ AvailableAt teachers key times ∨
          ∃ sec ∈ result.1, key ∈ sec.teachers ∧
            ∃ roomslot ∈ sec.assignedRoomslots, roomslot.timeslot.times = times) := by
  induction sections generalizing teachers result with
  | nil =>
      rw [Rows.batchConvertSections] at returns
      rw [← Except.ok.inj returns]
      simp
  | cons row rest ih =>
      rw [Rows.batchConvertSections] at returns
      rcases bind_eq_ok.mp returns with ⟨converted, isConverted, returns⟩
      cases converted with
      | none =>
          rcases ih returns with ⟨ids, sections, available⟩
          refine ⟨ids, fun sec isSection => ?_, available⟩
          rcases sections sec isSection with ⟨other, isOther, isSec⟩
          exact ⟨other, List.mem_cons_of_mem _ isOther, isSec⟩
      | some sec =>
          rcases bind_eq_ok.mp returns with ⟨others, isOthers, returns⟩
          rcases ih isOthers with ⟨ids, sections, available⟩
          rw [ids_teach] at ids available
          rw [← Except.ok.inj returns]
          refine ⟨ids, List.forall_mem_cons.mpr ⟨⟨row, List.mem_cons_self, isConverted⟩,
            fun sec isSection => ?_⟩, fun key isKey times => ?_⟩
          · rcases sections sec isSection with ⟨other, isOther, isSec⟩
            exact ⟨other, List.mem_cons_of_mem _ isOther, isSec⟩
          · rw [available key isKey, availableAt_teach isKey, or_assoc, List.exists_mem_cons_iff]

end Availability

/-! ## Availability that was declared -/

namespace Rows

variable {rows : Rows} {filters : Filters} {loaded : Loaded} {timeslots : List AS_Timeslot}
  {timeslot : AS_Timeslot} {teacher : ℕ} {key : Option ℕ}

theorem mem_availabilities_of_module (hasModule : rows.hasAvailabilityModule = true) :
    timeslot ∈ rows.availabilities timeslots key ↔
      ∃ row ∈ rows.userAvailabilities, row.2.program = some rows.program ∧ some row.1 = key ∧
        row.2.id ∉ rows.teachingTimes key ∧
        timeslotDict timeslots (timesOf row.2) = some timeslot := by
  rw [availabilities, if_pos hasModule, List.mem_filterMap]
  simp only [List.mem_insertionSort, List.mem_filter, decide_eq_true_eq]
  constructor
  · intro some
    rcases some with ⟨row, isRow, found⟩
    split at found
    next both => exact ⟨row, isRow.1, isRow.2, both.1, both.2, found⟩
    next => cases found
  · intro some
    rcases some with ⟨row, isRow, program, whose, free, found⟩
    exact ⟨row, ⟨isRow, program⟩, by rw [if_pos ⟨whose, free⟩, found]⟩

theorem mem_availabilities_of_not_module (noModule : rows.hasAvailabilityModule ≠ true) :
    timeslot ∈ rows.availabilities timeslots key ↔
      timeslot ∈ timeslots ∧ timeslot.id ∉ rows.teachingTimes key := by
  rw [availabilities, if_neg noModule, List.mem_filter, decide_eq_true_eq]

theorem availableAt_initialTeachers {times : DateTime × DateTime}
    (isKey : key ∈ (rows.initialTeachers filters timeslots).map LoadedTeacher.id) :
    AvailableAt (rows.initialTeachers filters timeslots) key times ↔
      ∃ timeslot ∈ rows.availabilities timeslots key, timeslot.times = times := by
  rw [initialTeachers, List.map_map] at isKey
  rcases List.mem_map.mp isKey with ⟨id, isId, named⟩
  have same : id = key := named
  rw [AvailableAt, initialTeachers]
  simp only [List.mem_map, exists_exists_and_eq_and]
  constructor
  · intro some
    rcases some with ⟨other, _, sameKey, available⟩
    rw [sameKey] at available
    exact available
  · intro available
    exact ⟨key, same ▸ isId, rfl, available⟩

theorem mem_teacherKeys {cls : ClassSubject} :
    some teacher ∈ teacherKeys cls ↔ teacher ∈ cls.teachers := by
  rw [teacherKeys]
  split
  next empty => simp [empty]
  next => simp

theorem mem_teachingTimes {id : ℕ} : id ∈ rows.teachingTimes (some teacher) ↔
    ∃ sec ∈ rows.classSections, sec.parentClass.parentProgram = rows.program ∧
      teacher ∈ sec.parentClass.teachers ∧ ∃ time ∈ sec.meetingTimes, time.id = id := by
  rw [teachingTimes, List.mem_flatMap]
  simp only [List.mem_filter, Bool.and_eq_true, decide_eq_true_eq, List.mem_map, mem_teacherKeys,
    and_assoc]

/-! ## After loading -/

theorem load_eq_ok (returns : loadSectionsAndTeachersAndClassrooms rows filters = .ok loaded) :
    rows.timeslots = .ok loaded.timeslots ∧
      rows.convertClassroomResources filters loaded.timeslots = .ok loaded.classrooms ∧
      rows.batchConvertSections filters loaded.classrooms (rows.sections filters)
        (rows.initialTeachers filters loaded.timeslots) =
          .ok (loaded.classSections, loaded.teachers) := by
  rcases bind_eq_ok.mp returns with ⟨timeslots, isTimeslots, returns⟩
  rcases bind_eq_ok.mp returns with ⟨rooms, isRooms, returns⟩
  rcases bind_eq_ok.mp returns with ⟨converted, isConverted, returns⟩
  rw [← Except.ok.inj returns]
  exact ⟨isTimeslots, isRooms, isConverted⟩

theorem mem_timeslots_of_roomslotOf {rooms : List AS_Classroom} {classroom : Resource}
    {roomslot : AS_RoomSlot}
    (converted : rows.convertClassroomResources filters timeslots = .ok rooms)
    (found : roomslotOf rooms classroom = .ok roomslot) : roomslot.timeslot ∈ timeslots := by
  rcases bind_eq_ok.mp converted with ⟨infos, loop, each⟩
  rcases roomslotOf_eq_ok found with ⟨asRoom, isRoom, _, _, isTimeslot, _⟩
  rcases exists_of_forall₂ (mapM_eq_ok.mp each) isRoom with ⟨info, isInfo, isAsRoom⟩
  have isSlot := ((asClassroom_eq_ok isAsRoom).2 roomslot.timeslot).mp isTimeslot
  rcases ((classroomInfos_eq_ok loop).2.2 info.name roomslot.timeslot).mp
    ⟨info, isInfo, rfl, isSlot⟩ with impossible | ⟨_, _, _, _, isDict⟩
  · rcases impossible with ⟨other, isOther, _⟩
    cases isOther
  · exact (timeslotDict_eq_some isDict).1

structure IsLoadedFrom (rows : Rows) (filters : Filters) (timeslots : List AS_Timeslot)
    (sec : LoadedSection) (row : ClassSection) : Prop where
  isSection : row ∈ rows.sections filters
  sameId : sec.id = row.id
  sameTeachers : sec.teachers = teacherKeys row.parentClass
  inTimeslots : ∀ roomslot ∈ sec.assignedRoomslots, roomslot.timeslot ∈ timeslots
  times : ∀ roomslot ∈ sec.assignedRoomslots,
    ∃ time ∈ row.meetingTimes, timesOf time = roomslot.timeslot.times

theorem exists_isLoadedFrom
    (returns : loadSectionsAndTeachersAndClassrooms rows filters = .ok loaded)
    {sec : LoadedSection} (isSection : sec ∈ loaded.classSections) :
    ∃ row, IsLoadedFrom rows filters loaded.timeslots sec row := by
  rcases load_eq_ok returns with ⟨_, rooms, converted⟩
  rcases (batchConvertSections_eq_ok converted).2.1 sec isSection with
    ⟨row, isRow, isSec⟩
  rcases convertClassectionObj_eq_some.mp isSec with ⟨_, roomslots, found, duration, _, rfl, hash⟩
  refine ⟨row, isRow, rfl, rfl, fun roomslot isRoomslot => ?_, fun roomslot isRoomslot => ?_⟩
  · rcases exists_of_forall₂ (mapM_eq_ok.mp found)
      (perm_assignedRoomslots.mem_iff.mp isRoomslot) with ⟨classroom, _, isFound⟩
    exact mem_timeslots_of_roomslotOf rooms isFound
  · have times := Multiset.coe_eq_coe.mp (congrArg Prod.fst hash)
    have isTime := times.mem_iff.mpr (List.mem_map.mpr ⟨roomslot, isRoomslot, rfl⟩)
    rcases List.mem_map.mp isTime with ⟨time, isMeeting, same⟩
    exact ⟨time, isMeeting, same⟩

theorem timeslot_eq (disjoint : loaded.DisjointTimeslots) {other : AS_Timeslot}
    (isTimeslot : timeslot ∈ loaded.timeslots) (isOther : other ∈ loaded.timeslots)
    (times : timeslot.times = other.times) : timeslot = other := by
  by_contra different
  have _ : Std.Symm fun timeslot other : AS_Timeslot =>
      ¬ (timeslot.startTime < other.endTime ∧ other.startTime < timeslot.endTime) :=
    ⟨fun _ _ apart overlap => apart overlap.symm⟩
  have apart := disjoint.forall isTimeslot isOther different
  have start : timeslot.startTime = other.startTime := congrArg Prod.fst times
  have finish : timeslot.endTime = other.endTime := congrArg Prod.snd times
  have long := lt_of_lt_of_le deltaTime_pos other.longEnough
  rw [hoursDifference, DateTime.hoursBetween_pos_iff] at long
  rw [start, finish] at apart
  exact apart ⟨long, long⟩

theorem timeslotDict_of_mem (disjoint : loaded.DisjointTimeslots)
    (isTimeslot : timeslot ∈ loaded.timeslots) :
    timeslotDict loaded.timeslots timeslot.times = some timeslot := by
  cases found : timeslotDict loaded.timeslots timeslot.times with
  | none =>
      have missing := List.find?_eq_none.mp found timeslot (List.mem_reverse.mpr isTimeslot)
      exact absurd (decide_eq_true rfl) missing
  | some other =>
      have isOther := timeslotDict_eq_some found
      rw [timeslot_eq disjoint isOther.1 isTimeslot isOther.2]

theorem availableAt_iff (returns : loadSectionsAndTeachersAndClassrooms rows filters = .ok loaded)
    (disjoint : loaded.DisjointTimeslots)
    (isKey : some teacher ∈ loaded.teachers.map LoadedTeacher.id)
    (isTimeslot : timeslot ∈ loaded.timeslots) :
    AvailableAt loaded.teachers (some teacher) timeslot.times ↔
      timeslot ∈ rows.availabilities loaded.timeslots (some teacher) ∨
        loaded.ScheduledAt teacher timeslot := by
  have converted := batchConvertSections_eq_ok (load_eq_ok returns).2.2
  rw [converted.1] at isKey
  rw [converted.2.2 (some teacher) isKey timeslot.times, availableAt_initialTeachers isKey]
  refine or_congr ?_ ?_
  · constructor
    · intro some
      rcases some with ⟨other, isOther, same⟩
      have among : other ∈ loaded.timeslots := by
        by_cases hasModule : rows.hasAvailabilityModule = true
        · rcases (mem_availabilities_of_module hasModule).mp isOther with ⟨_, _, _, _, _, found⟩
          exact (timeslotDict_eq_some found).1
        · exact ((mem_availabilities_of_not_module hasModule).mp isOther).1
      rw [← timeslot_eq disjoint among isTimeslot same]
      exact isOther
    · intro isAvailable
      exact ⟨timeslot, isAvailable, rfl⟩
  · refine exists_congr fun sec => and_congr_right fun isSection => and_congr_right fun _ => ?_
    rcases exists_isLoadedFrom returns isSection with ⟨row, from_row⟩
    refine exists_congr fun roomslot => and_congr_right fun isRoomslot => ?_
    constructor
    · exact timeslot_eq disjoint (from_row.inTimeslots roomslot isRoomslot) isTimeslot
    · intro same
      rw [same]

theorem mem_availabilities_iff (disjoint : loaded.DisjointTimeslots)
    (hasModule : rows.hasAvailabilityModule = true) (isTimeslot : timeslot ∈ loaded.timeslots) :
    timeslot ∈ rows.availabilities loaded.timeslots (some teacher) ↔
      ∃ row ∈ rows.userAvailabilities, row.2.program = some rows.program ∧ row.1 = teacher ∧
        row.2.id ∉ rows.teachingTimes (some teacher) ∧ timesOf row.2 = timeslot.times := by
  rw [mem_availabilities_of_module hasModule]
  refine exists_congr fun row => and_congr_right fun _ => and_congr_right fun _ =>
    and_congr (Option.some_inj) (and_congr_right fun _ => ?_)
  constructor
  · intro found
    exact (timeslotDict_eq_some found).2.symm
  · intro times
    rw [times]
    exact timeslotDict_of_mem disjoint isTimeslot

theorem mem_availabilities_of_declared
    (returns : loadSectionsAndTeachersAndClassrooms rows filters = .ok loaded)
    (disjoint : loaded.DisjointTimeslots) (isTimeslot : timeslot ∈ loaded.timeslots)
    (declared : rows.Declared teacher timeslot)
    (free : timeslot.id ∉ rows.teachingTimes (some teacher)) :
    timeslot ∈ rows.availabilities loaded.timeslots (some teacher) := by
  by_cases hasModule : rows.hasAvailabilityModule = true
  · rcases declared hasModule with ⟨row, isRow, whose, sameId⟩
    rcases event_of_timeslot (load_eq_ok returns).1 isTimeslot with
      ⟨event, isEvent, eventId, times, program⟩
    have same : row.2 = event :=
      event_eq (rows.availabilityEvents row isRow) isEvent (sameId.trans eventId)
    refine (mem_availabilities_iff disjoint hasModule isTimeslot).mpr ⟨row, isRow, ?_,
      whose, ?_, ?_⟩
    · rw [same, program]
    · rw [sameId]
      exact free
    · rw [same, times]
  · exact (mem_availabilities_of_not_module hasModule).mpr ⟨isTimeslot, free⟩

theorem not_mem_teachingTimes (free : rows.Free teacher timeslot) :
    timeslot.id ∉ rows.teachingTimes (some teacher) := by
  intro teaches
  rcases mem_teachingTimes.mp teaches with ⟨sec, isSection, _, isTeacher, time, isTime, same⟩
  exact free sec isSection isTeacher time isTime same

theorem restores_iff (returns : loadSectionsAndTeachersAndClassrooms rows filters = .ok loaded)
    (disjoint : loaded.DisjointTimeslots) : rows.Restores loaded ↔
      rows.NothingElsewhere loaded := by
  constructor
  · intro restores
    constructor
    · intro hasModule row isRow isKey timeslot isTimeslot program times _ free
      refine (restores row.1 isKey timeslot isTimeslot).mp ?_
      refine (availableAt_iff returns disjoint isKey isTimeslot).mpr (.inl ?_)
      exact (mem_availabilities_iff disjoint hasModule isTimeslot).mpr
        ⟨row, isRow, program, rfl, free, times⟩
    · intro teacher isKey timeslot isTimeslot declared free
      have available := (availableAt_iff returns disjoint isKey isTimeslot).mpr
        (.inl (mem_availabilities_of_declared returns disjoint isTimeslot declared free))
      exact ((restores teacher isKey timeslot isTimeslot).mp available).imp_left And.right
  · intro nothing teacher isKey timeslot isTimeslot
    rw [availableAt_iff returns disjoint isKey isTimeslot]
    constructor
    · intro either
      cases either with
      | inr scheduled => exact .inr scheduled
      | inl available =>
          by_cases hasModule : rows.hasAvailabilityModule = true
          · rcases (mem_availabilities_iff disjoint hasModule isTimeslot).mp available with
              ⟨row, isRow, program, rfl, free, times⟩
            by_cases same : row.2.id = timeslot.id
            · have declared : rows.Declared row.1 timeslot := fun _ => ⟨row, isRow, rfl, same⟩
              rw [same] at free
              exact (nothing.taught row.1 isKey timeslot isTimeslot declared free).imp_left
                fun isFree => ⟨declared, isFree⟩
            · exact nothing.declared hasModule row isRow isKey timeslot isTimeslot program times
                same free
          · have declared : rows.Declared teacher timeslot := fun has => absurd has hasModule
            have free := ((mem_availabilities_of_not_module hasModule).mp available).2
            exact (nothing.taught teacher isKey timeslot isTimeslot declared free).imp_left
              fun isFree => ⟨declared, isFree⟩
    · intro either
      refine either.imp_left fun both => ?_
      exact mem_availabilities_of_declared returns disjoint isTimeslot both.1
        (not_mem_teachingTimes both.2)

/-! ## Later schedules -/

section LaterSchedules

variable {schedule : AS_Schedule} {assignments : Assignments} {sec other : ClassSection}
  {classSection : AS_ClassSection}

theorem exists_loaded (returns : loadSectionsAndTeachersAndClassrooms rows filters = .ok loaded)
    (isIn : loaded.IsIn schedule) (isSection : sec ∈ rows.classSections)
    (listed : classSection ∈ schedule.classSections) (sameId : classSection.id = sec.id) :
    ∃ loadedSection ∈ loaded.classSections, loadedSection.id = classSection.id ∧
      IsLoadedFrom rows filters loaded.timeslots loadedSection sec := by
  have isId : classSection.id ∈ loaded.classSections.map LoadedSection.id := by
    rw [← isIn.sections]
    exact List.mem_map_of_mem listed
  rcases List.mem_map.mp isId with ⟨loadedSection, isLoaded, same⟩
  rcases exists_isLoadedFrom returns isLoaded with ⟨row, from_row⟩
  have sameRow : row = sec := List.inj_on_of_nodup_map rows.sectionIds
    (List.mem_of_mem_filter from_row.isSection) isSection
    (from_row.sameId.symm.trans (same.trans sameId))
  exact ⟨loadedSection, isLoaded, same, sameRow ▸ from_row⟩

theorem exists_asTeacher
    (returns : loadSectionsAndTeachersAndClassrooms rows filters = .ok loaded)
    (isIn : loaded.IsIn schedule) (isSection : sec ∈ rows.classSections)
    (listed : classSection ∈ schedule.classSections) (sameId : classSection.id = sec.id)
    (isTeacher : teacher ∈ sec.parentClass.teachers) :
    ∃ asTeacher ∈ classSection.teachers, asTeacher.id = teacher := by
  rcases exists_loaded returns isIn isSection listed sameId with
    ⟨loadedSection, isLoaded, same, from_row⟩
  have keys := isIn.teachers classSection listed loadedSection isLoaded same.symm
  rw [from_row.sameTeachers] at keys
  have isKey := mem_teacherKeys.mpr isTeacher
  rw [← keys] at isKey
  rcases List.mem_map.mp isKey with ⟨asTeacher, teaches, whose⟩
  exact ⟨asTeacher, teaches, Option.some.inj whose⟩

theorem mem_loadedTeachers
    (returns : loadSectionsAndTeachersAndClassrooms rows filters = .ok loaded)
    (isSection : sec ∈ rows.sections filters) (isTeacher : teacher ∈ sec.parentClass.teachers) :
    some teacher ∈ loaded.teachers.map LoadedTeacher.id := by
  rw [(batchConvertSections_eq_ok (load_eq_ok returns).2.2).1, initialTeachers, List.map_map]
  refine List.mem_map.mpr ⟨some teacher, ?_, rfl⟩
  rw [teacherIds, List.mem_reverse, List.mem_dedup, List.mem_reverse, List.mem_flatMap]
  exact ⟨sec, isSection, mem_teacherKeys.mpr isTeacher⟩

/-- Two sections of a teacher in a schedule do not meet at one timeslot. -/
theorem not_both_scheduled
    (returns : loadSectionsAndTeachersAndClassrooms rows filters = .ok loaded)
    (isIn : loaded.IsIn schedule)
    (concurrency : TeacherConcurrencyConstraint.checkSchedule schedule assignments = none)
    (isSection : sec ∈ rows.classSections) (isOther : other ∈ rows.classSections)
    (different : sec.id ≠ other.id) (teaches : teacher ∈ sec.parentClass.teachers)
    (teachesOther : teacher ∈ other.parentClass.teachers)
    {otherSection : AS_ClassSection} (listed : classSection ∈ schedule.classSections)
    (sameId : classSection.id = sec.id) (otherListed : otherSection ∈ schedule.classSections)
    (otherId : otherSection.id = other.id)
    (meets : ∃ roomslot ∈ assignments.assignedRoomslots classSection,
      roomslot.timeslot = timeslot)
    (otherMeets : ∃ roomslot ∈ assignments.assignedRoomslots otherSection,
      roomslot.timeslot = timeslot) : False := by
  have apart := TeacherConcurrencyConstraint.teachersApart concurrency
  rcases exists_asTeacher returns isIn isSection listed sameId teaches with
    ⟨asTeacher, isTeacher, whose⟩
  rcases exists_asTeacher returns isIn isOther otherListed otherId teachesOther with
    ⟨otherTeacher, isOtherTeacher, otherWhose⟩
  have sameTeacher : otherTeacher = asTeacher := List.inj_on_of_nodup_map schedule.teacherIds
    (schedule.teachersRegistered otherSection otherListed otherTeacher isOtherTeacher)
    (schedule.teachersRegistered classSection listed asTeacher isTeacher)
    (otherWhose.trans whose.symm)
  rw [sameTeacher] at isOtherTeacher
  have sections : classSection ≠ otherSection := by
    intro same
    rw [← sameId, ← otherId, same] at different
    exact different rfl
  rcases meets with ⟨roomslot, assigned, at_timeslot⟩
  rcases otherMeets with ⟨otherSlot, otherAssigned, otherAt⟩
  refine apart classSection listed otherSection otherListed sections asTeacher isTeacher
    isOtherTeacher roomslot assigned otherSlot otherAssigned ?_
  rw [AS_RoomSlot.times, AS_RoomSlot.times, at_timeslot, otherAt]

/-- A section of a teacher in a schedule does not meet at a timeslot at which a section that is not
in it meets in the database. -/
theorem not_scheduled_and_meeting
    (returns : loadSectionsAndTeachersAndClassrooms rows filters = .ok loaded)
    (restores : rows.Restores loaded) (safe : rows.NoTwoAtOnce) (isIn : loaded.IsIn schedule)
    (availability : TeacherAvailabilityConstraint.checkSchedule schedule assignments = none)
    (isSection : sec ∈ rows.classSections) (isOther : other ∈ rows.classSections)
    (teaches : teacher ∈ sec.parentClass.teachers)
    (teachesOther : teacher ∈ other.parentClass.teachers)
    (isTimeslot : timeslot ∈ loaded.timeslots)
    (listed : classSection ∈ schedule.classSections) (sameId : classSection.id = sec.id)
    (meets : ∃ roomslot ∈ assignments.assignedRoomslots classSection,
      roomslot.timeslot = timeslot)
    (notIn : other.id ∉ schedule.classSections.map AS_ClassSection.id)
    (otherMeets : ∃ time ∈ other.meetingTimes, time.id = timeslot.id) : False := by
  rcases exists_loaded returns isIn isSection listed sameId with ⟨_, _, _, from_row⟩
  have isKey := mem_loadedTeachers returns from_row.isSection teaches
  rcases exists_asTeacher returns isIn isSection listed sameId teaches with
    ⟨asTeacher, isTeacher, rfl⟩
  rcases meets with ⟨roomslot, assigned, rfl⟩
  rcases otherMeets with ⟨time, isTime, sameTime⟩
  -- the constraint says that the teacher is available at the timeslot
  have available : AvailableAt loaded.teachers (some asTeacher.id) roomslot.timeslot.times := by
    have allowed := TeacherAvailabilityConstraint.checkSchedule_eq_none.mp availability classSection
      listed asTeacher isTeacher roomslot assigned
    rw [AS_Teacher.isAvailable, List.any_eq_true] at allowed
    rcases allowed with ⟨slot, isSlot, times⟩
    rcases List.mem_map.mp isKey with ⟨loadedTeacher, isLoaded, whose⟩
    rw [isIn.availability asTeacher
      (schedule.teachersRegistered classSection listed asTeacher isTeacher) loadedTeacher isLoaded
      whose] at isSlot
    exact ⟨loadedTeacher, isLoaded, whose, slot, isSlot, eq_of_beq times⟩
  rcases (restores asTeacher.id isKey roomslot.timeslot isTimeslot).mp available with
    free | scheduled
  · exact free.2 other isOther teachesOther time isTime sameTime
  · rcases scheduled with ⟨third, isThird, teachesThird, slot, isSlot, same⟩
    rcases exists_isLoadedFrom returns isThird with ⟨row, from_third⟩
    rcases from_third.times slot isSlot with ⟨thirdTime, isThirdTime, times⟩
    rcases event_of_timeslot (load_eq_ok returns).1 isTimeslot with
      ⟨event, isEvent, eventId, eventTimes, _⟩
    have sameEvent : time = event :=
      event_eq (rows.meetingEvents other isOther time isTime) isEvent (sameTime.trans eventId)
    have sameTimes : timesOf thirdTime = timesOf time := by
      rw [times, same, eventTimes, sameEvent]
    have apart : row.id ≠ other.id := by
      intro sameRow
      rw [isIn.sections, ← sameRow, ← from_third.sameId] at notIn
      exact notIn (List.mem_map_of_mem isThird)
    rw [from_third.sameTeachers, mem_teacherKeys] at teachesThird
    refine safe row (List.mem_of_mem_filter from_third.isSection) other isOther apart asTeacher.id
      teachesThird teachesOther thirdTime isThirdTime time isTime (.inr ?_)
    have start : thirdTime.startTime = time.startTime := congrArg Prod.fst sameTimes
    have finish : thirdTime.endTime = time.endTime := congrArg Prod.snd sameTimes
    have whole : timesOf time = roomslot.timeslot.times := by rw [eventTimes, sameEvent]
    have slotStart : time.startTime = roomslot.timeslot.startTime := congrArg Prod.fst whole
    have slotFinish : time.endTime = roomslot.timeslot.endTime := congrArg Prod.snd whole
    have long := lt_of_lt_of_le deltaTime_pos roomslot.timeslot.longEnough
    rw [hoursDifference, DateTime.hoursBetween_pos_iff] at long
    rw [start, finish, slotStart, slotFinish]
    exact ⟨long, long⟩

theorem staysSafe_of_restores
    (returns : loadSectionsAndTeachersAndClassrooms rows filters = .ok loaded)
    (restores : rows.Restores loaded) : rows.StaysSafe loaded := by
  intro safe schedule assignments isIn availability concurrency sec isSection other isOther
    different teacher teaches teachesOther timeslot isTimeslot meets otherMeets
  cases meets with
  | inl scheduled =>
      rcases scheduled with ⟨classSection, listed, sameId, slots⟩
      cases otherMeets with
      | inl otherScheduled =>
          rcases otherScheduled with ⟨otherSection, otherListed, otherId, otherSlots⟩
          exact not_both_scheduled returns isIn concurrency isSection isOther different teaches
            teachesOther listed sameId otherListed otherId slots otherSlots
      | inr meeting =>
          exact not_scheduled_and_meeting returns restores safe isIn availability isSection isOther
            teaches teachesOther isTimeslot listed sameId slots meeting.1 meeting.2
  | inr meeting =>
      cases otherMeets with
      | inl scheduled =>
          rcases scheduled with ⟨classSection, listed, sameId, slots⟩
          exact not_scheduled_and_meeting returns restores safe isIn availability isOther isSection
            teachesOther teaches isTimeslot listed sameId slots meeting.1 meeting.2
      | inr otherMeeting =>
          rcases meeting.2 with ⟨time, isTime, same⟩
          rcases otherMeeting.2 with ⟨otherTime, isOtherTime, otherSame⟩
          exact safe sec isSection other isOther different teacher teaches teachesOther time isTime
            otherTime isOtherTime (.inl (same.trans otherSame.symm))

end LaterSchedules

/-- Loading restores availability, and keeps later schedules safe, exactly if nothing elsewhere
matters. -/
theorem restores_and_staysSafe_iff
    (returns : loadSectionsAndTeachersAndClassrooms rows filters = .ok loaded)
    (disjoint : loaded.DisjointTimeslots) :
    (rows.Restores loaded ∧ rows.StaysSafe loaded) ↔ rows.NothingElsewhere loaded := by
  rw [← restores_iff returns disjoint]
  exact and_iff_left_of_imp (staysSafe_of_restores returns)

/-! ## A training at the time of a section -/

def trainingSection (id : ℕ) (status : ℤ) (meetingTimes : List Event)
    (distinct : (meetingTimes.map Event.id).Nodup) : ClassSection where
  id := id
  parentClass := ⟨4, 1, 0, false, [3], 7, 12, none, morningSection.parentClass.distinctTeachers⟩
  status := status
  duration := some 1
  maxClassCapacity := some 20
  meetingTimes := meetingTimes
  resourceRequests := []
  distinctTimes := distinct

/-- A teacher will be at a training at nine, and has a section then that is not approved. -/
def trainingRows : Rows where
  program := 1
  events := [hourAt 1 9 nine_valid, hourAt 7 9 nine_valid]
  isClassTimeBlock := fun event => event.id = 1
  resources := []
  numStudents := fun _ => 20
  asResourceType := fun _ => ⟨0, "", ""⟩
  resourceAssignments := []
  classSections := [trainingSection 5 10 [] (by simp),
    trainingSection 6 0 [hourAt 1 9 nine_valid] morningSection.distinctTimes]
  openClassRegistration := false
  openClassCategory := 0
  lockedSections := []
  hasAvailabilityModule := true
  userAvailabilities := [(3, hourAt 7 9 nine_valid)]
  administrators := []
  emailcode := fun _ => "M4s1"
  eventIds := by decide
  resourceIds := by simp
  sectionIds := by decide
  resourceEvents := by simp
  meetingEvents := by simp [trainingSection]
  availabilityEvents := by simp

def loadApproved : Filters := ⟨true, false, false, false, false⟩

theorem load_trainingRows :
    ∃ loaded, loadSectionsAndTeachersAndClassrooms trainingRows loadApproved = .ok loaded ∧
      loaded.DisjointTimeslots ∧
      ∃ timeslot ∈ loaded.timeslots, timeslot.id = 1 ∧
        timeslot.times = timesOf (hourAt 7 9 (by decide)) := by
  have isOk : (loadSectionsAndTeachersAndClassrooms trainingRows loadApproved).isOk = true := by
    decide +kernel
  have single : trainingRows.timeslots = .ok [⟨1, (hourAt 1 9 (by decide)).startTime,
      (hourAt 1 9 (by decide)).endTime, by decide +kernel⟩] := by
    decide +kernel
  rcases exists_of_isOk isOk with ⟨loaded, returns⟩
  have isSingle := (load_eq_ok returns).1.symm.trans single
  refine ⟨loaded, returns, ?_, ?_⟩
  · rw [Loaded.DisjointTimeslots, Except.ok.inj isSingle]
    exact List.pairwise_singleton _ _
  · rw [Except.ok.inj isSingle]
    exact ⟨_, List.mem_singleton_self _, rfl, rfl⟩

/-- The conditions for these rows. -/
theorem restores_and_staysSafe_iff_training :
    ∃ loaded, loadSectionsAndTeachersAndClassrooms trainingRows loadApproved = .ok loaded ∧
      ((trainingRows.Restores loaded ∧ trainingRows.StaysSafe loaded) ↔
        trainingRows.NothingElsewhere loaded) := by
  rcases load_trainingRows with ⟨loaded, returns, disjoint, _⟩
  exact ⟨loaded, returns, restores_and_staysSafe_iff returns disjoint⟩

/-- The teacher becomes available at nine. -/
theorem not_restores_training :
    ∃ loaded, loadSectionsAndTeachersAndClassrooms trainingRows loadApproved = .ok loaded ∧
      loaded.DisjointTimeslots ∧
      (∀ sec ∈ trainingRows.classSections, sec.parentClass.teachers ≠ []) ∧
      ¬ (trainingRows.Restores loaded ∧ trainingRows.StaysSafe loaded) := by
  rcases load_trainingRows with ⟨loaded, returns, disjoint, timeslot, isTimeslot, isOne, times⟩
  refine ⟨loaded, returns, disjoint, by simp [trainingRows, trainingSection], fun both => ?_⟩
  have nothing := (restores_iff returns disjoint).mp both.1
  have isKey : some 3 ∈ loaded.teachers.map LoadedTeacher.id :=
    @mem_loadedTeachers _ _ _ 3 (trainingSection 5 10 [] (by simp)) returns
      (by simp [sections, trainingRows, trainingSection, loadApproved, accepted])
      (by simp [trainingSection])
  have either := nothing.declared rfl (3, hourAt 7 9 (by decide)) List.mem_cons_self isKey timeslot
    isTimeslot rfl times.symm (by rw [isOne]; decide) (by decide)
  cases either with
  | inl declared =>
      rcases declared.1 rfl with ⟨row, isRow, _, sameId⟩
      rw [List.mem_singleton.mp isRow, isOne] at sameId
      exact absurd sameId (by decide)
  | inr scheduled =>
      rcases scheduled with ⟨sec, isSection, _, roomslot, isRoomslot, _⟩
      rcases exists_isLoadedFrom returns isSection with ⟨row, from_row⟩
      rcases from_row.times roomslot isRoomslot with ⟨time, isTime, _⟩
      have isRow := from_row.isSection
      simp only [sections, trainingRows, trainingSection, loadApproved, accepted,
        List.filter_cons] at isRow
      simp at isRow
      rw [isRow] at isTime
      cases isTime

end Rows

end EspWebsite.Autoscheduler.DbInterface
