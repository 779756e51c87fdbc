import EspWebsite.Autoscheduler.Placement

/-!
# What the checks mean

Each check of a constraint passes exactly when a property of the schedule or of the
roomslots in question holds.
-/

namespace EspWebsite.Autoscheduler

open Calendar Python

theorem contiguous_iff {timeslot1 timeslot2 : AS_Timeslot} :
    contiguous timeslot1 timeslot2 = true ↔
      timeslot1.endTime ≤ timeslot2.startTime ∧
        DateTime.microsecondsBetween timeslot1.endTime timeslot2.startTime <
          contiguousTolerance := by
  rw [contiguous]
  split
  next overlapping =>
    simp only [Bool.false_eq_true, false_iff, not_and]
    intro ordered
    exact absurd overlapping (not_lt_of_ge ordered)
  next ordered =>
    have ordered : timeslot1.endTime ≤ timeslot2.startTime :=
      DateTime.not_lt_iff_le.mp ordered
    simp [ordered]

/-- A relation between neighbouring roomslots: no gap is between them. -/
def NoGap (left right : AS_RoomSlot) : Prop :=
  contiguous left.timeslot right.timeslot = true

namespace ContiguousConstraint

variable {sec : AS_ClassSection} {room : AS_Classroom}

theorem checkRoomslots_eq_none {previous : AS_RoomSlot} {roomslots : List AS_RoomSlot} :
    checkRoomslots sec room previous.timeslot roomslots = none ↔
      (previous :: roomslots).IsChain NoGap ∧
        ∀ roomslot ∈ roomslots, roomslot.room.name = room.name := by
  induction roomslots generalizing previous with
  | nil => simp [checkRoomslots]
  | cons roomslot rest ih =>
      rw [checkRoomslots, List.isChain_cons_cons, NoGap]
      by_cases noGap : contiguous previous.timeslot roomslot.timeslot = true
      · by_cases sameRoom : roomslot.room.name = room.name
        · simp [noGap, sameRoom, ih]
        · simp [noGap, sameRoom]
      · simp [noGap]

theorem checkSchedule_eq_none {schedule : AS_Schedule} {assignments : Assignments} :
    checkSchedule schedule assignments = none ↔
      ∀ sec ∈ schedule.classSections, ∀ first rest,
        assignments.assignedRoomslots sec = first :: rest →
          (first :: rest).IsChain NoGap ∧
            ∀ roomslot ∈ rest, roomslot.room.name = first.room.name := by
  rw [checkSchedule, List.findSome?_eq_none_iff]
  apply forall₂_congr
  intro sec listed
  cases assignments.assignedRoomslots sec with
  | nil => simp
  | cons first rest => simp [checkRoomslots_eq_none]

theorem checkContiguous_eq_none {previous : AS_RoomSlot} {roomslots : List AS_RoomSlot} :
    checkContiguous previous.timeslot roomslots = none ↔
      (previous :: roomslots).IsChain NoGap := by
  induction roomslots generalizing previous with
  | nil => simp [checkContiguous]
  | cons roomslot rest ih =>
      rw [checkContiguous, List.isChain_cons_cons, NoGap]
      by_cases noGap : contiguous previous.timeslot roomslot.timeslot = true
      · simp [noGap, ih]
      · simp [noGap]

theorem checkScheduleSection_eq_none {startRoomslot : AS_RoomSlot} :
    checkScheduleSection sec startRoomslot = none ↔
      getRoomslotsByDuration startRoomslot sec.duration ≠ [] ∧
        (getRoomslotsByDuration startRoomslot sec.duration).IsChain NoGap := by
  rw [checkScheduleSection]
  cases taken : getRoomslotsByDuration startRoomslot sec.duration with
  | nil => simp
  | cons first rest =>
      rw [getRoomslotsByDuration_head taken]
      simp [checkContiguous_eq_none]

end ContiguousConstraint

namespace SectionDurationConstraint

variable {sec : AS_ClassSection}

def Lasts (sec : AS_ClassSection) (run : List AS_RoomSlot) : Prop :=
  ∀ first rest, run = first :: rest →
    |hoursDifference first.timeslot.startTime (lastEndTime first.timeslot.endTime rest) -
      sec.duration| ≤ deltaTime

theorem checkSchedule_eq_none {schedule : AS_Schedule} {assignments : Assignments} :
    checkSchedule schedule assignments = none ↔
      ∀ sec ∈ schedule.classSections,
        Lasts sec (assignments.assignedRoomslots sec) := by
  rw [checkSchedule, List.findSome?_eq_none_iff]
  apply forall₂_congr
  intro sec listed
  cases assignments.assignedRoomslots sec with
  | nil => simp [Lasts]
  | cons first rest => simp [Lasts, scheduledDuration_cons]

theorem checkScheduleSection_eq_none {startRoomslot : AS_RoomSlot} :
    checkScheduleSection sec startRoomslot = none ↔
      getRoomslotsByDuration startRoomslot sec.duration ≠ [] ∧
        Lasts sec
          (getRoomslotsByDuration startRoomslot sec.duration) := by
  rw [checkScheduleSection]
  cases getRoomslotsByDuration startRoomslot sec.duration with
  | nil => simp
  | cons first rest => simp [Lasts, scheduledDuration_cons]

end SectionDurationConstraint

namespace TeacherAvailabilityConstraint

theorem checkSchedule_eq_none {schedule : AS_Schedule} {assignments : Assignments} :
    checkSchedule schedule assignments = none ↔
      ∀ sec ∈ schedule.classSections, ∀ teacher ∈ sec.teachers,
        ∀ roomslot ∈ assignments.assignedRoomslots sec,
          teacher.isAvailable roomslot.times := by
  simp only [checkSchedule, List.findSome?_eq_none_iff, AS_Schedule.mem_taughtSections]
  constructor
  · intro checked sec listed teacher teaches roomslot assigned
    have registered := schedule.teachersRegistered sec listed teacher teaches
    have passes := checked teacher registered sec ⟨listed, teaches⟩ roomslot assigned
    simpa using passes
  · intro available teacher registered sec taught roomslot assigned
    have isAvailable := available sec taught.1 teacher taught.2 roomslot assigned
    simp [isAvailable]

theorem checkAvailable_eq_none {teachers : List AS_Teacher} {roomslots : List AS_RoomSlot}
    {existing : List (DateTime × DateTime)} {reason : String} :
    checkAvailable teachers roomslots existing reason = none ↔
      ∀ teacher ∈ teachers, ∀ roomslot ∈ roomslots,
        teacher.isAvailable roomslot.times ∨ roomslot.times ∈ existing := by
  simp only [checkAvailable, List.findSome?_eq_none_iff]
  apply forall₂_congr
  intro teacher _
  apply forall₂_congr
  intro roomslot _
  cases teacher.isAvailable roomslot.times <;> simp

theorem checkSwapSections_eq_none {assignments : Assignments}
    {section1 section2 : AS_ClassSection} :
    checkSwapSections assignments section1 section2 = none ↔
      (∀ teacher ∈ section1.teachers, ∀ roomslot ∈ assignments.assignedRoomslots section2,
        teacher.isAvailable roomslot.times ∨
          roomslot.times ∈ (assignments.assignedRoomslots section1).map AS_RoomSlot.times) ∧
      (∀ teacher ∈ section2.teachers, ∀ roomslot ∈ assignments.assignedRoomslots section1,
        teacher.isAvailable roomslot.times ∨
          roomslot.times ∈
            (assignments.assignedRoomslots section2).map AS_RoomSlot.times) := by
  rw [checkSwapSections]
  simp only [Option.orElse_eq_orElse, Option.orElse_eq_or, Option.or_eq_none_iff,
    checkAvailable_eq_none]

end TeacherAvailabilityConstraint

namespace TeacherConcurrencyConstraint

variable {schedule : AS_Schedule} {assignments : Assignments}

theorem teachesTwice_eq_false {alreadyTeaching times : List (DateTime × DateTime)} :
    teachesTwice alreadyTeaching times = false ↔
      times.Nodup ∧ ∀ time ∈ times, time ∉ alreadyTeaching := by
  induction times generalizing alreadyTeaching with
  | nil => simp [teachesTwice]
  | cons time rest ih =>
      simp only [teachesTwice, Bool.or_eq_false_iff, decide_eq_false_iff_not, ih,
        List.nodup_cons, List.mem_cons, forall_eq_or_imp, not_or]
      constructor
      · rintro ⟨fresh, nodup, apart⟩
        refine ⟨⟨fun repeated => (apart time repeated).1 rfl, nodup⟩, fresh, ?_⟩
        exact fun other listed => (apart other listed).2
      · rintro ⟨⟨once, nodup⟩, fresh, apart⟩
        refine ⟨fresh, nodup, fun other listed => ⟨?_, apart other listed⟩⟩
        exact fun same => once (same ▸ listed)

theorem mem_getAlreadyTeachingSet {teacher : AS_Teacher} {time : DateTime × DateTime} :
    time ∈ getAlreadyTeachingSet schedule assignments teacher ↔
      ∃ sec ∈ schedule.classSections, teacher ∈ sec.teachers ∧
        ∃ roomslot ∈ assignments.assignedRoomslots sec, roomslot.times = time := by
  simp only [getAlreadyTeachingSet, List.mem_map, List.mem_flatMap,
    AS_Schedule.mem_taughtSections]
  constructor
  · rintro ⟨roomslot, ⟨sec, ⟨listed, teaches⟩, assigned⟩, same⟩
    exact ⟨sec, listed, teaches, roomslot, assigned, same⟩
  · rintro ⟨sec, listed, teaches, roomslot, assigned, same⟩
    exact ⟨roomslot, ⟨sec, ⟨listed, teaches⟩, assigned⟩, same⟩

theorem checkTeaching_eq_none {alreadyTeaching : List (DateTime × DateTime)}
    {roomslots : List AS_RoomSlot} :
    checkTeaching alreadyTeaching roomslots = none ↔
      ∀ roomslot ∈ roomslots, roomslot.times ∉ alreadyTeaching := by
  simp only [checkTeaching, List.findSome?_eq_none_iff]
  apply forall₂_congr
  intro roomslot _
  by_cases taught : roomslot.times ∈ alreadyTeaching <;> simp [taught]

theorem checkScheduleSection_eq_none {sec : AS_ClassSection}
    {startRoomslot : AS_RoomSlot} :
    checkScheduleSection schedule assignments sec startRoomslot = none ↔
      ∀ teacher ∈ sec.teachers,
        ∀ roomslot ∈ getRoomslotsByDuration startRoomslot sec.duration,
          roomslot.times ∉ getAlreadyTeachingSet schedule assignments teacher := by
  simp only [checkScheduleSection, List.findSome?_eq_none_iff, checkTeaching_eq_none]

theorem removeTimes_eq_ok {roomslots : List AS_RoomSlot}
    {alreadyTeaching remaining : List (DateTime × DateTime)}
    (removed : removeTimes roomslots alreadyTeaching = .ok remaining)
    (time : DateTime × DateTime) :
    time ∈ remaining ↔ time ∈ alreadyTeaching ∧ time ∉ roomslots.map AS_RoomSlot.times := by
  induction roomslots generalizing alreadyTeaching with
  | nil =>
      cases removed
      simp
  | cons roomslot rest ih =>
      rw [removeTimes] at removed
      split at removed
      · rw [ih removed]
        simp only [List.mem_filter, decide_eq_true_eq, List.map_cons, List.mem_cons, not_or,
          and_assoc]
      · cases removed

theorem checkMoveSection_eq_none {sec : AS_ClassSection}
    {startRoomslot : AS_RoomSlot}
    (passes : checkMoveSection schedule assignments sec startRoomslot = .ok none) :
    ∀ teacher ∈ sec.teachers,
      ∀ roomslot ∈ getRoomslotsByDuration startRoomslot sec.duration,
        roomslot.times ∈ getAlreadyTeachingSet schedule assignments teacher →
          roomslot.times ∈
            (assignments.assignedRoomslots sec).map AS_RoomSlot.times := by
  rw [checkMoveSection] at passes
  generalize sec.teachers = teachers at passes ⊢
  induction teachers with
  | nil => simp
  | cons teacher teachers ih =>
      obtain ⟨remaining, removed, rest⟩ := bind_eq_ok.mp passes
      split at rest
      next => cases rest
      next noClash =>
        intro other listed roomslot taken taught
        rcases List.mem_cons.mp listed with same | listed
        · subst same
          have free := checkTeaching_eq_none.mp noClash roomslot taken
          rw [removeTimes_eq_ok removed] at free
          by_contra notOwn
          exact free ⟨taught, notOwn⟩
        · exact ih rest other listed roomslot taken taught

theorem checkSwapTeachers_eq_none {teachers : List AS_Teacher}
    {oldTimes newTimes : List (DateTime × DateTime)} {reason : String} :
    checkSwapTeachers schedule assignments teachers oldTimes newTimes reason = none ↔
      ∀ teacher ∈ teachers, ∀ time ∈ newTimes,
        time ∈ getAlreadyTeachingSet schedule assignments teacher → time ∈ oldTimes := by
  simp only [checkSwapTeachers, List.findSome?_eq_none_iff]
  apply forall₂_congr
  intro teacher _
  apply forall₂_congr
  intro time _
  by_cases taught : time ∈ getAlreadyTeachingSet schedule assignments teacher <;>
    by_cases old : time ∈ oldTimes <;> simp [taught, old]

theorem checkSwapSections_eq_none {section1 section2 : AS_ClassSection} :
    checkSwapSections schedule assignments section1 section2 = none ↔
      (∀ teacher ∈ section1.teachers,
        ∀ time ∈ (assignments.assignedRoomslots section2).map AS_RoomSlot.times,
          time ∈ getAlreadyTeachingSet schedule assignments teacher →
            time ∈ (assignments.assignedRoomslots section1).map AS_RoomSlot.times) ∧
      (∀ teacher ∈ section2.teachers,
        ∀ time ∈ (assignments.assignedRoomslots section1).map AS_RoomSlot.times,
          time ∈ getAlreadyTeachingSet schedule assignments teacher →
            time ∈ (assignments.assignedRoomslots section2).map AS_RoomSlot.times) := by
  rw [checkSwapSections]
  simp only [Option.orElse_eq_orElse, Option.orElse_eq_or, Option.or_eq_none_iff,
    checkSwapTeachers_eq_none]

end TeacherConcurrencyConstraint

namespace RoomConcurrencyConstraint

theorem checkFree_eq_none {assignments : Assignments}
    {allowed : Option AS_ClassSection → Bool} {sec : AS_ClassSection}
    {startRoomslot : AS_RoomSlot} :
    checkFree assignments allowed sec startRoomslot = none ↔
      getRoomslotsByDuration startRoomslot sec.duration ≠ [] ∧
        ∀ roomslot ∈ getRoomslotsByDuration startRoomslot sec.duration,
          allowed (assignments.assignedSection roomslot) = true := by
  rw [checkFree]
  cases getRoomslotsByDuration startRoomslot sec.duration with
  | nil => simp
  | cons first rest =>
      simp only [List.findSome?_eq_none_iff]
      simp

end RoomConcurrencyConstraint

end EspWebsite.Autoscheduler
