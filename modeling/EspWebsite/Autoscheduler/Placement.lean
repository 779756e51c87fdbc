import EspWebsite.Autoscheduler.Constraints

/-!
# Runs of roomslots

What `get_roomslots_by_duration` returns: a run of neighbouring roomslots of one
room, the shortest one from its start that comes within the tolerance of the
duration.
-/

namespace EspWebsite.Autoscheduler

open Calendar Python

namespace AS_Timeslot

theorem startTime_lt_endTime (timeslot : AS_Timeslot) :
    timeslot.startTime < timeslot.endTime := by
  apply DateTime.hoursBetween_pos_iff.mp
  exact lt_of_lt_of_le deltaTime_pos timeslot.longEnough

theorem before_asymm {left right : AS_Timeslot} (ordered : left.before right) :
    ¬ right.before left := by
  rw [before] at *
  by_cases same : left.startTime = right.startTime
  · rw [if_pos same] at ordered
    rw [if_pos same.symm]
    exact lt_asymm ordered
  · rw [if_neg same] at ordered
    rw [if_neg (Ne.symm same)]
    exact lt_asymm ordered

theorem startTime_le_of_before {left right : AS_Timeslot} (ordered : left.before right) :
    left.startTime ≤ right.startTime := by
  rw [before] at ordered
  split at ordered
  next same => exact le_of_eq same
  next => exact le_of_lt ordered

theorem before_irrefl (timeslot : AS_Timeslot) : ¬ timeslot.before timeslot := by
  intro ordered
  exact before_asymm ordered ordered

end AS_Timeslot

namespace AS_Classroom

variable {room : AS_Classroom} {roomslot : AS_RoomSlot}

theorem availability_sorted (room : AS_Classroom) :
    room.availability.Pairwise fun left right => left.timeslot.before right.timeslot := by
  rw [availability, List.pairwise_map]
  exact room.sorted

theorem availability_nodup (room : AS_Classroom) : room.availability.Nodup := by
  apply room.availability_sorted.imp
  intro left right ordered same
  exact AS_Timeslot.before_irrefl _ (same ▸ ordered)

theorem room_eq_of_mem (member : roomslot ∈ room.availability) : roomslot.room = room := by
  obtain ⟨timeslot, -, rfl⟩ := List.mem_map.mp member
  rfl

theorem timeslot_mem_of_mem (member : roomslot ∈ room.availability) :
    roomslot.timeslot ∈ room.timeslots := by
  obtain ⟨timeslot, listed, rfl⟩ := List.mem_map.mp member
  exact listed

end AS_Classroom

namespace AS_Schedule

variable {schedule : AS_Schedule} {roomslot : AS_RoomSlot}

theorem mem_roomslots :
    roomslot ∈ schedule.roomslots ↔
      roomslot.room ∈ schedule.classrooms ∧ roomslot ∈ roomslot.room.availability := by
  rw [roomslots, List.mem_flatMap]
  constructor
  · rintro ⟨room, registered, member⟩
    have sameRoom := AS_Classroom.room_eq_of_mem member
    subst sameRoom
    exact ⟨registered, member⟩
  · rintro ⟨registered, member⟩
    exact ⟨roomslot.room, registered, member⟩

theorem mem_taughtSections {teacher : AS_Teacher} {sec : AS_ClassSection} :
    sec ∈ schedule.taughtSections teacher ↔
      sec ∈ schedule.classSections ∧ teacher ∈ sec.teachers := by
  simp [taughtSections]

theorem teacher_eq_of_id {section1 section2 : AS_ClassSection}
    (listed1 : section1 ∈ schedule.classSections)
    (listed2 : section2 ∈ schedule.classSections) {teacher1 teacher2 : AS_Teacher}
    (teaches1 : teacher1 ∈ section1.teachers) (teaches2 : teacher2 ∈ section2.teachers)
    (sameId : teacher1.id = teacher2.id) : teacher1 = teacher2 :=
  List.inj_on_of_nodup_map schedule.teacherIds
    (schedule.teachersRegistered section1 listed1 teacher1 teaches1)
    (schedule.teachersRegistered section2 listed2 teacher2 teaches2) sameId

theorem teacherIds_nodup {sec : AS_ClassSection}
    (listed : sec ∈ schedule.classSections) :
    (sec.teachers.map AS_Teacher.id).Nodup :=
  (schedule.teachersDistinct sec listed).map_on
    fun _ leftTeaches _ rightTeaches sameId =>
      teacher_eq_of_id listed listed leftTeaches rightTeaches sameId

theorem disjoint_teacherIds {section1 section2 : AS_ClassSection}
    (listed1 : section1 ∈ schedule.classSections)
    (listed2 : section2 ∈ schedule.classSections)
    (disjoint : ∀ teacher ∈ section1.teachers, teacher ∉ section2.teachers) :
    ∀ teacherId ∈ section1.teachers.map AS_Teacher.id,
      teacherId ∉ section2.teachers.map AS_Teacher.id := by
  intro teacherId member1 member2
  obtain ⟨teacher1, teaches1, teacherId1⟩ := List.mem_map.mp member1
  obtain ⟨teacher2, teaches2, teacherId2⟩ := List.mem_map.mp member2
  have sameTeacher := teacher_eq_of_id listed1 listed2 teaches1 teaches2
    (teacherId1.trans teacherId2.symm)
  exact disjoint teacher1 teaches1 (sameTeacher ▸ teaches2)

end AS_Schedule

/-! ## The end of a run -/

/-- End time of the last of the roomslots, or the given time if there are
none. -/
def lastEndTime : DateTime → List AS_RoomSlot → DateTime
  | endTime, [] => endTime
  | _, roomslot :: rest => lastEndTime roomslot.timeslot.endTime rest

theorem lastEndTime_eq (endTime : DateTime) (roomslots : List AS_RoomSlot) :
    lastEndTime endTime roomslots =
      (roomslots.getLast?.map fun roomslot => roomslot.timeslot.endTime).getD endTime := by
  induction roomslots generalizing endTime with
  | nil => rfl
  | cons roomslot rest ih =>
      rw [lastEndTime, ih]
      cases rest with
      | nil => rfl
      | cons next rest =>
          simp [List.getLast?_eq_some_getLast]

/-- Hours from the start of the first roomslot to the end of the last one. -/
theorem scheduledDuration_cons (first : AS_RoomSlot) (rest : List AS_RoomSlot) :
    SectionDurationConstraint.scheduledDuration first (first :: rest) =
      hoursDifference first.timeslot.startTime
        (lastEndTime first.timeslot.endTime rest) := by
  rw [SectionDurationConstraint.scheduledDuration, lastEndTime_eq]
  cases rest with
  | nil => rfl
  | cons next rest => simp [List.getLast?_eq_some_getLast]

/-! ## The shortest run -/

section TakeRoomslots

variable {duration : ℚ} {startTime endTime : DateTime}

theorem takeRoomslots_prefix (rest : List AS_RoomSlot) :
    takeRoomslots duration startTime endTime rest <+: rest := by
  induction rest generalizing endTime with
  | nil => simp [takeRoomslots]
  | cons current rest ih =>
      rw [takeRoomslots]
      split
      · exact List.cons_prefix_cons.mpr ⟨rfl, ih⟩
      · exact List.nil_prefix

theorem takeRoomslots_of_covers {run rest : List AS_RoomSlot} (isPrefix : run <+: rest)
    (covers : duration - hoursDifference startTime (lastEndTime endTime run) ≤ deltaTime) :
    takeRoomslots duration startTime endTime rest <+: run ∧
      duration - hoursDifference startTime
        (lastEndTime endTime (takeRoomslots duration startTime endTime rest)) ≤ deltaTime := by
  induction rest generalizing endTime run with
  | nil =>
      rw [List.prefix_nil] at isPrefix
      subst isPrefix
      exact ⟨List.nil_prefix, covers⟩
  | cons current rest ih =>
      rw [takeRoomslots]
      split
      next short =>
        cases run with
        | nil => exact absurd covers (not_le.mpr short)
        | cons head run =>
            obtain ⟨sameHead, tailPrefix⟩ := List.cons_prefix_cons.mp isPrefix
            subst sameHead
            obtain ⟨taken, reached⟩ := ih tailPrefix covers
            exact ⟨List.cons_prefix_cons.mpr ⟨rfl, taken⟩, reached⟩
      next covered => exact ⟨List.nil_prefix, not_lt.mp covered⟩

end TakeRoomslots

/-! ## Runs of a room -/

section Runs

variable {startRoomslot : AS_RoomSlot} {duration : ℚ}

theorem index_eq {before after : List AS_RoomSlot}
    (split : startRoomslot.room.availability = before ++ startRoomslot :: after) :
    startRoomslot.index = before.length := by
  have nodup := startRoomslot.room.availability_nodup
  rw [split] at nodup
  have fresh : startRoomslot ∉ before := by
    intro earlier
    exact (List.nodup_append.mp nodup).2.2 _ earlier _ List.mem_cons_self rfl
  rw [AS_RoomSlot.index, split, List.idxOf_append_of_notMem fresh, List.idxOf_cons_self,
    Nat.add_zero]

theorem drop_index_succ {before after : List AS_RoomSlot}
    (split : startRoomslot.room.availability = before ++ startRoomslot :: after) :
    startRoomslot.room.availability.drop (startRoomslot.index + 1) = after := by
  rw [index_eq split, split, List.drop_append, List.drop_eq_nil_of_le (by omega)]
  simp

theorem next_eq {before after : List AS_RoomSlot}
    (split : startRoomslot.room.availability = before ++ startRoomslot :: after) :
    startRoomslot.next = after.head? := by
  rw [AS_RoomSlot.next, index_eq split, split, List.getElem?_append_right (by omega)]
  simp [List.head?_eq_getElem?]

theorem getRoomslotsByDuration_eq {before after : List AS_RoomSlot}
    (split : startRoomslot.room.availability = before ++ startRoomslot :: after) :
    getRoomslotsByDuration startRoomslot duration =
      startRoomslot :: takeRoomslots duration startRoomslot.timeslot.startTime
        startRoomslot.timeslot.endTime after := by
  have member : startRoomslot ∈ startRoomslot.room.availability := by
    rw [split]
    simp
  rw [getRoomslotsByDuration, if_neg (not_not.mpr member), drop_index_succ split]

theorem getRoomslotsByDuration_eq_nil
    (absent : startRoomslot ∉ startRoomslot.room.availability) :
    getRoomslotsByDuration startRoomslot duration = [] := by
  rw [getRoomslotsByDuration, if_pos absent]

theorem getRoomslotsByDuration_head {first : AS_RoomSlot} {rest : List AS_RoomSlot}
    (taken : getRoomslotsByDuration startRoomslot duration = first :: rest) :
    first = startRoomslot := by
  rw [getRoomslotsByDuration] at taken
  split at taken
  · cases taken
  · cases taken
    rfl

theorem getRoomslotsByDuration_ne_nil
    (member : startRoomslot ∈ startRoomslot.room.availability) :
    getRoomslotsByDuration startRoomslot duration ≠ [] := by
  rw [getRoomslotsByDuration, if_neg (not_not.mpr member)]
  exact List.cons_ne_nil _ _

theorem getRoomslotsByDuration_infix :
    getRoomslotsByDuration startRoomslot duration <:+: startRoomslot.room.availability := by
  by_cases member : startRoomslot ∈ startRoomslot.room.availability
  · obtain ⟨before, after, split⟩ := List.append_of_mem member
    rw [getRoomslotsByDuration_eq split, split]
    have isPrefix : startRoomslot :: takeRoomslots duration startRoomslot.timeslot.startTime
        startRoomslot.timeslot.endTime after <+: startRoomslot :: after :=
      List.cons_prefix_cons.mpr ⟨rfl, takeRoomslots_prefix after⟩
    exact isPrefix.isInfix.trans (List.suffix_append before _).isInfix
  · rw [getRoomslotsByDuration_eq_nil member]
    exact List.nil_infix

end Runs

end EspWebsite.Autoscheduler
