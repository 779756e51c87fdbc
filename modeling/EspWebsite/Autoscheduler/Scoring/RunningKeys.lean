import EspWebsite.Autoscheduler.Scoring.RunningHooks

/-!
# Missing keys of the scorer of running teachers

A section may have more roomslots than its duration takes.  The hook for swaps enters
only those that the duration takes, so keys of the dictionaries can be missing, and the
hook for unscheduling raises where it deletes a missing one.  No key is ever left over.
-/

namespace EspWebsite.Autoscheduler

open Calendar Python Tally

def Change.IsSwap : Change → Prop
  | .schedule _ _ | .move _ _ | .unschedule _ => False
  | .swap _ _ => True

/-- Where a section with teachers is swapped, the other section has the roomslots that its
duration takes. -/
def Change.Separable (assignments : Assignments) : Change → Prop
  | .schedule _ _ | .move _ _ | .unschedule _ => True
  | .swap section1 section2 =>
      (section1.teachers = [] ∨ Canonical assignments section2) ∧
        (section2.teachers = [] ∨ Canonical assignments section1)

namespace TeachersWhoLikeRunningScorer

/-- The timeslots of the roomslots are keys in the dictionaries of all teachers of the
section. -/
def Entered (times : Nat → Nat → Option AS_RoomSlot) (sec : AS_ClassSection)
    (roomslots : List AS_RoomSlot) : Prop :=
  ∀ teacherId ∈ sec.teachers.map AS_Teacher.id, ∀ roomslot ∈ roomslots,
    times teacherId roomslot.timeslot.id ≠ none

/-- The dictionaries without the roomslots of a section. -/
def removeAll (sec : AS_ClassSection) (roomslots : List AS_RoomSlot)
    (times : Nat → Nat → Option AS_RoomSlot) : Nat → Nat → Option AS_RoomSlot :=
  fun teacherId timeslotId =>
    if teacherId ∈ sec.teachers.map AS_Teacher.id ∧
        timeslotId ∈ roomslots.map fun roomslot => roomslot.timeslot.id then none
    else times teacherId timeslotId

/-- Every key of a teacher's dictionary is a timeslot at which the teacher teaches. -/
def Sparse (schedule : AS_Schedule) (assignments : Assignments)
    (times : Nat → Nat → Option AS_RoomSlot) : Prop :=
  ∀ teacherId timeslotId, times teacherId timeslotId ≠ none →
    ∃ sec ∈ schedule.classSections, ∃ roomslot,
      Enters assignments sec teacherId timeslotId roomslot

/-- The dictionaries after a section moves from some roomslots to others. -/
def movedTimes (sec : AS_ClassSection) (oldRoomslots newRoomslots : List AS_RoomSlot)
    (times : Nat → Nat → Option AS_RoomSlot) : Nat → Nat → Option AS_RoomSlot :=
  enterAll sec newRoomslots (removeAll sec oldRoomslots times)

/-! ## Deleting -/

section Deleting

variable {roomslots : List AS_RoomSlot} {row rowAfter : Nat → Option AS_RoomSlot}
  {times timesAfter : Nat → Nat → Option AS_RoomSlot}

theorem delete_eq_ok (nodup : (roomslots.map fun roomslot => roomslot.timeslot.id).Nodup) :
    delete roomslots row = .ok rowAfter ↔
      (∀ roomslot ∈ roomslots, row roomslot.timeslot.id ≠ none) ∧
        rowAfter = fun timeslotId =>
          if timeslotId ∈ roomslots.map fun roomslot => roomslot.timeslot.id then none
          else row timeslotId := by
  induction roomslots generalizing row with
  | nil => simp [delete, eq_comm]
  | cons head rest ih =>
      obtain ⟨fresh, nodupRest⟩ := List.nodup_cons.mp nodup
      have others : ∀ roomslot ∈ rest,
          Function.update row head.timeslot.id none roomslot.timeslot.id =
            row roomslot.timeslot.id := by
        intro roomslot member
        apply Function.update_of_ne
        intro same
        exact fresh (List.mem_map.mpr ⟨roomslot, member, same⟩)
      have removed : (fun timeslotId =>
            if timeslotId ∈ rest.map fun roomslot => roomslot.timeslot.id then none
            else Function.update row head.timeslot.id none timeslotId) =
          fun timeslotId =>
            if timeslotId ∈ (head :: rest).map fun roomslot => roomslot.timeslot.id then none
            else row timeslotId := by
        funext timeslotId
        by_cases same : timeslotId = head.timeslot.id
        · subst same
          simp
        · simp [same]
      rw [delete]
      cases found : row head.timeslot.id with
      | none => simp [found]
      | some roomslot =>
          have restKept : (∀ roomslot ∈ rest,
              Function.update row head.timeslot.id none roomslot.timeslot.id ≠ none) ↔
                ∀ roomslot ∈ rest, row roomslot.timeslot.id ≠ none := by
            apply forall₂_congr
            intro roomslot member
            rw [others roomslot member]
          simp only [ih nodupRest, restKept, removed, List.forall_mem_cons, found, ne_eq,
            reduceCtorEq, not_false_eq_true, true_and]

theorem deleteAll_eq_ok {teacherIds : List Nat}
    (nodup : (roomslots.map fun roomslot => roomslot.timeslot.id).Nodup)
    (teachersNodup : teacherIds.Nodup) :
    deleteAll roomslots teacherIds times = .ok timesAfter ↔
      (∀ teacherId ∈ teacherIds, ∀ roomslot ∈ roomslots,
        times teacherId roomslot.timeslot.id ≠ none) ∧
        timesAfter = fun teacherId timeslotId =>
          if teacherId ∈ teacherIds ∧
              timeslotId ∈ roomslots.map fun roomslot => roomslot.timeslot.id then none
          else times teacherId timeslotId := by
  induction teacherIds generalizing times with
  | nil => simp [deleteAll, eq_comm]
  | cons head rest ih =>
      obtain ⟨fresh, nodupRest⟩ := List.nodup_cons.mp teachersNodup
      let removed := fun timeslotId =>
        if timeslotId ∈ roomslots.map fun roomslot => roomslot.timeslot.id then none
        else times head timeslotId
      have others : ∀ teacherId ∈ rest,
          Function.update times head removed teacherId = times teacherId := by
        intro teacherId member
        apply Function.update_of_ne
        intro same
        exact fresh (same ▸ member)
      have restKept : (∀ teacherId ∈ rest, ∀ roomslot ∈ roomslots,
          Function.update times head removed teacherId roomslot.timeslot.id ≠ none) ↔
            ∀ teacherId ∈ rest, ∀ roomslot ∈ roomslots,
              times teacherId roomslot.timeslot.id ≠ none := by
        apply forall₂_congr
        intro teacherId member
        rw [others teacherId member]
      have both : (fun teacherId timeslotId =>
            if teacherId ∈ rest ∧
                timeslotId ∈ roomslots.map fun roomslot => roomslot.timeslot.id then none
            else Function.update times head removed teacherId timeslotId) =
          fun teacherId timeslotId =>
            if teacherId ∈ head :: rest ∧
                timeslotId ∈ roomslots.map fun roomslot => roomslot.timeslot.id then none
            else times teacherId timeslotId := by
        funext teacherId timeslotId
        by_cases same : teacherId = head
        · subst same
          simp [fresh, removed]
        · simp [same]
      simp only [deleteAll, bind_eq_ok, delete_eq_ok nodup, List.forall_mem_cons]
      constructor
      · rintro ⟨row, ⟨complete, rfl⟩, deleted⟩
        obtain ⟨completeRest, rfl⟩ := (ih nodupRest).mp deleted
        exact ⟨⟨complete, restKept.mp completeRest⟩, both⟩
      · rintro ⟨⟨complete, completeRest⟩, rfl⟩
        exact ⟨removed, ⟨complete, rfl⟩,
          (ih nodupRest).mpr ⟨restKept.mpr completeRest, both.symm⟩⟩

end Deleting

/-! ## The hooks -/

section Hooks

variable {schedule : AS_Schedule} {assignments : Assignments}
  {sec : AS_ClassSection} {roomslots : List AS_RoomSlot}
  {times timesAfter : Nat → Nat → Option AS_RoomSlot} {state : State}

theorem processSection_returns {first : AS_RoomSlot} {rest : List AS_RoomSlot}
    (registered : first.timeslot ∈ schedule.timeslots) :
    ∃ runningCount,
      processSection schedule times sec (first :: rest) = .ok runningCount := by
  obtain ⟨before, after, split⟩ := List.append_of_mem registered
  exact ⟨_, processSection_eq split⟩

theorem timeslot_of_registered {roomslot : AS_RoomSlot}
    (registered : roomslot ∈ schedule.roomslots) :
    roomslot.timeslot ∈ schedule.timeslots := by
  obtain ⟨roomListed, available⟩ := AS_Schedule.mem_roomslots.mp registered
  exact schedule.timeslotsRegistered _ roomListed _
    (AS_Classroom.timeslot_mem_of_mem available)

theorem runIds_nodup {room : AS_Classroom} (registered : room ∈ schedule.classrooms)
    (isRun : roomslots <:+: room.availability) :
    (roomslots.map fun roomslot => roomslot.timeslot.id).Nodup := by
  have nodup : roomslots.Nodup := room.availability_nodup.sublist isRun.sublist
  apply nodup.map_on
  intro left leftMember right rightMember sameId
  have listed : ∀ roomslot ∈ roomslots, roomslot.timeslot ∈ schedule.timeslots :=
    fun roomslot member => schedule.timeslotsRegistered room registered _
      (AS_Classroom.timeslot_mem_of_mem (isRun.subset member))
  have sameTimeslot : left.timeslot = right.timeslot :=
    List.inj_on_of_nodup_map schedule.timeslotIds (listed left leftMember)
      (listed right rightMember) sameId
  have leftRoom := AS_Classroom.room_eq_of_mem (isRun.subset leftMember)
  have rightRoom := AS_Classroom.room_eq_of_mem (isRun.subset rightMember)
  cases left
  cases right
  simp_all

theorem updateScheduleSection_enters {startRoomslot : AS_RoomSlot}
    (registered : startRoomslot ∈ schedule.roomslots) :
    ∃ runningCount, updateScheduleSection schedule assignments sec startRoomslot
        state =
      .ok ⟨enterAll sec (getRoomslotsByDuration startRoomslot sec.duration)
        state.timesTeacherIsTeaching, runningCount⟩ := by
  obtain ⟨first, rest, taken⟩ := List.exists_cons_of_ne_nil
    (@Change.run_ne_nil schedule _ sec.duration registered)
  have sameStart := getRoomslotsByDuration_head taken
  subst sameStart
  obtain ⟨runningCount, processed⟩ := @processSection_returns schedule sec
    (enterAll sec (first :: rest) state.timesTeacherIsTeaching) first rest
    (timeslot_of_registered registered)
  refine ⟨state.runningCount + runningCount, ?_⟩
  simp only [updateScheduleSection, taken, processed, ok_bind, pure_eq_ok]

/-- The hook for unscheduling returns exactly when the roomslots of the section were
entered, and removes them. -/
theorem updateUnscheduleSection_removes (placed : WellPlaced schedule assignments)
    (listed : sec ∈ schedule.classSections)
    (scheduled : assignments.assignedRoomslots sec ≠ []) :
    (∃ updated, updateUnscheduleSection schedule assignments sec state =
        .ok updated ∧ timesAfter = updated.timesTeacherIsTeaching) ↔
      Entered state.timesTeacherIsTeaching sec
          (assignments.assignedRoomslots sec) ∧
        timesAfter = removeAll sec (assignments.assignedRoomslots sec)
          state.timesTeacherIsTeaching := by
  obtain ⟨first, rest, held⟩ := List.exists_cons_of_ne_nil scheduled
  have registered := placed.timeslot_of_assigned listed
    (by simp [held] : first ∈ assignments.assignedRoomslots sec)
  obtain ⟨runningCount, processed⟩ := @processSection_returns schedule sec
    state.timesTeacherIsTeaching first rest registered
  rw [← held] at processed
  have deleted : deleteAll (assignments.assignedRoomslots sec)
        (sec.teachers.map AS_Teacher.id) state.timesTeacherIsTeaching =
          .ok timesAfter ↔
      Entered state.timesTeacherIsTeaching sec
          (assignments.assignedRoomslots sec) ∧
        timesAfter = removeAll sec (assignments.assignedRoomslots sec)
          state.timesTeacherIsTeaching :=
    deleteAll_eq_ok (assignedIds_nodup placed listed) (AS_Schedule.teacherIds_nodup listed)
  rw [← deleted]
  simp only [updateUnscheduleSection, processed, ok_bind, bind_eq_ok, pure_eq_ok,
    Except.ok.injEq]
  constructor
  · rintro ⟨_, ⟨_, removed, rfl⟩, rfl⟩
    exact removed
  · intro removed
    exact ⟨_, ⟨_, removed, rfl⟩, rfl⟩

theorem updateMoveSection_moves {startRoomslot : AS_RoomSlot}
    (placed : WellPlaced schedule assignments)
    (listed : sec ∈ schedule.classSections)
    (scheduled : assignments.assignedRoomslots sec ≠ [])
    (registered : startRoomslot ∈ schedule.roomslots) :
    (∃ updated, BaseScorer.updateMoveSection (updateScheduleSection schedule)
        (updateUnscheduleSection schedule) assignments sec startRoomslot state =
          .ok updated ∧ timesAfter = updated.timesTeacherIsTeaching) ↔
      Entered state.timesTeacherIsTeaching sec
          (assignments.assignedRoomslots sec) ∧
        timesAfter = movedTimes sec (assignments.assignedRoomslots sec)
          (getRoomslotsByDuration startRoomslot sec.duration)
          state.timesTeacherIsTeaching := by
  have removes := fun timesAfter =>
    @updateUnscheduleSection_removes schedule assignments sec timesAfter state
      placed listed scheduled
  simp only [BaseScorer.updateMoveSection, bind_eq_ok]
  constructor
  · rintro ⟨updated, ⟨middle, removed, entered⟩, rfl⟩
    obtain ⟨complete, sameTimes⟩ := (removes _).mp ⟨middle, removed, rfl⟩
    obtain ⟨runningCount, returned⟩ :=
      @updateScheduleSection_enters schedule assignments sec middle _ registered
    rw [returned] at entered
    cases entered
    exact ⟨complete, by rw [movedTimes, ← sameTimes]⟩
  · rintro ⟨complete, rfl⟩
    obtain ⟨middle, removed, sameTimes⟩ := (removes _).mpr ⟨complete, rfl⟩
    obtain ⟨runningCount, returned⟩ :=
      @updateScheduleSection_enters schedule assignments sec middle _ registered
    exact ⟨_, ⟨middle, removed, returned⟩, by rw [movedTimes, sameTimes]⟩

end Hooks

/-! ## The dictionaries after a change -/

section Changes

variable {schedule : AS_Schedule} {assignments : Assignments} {change : Change}
  {sec section1 section2 : AS_ClassSection} {roomslots taken : List AS_RoomSlot}
  {times timesAfter : Nat → Nat → Option AS_RoomSlot} {state : State}

/-- The roomslots that the second section of a swap takes from the first one, by
duration. -/
def exchanged (assignments : Assignments) (mover other : AS_ClassSection) :
    List AS_RoomSlot :=
  match assignments.assignedRoomslots other with
  | [] => []
  | first :: _ => getRoomslotsByDuration first mover.duration

/-- No key is missing that the hook for a change deletes. -/
def Complete (assignments : Assignments) (times : Nat → Nat → Option AS_RoomSlot) :
    Change → Prop
  | .schedule _ _ => True
  | .move sec _ | .unschedule sec =>
      Entered times sec (assignments.assignedRoomslots sec)
  | .swap section1 section2 =>
      Entered times section1 (assignments.assignedRoomslots section1) ∧
        Entered (movedTimes section1 (assignments.assignedRoomslots section1)
          (exchanged assignments section1 section2) times) section2
            (assignments.assignedRoomslots section2)

/-- The dictionaries after the hook for a change. -/
def changedTimes (assignments : Assignments) (times : Nat → Nat → Option AS_RoomSlot) :
    Change → Nat → Nat → Option AS_RoomSlot
  | .schedule sec startRoomslot =>
      enterAll sec (getRoomslotsByDuration startRoomslot sec.duration) times
  | .move sec startRoomslot =>
      movedTimes sec (assignments.assignedRoomslots sec)
        (getRoomslotsByDuration startRoomslot sec.duration) times
  | .unschedule sec =>
      removeAll sec (assignments.assignedRoomslots sec) times
  | .swap section1 section2 =>
      movedTimes section2 (assignments.assignedRoomslots section2)
        (exchanged assignments section2 section1)
        (movedTimes section1 (assignments.assignedRoomslots section1)
          (exchanged assignments section1 section2) times)

theorem updateScorer_eq_ok (placed : WellPlaced schedule assignments)
    (registered : change.Registered schedule) (possible : change.Possible assignments) :
    (∃ updated : State, change.updateScorer (TeachersWhoLikeRunningScorer schedule)
        assignments state = .ok updated ∧ timesAfter = updated.timesTeacherIsTeaching) ↔
      Complete assignments state.timesTeacherIsTeaching change ∧
        timesAfter = changedTimes assignments state.timesTeacherIsTeaching change := by
  cases change with
  | schedule sec startRoomslot =>
      obtain ⟨runningCount, returned⟩ :=
        @updateScheduleSection_enters schedule assignments sec state _ registered.2
      simp only [Change.updateScorer, TeachersWhoLikeRunningScorer, returned, Complete,
        changedTimes, Except.ok.injEq, exists_eq_left', true_and]
  | move sec startRoomslot =>
      exact updateMoveSection_moves placed registered.1 possible.1 registered.2
  | unschedule sec =>
      exact updateUnscheduleSection_removes placed registered possible
  | swap section1 section2 =>
      obtain ⟨listed1, listed2⟩ := registered
      obtain ⟨held1, held2, -⟩ := possible
      obtain ⟨start1, rest1, slots1⟩ := List.exists_cons_of_ne_nil held1
      obtain ⟨start2, rest2, slots2⟩ := List.exists_cons_of_ne_nil held2
      have registered1 : start1 ∈ schedule.roomslots :=
        placed.registered_of_assigned listed1 (by simp [slots1])
      have registered2 : start2 ∈ schedule.roomslots :=
        placed.registered_of_assigned listed2 (by simp [slots2])
      have moves1 := fun timesAfter =>
        @updateMoveSection_moves schedule assignments section1 timesAfter state _ placed
          listed1 held1 registered2
      have moves2 := fun (middle : State) timesAfter =>
        @updateMoveSection_moves schedule assignments section2 timesAfter middle _ placed
          listed2 held2 registered1
      have exchanged1 : exchanged assignments section1 section2 =
          getRoomslotsByDuration start2 section1.duration := by
        rw [exchanged, slots2]
      have exchanged2 : exchanged assignments section2 section1 =
          getRoomslotsByDuration start1 section2.duration := by
        rw [exchanged, slots1]
      have first1 : first (assignments.assignedRoomslots section1) = .ok start1 := by
        rw [slots1, first]
      have first2 : first (assignments.assignedRoomslots section2) = .ok start2 := by
        rw [slots2, first]
      simp only [Change.updateScorer, TeachersWhoLikeRunningScorer, Complete, changedTimes,
        BaseScorer.updateSwapSections, first1, first2, ok_bind, exchanged1, exchanged2,
        bind_eq_ok]
      constructor
      · rintro ⟨updated, ⟨middle, moved1, moved2⟩, rfl⟩
        obtain ⟨complete1, same1⟩ := (moves1 _).mp ⟨middle, moved1, rfl⟩
        obtain ⟨complete2, same2⟩ := (moves2 middle _).mp ⟨updated, moved2, rfl⟩
        rw [same1] at complete2 same2
        exact ⟨⟨complete1, complete2⟩, same2⟩
      · rintro ⟨⟨complete1, complete2⟩, rfl⟩
        obtain ⟨middle, moved1, same1⟩ := (moves1 _).mpr ⟨complete1, rfl⟩
        rw [same1] at complete2 ⊢
        obtain ⟨updated, moved2, same2⟩ := (moves2 middle _).mpr ⟨complete2, rfl⟩
        exact ⟨updated, ⟨middle, moved1, moved2⟩, same2⟩

theorem enterAll_ne_none (listed : sec ∈ schedule.classSections)
    (nodup : (roomslots.map fun roomslot => roomslot.timeslot.id).Nodup)
    {teacherId timeslotId : Nat} :
    enterAll sec roomslots times teacherId timeslotId ≠ none ↔
      times teacherId timeslotId ≠ none ∨
        teacherId ∈ sec.teachers.map AS_Teacher.id ∧
          timeslotId ∈ roomslots.map fun roomslot => roomslot.timeslot.id := by
  by_cases inside : teacherId ∈ sec.teachers.map AS_Teacher.id ∧
      timeslotId ∈ roomslots.map fun roomslot => roomslot.timeslot.id
  · obtain ⟨teaches, member⟩ := inside
    obtain ⟨roomslot, inRun, rfl⟩ := List.mem_map.mp member
    simp [enterAll_of_mem listed nodup teaches inRun, teaches, member]
  · rw [enterAll_of_notMem listed inside]
    exact (or_iff_left inside).symm

theorem Sparse.mono {more : Assignments} (sparse : Sparse schedule assignments times)
    (subset : ∀ sec ∈ schedule.classSections,
      assignments.assignedRoomslots sec ⊆ more.assignedRoomslots sec) :
    Sparse schedule more times := by
  intro teacherId timeslotId found
  obtain ⟨sec, listed, roomslot, teaches, assigned, sameId⟩ :=
    sparse teacherId timeslotId found
  exact ⟨sec, listed, roomslot, teaches, subset sec listed assigned, sameId⟩

theorem Sparse.enter (sparse : Sparse schedule assignments times)
    (listed : sec ∈ schedule.classSections)
    (unscheduled : assignments.assignedRoomslots sec = [])
    (nodup : (roomslots.map fun roomslot => roomslot.timeslot.id).Nodup) :
    Sparse schedule (assignments.acquire sec roomslots)
      (enterAll sec roomslots times) := by
  intro teacherId timeslotId found
  rcases (enterAll_ne_none listed nodup).mp found with before | ⟨teaches, member⟩
  · obtain ⟨other, otherListed, roomslot, enters⟩ := sparse teacherId timeslotId before
    have different : other ≠ sec := by
      intro same
      subst same
      simp [Enters, unscheduled] at enters
    refine ⟨other, otherListed, roomslot, ?_⟩
    rwa [Enters, Assignments.acquire_of_ne different, ← Enters]
  · obtain ⟨roomslot, inRun, sameId⟩ := List.mem_map.mp member
    refine ⟨sec, listed, roomslot, teaches, ?_, sameId⟩
    rwa [Assignments.acquire_self]

/-- Removing the roomslots that a section gives up leaves no key over. -/
theorem Sparse.remove (sparse : Sparse schedule assignments times)
    (sec : AS_ClassSection) :
    Sparse schedule (assignments.release sec)
      (removeAll sec (assignments.assignedRoomslots sec) times) := by
  intro teacherId timeslotId found
  rw [removeAll] at found
  split at found
  next => exact absurd rfl found
  next outside =>
    obtain ⟨other, otherListed, roomslot, enters⟩ := sparse teacherId timeslotId found
    have different : other ≠ sec := by
      intro same
      subst same
      obtain ⟨teaches, assigned, sameId⟩ := enters
      exact outside ⟨teaches, List.mem_map.mpr ⟨roomslot, assigned, sameId⟩⟩
    refine ⟨other, otherListed, roomslot, ?_⟩
    rwa [Enters, Assignments.release_of_ne different, ← Enters]

theorem prefix_of_exchanged (sound : Sound schedule assignments)
    (listed : section2 ∈ schedule.classSections)
    (sameDuration : section1.duration = section2.duration) :
    exchanged assignments section1 section2 <+: assignments.assignedRoomslots section2 := by
  rw [exchanged]
  split
  next => exact List.nil_prefix
  next first rest held =>
    rw [held, sameDuration]
    exact sound.retakes section2 listed first rest held

theorem prefixIds_nodup (sound : Sound schedule assignments)
    (listed : sec ∈ schedule.classSections)
    (isPrefix : taken <+: assignments.assignedRoomslots sec) :
    (taken.map fun roomslot => roomslot.timeslot.id).Nodup :=
  (assignedIds_nodup sound.placed listed).sublist (isPrefix.sublist.map _)

theorem Sparse.apply (sparse : Sparse schedule assignments times)
    (sound : Sound schedule assignments) (registered : change.Registered schedule)
    (possible : change.Possible assignments) (sameDuration : change.SameDuration) :
    Sparse schedule (change.apply assignments) (changedTimes assignments times change) := by
  cases change with
  | schedule sec startRoomslot =>
      obtain ⟨room, roomListed, isRun⟩ :=
        WellPlaced.run_of_start sec.duration registered.2
      exact sparse.enter registered.1 possible.1 (runIds_nodup roomListed isRun)
  | move sec startRoomslot =>
      obtain ⟨room, roomListed, isRun⟩ :=
        WellPlaced.run_of_start sec.duration registered.2
      exact (sparse.remove sec).enter registered.1 Assignments.release_self
        (runIds_nodup roomListed isRun)
  | unschedule sec => exact sparse.remove sec
  | swap section1 section2 =>
      obtain ⟨listed1, listed2⟩ := registered
      obtain ⟨-, -, different⟩ := possible
      have sameDuration : section1.duration = section2.duration := sameDuration
      have prefix1 := prefix_of_exchanged sound listed2 sameDuration
      have prefix2 := prefix_of_exchanged sound listed1 sameDuration.symm
      have moved1 := (sparse.remove section1).enter listed1 Assignments.release_self
        (prefixIds_nodup sound listed2 prefix1)
      have removed2 := moved1.remove section2
      rw [Assignments.acquire_of_ne different.symm,
        Assignments.release_of_ne different.symm] at removed2
      have moved2 := removed2.enter listed2 Assignments.release_self
        (prefixIds_nodup sound listed1 prefix2)
      apply moved2.mono
      intro other otherListed
      by_cases same2 : other = section2
      · subst same2
        rw [Assignments.acquire_self, Change.assigned_apply_swap_right]
        exact prefix2.subset
      · rw [Assignments.acquire_of_ne same2, Assignments.release_of_ne same2]
        by_cases same1 : other = section1
        · subst same1
          rw [Assignments.acquire_self, Change.assigned_apply_swap_left _ different]
          exact prefix1.subset
        · rw [Assignments.acquire_of_ne same1, Assignments.release_of_ne same1,
            Change.assigned_apply_of_notMem _ (by simp [Change.sections, same1, same2])]
          exact List.Subset.refl _

end Changes

/-! ## Undoing a change -/

section Undoing

variable {schedule : AS_Schedule} {assignments : Assignments} {change back : Change}
  {sec section1 section2 : AS_ClassSection} {roomslots taken : List AS_RoomSlot}
  {times : Nat → Nat → Option AS_RoomSlot}

theorem entered_enterAll (listed : sec ∈ schedule.classSections)
    (nodup : (roomslots.map fun roomslot => roomslot.timeslot.id).Nodup) :
    Entered (enterAll sec roomslots times) sec roomslots := by
  intro teacherId teaches roomslot member
  rw [enterAll_of_mem listed nodup teaches member]
  exact Option.some_ne_none roomslot

theorem movedTimes_of_unrelated {teacherId : Nat}
    (unrelated : teacherId ∉ sec.teachers.map AS_Teacher.id) :
    movedTimes sec roomslots taken times teacherId = times teacherId := by
  rw [movedTimes, enterAll_of_unrelated unrelated]
  funext timeslotId
  simp [removeAll, unrelated]

/-- What a section enters depends only on what its teachers' dictionaries were. -/
theorem movedTimes_congr {otherTimes : Nat → Nat → Option AS_RoomSlot} {teacherId : Nat}
    (listed : sec ∈ schedule.classSections)
    (teaches : teacherId ∈ sec.teachers.map AS_Teacher.id)
    (sameRow : times teacherId = otherTimes teacherId) :
    movedTimes sec roomslots taken times teacherId =
      movedTimes sec roomslots taken otherTimes teacherId := by
  have sameRemoved : removeAll sec roomslots times teacherId =
      removeAll sec roomslots otherTimes teacherId := by
    funext timeslotId
    rw [removeAll, removeAll, sameRow]
  have row : ∀ times, enterAll sec taken times teacherId =
      enter taken (times teacherId) :=
    fun _ => updateAll_of_mem (AS_Schedule.teacherIds_nodup listed) teaches
  rw [movedTimes, movedTimes, row, row, sameRemoved]

theorem entered_congr {otherTimes : Nat → Nat → Option AS_RoomSlot}
    (sameRows : ∀ teacherId ∈ sec.teachers.map AS_Teacher.id,
      times teacherId = otherTimes teacherId) :
    Entered times sec roomslots ↔ Entered otherTimes sec roomslots := by
  apply forall₂_congr
  intro teacherId teaches
  rw [sameRows teacherId teaches]

theorem entered_of_part (listed : sec ∈ schedule.classSections)
    (nodup : (roomslots.map fun roomslot => roomslot.timeslot.id).Nodup)
    (isPrefix : taken <+: roomslots)
    (idle : ∀ teacherId ∈ sec.teachers.map AS_Teacher.id, ∀ roomslot ∈ roomslots,
      times teacherId roomslot.timeslot.id = none) :
    Entered (enterAll sec taken times) sec roomslots ↔
      sec.teachers = [] ∨ taken = roomslots := by
  have takenNodup : (taken.map fun roomslot => roomslot.timeslot.id).Nodup :=
    nodup.sublist (isPrefix.sublist.map _)
  constructor
  · intro entered
    cases teachers : sec.teachers with
    | nil => exact Or.inl rfl
    | cons teacher rest =>
        right
        have teaches : teacher.id ∈ sec.teachers.map AS_Teacher.id := by
          simp [teachers]
        have subset : roomslots ⊆ taken := by
          intro roomslot member
          have found := entered teacher.id teaches roomslot member
          rcases (enterAll_ne_none listed takenNodup).mp found with before | ⟨-, inTaken⟩
          · exact absurd (idle teacher.id teaches roomslot member) before
          · obtain ⟨other, otherTaken, sameId⟩ := List.mem_map.mp inTaken
            have same : other = roomslot :=
              List.inj_on_of_nodup_map nodup (isPrefix.subset otherTaken) member sameId
            exact same ▸ otherTaken
        have shorter : roomslots.length ≤ taken.length :=
          (List.subperm_of_subset nodup.of_map subset).length_le
        exact isPrefix.eq_of_length_le shorter
  · intro whole
    rcases whole with untaught | same
    · intro teacherId teaches
      simp [untaught] at teaches
    · subst same
      exact entered_enterAll listed takenNodup

theorem idle_of_swap (sparse : Sparse schedule assignments times)
    {after : Assignments} (soundAfter : Sound schedule after)
    (listed1 : section1 ∈ schedule.classSections)
    (disjoint : ∀ teacherId ∈ section1.teachers.map AS_Teacher.id,
      teacherId ∉ section2.teachers.map AS_Teacher.id)
    (gets : after.assignedRoomslots section1 = assignments.assignedRoomslots section2)
    (others : ∀ other, other ≠ section1 → other ≠ section2 →
      after.assignedRoomslots other = assignments.assignedRoomslots other) :
    ∀ teacherId ∈ section1.teachers.map AS_Teacher.id,
      ∀ roomslot ∈ assignments.assignedRoomslots section2,
        removeAll section1 (assignments.assignedRoomslots section1) times teacherId
          roomslot.timeslot.id = none := by
  intro teacherId teaches roomslot member
  by_contra found
  rw [removeAll] at found
  split at found
  next => exact found rfl
  next outside =>
    obtain ⟨other, otherListed, otherSlot, enters⟩ := sparse _ _ found
    have notFirst : other ≠ section1 := by
      intro same
      subst same
      obtain ⟨-, assigned, sameId⟩ := enters
      exact outside ⟨teaches, List.mem_map.mpr ⟨otherSlot, assigned, sameId⟩⟩
    have notSecond : other ≠ section2 := by
      intro same
      subst same
      exact disjoint teacherId teaches enters.1
    have entersAfter : Enters after other teacherId roomslot.timeslot.id otherSlot := by
      rwa [Enters, others other notFirst notSecond, ← Enters]
    have ownEnters : Enters after section1 teacherId roomslot.timeslot.id roomslot := by
      refine ⟨teaches, ?_, rfl⟩
      rwa [gets]
    exact notFirst (enters_unique soundAfter.placed soundAfter.teachersApart otherListed
      listed1 entersAfter ownEnters).1

theorem exchanged_eq_iff (held : assignments.assignedRoomslots section2 ≠ [])
    (sameDuration : section1.duration = section2.duration) :
    exchanged assignments section1 section2 = assignments.assignedRoomslots section2 ↔
      Canonical assignments section2 := by
  obtain ⟨first, rest, slots⟩ := List.exists_cons_of_ne_nil held
  rw [exchanged, Canonical, slots, sameDuration]
  constructor
  · intro taken head tail same
    cases same
    exact taken
  · intro canonical
    exact canonical first rest rfl

/-- Undoing a change finds all the keys that it deletes, unless a section with teachers
was swapped with one that has more roomslots than its duration takes. -/
theorem complete_inverse (sparse : Sparse schedule assignments times)
    (sound : Sound schedule assignments) (registered : change.Registered schedule)
    (possible : change.Possible assignments)
    (sane : change.IsSwap → Admissible schedule assignments change)
    (inverse : Change.Inverse assignments change back) :
    Complete (change.apply assignments) (changedTimes assignments times change) back ↔
      change.Separable assignments := by
  cases inverse with
  | @schedule sec startRoomslot =>
      obtain ⟨room, roomListed, isRun⟩ :=
        WellPlaced.run_of_start sec.duration registered.2
      rw [Complete, Change.assigned_apply_schedule]
      exact iff_of_true (entered_enterAll registered.1 (runIds_nodup roomListed isRun)) trivial
  | @move sec startRoomslot prevStartRoomslot rest held =>
      obtain ⟨room, roomListed, isRun⟩ :=
        WellPlaced.run_of_start sec.duration registered.2
      rw [Complete, Change.assigned_apply_move]
      exact iff_of_true (entered_enterAll registered.1 (runIds_nodup roomListed isRun)) trivial
  | unschedule held => exact iff_of_true trivial trivial
  | @swap section1 section2 =>
      have admissible := sane trivial
      obtain ⟨listed1, listed2⟩ := registered
      obtain ⟨held1, held2, different⟩ := possible
      obtain ⟨sameDuration, disjoint⟩ := admissible.exchangeable
      have apart1 := AS_Schedule.disjoint_teacherIds listed1 listed2 disjoint
      have apart2 : ∀ teacherId ∈ section2.teachers.map AS_Teacher.id,
          teacherId ∉ section1.teachers.map AS_Teacher.id :=
        fun teacherId teaches2 teaches1 => apart1 teacherId teaches1 teaches2
      have left := Change.assigned_apply_swap_left assignments different
      have right := Change.assigned_apply_swap_right assignments section1 section2
      have others : ∀ other, other ≠ section1 → other ≠ section2 →
          ((Change.swap section1 section2).apply assignments).assignedRoomslots other =
            assignments.assignedRoomslots other := by
        intro other not1 not2
        exact Change.assigned_apply_of_notMem _ (by simp [Change.sections, not1, not2])
      have idle1 := idle_of_swap sparse admissible.sound listed1 apart1 left others
      have idle2 := idle_of_swap sparse admissible.sound listed2 apart2 right
        fun other not2 not1 => others other not1 not2
      -- The dictionaries of one section's teachers do not depend on the other section.
      have rows1 : ∀ teacherId ∈ section1.teachers.map AS_Teacher.id,
          changedTimes assignments times (.swap section1 section2) teacherId =
            movedTimes section1 (assignments.assignedRoomslots section1)
              (exchanged assignments section1 section2) times teacherId :=
        fun teacherId teaches => movedTimes_of_unrelated (apart1 teacherId teaches)
      have rows2 : ∀ teacherId ∈ section2.teachers.map AS_Teacher.id,
          changedTimes assignments times (.swap section1 section2) teacherId =
            movedTimes section2 (assignments.assignedRoomslots section2)
              (exchanged assignments section2 section1) times teacherId := by
        intro teacherId teaches
        apply movedTimes_congr listed2 teaches
        exact movedTimes_of_unrelated (apart2 teacherId teaches)
      have whole1 := entered_of_part listed1 (assignedIds_nodup sound.placed listed2)
        (prefix_of_exchanged sound listed2 sameDuration) idle1
      have whole2 := entered_of_part listed2 (assignedIds_nodup sound.placed listed1)
        (prefix_of_exchanged sound listed1 sameDuration.symm) idle2
      rw [exchanged_eq_iff held2 sameDuration] at whole1
      rw [exchanged_eq_iff held1 sameDuration.symm] at whole2
      rw [Complete, left, right]
      apply and_congr
      · exact (entered_congr rows1).trans whole1
      · refine (entered_congr fun teacherId teaches => ?_).trans whole2
        rw [movedTimes_of_unrelated (apart2 teacherId teaches)]
        exact rows2 teacherId teaches

end Undoing

end TeachersWhoLikeRunningScorer

end EspWebsite.Autoscheduler
