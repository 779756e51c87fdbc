import EspWebsite.Autoscheduler.Scoring.RunningHooks

/-!
# How often teachers run

A teacher who runs comes from one section to the start of another one.  In a sound
schedule a teacher therefore runs less often than there are sections to teach.
-/

namespace EspWebsite.Autoscheduler

open Python

namespace TeachersWhoLikeRunningScorer

def starts (schedule : AS_Schedule) (assignments : Assignments) (teacherId : Nat)
    (timeslot : AS_Timeslot) : Bool :=
  schedule.classSections.any fun sec =>
    teacherId ∈ sec.teachers.map AS_Teacher.id &&
      (assignments.assignedRoomslots sec).head?.map AS_RoomSlot.timeslot = some timeslot

/-- How often teachers can run at most: each one once less than the sections to teach. -/
def mostRuns (schedule : AS_Schedule) : Nat :=
  (schedule.teachers.map fun teacher => (schedule.taughtSections teacher).length - 1).sum

section Bound

variable {schedule : AS_Schedule} {assignments : Assignments} {teacherId : Nat}
  {before after : List AS_Timeslot} {previous timeslot : AS_Timeslot} {roomslot : AS_RoomSlot}

theorem starts_iff : starts schedule assignments teacherId timeslot = true ↔
    ∃ sec ∈ schedule.classSections,
      teacherId ∈ sec.teachers.map AS_Teacher.id ∧
        (assignments.assignedRoomslots sec).head?.map AS_RoomSlot.timeslot =
          some timeslot := by
  simp only [starts, List.any_eq_true, Bool.and_eq_true, decide_eq_true_eq]

/-- The timeslots before one at which a section is taught end with those at which it was
taught before. -/
theorem exists_earlier (checked : checkTimeslotConsistency schedule = .ok ())
    (sound : Sound schedule assignments)
    (split : schedule.timeslots = before ++ timeslot :: after)
    (teaches : timesTeaching schedule assignments teacherId timeslot.id = some roomslot) :
    ∃ sec ∈ schedule.classSections,
      teacherId ∈ sec.teachers.map AS_Teacher.id ∧
        ∃ earlier later start, assignments.assignedRoomslots sec =
            earlier ++ roomslot :: later ∧ roomslot.timeslot = timeslot ∧
          before = start ++ earlier.map AS_RoomSlot.timeslot := by
  obtain ⟨sec, listed, member, assigned, sameId⟩ :=
    (timesTeaching_eq_some sound.placed sound.teachersApart).mp teaches
  have isTimeslot : timeslot ∈ schedule.timeslots := by simp [split]
  have same : roomslot.timeslot = timeslot :=
    List.inj_on_of_nodup_map schedule.timeslotIds
      (sound.placed.timeslot_of_assigned listed assigned) isTimeslot sameId
  have scheduled := List.ne_nil_of_mem assigned
  have neighbours := neighbours_of_fits checked (sound.fits sec listed scheduled)
    scheduled
  obtain ⟨start, rest, around⟩ := neighbours
  obtain ⟨earlier, later, holds⟩ := List.append_of_mem assigned
  refine ⟨sec, listed, member, earlier, later, start, holds, same, ?_⟩
  have nodup := timeslots_nodup schedule
  have aroundTimeslot : schedule.timeslots = (start ++ earlier.map AS_RoomSlot.timeslot) ++
      timeslot :: (later.map AS_RoomSlot.timeslot ++ rest) := by
    rw [around, holds]
    simp [same]
  rw [split] at nodup
  have notBefore : timeslot ∉ before := by
    intro earlier
    exact (List.nodup_append.mp nodup).2.2 _ earlier _ List.mem_cons_self rfl
  have notAfter : timeslot ∉ after :=
    (List.nodup_cons.mp (List.nodup_append.mp nodup).2.1).1
  rw [split] at aroundTimeslot
  exact ((List.append_cons_inj_of_notMem notBefore notAfter).mp aroundTimeslot).1

theorem exists_starts (checked : checkTimeslotConsistency schedule = .ok ())
    (sound : Sound schedule assignments)
    (split : schedule.timeslots = before ++ timeslot :: after)
    (teaches : timesTeaching schedule assignments teacherId timeslot.id = some roomslot) :
    (before ++ [timeslot]).any (starts schedule assignments teacherId) = true := by
  obtain ⟨sec, listed, member, earlier, later, start, holds, same, isBefore⟩ :=
    exists_earlier checked sound split teaches
  rw [List.any_eq_true]
  cases earlier with
  | nil =>
      refine ⟨timeslot, by simp, starts_iff.mpr ⟨sec, listed, member, ?_⟩⟩
      rw [holds, List.nil_append, List.head?_cons, Option.map_some, same]
  | cons first earlier =>
      refine ⟨first.timeslot, by simp [isBefore], ?_⟩
      refine starts_iff.mpr ⟨sec, listed, member, ?_⟩
      rw [holds]
      rfl

theorem starts_of_changesRoom (checked : checkTimeslotConsistency schedule = .ok ())
    (sound : Sound schedule assignments)
    (split : schedule.timeslots = before ++ previous :: timeslot :: after)
    (changes : changesRoom (timesTeaching schedule assignments teacherId) previous timeslot =
      true) :
    (before ++ [previous]).any (starts schedule assignments teacherId) = true ∧
      starts schedule assignments teacherId timeslot = true := by
  rw [changesRoom] at changes
  split at changes
  next roomslot1 roomslot2 found1 found2 =>
    have differentRooms : roomslot1.room ≠ roomslot2.room := by simpa using changes
    refine ⟨exists_starts checked sound split found1, ?_⟩
    have splitNext : schedule.timeslots = (before ++ [previous]) ++ timeslot :: after := by
      simpa using split
    obtain ⟨sec, listed, member, earlier, later, start, holds, same, isBefore⟩ :=
      exists_earlier checked sound splitNext found2
    cases List.eq_nil_or_concat earlier with
    | inl none =>
        refine starts_iff.mpr ⟨sec, listed, member, ?_⟩
        rw [holds, none, List.nil_append, List.head?_cons, Option.map_some, same]
    | inr some =>
        -- The section was taught at the previous timeslot already, in the same room.
        obtain ⟨first, last, isConcat⟩ := some
        have samePrevious : previous = last.timeslot := by
          rw [isConcat, List.concat_eq_append, List.map_append, ← List.append_assoc] at isBefore
          have tails := (List.append_inj' isBefore rfl).2
          simpa using tails
        have assignedLast : last ∈ assignments.assignedRoomslots sec := by
          simp [holds, isConcat]
        have assigned2 : roomslot2 ∈ assignments.assignedRoomslots sec := by
          simp [holds]
        have foundLast : timesTeaching schedule assignments teacherId previous.id = some last :=
          (timesTeaching_eq_some sound.placed sound.teachersApart).mpr
            ⟨sec, listed, member, assignedLast, by rw [samePrevious]⟩
        rw [found1, Option.some.injEq] at foundLast
        obtain ⟨room, registered, isRun⟩ :=
          sound.placed.runs sec listed (List.ne_nil_of_mem assigned2)
        refine absurd ?_ differentRooms
        rw [foundLast, AS_Classroom.room_eq_of_mem (isRun.subset assignedLast),
          AS_Classroom.room_eq_of_mem (isRun.subset assigned2)]
  next => cases changes

/-- Between two timeslots a teacher does not run, or runs once, to the start of a section. -/
theorem boundary_cases (checked : checkTimeslotConsistency schedule = .ok ())
    (sound : Sound schedule assignments)
    (split : schedule.timeslots = before ++ timeslot :: after) :
    boundary (timesTeaching schedule assignments teacherId) before [timeslot] = 0 ∨
      boundary (timesTeaching schedule assignments teacherId) before [timeslot] = 1 ∧
        before.any (starts schedule assignments teacherId) = true ∧
          starts schedule assignments teacherId timeslot = true := by
  cases List.eq_nil_or_concat before with
  | inl none =>
      rw [none]
      exact .inl rfl
  | inr some =>
      obtain ⟨first, previous, isConcat⟩ := some
      rw [List.concat_eq_append] at isConcat
      subst isConcat
      have splitPrevious : schedule.timeslots = first ++ previous :: timeslot :: after := by
        simpa using split
      have passing : boundary (timesTeaching schedule assignments teacherId)
          (first ++ [previous]) [timeslot] =
            runs (timesTeaching schedule assignments teacherId) previous timeslot := by
        simp [boundary]
      rw [passing, runs]
      split
      next isRun =>
        rw [Bool.and_eq_true] at isRun
        exact .inr ⟨rfl, starts_of_changesRoom checked sound splitPrevious isRun.2⟩
      next => exact .inl rfl

theorem countRuns_le_starts (checked : checkTimeslotConsistency schedule = .ok ())
    (sound : Sound schedule assignments) (timeslots : List AS_Timeslot)
    (split : schedule.timeslots = timeslots ++ after) :
    countRuns (timesTeaching schedule assignments teacherId) timeslots +
        (if timeslots.any (starts schedule assignments teacherId) then 1 else 0) ≤
      timeslots.countP (starts schedule assignments teacherId) := by
  induction timeslots using List.reverseRecOn generalizing after with
  | nil => simp [countRuns]
  | append_singleton earlier timeslot ih =>
      have splitEarlier : schedule.timeslots = earlier ++ (timeslot :: after) := by
        simpa using split
      have before := ih splitEarlier
      have alone : countRuns (timesTeaching schedule assignments teacherId) [timeslot] = 0 := rfl
      rw [countRuns_append, alone, add_zero, List.any_append, List.countP_append,
        List.any_cons, List.any_nil, Bool.or_false, List.countP_singleton, Nat.cast_add]
      have passing : boundary (timesTeaching schedule assignments teacherId) earlier [timeslot] =
          0 ∨ _ := boundary_cases checked sound splitEarlier
      cases passing with
      | inl stays =>
          rw [stays, add_zero]
          cases starts schedule assignments teacherId timeslot with
          | false => simpa using before
          | true =>
              rw [Bool.or_true, if_pos rfl, if_pos rfl, Nat.cast_one]
              split at before <;> linarith
      | inr isRun =>
          obtain ⟨one, started, isStart⟩ := isRun
          rw [started, if_pos rfl] at before
          rw [one, started, isStart, Bool.true_or, if_pos rfl, if_pos rfl, Nat.cast_one]
          linarith

theorem starts_le_taught {teacher : AS_Teacher} (isTeacher : teacher ∈ schedule.teachers) :
    schedule.timeslots.countP (starts schedule assignments teacher.id) ≤
      (schedule.taughtSections teacher).length := by
  have isStart : schedule.timeslots.filter (starts schedule assignments teacher.id) ⊆
      (schedule.taughtSections teacher).filterMap fun sec =>
        (assignments.assignedRoomslots sec).head?.map AS_RoomSlot.timeslot := by
    intro timeslot member
    obtain ⟨sec, listed, teaches, start⟩ :=
      starts_iff.mp (List.mem_filter.mp member).2
    obtain ⟨other, isOther, sameId⟩ := List.mem_map.mp teaches
    have same : other = teacher := List.inj_on_of_nodup_map schedule.teacherIds
      (schedule.teachersRegistered sec listed other isOther) isTeacher sameId
    refine List.mem_filterMap.mpr ⟨sec, ?_, start⟩
    exact AS_Schedule.mem_taughtSections.mpr ⟨listed, same ▸ isOther⟩
  rw [List.countP_eq_length_filter]
  have nodup := (timeslots_nodup schedule).filter (starts schedule assignments teacher.id)
  exact (nodup.subperm isStart).length_le.trans (List.length_filterMap_le _ _)

theorem countRuns_le_taught (checked : checkTimeslotConsistency schedule = .ok ())
    (sound : Sound schedule assignments) {teacher : AS_Teacher}
    (isTeacher : teacher ∈ schedule.teachers) :
    countRuns (timesTeaching schedule assignments teacher.id) schedule.timeslots ≤
      ((schedule.taughtSections teacher).length - 1 : Nat) := by
  have counted : countRuns (timesTeaching schedule assignments teacher.id) schedule.timeslots +
      (if schedule.timeslots.any (starts schedule assignments teacher.id) then 1 else 0) ≤
        schedule.timeslots.countP (starts schedule assignments teacher.id) :=
    countRuns_le_starts checked sound schedule.timeslots (List.append_nil _).symm
  have fewer : schedule.timeslots.countP (starts schedule assignments teacher.id) ≤
      (schedule.taughtSections teacher).length := starts_le_taught isTeacher
  split at counted
  next started =>
    obtain ⟨timeslot, listed, isStart⟩ := List.any_eq_true.mp started
    have positive : 0 < schedule.timeslots.countP (starts schedule assignments teacher.id) :=
      List.countP_pos_iff.mpr ⟨timeslot, listed, isStart⟩
    have least : ((schedule.timeslots.countP (starts schedule assignments teacher.id) : Nat) : ℚ) ≤
        ((schedule.taughtSections teacher).length - 1 : Nat) + 1 := by
      exact_mod_cast (by omega : _ ≤ (schedule.taughtSections teacher).length - 1 + 1)
    linarith
  next idle =>
    have none : schedule.timeslots.countP (starts schedule assignments teacher.id) = 0 := by
      rw [List.countP_eq_zero]
      intro timeslot listed isStart
      exact idle (List.any_eq_true.mpr ⟨timeslot, listed, isStart⟩)
    rw [none, add_zero, Nat.cast_zero] at counted
    exact counted.trans (Nat.cast_nonneg _)

theorem countRuns_nonneg (row : Nat → Option AS_RoomSlot) (timeslots : List AS_Timeslot) :
    0 ≤ countRuns row timeslots := by
  induction timeslots with
  | nil => exact le_refl _
  | cons timeslot timeslots ih =>
      cases timeslots with
      | nil => exact le_refl _
      | cons nextTimeslot rest =>
          have one : 0 ≤ runs row timeslot nextTimeslot := by
            rw [runs]
            split <;> norm_num
          exact add_nonneg one ih

theorem freshCount_nonneg : 0 ≤ freshCount schedule assignments := by
  apply List.sum_nonneg
  intro count member
  obtain ⟨teacherId, _, same⟩ := List.mem_map.mp member
  rw [← same]
  exact countRuns_nonneg _ _

/-- A sound schedule has no more runs than teachers can run at most. -/
theorem freshCount_le (checked : checkTimeslotConsistency schedule = .ok ())
    (sound : Sound schedule assignments) :
    freshCount schedule assignments ≤ mostRuns schedule := by
  rw [freshCount, totalRuns, mostRuns, List.map_map, Nat.cast_list_sum, List.map_map]
  apply List.sum_le_sum
  intro teacher isTeacher
  exact countRuns_le_taught checked sound isTeacher

end Bound

end TeachersWhoLikeRunningScorer

end EspWebsite.Autoscheduler
