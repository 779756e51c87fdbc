import EspWebsite.Autoscheduler.Scoring.Following
import EspWebsite.Autoscheduler.Scoring.RoomslotScorers

/-!
# The scorer of hungry teachers

`HungryTeacherScorer` knows for each teacher in which lunch timeslots the teacher
teaches, and which teachers teach in all lunch timeslots of a day.
-/

namespace EspWebsite.Autoscheduler

open Python

variable (schedule : AS_Schedule)

namespace HungryTeacherScorer

/-- The state: `lunch_timeslots_by_teacher`, by teacher id and timeslot id, and the ids in
`hungry_teachers`. -/
structure State where
  lunchTimeslotsByTeacher : Nat → Nat → Bool
  hungryTeachers : Finset Nat

/-- Whether the id is a key of the dictionaries of lunch timeslots. -/
def isLunch (timeslotId : Nat) : Bool :=
  LunchStudentClassHoursScorer.isLunch schedule timeslotId

/-- Whether all lunch timeslots of a day are taught. -/
def isHungry (timeslotsTeaching : Nat → Bool) : Bool :=
  schedule.lunchTimeslots.any fun entry =>
    entry.2.all fun timeslot => timeslotsTeaching timeslot.id

def updateTeacherHungriness (state : State) (teacherId : Nat) : State :=
  if isHungry schedule (state.lunchTimeslotsByTeacher teacherId) then
    { state with hungryTeachers := insert teacherId state.hungryTeachers }
  else { state with hungryTeachers := state.hungryTeachers.erase teacherId }

/-- The inner loops of the hooks: the lunch timeslots among the roomslots are marked. -/
def markTimeslots (roomslots : List AS_RoomSlot) (teaching : Bool)
    (timeslotsTeaching : Nat → Bool) : Nat → Bool :=
  roomslots.foldl (fun timeslotsTeaching roomslot =>
    if isLunch schedule roomslot.timeslot.id then
      Function.update timeslotsTeaching roomslot.timeslot.id teaching
    else timeslotsTeaching) timeslotsTeaching

/-- The loop of `update_schedule` over the teachers of a section. -/
def markTeachers (roomslots : List AS_RoomSlot) (teaching : Bool)
    (teachers : List AS_Teacher) (byTeacher : Nat → Nat → Bool) : Nat → Nat → Bool :=
  teachers.foldl (fun byTeacher teacher =>
    Function.update byTeacher teacher.id
      (markTimeslots schedule roomslots teaching (byTeacher teacher.id))) byTeacher

/-- The outer loop of the hooks: each teacher's timeslots are marked, then the teacher's
hungriness is updated. -/
def updateTeachers (roomslots : List AS_RoomSlot) (teaching : Bool)
    (teachers : List AS_Teacher) (state : State) : State :=
  teachers.foldl (fun state teacher =>
    updateTeacherHungriness schedule
      { state with
        lunchTimeslotsByTeacher := Function.update state.lunchTimeslotsByTeacher teacher.id
          (markTimeslots schedule roomslots teaching
            (state.lunchTimeslotsByTeacher teacher.id)) }
      teacher.id) state

/-- The dictionary that `update_schedule` builds. -/
def taught (assignments : Assignments) : Nat → Nat → Bool :=
  schedule.classSections.foldl (fun byTeacher sec =>
    markTeachers schedule (assignments.assignedRoomslots sec) true
      sec.teachers byTeacher) fun _ _ => false

/-- The scaling that `update_schedule` sets. -/
def computeScaling : Raises ℚ :=
  let totalTeachers : ℚ := schedule.teachers.length
  let numSectionTeachers : ℚ :=
    (schedule.classSections.map fun sec => (sec.teachers.length : ℚ)).sum
  div totalTeachers numSectionTeachers

def updateSchedule (assignments : Assignments) : Raises State := do
  let state := (schedule.teachers.map AS_Teacher.id).foldl (updateTeacherHungriness schedule)
    ⟨taught schedule assignments, ∅⟩
  let _ ← computeScaling schedule
  return state

def updateScheduleSection (_ : Assignments) (sec : AS_ClassSection)
    (startRoomslot : AS_RoomSlot) (state : State) : Raises State :=
  let roomslots := getRoomslotsByDuration startRoomslot sec.duration
  .ok (updateTeachers schedule roomslots true sec.teachers state)

def updateUnscheduleSection (assignments : Assignments) (sec : AS_ClassSection)
    (state : State) : Raises State :=
  .ok (updateTeachers schedule (assignments.assignedRoomslots sec) false
    sec.teachers state)

end HungryTeacherScorer

/-- Avoids teachers having to teach during all blocks of lunch. -/
def HungryTeacherScorer : Scorer schedule where
  State := HungryTeacherScorer.State
  scaling := resultOr 1 (HungryTeacherScorer.computeScaling schedule)
  updateSchedule := HungryTeacherScorer.updateSchedule schedule
  scoreSchedule state := do
    let hungry ← div state.hungryTeachers.card schedule.teachers.length
    return 1 - hungry
  updateScheduleSection := HungryTeacherScorer.updateScheduleSection schedule
  updateUnscheduleSection := HungryTeacherScorer.updateUnscheduleSection schedule
  updateMoveSection := BaseScorer.updateMoveSection
    (HungryTeacherScorer.updateScheduleSection schedule)
    (HungryTeacherScorer.updateUnscheduleSection schedule)
  updateSwapSections := BaseScorer.updateSwapSections
    (HungryTeacherScorer.updateScheduleSection schedule)
    (HungryTeacherScorer.updateUnscheduleSection schedule)

namespace HungryTeacherScorer

variable {schedule : AS_Schedule} {assignments : Assignments} {teachers : List AS_Teacher}
  {sec section1 section2 : AS_ClassSection} {roomslots : List AS_RoomSlot}
  {teaching : Bool} {byTeacher : Nat → Nat → Bool} {teacherId timeslotId : Nat}

/-! ## The set of hungry teachers -/

/-- The state in which the hungry teachers are the ones that the dictionary shows. -/
def summary (schedule : AS_Schedule) (byTeacher : Nat → Nat → Bool) : State where
  lunchTimeslotsByTeacher := byTeacher
  hungryTeachers := (schedule.teachers.map AS_Teacher.id).toFinset.filter
    fun teacherId => isHungry schedule (byTeacher teacherId)

theorem mem_updateTeacherHungriness {state : State} {updated : Nat} :
    teacherId ∈ (updateTeacherHungriness schedule state updated).hungryTeachers ↔
      if teacherId = updated then
        isHungry schedule (state.lunchTimeslotsByTeacher updated) = true
      else teacherId ∈ state.hungryTeachers := by
  rw [updateTeacherHungriness]
  split <;> split <;> simp_all

@[simp] theorem updateTeacherHungriness_byTeacher {state : State} {updated : Nat} :
    (updateTeacherHungriness schedule state updated).lunchTimeslotsByTeacher =
      state.lunchTimeslotsByTeacher := by
  rw [updateTeacherHungriness]
  split <;> rfl

theorem ext {left right : State}
    (sameTimeslots : left.lunchTimeslotsByTeacher = right.lunchTimeslotsByTeacher)
    (sameTeachers : left.hungryTeachers = right.hungryTeachers) : left = right := by
  cases left
  cases right
  cases sameTimeslots
  cases sameTeachers
  rfl

theorem updateTeacherHungriness_update {timeslotsTeaching : Nat → Bool}
    (registered : teacherId ∈ schedule.teachers.map AS_Teacher.id) :
    updateTeacherHungriness schedule
        { summary schedule byTeacher with
          lunchTimeslotsByTeacher := Function.update byTeacher teacherId timeslotsTeaching }
        teacherId =
      summary schedule (Function.update byTeacher teacherId timeslotsTeaching) := by
  apply ext
  · exact updateTeacherHungriness_byTeacher
  · ext other
    rw [mem_updateTeacherHungriness]
    by_cases same : other = teacherId
    · subst same
      simp only [if_true, Function.update_self, summary, Finset.mem_filter, List.mem_toFinset,
        registered, true_and]
    · simp only [if_neg same, summary, Finset.mem_filter, Function.update_of_ne same]

theorem updateTeachers_summary
    (registered : ∀ teacher ∈ teachers, teacher ∈ schedule.teachers) :
    updateTeachers schedule roomslots teaching teachers (summary schedule byTeacher) =
      summary schedule (markTeachers schedule roomslots teaching teachers byTeacher) := by
  induction teachers generalizing byTeacher with
  | nil => rfl
  | cons teacher teachers ih =>
      have listed : teacher.id ∈ schedule.teachers.map AS_Teacher.id :=
        List.mem_map_of_mem (registered teacher List.mem_cons_self)
      rw [updateTeachers, List.foldl_cons, markTeachers, List.foldl_cons]
      have updated := @updateTeacherHungriness_update schedule byTeacher teacher.id
        (markTimeslots schedule roomslots teaching (byTeacher teacher.id)) listed
      have registeredRest : ∀ other ∈ teachers, other ∈ schedule.teachers :=
        fun other member => registered other (List.mem_cons_of_mem _ member)
      rw [← updateTeachers, ← markTeachers, ← ih registeredRest, ← updated]
      rfl

theorem mem_foldl_updateTeacherHungriness (teacherIds : List Nat) {state : State} :
    teacherId ∈ (teacherIds.foldl (updateTeacherHungriness schedule) state).hungryTeachers ↔
      if teacherId ∈ teacherIds then
        isHungry schedule (state.lunchTimeslotsByTeacher teacherId) = true
      else teacherId ∈ state.hungryTeachers := by
  induction teacherIds generalizing state with
  | nil => simp
  | cons head teacherIds ih =>
      rw [List.foldl_cons, ih, updateTeacherHungriness_byTeacher, mem_updateTeacherHungriness]
      by_cases same : teacherId = head
      · subst same
        simp
      · simp [same]

theorem foldl_updateTeacherHungriness_byTeacher (teacherIds : List Nat) {state : State} :
    (teacherIds.foldl (updateTeacherHungriness schedule) state).lunchTimeslotsByTeacher =
      state.lunchTimeslotsByTeacher := by
  induction teacherIds generalizing state with
  | nil => rfl
  | cons head teacherIds ih =>
      rw [List.foldl_cons, ih, updateTeacherHungriness_byTeacher]

theorem updateSchedule_eq_ok {state : State} :
    updateSchedule schedule assignments = .ok state ↔
      (∃ scaling, computeScaling schedule = .ok scaling) ∧
        state = summary schedule (taught schedule assignments) := by
  have summed : (schedule.teachers.map AS_Teacher.id).foldl (updateTeacherHungriness schedule)
      ⟨taught schedule assignments, ∅⟩ = summary schedule (taught schedule assignments) := by
    apply ext
    · exact foldl_updateTeacherHungriness_byTeacher _
    · ext teacherId
      rw [mem_foldl_updateTeacherHungriness]
      by_cases registered : teacherId ∈ schedule.teachers.map AS_Teacher.id
      · rw [if_pos registered]
        simp only [summary, Finset.mem_filter, List.mem_toFinset, registered, true_and]
      · rw [if_neg registered]
        simp only [summary, Finset.mem_filter, List.mem_toFinset, registered, false_and,
          Finset.notMem_empty]
  rw [updateSchedule, summed]
  simp only [bind_eq_ok, pure_eq_ok, Except.ok.injEq]
  constructor
  · rintro ⟨scaling, computed, rfl⟩
    exact ⟨⟨scaling, computed⟩, rfl⟩
  · rintro ⟨⟨scaling, computed⟩, rfl⟩
    exact ⟨scaling, computed, rfl⟩

/-! ## The timeslots taught -/

/-- A lunch timeslot of one of the roomslots. -/
def Covers (schedule : AS_Schedule) (roomslots : List AS_RoomSlot) (timeslotId : Nat) : Prop :=
  isLunch schedule timeslotId ∧ ∃ roomslot ∈ roomslots, roomslot.timeslot.id = timeslotId

theorem markTimeslots_of_covers {timeslotsTeaching : Nat → Bool}
    (covers : Covers schedule roomslots timeslotId) :
    markTimeslots schedule roomslots teaching timeslotsTeaching timeslotId = teaching := by
  obtain ⟨lunch, roomslot, member, sameId⟩ := covers
  induction roomslots using List.reverseRecOn with
  | nil => simp at member
  | append_singleton roomslots last ih =>
      rw [markTimeslots, List.foldl_append, List.foldl_cons, List.foldl_nil]
      by_cases same : last.timeslot.id = timeslotId
      · subst same
        rw [if_pos lunch, Function.update_self]
      · have earlier : roomslot ∈ roomslots := by
          rcases List.mem_append.mp member with earlier | isLast
          · exact earlier
          · exact absurd (List.mem_singleton.mp isLast ▸ sameId) same
        have kept := ih earlier
        rw [markTimeslots] at kept
        split
        · rw [Function.update_of_ne (Ne.symm same), kept]
        · exact kept

theorem markTimeslots_of_not_covers {timeslotsTeaching : Nat → Bool}
    (uncovered : ¬ Covers schedule roomslots timeslotId) :
    markTimeslots schedule roomslots teaching timeslotsTeaching timeslotId =
      timeslotsTeaching timeslotId := by
  induction roomslots generalizing timeslotsTeaching with
  | nil => rfl
  | cons roomslot roomslots ih =>
      have uncoveredRest : ¬ Covers schedule roomslots timeslotId := by
        rintro ⟨lunch, other, member, sameId⟩
        exact uncovered ⟨lunch, other, List.mem_cons_of_mem _ member, sameId⟩
      rw [markTimeslots, List.foldl_cons]
      refine Eq.trans (ih uncoveredRest) ?_
      split
      next lunch =>
        have different : timeslotId ≠ roomslot.timeslot.id := by
          intro same
          exact uncovered ⟨same ▸ lunch, roomslot, List.mem_cons_self, same.symm⟩
        rw [Function.update_of_ne different]
      next => rfl

theorem markTeachers_of_mem (covers : Covers schedule roomslots timeslotId)
    (listed : teacherId ∈ teachers.map AS_Teacher.id) :
    markTeachers schedule roomslots teaching teachers byTeacher teacherId timeslotId =
      teaching := by
  induction teachers using List.reverseRecOn with
  | nil => simp at listed
  | append_singleton teachers last ih =>
      rw [markTeachers, List.foldl_append, List.foldl_cons, List.foldl_nil]
      by_cases same : teacherId = last.id
      · subst same
        rw [Function.update_self, markTimeslots_of_covers covers]
      · rw [Function.update_of_ne same]
        apply ih
        simpa [same] using listed

theorem markTeachers_of_notMem
    (outside : ¬ (Covers schedule roomslots timeslotId ∧
      teacherId ∈ teachers.map AS_Teacher.id)) :
    markTeachers schedule roomslots teaching teachers byTeacher teacherId timeslotId =
      byTeacher teacherId timeslotId := by
  induction teachers generalizing byTeacher with
  | nil => rfl
  | cons teacher teachers ih =>
      have outsideRest : ¬ (Covers schedule roomslots timeslotId ∧
          teacherId ∈ teachers.map AS_Teacher.id) := by
        rintro ⟨covers, listed⟩
        exact outside ⟨covers, List.mem_cons_of_mem _ listed⟩
      rw [markTeachers, List.foldl_cons]
      refine Eq.trans (ih outsideRest) ?_
      by_cases same : teacherId = teacher.id
      · subst same
        have uncovered : ¬ Covers schedule roomslots timeslotId :=
          fun covers => outside ⟨covers, List.mem_cons_self⟩
        rw [Function.update_self, markTimeslots_of_not_covers uncovered]
      · rw [Function.update_of_ne same]

/-- A section of the teacher covers the timeslot. -/
def Teaches (schedule : AS_Schedule) (assignments : Assignments)
    (sec : AS_ClassSection) (teacherId timeslotId : Nat) : Prop :=
  Covers schedule (assignments.assignedRoomslots sec) timeslotId ∧
    teacherId ∈ sec.teachers.map AS_Teacher.id

theorem taught_iff :
    taught schedule assignments teacherId timeslotId = true ↔
      ∃ sec ∈ schedule.classSections,
        Teaches schedule assignments sec teacherId timeslotId := by
  rw [taught]
  generalize schedule.classSections = classSections
  induction classSections using List.reverseRecOn with
  | nil => simp
  | append_singleton classSections last ih =>
      rw [List.foldl_append, List.foldl_cons, List.foldl_nil]
      by_cases teaches : Teaches schedule assignments last teacherId timeslotId
      · rw [markTeachers_of_mem teaches.1 teaches.2]
        simp [teaches]
      · rw [markTeachers_of_notMem teaches, ih]
        simp [teaches]

/-! ## Changes of the timeslots taught -/

/-- Two dictionaries are the same if they have the same entries. -/
theorem byTeacher_ext {left right : Nat → Nat → Bool}
    (same : ∀ teacherId timeslotId,
      left teacherId timeslotId = true ↔ right teacherId timeslotId = true) :
    left = right := by
  funext teacherId timeslotId
  exact Bool.eq_iff_iff.mpr (same teacherId timeslotId)

/-- Marking the timeslots that an unscheduled section gets. -/
theorem taught_acquire (listed : sec ∈ schedule.classSections)
    (unscheduled : assignments.assignedRoomslots sec = []) :
    markTeachers schedule roomslots true sec.teachers (taught schedule assignments) =
      taught schedule (assignments.acquire sec roomslots) := by
  apply byTeacher_ext
  intro teacherId timeslotId
  have others : ∀ other, other ≠ sec →
      (Teaches schedule (assignments.acquire sec roomslots) other teacherId
          timeslotId ↔ Teaches schedule assignments other teacherId timeslotId) := by
    intro other different
    rw [Teaches, Assignments.acquire_of_ne different, ← Teaches]
  have idle : ¬ Teaches schedule assignments sec teacherId timeslotId := by
    rintro ⟨⟨-, roomslot, member, -⟩, -⟩
    simp [unscheduled] at member
  have busy : Teaches schedule (assignments.acquire sec roomslots) sec
      teacherId timeslotId ↔ Covers schedule roomslots timeslotId ∧
        teacherId ∈ sec.teachers.map AS_Teacher.id := by
    rw [Teaches, Assignments.acquire_self]
  rw [taught_iff]
  by_cases teaches : Covers schedule roomslots timeslotId ∧
      teacherId ∈ sec.teachers.map AS_Teacher.id
  · rw [markTeachers_of_mem teaches.1 teaches.2]
    simp only [true_iff]
    exact ⟨sec, listed, busy.mpr teaches⟩
  · rw [markTeachers_of_notMem teaches, taught_iff]
    constructor
    · rintro ⟨other, otherListed, otherTeaches⟩
      have different : other ≠ sec := fun same => idle (same ▸ otherTeaches)
      exact ⟨other, otherListed, (others other different).mpr otherTeaches⟩
    · rintro ⟨other, otherListed, otherTeaches⟩
      have different : other ≠ sec :=
        fun same => teaches (busy.mp (same ▸ otherTeaches))
      exact ⟨other, otherListed, (others other different).mp otherTeaches⟩

theorem section_eq_of_teaches (placed : WellPlaced schedule assignments)
    (apart : TeachersApart schedule assignments)
    (listed1 : section1 ∈ schedule.classSections)
    (listed2 : section2 ∈ schedule.classSections)
    (teaches1 : Teaches schedule assignments section1 teacherId timeslotId)
    (teaches2 : Teaches schedule assignments section2 teacherId timeslotId) :
    section1 = section2 := by
  obtain ⟨⟨-, slot1, assigned1, slotId1⟩, member1⟩ := teaches1
  obtain ⟨⟨-, slot2, assigned2, slotId2⟩, member2⟩ := teaches2
  obtain ⟨teacher1, teacherListed1, teacherId1⟩ := List.mem_map.mp member1
  obtain ⟨teacher2, teacherListed2, teacherId2⟩ := List.mem_map.mp member2
  have sameTeacher := AS_Schedule.teacher_eq_of_id listed1 listed2 teacherListed1
    teacherListed2 (teacherId1.trans teacherId2.symm)
  have sameTimeslot : slot1.timeslot = slot2.timeslot :=
    List.inj_on_of_nodup_map schedule.timeslotIds
      (placed.timeslot_of_assigned listed1 assigned1)
      (placed.timeslot_of_assigned listed2 assigned2) (slotId1.trans slotId2.symm)
  by_contra different
  apply apart section1 listed1 section2 listed2 different teacher1 teacherListed1
    (sameTeacher ▸ teacherListed2) slot1 assigned1 slot2 assigned2
  rw [AS_RoomSlot.times, AS_RoomSlot.times, sameTimeslot]

/-- Unmarking the timeslots that a section gives up, while its teachers teach nothing
else then. -/
theorem taught_release (placed : WellPlaced schedule assignments)
    (apart : TeachersApart schedule assignments)
    (listed : sec ∈ schedule.classSections) :
    markTeachers schedule (assignments.assignedRoomslots sec) false
        sec.teachers (taught schedule assignments) =
      taught schedule (assignments.release sec) := by
  apply byTeacher_ext
  intro teacherId timeslotId
  have others : ∀ other, other ≠ sec →
      (Teaches schedule (assignments.release sec) other teacherId timeslotId ↔
        Teaches schedule assignments other teacherId timeslotId) := by
    intro other different
    rw [Teaches, Assignments.release_of_ne different, ← Teaches]
  have idle : ¬ Teaches schedule (assignments.release sec) sec teacherId
      timeslotId := by
    rintro ⟨⟨-, roomslot, member, -⟩, -⟩
    simp at member
  rw [taught_iff]
  by_cases teaches : Teaches schedule assignments sec teacherId timeslotId
  · rw [markTeachers_of_mem teaches.1 teaches.2]
    simp only [Bool.false_eq_true, false_iff]
    rintro ⟨other, otherListed, otherTeaches⟩
    have different : other ≠ sec := fun same => idle (same ▸ otherTeaches)
    exact different (section_eq_of_teaches placed apart otherListed listed
      ((others other different).mp otherTeaches) teaches)
  · rw [markTeachers_of_notMem teaches, taught_iff]
    constructor
    · rintro ⟨other, otherListed, otherTeaches⟩
      have different : other ≠ sec := fun same => teaches (same ▸ otherTeaches)
      exact ⟨other, otherListed, (others other different).mpr otherTeaches⟩
    · rintro ⟨other, otherListed, otherTeaches⟩
      have different : other ≠ sec := fun same => idle (same ▸ otherTeaches)
      exact ⟨other, otherListed, (others other different).mp otherTeaches⟩

theorem markTeachers_comm {otherTeachers : List AS_Teacher} {otherRoomslots : List AS_RoomSlot}
    {otherTeaching : Bool}
    (disjoint : ∀ teacherId ∈ teachers.map AS_Teacher.id,
      teacherId ∉ otherTeachers.map AS_Teacher.id) :
    markTeachers schedule otherRoomslots otherTeaching otherTeachers
        (markTeachers schedule roomslots teaching teachers byTeacher) =
      markTeachers schedule roomslots teaching teachers
        (markTeachers schedule otherRoomslots otherTeaching otherTeachers byTeacher) := by
  funext teacherId timeslotId
  by_cases marked : Covers schedule roomslots timeslotId ∧
      teacherId ∈ teachers.map AS_Teacher.id
  · have unmarked : ¬ (Covers schedule otherRoomslots timeslotId ∧
        teacherId ∈ otherTeachers.map AS_Teacher.id) :=
      fun other => disjoint teacherId marked.2 other.2
    rw [markTeachers_of_notMem unmarked, markTeachers_of_mem marked.1 marked.2,
      markTeachers_of_mem marked.1 marked.2]
  · rw [markTeachers_of_notMem marked]
    by_cases otherMarked : Covers schedule otherRoomslots timeslotId ∧
        teacherId ∈ otherTeachers.map AS_Teacher.id
    · rw [markTeachers_of_mem otherMarked.1 otherMarked.2,
        markTeachers_of_mem otherMarked.1 otherMarked.2]
    · rw [markTeachers_of_notMem otherMarked, markTeachers_of_notMem otherMarked,
        markTeachers_of_notMem marked]

/-- What swapping the sections leads to, through a schedule without the two. -/
theorem taught_swap (sound : Sound schedule assignments)
    (listed1 : section1 ∈ schedule.classSections)
    (listed2 : section2 ∈ schedule.classSections) (different : section1 ≠ section2)
    (disjoint : ∀ teacher ∈ section1.teachers, teacher ∉ section2.teachers) :
    markTeachers schedule (assignments.assignedRoomslots section1) true section2.teachers
        (markTeachers schedule (assignments.assignedRoomslots section2) false
          section2.teachers
          (markTeachers schedule (assignments.assignedRoomslots section2) true
            section1.teachers
            (markTeachers schedule (assignments.assignedRoomslots section1) false
              section1.teachers (taught schedule assignments)))) =
      taught schedule ((Change.swap section1 section2).apply assignments) := by
  have released1 := taught_release sound.placed sound.teachersApart listed1
  have released2 := taught_release (sound.placed.release listed1)
    (sound.teachersApart.release section1) listed2
  rw [Assignments.release_of_ne different.symm] at released2
  have unscheduled1 : ((assignments.release section1).release section2).assignedRoomslots
      section1 = [] := by
    rw [Assignments.release_of_ne different, Assignments.release_self]
  have acquired1 := @taught_acquire schedule _ section1
    (assignments.assignedRoomslots section2) listed1 unscheduled1
  have unscheduled2 : (((assignments.release section1).release section2).acquire section1
      (assignments.assignedRoomslots section2)).assignedRoomslots section2 = [] := by
    rw [Assignments.acquire_of_ne different.symm, Assignments.release_self]
  have acquired2 := @taught_acquire schedule _ section2
    (assignments.assignedRoomslots section1) listed2 unscheduled2
  rw [markTeachers_comm (AS_Schedule.disjoint_teacherIds listed1 listed2 disjoint), released1,
    released2,
    acquired1, acquired2, Change.apply]

/-- The hooks keep the state the one that is built on the schedule, while no teacher
teaches two sections at a time. -/
theorem follows (schedule : AS_Schedule) : Follows (HungryTeacherScorer schedule) := by
  intro assignments change state sound admissible tracks built
  obtain ⟨scaling, same⟩ := updateSchedule_eq_ok.mp built
  subst same
  have registered := admissible.registered
  have possible := admissible.possible
  have scheduledHook : ∀ sec ∈ schedule.classSections, ∀ startRoomslot byTeacher,
      updateScheduleSection schedule assignments sec startRoomslot
          (summary schedule byTeacher) =
        .ok (summary schedule (markTeachers schedule
          (getRoomslotsByDuration startRoomslot sec.duration) true
          sec.teachers byTeacher)) := by
    intro sec listed startRoomslot byTeacher
    rw [updateScheduleSection,
      updateTeachers_summary (schedule.teachersRegistered sec listed)]
  have unscheduledHook : ∀ sec ∈ schedule.classSections, ∀ byTeacher,
      updateUnscheduleSection schedule assignments sec (summary schedule byTeacher) =
        .ok (summary schedule (markTeachers schedule
          (assignments.assignedRoomslots sec) false sec.teachers
          byTeacher)) := by
    intro sec listed byTeacher
    rw [updateUnscheduleSection,
      updateTeachers_summary (schedule.teachersRegistered sec listed)]
  refine ⟨summary schedule (taught schedule (change.apply assignments)), ?_,
    updateSchedule_eq_ok.mpr ⟨scaling, rfl⟩⟩
  cases change with
  | schedule sec startRoomslot =>
      refine (scheduledHook sec registered.1 startRoomslot _).trans ?_
      rw [taught_acquire registered.1 possible.1]
      rfl
  | unschedule sec =>
      refine (unscheduledHook sec registered _).trans ?_
      rw [taught_release sound.placed sound.teachersApart registered]
      rfl
  | move sec startRoomslot =>
      simp only [Change.updateScorer, HungryTeacherScorer, BaseScorer.updateMoveSection,
        unscheduledHook sec registered.1, ok_bind,
        scheduledHook sec registered.1]
      rw [taught_release sound.placed sound.teachersApart registered.1,
        taught_acquire registered.1 Assignments.release_self, Change.apply]
  | swap section1 section2 =>
      obtain ⟨listed1, listed2⟩ := registered
      obtain ⟨held1, held2, different⟩ := possible
      obtain ⟨sameDuration, canonical1, canonical2⟩ := tracks
      obtain ⟨start1, -, first1, taken1⟩ := canonical1.exists_start held1
      obtain ⟨start2, -, first2, taken2⟩ := canonical2.exists_start held2
      rw [sameDuration] at taken1
      rw [← sameDuration] at taken2
      simp only [Change.updateScorer, HungryTeacherScorer, BaseScorer.updateSwapSections,
        BaseScorer.updateMoveSection, first1, first2, ok_bind,
        unscheduledHook section1 listed1, unscheduledHook section2 listed2,
        scheduledHook section1 listed1, scheduledHook section2 listed2, taken1, taken2]
      rw [taught_swap sound listed1 listed2 different admissible.exchangeable.2]

end HungryTeacherScorer

end EspWebsite.Autoscheduler
