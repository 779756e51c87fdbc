import EspWebsite.Autoscheduler.Scoring.Correctness

/-!
# The checks of the teacher constraints

Before a change the teacher constraints check the changed sections alone.  Here is when such a
check finds a violation exactly if the check of the whole schedule finds one after the change.
-/

namespace EspWebsite.Autoscheduler

open Calendar Python SmallSchedule

namespace Constraint

def checkChange (schedule : AS_Schedule) (assignments : Assignments) (constraint : Constraint) :
    Change → CheckResult
  | .schedule sec startRoomslot =>
      constraint.checkScheduleSection schedule assignments sec startRoomslot
  | .move sec startRoomslot =>
      constraint.checkMoveSection schedule assignments sec startRoomslot
  | .unschedule sec => constraint.checkUnscheduleSection assignments sec
  | .swap section1 section2 =>
      constraint.checkSwapSections schedule assignments section1 section2

/-- The check before a change finds no violation exactly if the check of the schedule after it
finds none. -/
def Exact (schedule : AS_Schedule) (assignments after : Assignments) (change : Change)
    (constraint : Constraint) : Prop :=
  constraint.checkChange schedule assignments change = .ok none ↔
    constraint.checkSchedule schedule after = .ok none

end Constraint

namespace Change

/-- A teacher of the first section, but not of the second one, teaches a third section when the
second one meets. -/
def Clashes (schedule : AS_Schedule) (assignments : Assignments)
    (section1 section2 : AS_ClassSection) : Prop :=
  ∃ teacher ∈ section1.teachers, teacher ∉ section2.teachers ∧
    ∃ third ∈ schedule.classSections, third ≠ section1 ∧ teacher ∈ third.teachers ∧
      ∃ slot ∈ assignments.assignedRoomslots section2,
        ∃ thirdSlot ∈ assignments.assignedRoomslots third, slot.times = thirdSlot.times

/-- If the sections of a swap have a common teacher, other teachers of theirs clash, so that the
swap is rightly found to be a violation. -/
def Judged (schedule : AS_Schedule) (assignments : Assignments) : Change → Prop
  | .schedule _ _ | .move _ _ | .unschedule _ => True
  | .swap section1 section2 =>
      (∃ teacher ∈ section1.teachers, teacher ∈ section2.teachers) →
        Clashes schedule assignments section1 section2 ∨
          Clashes schedule assignments section2 section1

end Change

section Changes

variable {schedule : AS_Schedule} {assignments : Assignments} {change : Change}
  {sec section1 section2 : AS_ClassSection} {startRoomslot : AS_RoomSlot}

/-! ## The schedule after a change -/

theorem TeacherAvailabilityConstraint.checkSchedule_apply_iff
    (registered : change.Registered schedule)
    (valid : checkSchedule schedule assignments = none) :
    checkSchedule schedule (change.apply assignments) = none ↔
      ∀ sec ∈ change.sections, ∀ teacher ∈ sec.teachers,
        ∀ roomslot ∈ (change.apply assignments).assignedRoomslots sec,
          teacher.isAvailable roomslot.times := by
  rw [checkSchedule_eq_none] at valid ⊢
  constructor
  · intro available sec changed
    exact available sec (Change.listed_of_mem_sections registered changed)
  · intro available sec listed
    by_cases changed : sec ∈ change.sections
    · exact available sec changed
    · rw [Change.assigned_apply_of_notMem _ changed]
      exact valid sec listed

theorem TeachersApart.apply_iff (registered : change.Registered schedule)
    (apart : TeachersApart schedule assignments) :
    TeachersApart schedule (change.apply assignments) ↔
      ∀ sec ∈ change.sections, ∀ other ∈ schedule.classSections,
        sec ≠ other → ∀ teacher ∈ sec.teachers, teacher ∈ other.teachers →
          ∀ slot ∈ (change.apply assignments).assignedRoomslots sec,
            ∀ otherSlot ∈ (change.apply assignments).assignedRoomslots other,
              slot.times ≠ otherSlot.times := by
  constructor
  · intro apartAfter sec changed
    exact apartAfter sec (Change.listed_of_mem_sections registered changed)
  · intro apartAfter left leftListed right rightListed different teacher teachesLeft teachesRight
      leftSlot leftAssigned rightSlot rightAssigned
    by_cases leftChanged : left ∈ change.sections
    · exact apartAfter left leftChanged right rightListed different teacher teachesLeft
        teachesRight leftSlot leftAssigned rightSlot rightAssigned
    · by_cases rightChanged : right ∈ change.sections
      · exact (apartAfter right rightChanged left leftListed different.symm teacher teachesRight
          teachesLeft rightSlot rightAssigned leftSlot leftAssigned).symm
      · rw [Change.assigned_apply_of_notMem _ leftChanged] at leftAssigned
        rw [Change.assigned_apply_of_notMem _ rightChanged] at rightAssigned
        exact apart left leftListed right rightListed different teacher teachesLeft
          teachesRight leftSlot leftAssigned rightSlot rightAssigned

/-! ## Availability -/

theorem Sound.available (sound : Sound schedule assignments)
    (listed : sec ∈ schedule.classSections) {teacher : AS_Teacher}
    (teaches : teacher ∈ sec.teachers) {time : DateTime × DateTime}
    (meets : time ∈ (assignments.assignedRoomslots sec).map AS_RoomSlot.times) :
    teacher.isAvailable time := by
  cases List.mem_map.mp meets with
  | intro roomslot found =>
      rw [← found.2]
      exact (sound.fits sec listed (List.ne_nil_of_mem found.1)).available teacher
        teaches roomslot found.1

/-- A section may take roomslots exactly when its teachers are available then: that they teach it
already is no exception in sound assignments. -/
theorem Sound.available_or_meets (sound : Sound schedule assignments)
    (listed : sec ∈ schedule.classSections) (roomslots : List AS_RoomSlot) :
    (∀ teacher ∈ sec.teachers, ∀ roomslot ∈ roomslots,
        teacher.isAvailable roomslot.times ∨
          roomslot.times ∈
            (assignments.assignedRoomslots sec).map AS_RoomSlot.times) ↔
      ∀ teacher ∈ sec.teachers, ∀ roomslot ∈ roomslots,
        teacher.isAvailable roomslot.times := by
  apply forall₂_congr
  intro teacher teaches
  apply forall₂_congr
  intro roomslot _
  exact or_iff_left_of_imp (sound.available listed teaches)

theorem TeacherAvailabilityConstraint.exact (sound : Sound schedule assignments)
    (registered : change.Registered schedule) (possible : change.Possible assignments) :
    Constraint.teacherAvailability.Exact schedule assignments (change.apply assignments)
      change := by
  have valid : checkSchedule schedule assignments = none :=
    Except.ok.inj (sound.required .teacherAvailability (by simp [Constraint.required]))
  rw [Constraint.Exact, Constraint.checkSchedule, Except.ok.injEq,
    checkSchedule_apply_iff registered valid]
  cases change with
  | schedule sec startRoomslot =>
      rw [Constraint.checkChange, Constraint.checkScheduleSection, Except.ok.injEq,
        checkScheduleSection, checkAvailable_eq_none]
      simp only [Change.sections, List.forall_mem_singleton, Change.assigned_apply_schedule,
        List.not_mem_nil, or_false]
  | move sec startRoomslot =>
      rw [Constraint.checkChange, Constraint.checkMoveSection, Except.ok.injEq,
        checkMoveSection, checkAvailable_eq_none, sound.available_or_meets registered.1]
      simp only [Change.sections, List.forall_mem_singleton, Change.assigned_apply_move]
  | unschedule sec =>
      apply iff_of_true
      · rfl
      · simp [Change.sections]
  | swap section1 section2 =>
      rw [Constraint.checkChange, Constraint.checkSwapSections, Except.ok.injEq,
        checkSwapSections_eq_none, sound.available_or_meets registered.1,
        sound.available_or_meets registered.2]
      simp only [Change.sections, List.forall_mem_cons, List.not_mem_nil, false_implies,
        implies_true, and_true, Change.assigned_apply_swap_left _ possible.2.2,
        Change.assigned_apply_swap_right]

/-! ## Concurrency -/

namespace TeacherConcurrencyConstraint

theorem taught_elsewhere_iff (sound : Sound schedule assignments)
    (listed : sec ∈ schedule.classSections) {teacher : AS_Teacher}
    (teaches : teacher ∈ sec.teachers) {time : DateTime × DateTime} :
    (time ∈ getAlreadyTeachingSet schedule assignments teacher →
        time ∈ (assignments.assignedRoomslots sec).map AS_RoomSlot.times) ↔
      ∀ other ∈ schedule.classSections, sec ≠ other → teacher ∈ other.teachers →
        ∀ otherSlot ∈ assignments.assignedRoomslots other, time ≠ otherSlot.times := by
  constructor
  · intro own other otherListed different teachesOther otherSlot assigned same
    have meets := own (same ▸ taught_of_assigned otherListed teachesOther assigned)
    cases List.mem_map.mp meets with
    | intro slot found =>
        exact sound.teachersApart sec listed other otherListed different teacher teaches
          teachesOther slot found.1 otherSlot assigned (found.2.trans same)
  · intro apart taught
    cases mem_getAlreadyTeachingSet.mp taught with
    | intro other found =>
        obtain ⟨otherListed, teachesOther, otherSlot, assigned, same⟩ := found
        by_cases different : sec = other
        · rw [different, ← same]
          exact List.mem_map_of_mem assigned
        · exact absurd same.symm
            (apart other otherListed different teachesOther otherSlot assigned)

theorem removeTimes_returns {roomslots : List AS_RoomSlot}
    {alreadyTeaching : List (DateTime × DateTime)}
    (nodup : (roomslots.map AS_RoomSlot.times).Nodup)
    (taught : ∀ roomslot ∈ roomslots, roomslot.times ∈ alreadyTeaching) :
    ∃ remaining, removeTimes roomslots alreadyTeaching = .ok remaining := by
  induction roomslots generalizing alreadyTeaching with
  | nil => exact ⟨alreadyTeaching, rfl⟩
  | cons roomslot rest ih =>
      rw [List.map_cons, List.nodup_cons] at nodup
      rw [removeTimes, if_pos (taught roomslot List.mem_cons_self)]
      apply ih nodup.2
      intro other later
      apply List.mem_filter.mpr
      refine ⟨taught other (List.mem_cons_of_mem _ later), decide_eq_true ?_⟩
      intro same
      exact nodup.1 (same ▸ List.mem_map_of_mem later)

theorem checkMoveSection_iff (sound : Sound schedule assignments)
    (listed : sec ∈ schedule.classSections)
    (scheduled : assignments.assignedRoomslots sec ≠ []) :
    checkMoveSection schedule assignments sec startRoomslot = .ok none ↔
      ∀ teacher ∈ sec.teachers,
        ∀ roomslot ∈ getRoomslotsByDuration startRoomslot sec.duration,
          roomslot.times ∈ getAlreadyTeachingSet schedule assignments teacher →
            roomslot.times ∈
              (assignments.assignedRoomslots sec).map AS_RoomSlot.times := by
  refine ⟨checkMoveSection_eq_none, fun own => ?_⟩
  obtain ⟨room, -, isRun⟩ := sound.placed.runs sec listed scheduled
  have removes : ∀ teacher ∈ sec.teachers, ∃ remaining,
      removeTimes (assignments.assignedRoomslots sec)
        (getAlreadyTeachingSet schedule assignments teacher) = .ok remaining := by
    intro teacher teaches
    exact removeTimes_returns (times_nodup isRun) fun roomslot assigned =>
      taught_of_assigned listed teaches assigned
  rw [checkMoveSection]
  generalize sec.teachers = teachers at own removes
  induction teachers with
  | nil => rfl
  | cons teacher rest ih =>
      obtain ⟨ownFirst, ownRest⟩ := List.forall_mem_cons.mp own
      obtain ⟨removesFirst, removesRest⟩ := List.forall_mem_cons.mp removes
      obtain ⟨remaining, removed⟩ := removesFirst
      have free : checkTeaching remaining
          (getRoomslotsByDuration startRoomslot sec.duration) = none := by
        apply checkTeaching_eq_none.mpr
        intro roomslot taken left
        rw [removeTimes_eq_ok removed] at left
        exact left.2 (ownFirst roomslot taken left.1)
      rw [checkMoveTeachers, removed, ok_bind, free]
      exact ih ownRest removesRest

theorem checkSchedule_apply_iff (sound : Sound schedule assignments)
    (registered : change.Registered schedule) (possible : change.Possible assignments) :
    Constraint.teacherConcurrency.checkSchedule schedule (change.apply assignments) =
        .ok none ↔
      TeachersApart schedule (change.apply assignments) := by
  rw [Constraint.checkSchedule, Except.ok.injEq]
  exact checkSchedule_eq_none (Change.wellPlaced_apply sound.placed registered possible)

theorem apart_of_taken_iff (sound : Sound schedule assignments)
    (registered : change.Registered schedule) (alone : change.sections = [sec])
    {roomslots : List AS_RoomSlot}
    (takes : (change.apply assignments).assignedRoomslots sec = roomslots) :
    TeachersApart schedule (change.apply assignments) ↔
      ∀ teacher ∈ sec.teachers, ∀ roomslot ∈ roomslots,
        roomslot.times ∈ getAlreadyTeachingSet schedule assignments teacher →
          roomslot.times ∈
            (assignments.assignedRoomslots sec).map AS_RoomSlot.times := by
  have listed : sec ∈ schedule.classSections :=
    Change.listed_of_mem_sections registered (alone ▸ List.mem_singleton_self sec)
  have kept : ∀ other, sec ≠ other →
      (change.apply assignments).assignedRoomslots other = assignments.assignedRoomslots other := by
    intro other different
    apply Change.assigned_apply_of_notMem
    rw [alone, List.mem_singleton]
    exact different.symm
  rw [TeachersApart.apply_iff registered sound.teachersApart, alone, List.forall_mem_singleton,
    takes]
  constructor
  · intro apart teacher teaches roomslot taken
    apply (taught_elsewhere_iff sound listed teaches).mpr
    intro other otherListed different teachesOther otherSlot assigned
    exact apart other otherListed different teacher teaches teachesOther roomslot taken otherSlot
      (kept other different ▸ assigned)
  · intro own other otherListed different teacher teaches teachesOther roomslot taken otherSlot
      assigned
    have apart := (taught_elsewhere_iff sound listed teaches).mp
      (own teacher teaches roomslot taken)
    exact apart other otherListed different teachesOther otherSlot (kept other different ▸ assigned)

theorem apart_of_exchange_iff (sound : Sound schedule assignments) {after : Assignments}
    (listed1 : section1 ∈ schedule.classSections) (listed2 : section2 ∈ schedule.classSections)
    (different : section1 ≠ section2)
    (takes1 : after.assignedRoomslots section1 = assignments.assignedRoomslots section2)
    (takes2 : after.assignedRoomslots section2 = assignments.assignedRoomslots section1)
    (kept : ∀ other, other ≠ section1 → other ≠ section2 →
      after.assignedRoomslots other = assignments.assignedRoomslots other) :
    (∀ other ∈ schedule.classSections, section1 ≠ other → ∀ teacher ∈ section1.teachers,
        teacher ∈ other.teachers → ∀ slot ∈ after.assignedRoomslots section1,
          ∀ otherSlot ∈ after.assignedRoomslots other, slot.times ≠ otherSlot.times) ↔
      ¬ Change.Clashes schedule assignments section1 section2 := by
  rw [takes1]
  constructor
  · intro apart clashes
    obtain ⟨teacher, teaches, notTeaches, third, thirdListed, distinct, teachesThird, slot,
      assigned, thirdSlot, thirdAssigned, same⟩ := clashes
    have notSecond : third ≠ section2 := fun isSecond => notTeaches (isSecond ▸ teachesThird)
    exact apart third thirdListed distinct.symm teacher teaches teachesThird slot assigned
      thirdSlot (kept third distinct notSecond ▸ thirdAssigned) same
  · intro noClash other otherListed distinct teacher teaches teachesOther slot assigned otherSlot
      otherAssigned same
    by_cases isSecond : other = section2
    · subst isSecond
      rw [takes2] at otherAssigned
      exact sound.teachersApart other listed2 section1 listed1 different.symm teacher teachesOther
        teaches slot assigned otherSlot otherAssigned same
    · rw [kept other distinct.symm isSecond] at otherAssigned
      by_cases teachesSecond : teacher ∈ section2.teachers
      · exact sound.teachersApart section2 listed2 other otherListed (Ne.symm isSecond) teacher
          teachesSecond teachesOther slot assigned otherSlot otherAssigned same
      · exact noClash ⟨teacher, teaches, teachesSecond, other, otherListed, distinct.symm,
          teachesOther, slot, assigned, otherSlot, otherAssigned, same⟩

theorem own_of_exchange_iff (sound : Sound schedule assignments)
    (listed1 : section1 ∈ schedule.classSections) (listed2 : section2 ∈ schedule.classSections)
    (different : section1 ≠ section2) (held2 : assignments.assignedRoomslots section2 ≠ []) :
    (∀ teacher ∈ section1.teachers,
        ∀ time ∈ (assignments.assignedRoomslots section2).map AS_RoomSlot.times,
          time ∈ getAlreadyTeachingSet schedule assignments teacher →
            time ∈ (assignments.assignedRoomslots section1).map AS_RoomSlot.times) ↔
      (∀ teacher ∈ section1.teachers, teacher ∉ section2.teachers) ∧
        ¬ Change.Clashes schedule assignments section1 section2 := by
  constructor
  · intro own
    constructor
    · intro teacher teaches1 teaches2
      obtain ⟨slot, assigned⟩ := List.exists_mem_of_ne_nil _ held2
      exact apart_of_exchange sound listed1 own listed2 different teaches1 teaches2 assigned
        assigned rfl
    · rintro ⟨teacher, teaches, -, third, thirdListed, distinct, teachesThird, slot, assigned,
        thirdSlot, thirdAssigned, same⟩
      exact apart_of_exchange sound listed1 own thirdListed distinct.symm teaches teachesThird
        assigned thirdAssigned same
  · intro free teacher teaches time meets
    obtain ⟨disjoint, noClash⟩ := free
    obtain ⟨slot, assigned, rfl⟩ := List.mem_map.mp meets
    apply (taught_elsewhere_iff sound listed1 teaches).mpr
    intro other otherListed distinct teachesOther otherSlot otherAssigned same
    exact noClash ⟨teacher, teaches, disjoint teacher teaches, other, otherListed, distinct.symm,
      teachesOther, slot, assigned, otherSlot, otherAssigned, same⟩

theorem checkSwapSections_iff (sound : Sound schedule assignments)
    (registered : (Change.swap section1 section2).Registered schedule)
    (possible : (Change.swap section1 section2).Possible assignments) :
    checkSwapSections schedule assignments section1 section2 = none ↔
      (∀ teacher ∈ section1.teachers, teacher ∉ section2.teachers) ∧
        ¬ Change.Clashes schedule assignments section1 section2 ∧
          ¬ Change.Clashes schedule assignments section2 section1 := by
  obtain ⟨held1, held2, different⟩ := possible
  rw [checkSwapSections_eq_none,
    own_of_exchange_iff sound registered.1 registered.2 different held2,
    own_of_exchange_iff sound registered.2 registered.1 different.symm held1]
  have symmetric : (∀ teacher ∈ section2.teachers, teacher ∉ section1.teachers) ↔
      ∀ teacher ∈ section1.teachers, teacher ∉ section2.teachers :=
    ⟨fun disjoint teacher teaches1 teaches2 => disjoint teacher teaches2 teaches1,
      fun disjoint teacher teaches2 teaches1 => disjoint teacher teaches1 teaches2⟩
  rw [symmetric]
  tauto

theorem apart_of_swap_iff (sound : Sound schedule assignments)
    (registered : (Change.swap section1 section2).Registered schedule)
    (possible : (Change.swap section1 section2).Possible assignments) :
    TeachersApart schedule ((Change.swap section1 section2).apply assignments) ↔
      ¬ Change.Clashes schedule assignments section1 section2 ∧
        ¬ Change.Clashes schedule assignments section2 section1 := by
  obtain ⟨listed1, listed2⟩ := id registered
  have different := possible.2.2
  have takes1 := Change.assigned_apply_swap_left assignments different
  have takes2 := Change.assigned_apply_swap_right assignments section1 section2
  have kept : ∀ other, other ≠ section1 → other ≠ section2 →
      ((Change.swap section1 section2).apply assignments).assignedRoomslots other =
        assignments.assignedRoomslots other := by
    intro other not1 not2
    exact Change.assigned_apply_of_notMem _ (by simp [Change.sections, not1, not2])
  rw [TeachersApart.apply_iff registered sound.teachersApart, Change.sections,
    List.forall_mem_cons, List.forall_mem_singleton,
    apart_of_exchange_iff sound listed1 listed2 different takes1 takes2 kept,
    apart_of_exchange_iff sound listed2 listed1 different.symm takes2 takes1
      fun other not2 not1 => kept other not1 not2]

theorem exact_iff (sound : Sound schedule assignments)
    (registered : change.Registered schedule) (possible : change.Possible assignments) :
    Constraint.teacherConcurrency.Exact schedule assignments (change.apply assignments) change ↔
      change.Judged schedule assignments := by
  rw [Constraint.Exact, checkSchedule_apply_iff sound registered possible]
  cases change with
  | schedule sec startRoomslot =>
      have apart := apart_of_taken_iff sound registered rfl Change.assigned_apply_schedule
      rw [apart, Constraint.checkChange, Constraint.checkScheduleSection, Except.ok.injEq,
        checkScheduleSection_eq_none, possible.1]
      exact iff_of_true (by simp) trivial
  | move sec startRoomslot =>
      have apart := apart_of_taken_iff sound registered rfl Change.assigned_apply_move
      rw [apart, Constraint.checkChange, Constraint.checkMoveSection,
        checkMoveSection_iff sound registered.1 possible.1]
      exact iff_of_true Iff.rfl trivial
  | unschedule sec =>
      have apart := sound.teachersApart.release sec
      exact iff_of_true (iff_of_true rfl apart) trivial
  | swap section1 section2 =>
      rw [apart_of_swap_iff sound registered possible, Constraint.checkChange,
        Constraint.checkSwapSections, Except.ok.injEq,
        checkSwapSections_iff sound registered possible, Change.Judged]
      have common : (∃ teacher ∈ section1.teachers, teacher ∈ section2.teachers) ↔
          ¬ ∀ teacher ∈ section1.teachers, teacher ∉ section2.teachers := by
        simp
      rw [common]
      tauto

end TeacherConcurrencyConstraint

/-- The checks of the teacher constraints before a change of a valid schedule are exact, unless
the change swaps sections with a common teacher and no other teacher of theirs clashes. -/
theorem teacherChecks_exact_iff {after : Assignments} {action : Action}
    (passes : PassesChecks schedule assignments) (registered : change.Registered schedule)
    (recorded : change.record assignments = .ok action)
    (performed : change.effect assignments = .ok after) :
    (∀ constraint ∈ [Constraint.teacherAvailability, .teacherConcurrency],
        constraint.Exact schedule assignments after change) ↔
      change.Judged schedule assignments := by
  obtain ⟨possible, rfl⟩ := (Change.effect_eq_ok passes.wellPlaced registered).mp
    ⟨⟨action, recorded⟩, performed⟩
  rw [List.forall_mem_cons, List.forall_mem_singleton,
    TeacherConcurrencyConstraint.exact_iff passes.sound registered possible]
  exact and_iff_right
    (TeacherAvailabilityConstraint.exact passes.sound registered possible)

end Changes

/-! ## A teacher of two sections -/

namespace SharedTeacher

/-- A section of one hour. -/
def morning : AS_ClassSection := ⟨1, 1, 1, [teacher], 10, 7, 12, 1, []⟩

/-- Another one, by the same teacher. -/
def noon : AS_ClassSection := ⟨2, 2, 1, [teacher], 10, 7, 12, 1, []⟩

/-- Two sections of one teacher and a room with three hours. -/
def shared : AS_Schedule where
  timeslots := [ten, eleven, twelve]
  classSections := [morning, noon]
  teachers := [teacher]
  classrooms := [roomA]
  lunchTimeslots := []
  timeslotIds := small.timeslotIds
  sectionIds := by decide
  teacherIds := small.teacherIds
  classroomNames := roomA_named
  teachersRegistered := by decide
  teachersDistinct := by decide
  timeslotsRegistered := roomA_slots

def taught : Assignments where
  assignedRoomslots sec :=
    if sec = morning then [⟨ten, roomA⟩]
    else if sec = noon then [⟨eleven, roomA⟩]
    else []
  assignedSection roomslot :=
    if roomslot = ⟨ten, roomA⟩ then some morning
    else if roomslot = ⟨eleven, roomA⟩ then some noon
    else none

theorem passesChecks_taught : PassesChecks shared taught :=
  ⟨by decide +kernel, by decide +kernel⟩

theorem exists_performed {change : Change} (registered : change.Registered shared)
    (possible : change.Possible taught) :
    (∃ action, change.record taught = .ok action) ∧
      change.effect taught = .ok (change.apply taught) :=
  (Change.effect_eq_ok passesChecks_taught.wellPlaced registered).mpr ⟨possible, rfl⟩

/-- The theorem for a move of the second section to twelve. -/
theorem teacherChecks_exact_iff_move :
    (∀ constraint ∈ [Constraint.teacherAvailability, .teacherConcurrency],
        constraint.Exact shared taught ((Change.move noon ⟨twelve, roomA⟩).apply taught)
          (.move noon ⟨twelve, roomA⟩)) ↔
      (Change.move noon ⟨twelve, roomA⟩).Judged shared taught := by
  have registered : (Change.move noon ⟨twelve, roomA⟩).Registered shared :=
    ⟨by decide, by decide⟩
  have possible : (Change.move noon ⟨twelve, roomA⟩).Possible taught :=
    ⟨by decide, by decide⟩
  cases exists_performed registered possible with
  | intro recorded performed =>
      cases recorded with
      | intro action recorded =>
          exact teacherChecks_exact_iff passesChecks_taught registered recorded performed

/-- The teacher of both sections could swap them, but the check finds a violation. -/
theorem not_exact_swap :
    PassesChecks shared taught ∧ (Change.swap morning noon).Registered shared ∧
      (∃ action, (Change.swap morning noon).record taught = .ok action) ∧
      (Change.swap morning noon).effect taught =
        .ok ((Change.swap morning noon).apply taught) ∧
      ¬ Constraint.teacherConcurrency.Exact shared taught
        ((Change.swap morning noon).apply taught) (.swap morning noon) := by
  have registered : (Change.swap morning noon).Registered shared :=
    ⟨by decide, by decide⟩
  have possible : (Change.swap morning noon).Possible taught :=
    ⟨by decide, by decide, by decide⟩
  have performed := exists_performed registered possible
  refine ⟨passesChecks_taught, registered, performed.1, performed.2, ?_⟩
  have passesAfter : Constraint.teacherConcurrency.checkSchedule shared
      ((Change.swap morning noon).apply taught) = .ok none := by decide
  have violates : Constraint.teacherConcurrency.checkChange shared taught
      (.swap morning noon) ≠ .ok none := by decide
  intro exact
  exact violates (exact.mpr passesAfter)

end SharedTeacher

end EspWebsite.Autoscheduler
