import EspWebsite.Autoscheduler.Operations
import EspWebsite.Autoscheduler.Validity

/-!
# Admissible changes

A change is admissible if it is possible and keeps the assignments sound.  The guards
of the manipulations let only admissible changes through, although each of them
looks at the changed sections alone.
-/

namespace EspWebsite.Autoscheduler

open Allocation Calendar Python SectionDurationConstraint

variable {registry : AS_Schedule} {assignments : Assignments} {change : Change}

/-- The two sections of a swap may take each other's roomslots: they last as long and
no teacher teaches both. -/
def Change.Exchangeable : Change → Prop
  | .schedule _ _ | .move _ _ | .unschedule _ => True
  | .swap section1 section2 =>
      section1.duration = section2.duration ∧
        ∀ teacher ∈ section1.teachers, teacher ∉ section2.teachers

/-- A change that sound assignments may undergo. -/
structure Admissible (registry : AS_Schedule) (assignments : Assignments)
    (change : Change) : Prop where
  registered : change.Registered registry
  possible : change.Possible assignments
  exchangeable : change.Exchangeable
  sound : Sound registry (change.apply assignments)

/-- A possible change keeps assignments sound if the changed sections fit at their
roomslots and their teachers teach nothing else then. -/
theorem Sound.apply (sound : Sound registry assignments)
    (registered : change.Registered registry) (possible : change.Possible assignments)
    (fits : ∀ sec ∈ change.sections,
      (change.apply assignments).assignedRoomslots sec ≠ [] →
        Fits registry sec
          ((change.apply assignments).assignedRoomslots sec))
    (apart : ∀ sec ∈ change.sections, ∀ other ∈ registry.classSections,
      sec ≠ other → ∀ teacher ∈ sec.teachers, teacher ∈ other.teachers →
        ∀ slot ∈ (change.apply assignments).assignedRoomslots sec,
          ∀ otherSlot ∈ (change.apply assignments).assignedRoomslots other,
            slot.times ≠ otherSlot.times) :
    Sound registry (change.apply assignments) where
  placed := Change.wellPlaced_apply sound.placed registered possible
  fits sec listed scheduled := by
    by_cases changed : sec ∈ change.sections
    · exact fits sec changed scheduled
    · rw [Change.assigned_apply_of_notMem _ changed] at scheduled ⊢
      exact sound.fits sec listed scheduled
  teachersApart left leftListed right rightListed different teacher teachesLeft
      teachesRight leftSlot leftAssigned rightSlot rightAssigned := by
    by_cases leftChanged : left ∈ change.sections
    · exact apart left leftChanged right rightListed different teacher teachesLeft
        teachesRight leftSlot leftAssigned rightSlot rightAssigned
    · by_cases rightChanged : right ∈ change.sections
      · exact (apart right rightChanged left leftListed different.symm teacher teachesRight
          teachesLeft rightSlot rightAssigned leftSlot leftAssigned).symm
      · rw [Change.assigned_apply_of_notMem _ leftChanged] at leftAssigned
        rw [Change.assigned_apply_of_notMem _ rightChanged] at rightAssigned
        exact sound.teachersApart left leftListed right rightListed different teacher
          teachesLeft teachesRight leftSlot leftAssigned rightSlot rightAssigned

/-! ## What the guards establish -/

section Guards

variable {scorer : Scorer registry} {constraints : CompositeConstraint}
  {manipulator : ScheduleManipulator scorer} {sec section1 section2 : AS_ClassSection}
  {startRoomslot : AS_RoomSlot}

theorem required_of_composite {check : Constraint → CheckResult}
    (passes : firstViolation check constraints.constraints = .ok none) :
    check .contiguous = .ok none ∧ check .roomConcurrency = .ok none ∧
      check .sectionDuration = .ok none ∧ check .teacherAvailability = .ok none ∧
        check .teacherConcurrency = .ok none := by
  have each : ∀ constraint ∈ Constraint.required, check constraint = .ok none :=
    fun constraint required =>
      firstViolation_eq_none.mp passes constraint (constraints.hasRequired constraint required)
  refine ⟨each _ ?_, each _ ?_, each _ ?_, each _ ?_, each _ ?_⟩ <;> simp [Constraint.required]

theorem fits_of_checks (registered : startRoomslot ∈ registry.roomslots)
    (contiguous :
      ContiguousConstraint.checkScheduleSection sec startRoomslot = none)
    (duration :
      SectionDurationConstraint.checkScheduleSection sec startRoomslot = none)
    (available : ∀ teacher ∈ sec.teachers,
      ∀ roomslot ∈ getRoomslotsByDuration startRoomslot sec.duration,
        teacher.isAvailable roomslot.times) :
    Fits registry sec
      (getRoomslotsByDuration startRoomslot sec.duration) where
  inRoom := WellPlaced.run_of_start sec.duration registered
  noGaps := (ContiguousConstraint.checkScheduleSection_eq_none.mp contiguous).2
  lasts := (SectionDurationConstraint.checkScheduleSection_eq_none.mp duration).2
  available := available

theorem taught_of_assigned {teacher : AS_Teacher} {roomslot : AS_RoomSlot}
    (listed : sec ∈ registry.classSections)
    (teaches : teacher ∈ sec.teachers)
    (assigned : roomslot ∈ assignments.assignedRoomslots sec) :
    roomslot.times ∈
      TeacherConcurrencyConstraint.getAlreadyTeachingSet registry assignments teacher :=
  TeacherConcurrencyConstraint.mem_getAlreadyTeachingSet.mpr
    ⟨sec, listed, teaches, roomslot, assigned, rfl⟩

theorem noViolation_of_accepted {check : CheckResult}
    (accepted : (do let violation ← check; return violation.isSome) = Except.ok false) :
    check = .ok none := by
  obtain ⟨violation, checked, passes⟩ := bind_eq_ok.mp accepted
  have noViolation : violation = none := by simpa using passes
  rw [checked, noViolation]

theorem admissible_schedule (sound : Sound registry manipulator.assignments)
    (registered : (Change.schedule sec startRoomslot).Registered registry)
    (accepted : manipulator.refusesSchedule constraints sec startRoomslot =
      .ok false) :
    Admissible registry manipulator.assignments (.schedule sec startRoomslot) := by
  have ⟨listed, startRegistered⟩ := registered
  rw [ScheduleManipulator.refusesSchedule] at accepted
  split at accepted
  next => cases accepted
  next unscheduled =>
    have holdsNone : manipulator.assignments.assignedRoomslots sec = [] := by
      simpa [ScheduleManipulator.isScheduled, Assignments.isScheduled] using unscheduled
    have checked := noViolation_of_accepted accepted
    obtain ⟨contiguous, free, duration, available, concurrency⟩ :=
      required_of_composite checked
    have isFree := (RoomConcurrencyConstraint.checkFree_eq_none.mp (Except.ok.inj free)).2
    have isAvailable :=
      TeacherAvailabilityConstraint.checkAvailable_eq_none.mp (Except.ok.inj available)
    have isApart :=
      TeacherConcurrencyConstraint.checkScheduleSection_eq_none.mp (Except.ok.inj concurrency)
    have possible : (Change.schedule sec startRoomslot).Possible
        manipulator.assignments :=
      ⟨holdsNone, fun roomslot taken => by simpa using isFree roomslot taken⟩
    refine ⟨registered, possible, trivial, ?_⟩
    apply sound.apply registered possible
    · intro other changed _
      rw [List.mem_singleton.mp changed, Change.assigned_apply_schedule]
      apply fits_of_checks startRegistered (Except.ok.inj contiguous) (Except.ok.inj duration)
      intro teacher teaches roomslot taken
      simpa using isAvailable teacher teaches roomslot taken
    · intro other changed
      rw [List.mem_singleton.mp changed, Change.assigned_apply_schedule]
      intro another anotherListed different teacher teaches teachesOther slot taken otherSlot
        otherAssigned same
      rw [Change.assigned_apply_of_notMem _ (by simpa [Change.sections] using different.symm)]
        at otherAssigned
      apply isApart teacher teaches slot taken
      rw [same]
      exact taught_of_assigned anotherListed teachesOther otherAssigned

theorem admissible_move (sound : Sound registry manipulator.assignments)
    (registered : (Change.move sec startRoomslot).Registered registry)
    (accepted : manipulator.refusesMove constraints sec startRoomslot =
      .ok false) :
    Admissible registry manipulator.assignments (.move sec startRoomslot) := by
  have ⟨listed, startRegistered⟩ := registered
  rw [ScheduleManipulator.refusesMove] at accepted
  split at accepted
  next => cases accepted
  next scheduled =>
    have held : manipulator.assignments.assignedRoomslots sec ≠ [] := by
      simpa [ScheduleManipulator.isScheduled, Assignments.isScheduled] using scheduled
    have checked := noViolation_of_accepted accepted
    obtain ⟨contiguous, free, duration, available, concurrency⟩ :=
      required_of_composite checked
    have isFree := (RoomConcurrencyConstraint.checkFree_eq_none.mp (Except.ok.inj free)).2
    have isAvailable :=
      TeacherAvailabilityConstraint.checkAvailable_eq_none.mp (Except.ok.inj available)
    have isApart := TeacherConcurrencyConstraint.checkMoveSection_eq_none concurrency
    have possible : (Change.move sec startRoomslot).Possible
        manipulator.assignments :=
      ⟨held, fun roomslot taken => by simpa using isFree roomslot taken⟩
    refine ⟨registered, possible, trivial, ?_⟩
    apply sound.apply registered possible
    · intro other changed _
      rw [List.mem_singleton.mp changed, Change.assigned_apply_move]
      apply fits_of_checks startRegistered (Except.ok.inj contiguous) (Except.ok.inj duration)
      intro teacher teaches roomslot taken
      rcases isAvailable teacher teaches roomslot taken with free | own
      · exact free
      · obtain ⟨former, formerAssigned, same⟩ := List.mem_map.mp own
        rw [← same]
        exact (sound.fits sec listed held).available teacher teaches former
          formerAssigned
    · intro other changed
      rw [List.mem_singleton.mp changed, Change.assigned_apply_move]
      intro another anotherListed different teacher teaches teachesOther slot taken otherSlot
        otherAssigned same
      rw [Change.assigned_apply_of_notMem _ (by simpa [Change.sections] using different.symm)]
        at otherAssigned
      have own := isApart teacher teaches slot taken
        (same ▸ taught_of_assigned anotherListed teachesOther otherAssigned)
      obtain ⟨former, formerAssigned, formerSame⟩ := List.mem_map.mp own
      exact sound.teachersApart sec listed another anotherListed different teacher
        teaches teachesOther former formerAssigned otherSlot otherAssigned
        (formerSame.trans same)

theorem admissible_unschedule (sound : Sound registry manipulator.assignments)
    (registered : (Change.unschedule sec).Registered registry)
    (accepted : manipulator.refusesUnschedule constraints sec = .ok false) :
    Admissible registry manipulator.assignments (.unschedule sec) := by
  rw [ScheduleManipulator.refusesUnschedule] at accepted
  split at accepted
  next => cases accepted
  next scheduled =>
    have held : manipulator.assignments.assignedRoomslots sec ≠ [] := by
      simpa [ScheduleManipulator.isScheduled, Assignments.isScheduled] using scheduled
    refine ⟨registered, held, trivial, ?_⟩
    apply sound.apply registered held
    · intro other changed scheduledAfter
      rw [List.mem_singleton.mp changed] at scheduledAfter
      simp at scheduledAfter
    · intro other changed
      rw [List.mem_singleton.mp changed, Change.assigned_apply_unschedule]
      intro another _ _ teacher _ _ slot assigned
      simp at assigned

theorem fits_of_exchange (sound : Sound registry assignments)
    (listed1 : section1 ∈ registry.classSections)
    (listed2 : section2 ∈ registry.classSections)
    (held2 : assignments.assignedRoomslots section2 ≠ [])
    (sameDuration : section1.duration = section2.duration)
    (available : ∀ teacher ∈ section1.teachers,
      ∀ roomslot ∈ assignments.assignedRoomslots section2,
        teacher.isAvailable roomslot.times ∨
          roomslot.times ∈ (assignments.assignedRoomslots section1).map AS_RoomSlot.times) :
    Fits registry section1 (assignments.assignedRoomslots section2) where
  inRoom := (sound.fits section2 listed2 held2).inRoom
  noGaps := (sound.fits section2 listed2 held2).noGaps
  lasts first rest same := by
    rw [sameDuration]
    exact (sound.fits section2 listed2 held2).lasts first rest same
  available teacher teaches roomslot assigned := by
    rcases available teacher teaches roomslot assigned with free | own
    · exact free
    · obtain ⟨former, formerAssigned, same⟩ := List.mem_map.mp own
      rw [← same]
      exact (sound.fits section1 listed1 (List.ne_nil_of_mem formerAssigned)).available
        teacher teaches former formerAssigned

theorem apart_of_exchange (sound : Sound registry assignments)
    (listed1 : section1 ∈ registry.classSections)
    (apart : ∀ teacher ∈ section1.teachers,
      ∀ time ∈ (assignments.assignedRoomslots section2).map AS_RoomSlot.times,
        time ∈ TeacherConcurrencyConstraint.getAlreadyTeachingSet registry assignments
            teacher →
          time ∈ (assignments.assignedRoomslots section1).map AS_RoomSlot.times)
    {other : AS_ClassSection} (otherListed : other ∈ registry.classSections)
    (different : section1 ≠ other) {teacher : AS_Teacher}
    (teaches : teacher ∈ section1.teachers) (teachesOther : teacher ∈ other.teachers)
    {slot otherSlot : AS_RoomSlot} (assigned : slot ∈ assignments.assignedRoomslots section2)
    (otherAssigned : otherSlot ∈ assignments.assignedRoomslots other) :
    slot.times ≠ otherSlot.times := by
  intro same
  have own := apart teacher teaches slot.times (List.mem_map_of_mem assigned)
    (same ▸ taught_of_assigned otherListed teachesOther otherAssigned)
  obtain ⟨former, formerAssigned, formerSame⟩ := List.mem_map.mp own
  exact sound.teachersApart section1 listed1 other otherListed different teacher teaches
    teachesOther former formerAssigned otherSlot otherAssigned (formerSame.trans same)

theorem admissible_swap (sound : Sound registry manipulator.assignments)
    (registered : (Change.swap section1 section2).Registered registry)
    (different : section1 ≠ section2)
    (accepted : manipulator.refusesSwap constraints section1 section2 = .ok false) :
    Admissible registry manipulator.assignments (.swap section1 section2) := by
  have ⟨listed1, listed2⟩ := registered
  rw [ScheduleManipulator.refusesSwap] at accepted
  split at accepted
  next => cases accepted
  next scheduled =>
    split at accepted
    next => cases accepted
    next sameDuration =>
      have held : manipulator.assignments.assignedRoomslots section1 ≠ [] ∧
          manipulator.assignments.assignedRoomslots section2 ≠ [] := by
        simpa [ScheduleManipulator.isScheduled, Assignments.isScheduled] using scheduled
      obtain ⟨held1, held2⟩ := held
      have sameDuration : section1.duration = section2.duration := not_not.mp sameDuration
      have checked := noViolation_of_accepted accepted
      obtain ⟨-, -, -, available, concurrency⟩ := required_of_composite checked
      obtain ⟨available1, available2⟩ :=
        TeacherAvailabilityConstraint.checkSwapSections_eq_none.mp (Except.ok.inj available)
      obtain ⟨apart1, apart2⟩ :=
        TeacherConcurrencyConstraint.checkSwapSections_eq_none.mp (Except.ok.inj concurrency)
      have disjoint : ∀ teacher ∈ section1.teachers, teacher ∉ section2.teachers := by
        intro teacher teaches1 teaches2
        obtain ⟨slot, assigned⟩ := List.exists_mem_of_ne_nil _ held2
        exact apart_of_exchange sound listed1 apart1 listed2 different teaches1 teaches2
          assigned assigned rfl
      have possible : (Change.swap section1 section2).Possible manipulator.assignments :=
        ⟨held1, held2, different⟩
      refine ⟨registered, possible, ⟨sameDuration, disjoint⟩, ?_⟩
      apply sound.apply registered possible
      · intro changed member _
        rcases List.mem_pair.mp member with same | same
        · rw [same, Change.assigned_apply_swap_left _ different]
          exact fits_of_exchange sound listed1 listed2 held2 sameDuration available1
        · rw [same, Change.assigned_apply_swap_right]
          exact fits_of_exchange sound listed2 listed1 held1 sameDuration.symm available2
      · intro changed member other otherListed distinct teacher teaches teachesOther slot
          assigned otherSlot otherAssigned
        rcases List.mem_pair.mp member with same | same
        · subst same
          by_cases isOther : other = section2
          · exact absurd (isOther ▸ teachesOther) (disjoint teacher teaches)
          · rw [Change.assigned_apply_swap_left _ different] at assigned
            rw [Change.assigned_apply_of_notMem _
              (by simp [Change.sections, distinct.symm, isOther])] at otherAssigned
            exact apart_of_exchange sound listed1 apart1 otherListed distinct teaches
              teachesOther assigned otherAssigned
        · subst same
          by_cases isOther : other = section1
          · exact absurd teaches (disjoint teacher (isOther ▸ teachesOther))
          · rw [Change.assigned_apply_swap_right] at assigned
            rw [Change.assigned_apply_of_notMem _
              (by simp [Change.sections, distinct.symm, isOther])] at otherAssigned
            exact apart_of_exchange sound listed2 apart2 otherListed distinct teaches
              teachesOther assigned otherAssigned

def Change.Distinct : Change → Prop
  | .schedule _ _ | .move _ _ | .unschedule _ => True
  | .swap section1 section2 => section1 ≠ section2

theorem admissible_of_accepted (sound : Sound registry manipulator.assignments)
    (registered : change.Registered registry) (distinct : change.Distinct)
    (accepted : change.refuses constraints manipulator = .ok false) :
    Admissible registry manipulator.assignments change := by
  cases change with
  | schedule sec startRoomslot => exact admissible_schedule sound registered accepted
  | move sec startRoomslot => exact admissible_move sound registered accepted
  | unschedule sec => exact admissible_unschedule sound registered accepted
  | swap section1 section2 => exact admissible_swap sound registered distinct accepted

end Guards

end EspWebsite.Autoscheduler
