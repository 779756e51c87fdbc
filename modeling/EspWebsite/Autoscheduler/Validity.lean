import EspWebsite.Autoscheduler.Soundness

/-!
# Checked schedules are sound

A schedule that passes the consistency checks and the required constraints has sound
assignments, and sound assignments pass the required constraints.
-/

namespace EspWebsite.Autoscheduler

open Allocation Calendar Python SectionDurationConstraint

/-! ## From the checks to the invariant -/

theorem forall_zip_tail_iff {α : Type} (relation : α → α → Prop) {values : List α} :
    (∀ neighbours ∈ values.zip values.tail, relation neighbours.1 neighbours.2) ↔
      values.IsChain relation := by
  induction values with
  | nil => simp
  | cons value rest ih =>
      cases rest with
      | nil => simp
      | cons next rest =>
          rw [List.isChain_cons_cons, ← ih]
          simp

section Checks

variable {schedule : AS_Schedule} {assignments : Assignments}

/-- A schedule that passes the consistency checks and all required constraints. -/
structure PassesChecks (schedule : AS_Schedule) (assignments : Assignments) : Prop where
  consistent : runAllConsistencyChecks schedule assignments = .ok ()
  required : ∀ constraint ∈ Constraint.required,
    constraint.checkSchedule schedule assignments = .ok none

theorem timeslots_ordered (checked : checkTimeslotConsistency schedule = .ok ()) :
    schedule.timeslots.Pairwise fun left right => left.endTime ≤ right.startTime := by
  let earlier := fun left right : AS_Timeslot => left.endTime ≤ right.startTime
  have chain : schedule.timeslots.IsChain earlier := by
    rw [← forall_zip_tail_iff earlier]
    intro neighbours member
    exact (checkNeighbours_eq_ok.mp (forEach_eq_ok.mp checked neighbours member)).2.2
  have transitive : Trans earlier earlier earlier := by
    constructor
    intro first second third firstOrder secondOrder
    have positive := le_of_lt second.startTime_lt_endTime
    exact le_trans firstOrder (le_trans positive secondOrder)
  exact chain.pairwise

theorem endTime_le_of_before (checked : checkTimeslotConsistency schedule = .ok ())
    {left right : AS_Timeslot} (leftListed : left ∈ schedule.timeslots)
    (rightListed : right ∈ schedule.timeslots) (ordered : left.before right) :
    left.endTime ≤ right.startTime := by
  have different : left ≠ right := by
    intro same
    exact AS_Timeslot.before_irrefl right (same ▸ ordered)
  have symmetric : Std.Symm fun left right : AS_Timeslot =>
      left.endTime ≤ right.startTime ∨ right.endTime ≤ left.startTime :=
    ⟨fun _ _ => Or.symm⟩
  have pairwise : schedule.timeslots.Pairwise fun left right =>
      left.endTime ≤ right.startTime ∨ right.endTime ≤ left.startTime :=
    (timeslots_ordered checked).imp Or.inl
  rcases pairwise.forall leftListed rightListed different with apart | apart
  · exact apart
  · exfalso
    have positive := right.startTime_lt_endTime
    have earlier : right.startTime < left.startTime := lt_of_lt_of_le positive apart
    exact absurd earlier (not_lt_of_ge (AS_Timeslot.startTime_le_of_before ordered))

/-- The roomslots of a room of a consistent schedule follow one another. -/
theorem availability_ordered (checked : checkTimeslotConsistency schedule = .ok ())
    {room : AS_Classroom} (registered : room ∈ schedule.classrooms) :
    room.availability.Pairwise fun left right =>
      left.timeslot.endTime ≤ right.timeslot.startTime := by
  have listed : ∀ roomslot ∈ room.availability, roomslot.timeslot ∈ schedule.timeslots :=
    fun roomslot available => schedule.timeslotsRegistered room registered _
      (AS_Classroom.timeslot_mem_of_mem available)
  apply room.availability_sorted.imp_of_mem
  intro left right leftAvailable rightAvailable ordered
  exact endTime_le_of_before checked (listed left leftAvailable) (listed right rightAvailable)
    ordered

theorem contiguousTolerance_lt_duration (timeslot : AS_Timeslot) :
    contiguousTolerance <
      DateTime.microsecondsBetween timeslot.startTime timeslot.endTime := by
  have longEnough := timeslot.longEnough
  rw [hoursDifference, DateTime.hoursBetween, deltaTime, le_div_iff₀ (by norm_num)] at longEnough
  rw [contiguousTolerance]
  have : (1224000000 : ℚ) ≤ DateTime.microsecondsBetween timeslot.startTime timeslot.endTime := by
    linarith
  have asIntegers : (1224000000 : Int) ≤
      DateTime.microsecondsBetween timeslot.startTime timeslot.endTime := by
    exact_mod_cast this
  omega

theorem next_of_noGap {Item : Type} {timeslot : Item → AS_Timeslot}
    {items before after : List Item} {left right : Item}
    (ordered : items.Pairwise fun left right =>
      (timeslot left).endTime ≤ (timeslot right).startTime)
    (split : items = before ++ left :: after) (member : right ∈ items)
    (noGap : contiguous (timeslot left) (timeslot right) = true) :
    ∃ rest, after = right :: rest := by
  obtain ⟨follows, near⟩ := contiguous_iff.mp noGap
  subst split
  obtain ⟨-, orderedRest, beforeOrdered⟩ := List.pairwise_append.mp ordered
  obtain ⟨leftFirst, afterOrdered⟩ := List.pairwise_cons.mp orderedRest
  have leftLength := (timeslot left).startTime_lt_endTime
  have rightLength := (timeslot right).startTime_lt_endTime
  have inAfter : right ∈ after := by
    rcases List.mem_append.mp member with early | late
    · have overlap := beforeOrdered right early left List.mem_cons_self
      exact absurd (lt_of_lt_of_le leftLength follows)
        (not_lt_of_ge (le_trans (le_of_lt rightLength) overlap))
    · rcases List.mem_cons.mp late with same | late
      · subst same
        exact absurd leftLength (not_lt_of_ge follows)
      · exact late
  cases after with
  | nil => simp at inAfter
  | cons middle rest =>
      rcases List.mem_cons.mp inAfter with same | late
      · exact ⟨rest, by rw [same]⟩
      · -- An item between the two would not fit into the gap.
        exfalso
        have startsAfter := leftFirst middle List.mem_cons_self
        have endsBefore := (List.pairwise_cons.mp afterOrdered).1 right late
        have tooLong := contiguousTolerance_lt_duration (timeslot middle)
        rw [DateTime.le_iff] at startsAfter endsBefore
        rw [DateTime.microsecondsBetween] at near tooLong
        omega

theorem prefix_of_noGaps {Item : Type} {timeslot : Item → AS_Timeslot}
    {items before after : List Item} {first : Item} {rest : List Item}
    (ordered : items.Pairwise fun left right =>
      (timeslot left).endTime ≤ (timeslot right).startTime)
    (split : items = before ++ first :: after) (member : ∀ item ∈ rest, item ∈ items)
    (noGaps : (first :: rest).IsChain fun left right =>
      contiguous (timeslot left) (timeslot right) = true) : rest <+: after := by
  induction rest generalizing before first after with
  | nil => exact List.nil_prefix
  | cons next rest ih =>
      obtain ⟨noGap, noGapsRest⟩ := List.isChain_cons_cons.mp noGaps
      obtain ⟨after, rfl⟩ :=
        next_of_noGap ordered split (member next List.mem_cons_self) noGap
      have splitRest : items = (before ++ [first]) ++ next :: after := by
        rw [split]
        simp
      apply List.cons_prefix_cons.mpr
      refine ⟨rfl, ih splitRest ?_ noGapsRest⟩
      intro item listed
      exact member item (List.mem_cons_of_mem next listed)

namespace PassesChecks

theorem timeslots (passes : PassesChecks schedule assignments) :
    checkTimeslotConsistency schedule = .ok () := by
  have consistent := passes.consistent
  simp only [runAllConsistencyChecks, andThen_eq_ok] at consistent
  exact consistent.2.2.2.1

theorem roomslots (passes : PassesChecks schedule assignments) :
    checkRoomslotsConsistency schedule assignments = .ok () := by
  have consistent := passes.consistent
  simp only [runAllConsistencyChecks, andThen_eq_ok] at consistent
  exact consistent.2.1

/-- Sections and roomslots agree on the assignments. -/
theorem agrees (passes : PassesChecks schedule assignments) :
    Agrees {sec | sec ∈ schedule.classSections}
      {roomslot | roomslot ∈ schedule.roomslots} assignments.assignedRoomslots
      assignments.assignedSection := by
  have checked := passes.roomslots
  simp only [checkRoomslotsConsistency, andThen_eq_ok, forEach_eq_ok, consistent_eq_ok,
    existingRoomslots, List.mem_append, List.mem_flatMap] at checked
  obtain ⟨holders, existing⟩ := checked
  constructor
  · intro sec listed roomslot assigned
    have found := existing roomslot (Or.inr ⟨sec, listed, assigned⟩)
    exact AS_Schedule.mem_roomslots.mpr ⟨found.2.1, found.2.2.1⟩
  · exact holders
  · intro roomslot registered sec holder
    have found := (existing roomslot (Or.inl registered)).2.2.2
    rw [checkAssignedSection, holder] at found
    simp only [andThen_eq_ok, consistent_eq_ok] at found
    exact found.1
  · intro roomslot registered sec holder
    have found := (existing roomslot (Or.inl registered)).2.2.2
    rw [checkAssignedSection, holder] at found
    simp only [andThen_eq_ok, consistent_eq_ok] at found
    exact found.2

/-- The roomslots of a section are neighbours in one room, without gaps. -/
theorem run (passes : PassesChecks schedule assignments) {sec : AS_ClassSection}
    (listed : sec ∈ schedule.classSections)
    (scheduled : assignments.assignedRoomslots sec ≠ []) :
    (∃ room ∈ schedule.classrooms,
        assignments.assignedRoomslots sec <:+: room.availability) ∧
      (assignments.assignedRoomslots sec).IsChain NoGap := by
  have required := passes.required .contiguous (by simp [Constraint.required])
  have contiguous := ContiguousConstraint.checkSchedule_eq_none.mp (Except.ok.inj required)
    sec listed
  have registered := passes.agrees.resource_of_held sec listed
  cases held : assignments.assignedRoomslots sec with
  | nil => exact absurd held scheduled
  | cons first rest =>
      obtain ⟨noGaps, sameNames⟩ := contiguous first rest held
      rw [held] at registered
      obtain ⟨roomListed, available⟩ :=
        AS_Schedule.mem_roomslots.mp (registered first List.mem_cons_self)
      refine ⟨⟨first.room, roomListed, ?_⟩, noGaps⟩
      obtain ⟨before, after, split⟩ := List.append_of_mem available
      have inRoom : ∀ roomslot ∈ rest, roomslot ∈ first.room.availability := by
        intro roomslot member
        obtain ⟨otherListed, otherAvailable⟩ :=
          AS_Schedule.mem_roomslots.mp (registered roomslot (List.mem_cons_of_mem _ member))
        have sameRoom : roomslot.room = first.room :=
          List.inj_on_of_nodup_map schedule.classroomNames otherListed roomListed
            (sameNames roomslot member)
        rwa [sameRoom] at otherAvailable
      have isPrefix := prefix_of_noGaps (availability_ordered passes.timeslots roomListed)
        split inRoom noGaps
      rw [split]
      exact (List.cons_prefix_cons.mpr ⟨rfl, isPrefix⟩).isInfix.trans
        (List.suffix_append before _).isInfix

theorem wellPlaced (passes : PassesChecks schedule assignments) :
    WellPlaced schedule assignments where
  agrees := passes.agrees
  runs _ listed scheduled := (passes.run listed scheduled).1

end PassesChecks

theorem times_nodup {room : AS_Classroom} {run : List AS_RoomSlot}
    (isRun : run <:+: room.availability) : (run.map AS_RoomSlot.times).Nodup := by
  rw [List.Nodup, List.pairwise_map]
  apply (room.availability_sorted.sublist isRun.sublist).imp
  intro left right ordered same
  have sameStart := congrArg Prod.fst same
  have sameEnd := congrArg Prod.snd same
  simp only [AS_RoomSlot.times, AS_Timeslot.times] at sameStart sameEnd
  rw [AS_Timeslot.before, if_pos sameStart, sameEnd] at ordered
  exact lt_irrefl _ ordered

theorem TeacherConcurrencyConstraint.checkSchedule_eq_none_iff_nodup :
    TeacherConcurrencyConstraint.checkSchedule schedule assignments = none ↔
      ∀ teacher ∈ schedule.teachers,
        (getAlreadyTeachingSet schedule assignments teacher).Nodup := by
  rw [TeacherConcurrencyConstraint.checkSchedule, List.findSome?_eq_none_iff]
  apply forall₂_congr
  intro teacher registered
  cases twice : teachesTwice [] (getAlreadyTeachingSet schedule assignments teacher) with
  | false =>
      have once := teachesTwice_eq_false.mp twice
      simp [once.1]
  | true =>
      have repeated : ¬ (getAlreadyTeachingSet schedule assignments teacher).Nodup := by
        intro nodup
        have once := teachesTwice_eq_false.mpr
          ⟨nodup, fun time _ => List.not_mem_nil (a := time)⟩
        rw [twice] at once
        cases once
      simp [repeated]

/-- A teacher has no roomslot twice when each section has its roomslots once and no two sections
share a time. -/
theorem TeacherConcurrencyConstraint.nodup_getAlreadyTeachingSet {teacher : AS_Teacher} :
    (getAlreadyTeachingSet schedule assignments teacher).Nodup ↔
      (∀ sec ∈ schedule.taughtSections teacher,
        ((assignments.assignedRoomslots sec).map AS_RoomSlot.times).Nodup) ∧
      (schedule.taughtSections teacher).Pairwise fun left right =>
        ∀ leftSlot ∈ assignments.assignedRoomslots left,
          ∀ rightSlot ∈ assignments.assignedRoomslots right,
            leftSlot.times ≠ rightSlot.times := by
  rw [getAlreadyTeachingSet, List.map_flatMap, List.nodup_flatMap]
  refine and_congr_right fun _ => List.Pairwise.iff ?_
  intro left right
  constructor
  · intro disjoint leftSlot leftAssigned rightSlot rightAssigned same
    exact disjoint (List.mem_map_of_mem leftAssigned) (same ▸ List.mem_map_of_mem rightAssigned)
  · intro different time leftTime rightTime
    obtain ⟨leftSlot, leftAssigned, rfl⟩ := List.mem_map.mp leftTime
    obtain ⟨rightSlot, rightAssigned, same⟩ := List.mem_map.mp rightTime
    exact different leftSlot leftAssigned rightSlot rightAssigned same.symm

theorem TeacherConcurrencyConstraint.teachersApart
    (passes : TeacherConcurrencyConstraint.checkSchedule schedule assignments = none) :
    TeachersApart schedule assignments := by
  rw [checkSchedule_eq_none_iff_nodup] at passes
  intro left leftListed right rightListed different teacher teachesLeft teachesRight
  have pairwise := (nodup_getAlreadyTeachingSet.mp
    (passes teacher (schedule.teachersRegistered left leftListed teacher teachesLeft))).2
  have symmetric : Std.Symm fun left right =>
      ∀ leftSlot ∈ assignments.assignedRoomslots left,
        ∀ rightSlot ∈ assignments.assignedRoomslots right,
          leftSlot.times ≠ rightSlot.times :=
    ⟨fun _ _ apart leftSlot leftAssigned rightSlot rightAssigned =>
      (apart rightSlot rightAssigned leftSlot leftAssigned).symm⟩
  exact pairwise.forall (AS_Schedule.mem_taughtSections.mpr ⟨leftListed, teachesLeft⟩)
    (AS_Schedule.mem_taughtSections.mpr ⟨rightListed, teachesRight⟩) different

theorem TeacherConcurrencyConstraint.checkSchedule_eq_none
    (placed : WellPlaced schedule assignments) :
    TeacherConcurrencyConstraint.checkSchedule schedule assignments = none ↔
      TeachersApart schedule assignments := by
  constructor
  · exact teachersApart
  · intro apart
    refine checkSchedule_eq_none_iff_nodup.mpr fun teacher registered => ?_
    refine nodup_getAlreadyTeachingSet.mpr ⟨fun sec taught => ?_, ?_⟩
    · by_cases scheduled : assignments.assignedRoomslots sec = []
      · simp [scheduled]
      · have listed := (AS_Schedule.mem_taughtSections.mp taught).1
        obtain ⟨room, -, isRun⟩ := placed.runs sec listed scheduled
        exact times_nodup isRun
    · have sectionsNodup : (schedule.taughtSections teacher).Nodup :=
        schedule.sectionIds.of_map.filter _
      apply sectionsNodup.pairwise_of_forall_ne
      intro left leftTaught right rightTaught different
      obtain ⟨leftListed, teachesLeft⟩ := AS_Schedule.mem_taughtSections.mp leftTaught
      obtain ⟨rightListed, teachesRight⟩ := AS_Schedule.mem_taughtSections.mp rightTaught
      exact apart left leftListed right rightListed different teacher teachesLeft teachesRight

theorem PassesChecks.sound (passes : PassesChecks schedule assignments) :
    Sound schedule assignments where
  placed := passes.wellPlaced
  fits sec listed scheduled := by
    obtain ⟨inRoom, noGaps⟩ := passes.run listed scheduled
    have duration := passes.required .sectionDuration (by simp [Constraint.required])
    have availability := passes.required .teacherAvailability (by simp [Constraint.required])
    constructor
    · exact inRoom
    · exact noGaps
    · exact SectionDurationConstraint.checkSchedule_eq_none.mp (Except.ok.inj duration)
        sec listed
    · exact TeacherAvailabilityConstraint.checkSchedule_eq_none.mp
        (Except.ok.inj availability) sec listed
  teachersApart := by
    have concurrency := passes.required .teacherConcurrency (by simp [Constraint.required])
    exact (TeacherConcurrencyConstraint.checkSchedule_eq_none passes.wellPlaced).mp
      (Except.ok.inj concurrency)

theorem Sound.required (sound : Sound schedule assignments) :
    ∀ constraint ∈ Constraint.required,
      constraint.checkSchedule schedule assignments = .ok none := by
  intro constraint member
  have contiguous : ContiguousConstraint.checkSchedule schedule assignments = none := by
    apply ContiguousConstraint.checkSchedule_eq_none.mpr
    intro sec listed first rest held
    have fits := sound.fits sec listed (by simp [held])
    rw [held] at fits
    refine ⟨fits.noGaps, ?_⟩
    intro roomslot member
    obtain ⟨room, -, isRun⟩ := fits.inRoom
    rw [AS_Classroom.room_eq_of_mem (isRun.subset (List.mem_cons_of_mem _ member)),
      AS_Classroom.room_eq_of_mem (isRun.subset List.mem_cons_self)]
  have duration : SectionDurationConstraint.checkSchedule schedule assignments = none := by
    apply SectionDurationConstraint.checkSchedule_eq_none.mpr
    intro sec listed first rest held
    exact (sound.fits sec listed (by simp [held])).lasts first rest held
  have availability :
      TeacherAvailabilityConstraint.checkSchedule schedule assignments = none := by
    apply TeacherAvailabilityConstraint.checkSchedule_eq_none.mpr
    intro sec listed teacher teaches roomslot assigned
    exact (sound.fits sec listed (List.ne_nil_of_mem assigned)).available teacher
      teaches roomslot assigned
  have concurrency :=
    (TeacherConcurrencyConstraint.checkSchedule_eq_none sound.placed).mpr sound.teachersApart
  simp only [Constraint.required, List.mem_cons, List.not_mem_nil, or_false] at member
  rcases member with rfl | rfl | rfl | rfl | rfl | rfl | rfl <;>
    simp [Constraint.checkSchedule, contiguous, duration, availability, concurrency]

/-- Sound assignments pass the consistency checks of roomslots and of sorting, which
are those that look at the assignments. -/
theorem Sound.consistent (sound : Sound schedule assignments) {earlier : Assignments}
    (consistent : runAllConsistencyChecks schedule earlier = .ok ()) :
    runAllConsistencyChecks schedule assignments = .ok () := by
  simp only [runAllConsistencyChecks, andThen_eq_ok] at consistent ⊢
  obtain ⟨lunch, roomslots, sorting, timeslots⟩ := consistent
  refine ⟨lunch, ?_, ?_, timeslots⟩
  · simp only [checkRoomslotsConsistency, andThen_eq_ok, forEach_eq_ok, consistent_eq_ok,
      existingRoomslots, List.mem_append, List.mem_flatMap]
    refine ⟨fun sec listed roomslot assigned =>
      sound.placed.assignedSection_of_assigned listed assigned, ?_⟩
    intro roomslot existing
    have registered : roomslot ∈ schedule.roomslots := by
      rcases existing with registered | ⟨sec, listed, assigned⟩
      · exact registered
      · exact sound.placed.registered_of_assigned listed assigned
    obtain ⟨roomListed, available⟩ := AS_Schedule.mem_roomslots.mp registered
    refine ⟨schedule.timeslotsRegistered _ roomListed _
      (AS_Classroom.timeslot_mem_of_mem available), roomListed, available, ?_⟩
    rw [checkAssignedSection]
    cases holder : assignments.assignedSection roomslot with
    | none => rfl
    | some sec =>
        simp only [andThen_eq_ok, consistent_eq_ok]
        exact ⟨sound.placed.agrees.owner_of_holder roomslot registered sec holder,
          sound.placed.agrees.held_of_holder roomslot registered sec holder⟩
  · simp only [checkSortingConsistency, andThen_eq_ok, forEach_eq_ok, consistent_eq_ok]
      at sorting ⊢
    refine ⟨?_, sorting.2⟩
    intro sec listed
    rw [forall_zip_tail_iff fun left right : AS_RoomSlot =>
      left.timeslot.before right.timeslot]
    by_cases scheduled : assignments.assignedRoomslots sec = []
    · simp [scheduled]
    · obtain ⟨room, -, isRun⟩ := sound.placed.runs sec listed scheduled
      exact (room.availability_sorted.sublist isRun.sublist).isChain

end Checks

end EspWebsite.Autoscheduler
