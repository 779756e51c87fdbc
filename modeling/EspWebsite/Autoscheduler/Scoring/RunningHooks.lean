import EspWebsite.Autoscheduler.Scoring.TeachersWhoLikeRunning

/-!
# The hooks of the scorer of running teachers

The dictionaries stay those of the schedule, and the count changes by what a fresh
count changes by, less the runs that the hooks miss.
-/

namespace EspWebsite.Autoscheduler

open Calendar Python Tally

namespace TeachersWhoLikeRunningScorer

section Placing

variable {schedule : AS_Schedule} {assignments : Assignments}
  {sec section1 section2 : AS_ClassSection} {first : AS_RoomSlot}
  {roomslots rest : List AS_RoomSlot} {times otherTimes : Nat → Nat → Option AS_RoomSlot}

theorem neighbours_of_fits (checked : checkTimeslotConsistency schedule = .ok ())
    (fits : Fits schedule sec roomslots) (nonempty : roomslots ≠ []) :
    ∃ before after, schedule.timeslots =
      before ++ (roomslots.map AS_RoomSlot.timeslot ++ after) := by
  obtain ⟨room, registered, isRun⟩ := fits.inRoom
  have noGaps := fits.noGaps
  obtain ⟨first, rest, same⟩ := List.exists_cons_of_ne_nil nonempty
  subst same
  have timeslotListed : ∀ roomslot ∈ first :: rest, roomslot.timeslot ∈ schedule.timeslots :=
    fun roomslot member => schedule.timeslotsRegistered room registered _
      (AS_Classroom.timeslot_mem_of_mem (isRun.subset member))
  obtain ⟨before, after, split⟩ :=
    List.append_of_mem (timeslotListed first List.mem_cons_self)
  have isPrefix : rest.map AS_RoomSlot.timeslot <+: after := by
    apply @prefix_of_noGaps _ (fun timeslot => timeslot) _ _ _ first.timeslot _
      (timeslots_ordered checked) split
    · intro timeslot member
      obtain ⟨roomslot, inRest, rfl⟩ := List.mem_map.mp member
      exact timeslotListed roomslot (List.mem_cons_of_mem _ inRest)
    · rw [← List.map_cons, List.isChain_map]
      exact noGaps
  obtain ⟨later, rfl⟩ := isPrefix
  exact ⟨before, later, by rw [split]; rfl⟩

theorem idle_of_acquire
    (placed : WellPlaced schedule (assignments.acquire sec roomslots))
    (apart : TeachersApart schedule (assignments.acquire sec roomslots))
    (placedBefore : WellPlaced schedule assignments)
    (apartBefore : TeachersApart schedule assignments)
    (listed : sec ∈ schedule.classSections)
    (unscheduled : assignments.assignedRoomslots sec = []) :
    ∀ teacherId ∈ sec.teachers.map AS_Teacher.id, ∀ roomslot ∈ roomslots,
      timesTeaching schedule assignments teacherId roomslot.timeslot.id = none := by
  intro teacherId teaches roomslot member
  cases found : timesTeaching schedule assignments teacherId roomslot.timeslot.id with
  | none => rfl
  | some other =>
      exfalso
      obtain ⟨otherSection, otherListed, enters⟩ :=
        (timesTeaching_eq_some placedBefore apartBefore).mp found
      have different : otherSection ≠ sec := by
        intro same
        subst same
        simp [Enters, unscheduled] at enters
      have otherEnters : Enters (assignments.acquire sec roomslots) otherSection
          teacherId roomslot.timeslot.id other := by
        rwa [Enters, Assignments.acquire_of_ne different, ← Enters]
      have ownEnters : Enters (assignments.acquire sec roomslots) sec
          teacherId roomslot.timeslot.id roomslot := by
        refine ⟨teaches, ?_, rfl⟩
        rwa [Assignments.acquire_self]
      exact different
        (enters_unique placed apart otherListed listed otherEnters ownEnters).1

theorem enterAll_of_unrelated {teacherId : Nat}
    (unrelated : teacherId ∉ sec.teachers.map AS_Teacher.id) :
    enterAll sec roomslots times teacherId = times teacherId :=
  updateAll_of_notMem unrelated

theorem enterAll_comm {otherRoomslots : List AS_RoomSlot}
    (listed1 : section1 ∈ schedule.classSections)
    (listed2 : section2 ∈ schedule.classSections)
    (disjoint : ∀ teacher ∈ section1.teachers, teacher ∉ section2.teachers) :
    enterAll section2 otherRoomslots (enterAll section1 roomslots times) =
      enterAll section1 roomslots (enterAll section2 otherRoomslots times) :=
  updateAll_comm (AS_Schedule.teacherIds_nodup listed1) (AS_Schedule.teacherIds_nodup listed2)
    (AS_Schedule.disjoint_teacherIds listed1 listed2 disjoint)

theorem missed_congr
    (same : ∀ teacher ∈ sec.teachers, times teacher.id = otherTimes teacher.id) :
    missed schedule times sec roomslots =
      missed schedule otherTimes sec roomslots := by
  match roomslots with
  | [] | [_] => rfl
  | _ :: second :: rest =>
      rw [missed, missed]
      have rows : ∀ lastTimeslot nextTimeslot,
          (sec.teachers.map fun teacher =>
            runs (times teacher.id) lastTimeslot nextTimeslot) =
          sec.teachers.map fun teacher =>
            runs (otherTimes teacher.id) lastTimeslot nextTimeslot := by
        intro lastTimeslot nextTimeslot
        apply List.map_congr_left
        intro teacher teaches
        rw [same teacher teaches]
      simp only [rows]

namespace Enterable

/-- Roomslots that one section may enter are entered by another one as well if its
teachers are idle then. -/
theorem transfer (enterable : Enterable schedule otherTimes section1 roomslots)
    (listed : sec ∈ schedule.classSections)
    (idle : ∀ teacherId ∈ sec.teachers.map AS_Teacher.id, ∀ roomslot ∈ roomslots,
      times teacherId roomslot.timeslot.id = none) :
    Enterable schedule times sec roomslots :=
  ⟨listed, enterable.sameRoom, enterable.neighbours, idle⟩

theorem enterAll (enterable : Enterable schedule times section1 roomslots)
    (listed2 : section2 ∈ schedule.classSections)
    (disjoint : ∀ teacher ∈ section1.teachers, teacher ∉ section2.teachers)
    (otherRoomslots : List AS_RoomSlot) :
    Enterable schedule
      (TeachersWhoLikeRunningScorer.enterAll section2 otherRoomslots times) section1
        roomslots := by
  apply enterable.transfer enterable.listed
  intro teacherId teaches roomslot member
  rw [enterAll_of_unrelated
    (AS_Schedule.disjoint_teacherIds enterable.listed listed2 disjoint teacherId teaches)]
  exact enterable.idle teacherId teaches roomslot member

end Enterable

/-- By how much the count grows when roomslots are entered. -/
def gain (schedule : AS_Schedule) (times : Nat → Nat → Option AS_RoomSlot)
    (sec : AS_ClassSection) (roomslots : List AS_RoomSlot) : ℚ :=
  totalRuns schedule (enterAll sec roomslots times) - totalRuns schedule times -
    missed schedule (enterAll sec roomslots times) sec roomslots

theorem processSection_gain (enterable : Enterable schedule times sec roomslots)
    (nonempty : roomslots ≠ []) :
    processSection schedule (enterAll sec roomslots times) sec roomslots =
      .ok (gain schedule times sec roomslots) := by
  obtain ⟨first, rest, same⟩ := List.exists_cons_of_ne_nil nonempty
  subst same
  obtain ⟨processed, returned, total⟩ := enterable.totalRuns_enterAll
  have isGain : processed = gain schedule times sec (first :: rest) := by
    rw [gain, total]
    ring
  rw [returned, isGain]

theorem updateScheduleSection_eq {startRoomslot : AS_RoomSlot} {count : ℚ}
    (enterable : Enterable schedule times sec
      (getRoomslotsByDuration startRoomslot sec.duration))
    (nonempty : getRoomslotsByDuration startRoomslot sec.duration ≠ []) :
    updateScheduleSection schedule assignments sec startRoomslot ⟨times, count⟩ =
      .ok ⟨enterAll sec
          (getRoomslotsByDuration startRoomslot sec.duration) times,
        count + gain schedule times sec
          (getRoomslotsByDuration startRoomslot sec.duration)⟩ := by
  simp only [updateScheduleSection, processSection_gain enterable nonempty, ok_bind,
    pure_eq_ok]

theorem updateUnscheduleSection_eq {count : ℚ}
    (enterable : Enterable schedule times sec
      (assignments.assignedRoomslots sec))
    (scheduled : assignments.assignedRoomslots sec ≠ []) :
    updateUnscheduleSection schedule assignments sec
        ⟨enterAll sec (assignments.assignedRoomslots sec) times, count⟩ =
      .ok ⟨times, count - gain schedule times sec
        (assignments.assignedRoomslots sec)⟩ := by
  simp only [updateUnscheduleSection, processSection_gain enterable scheduled,
    enterable.deleteAll_eq, ok_bind, pure_eq_ok]

end Placing

section Hooks

variable {schedule : AS_Schedule} {assignments : Assignments} {change : Change}
  {sec other section1 section2 : AS_ClassSection} {roomslots : List AS_RoomSlot}

theorem enters_acquire (checked : checkTimeslotConsistency schedule = .ok ())
    (placed : WellPlaced schedule (assignments.acquire sec roomslots))
    (apart : TeachersApart schedule (assignments.acquire sec roomslots))
    (placedBefore : WellPlaced schedule assignments)
    (apartBefore : TeachersApart schedule assignments)
    (listed : sec ∈ schedule.classSections)
    (unscheduled : assignments.assignedRoomslots sec = [])
    (fits : Fits schedule other roomslots) (nonempty : roomslots ≠ []) :
    Enterable schedule (timesTeaching schedule assignments) sec roomslots ∧
      enterAll sec roomslots (timesTeaching schedule assignments) =
        timesTeaching schedule (assignments.acquire sec roomslots) := by
  obtain ⟨room, -, isRun⟩ := fits.inRoom
  constructor
  · constructor
    · exact listed
    · exact ⟨room, fun roomslot member => AS_Classroom.room_eq_of_mem (isRun.subset member)⟩
    · exact neighbours_of_fits checked fits nonempty
    · exact idle_of_acquire placed apart placedBefore apartBefore listed unscheduled
  · exact timesTeaching_acquire placed apart placedBefore apartBefore listed unscheduled

theorem enters_release (checked : checkTimeslotConsistency schedule = .ok ())
    (placed : WellPlaced schedule assignments) (apart : TeachersApart schedule assignments)
    (listed : sec ∈ schedule.classSections)
    (fits : Fits schedule other (assignments.assignedRoomslots sec))
    (scheduled : assignments.assignedRoomslots sec ≠ []) :
    Enterable schedule (timesTeaching schedule (assignments.release sec))
        sec (assignments.assignedRoomslots sec) ∧
      enterAll sec (assignments.assignedRoomslots sec)
          (timesTeaching schedule (assignments.release sec)) =
        timesTeaching schedule assignments := by
  have restored := Assignments.acquire_release
    fun roomslot => placed.assignedSection_of_assigned listed
  have entered := enters_acquire checked (restored.symm ▸ placed) (restored.symm ▸ apart)
    (placed.release listed) (apart.release sec) listed Assignments.release_self fits
    scheduled
  rwa [restored] at entered

/-- The runs from the last timeslots of the given sections that last several. -/
def missedRuns (schedule : AS_Schedule) (assignments : Assignments)
    (classSections : List AS_ClassSection) : ℚ :=
  (classSections.map fun sec =>
    missed schedule (timesTeaching schedule assignments) sec
      (assignments.assignedRoomslots sec)).sum

def freshCount (schedule : AS_Schedule) (assignments : Assignments) : ℚ :=
  totalRuns schedule (timesTeaching schedule assignments)

/-- What the count grows by when a change is made: what a fresh count does, except for
the missed runs of the changed sections. -/
def growth (schedule : AS_Schedule) (assignments : Assignments) (change : Change) : ℚ :=
  (freshCount schedule (change.apply assignments) -
      missedRuns schedule (change.apply assignments) change.sections) -
    (freshCount schedule assignments - missedRuns schedule assignments change.sections)

theorem missedRuns_unscheduled (unscheduled : assignments.assignedRoomslots sec = []) :
    missedRuns schedule assignments [sec] = 0 := by
  simp [missedRuns, unscheduled, missed]

theorem missedRuns_single : missedRuns schedule assignments [sec] =
    missed schedule (timesTeaching schedule assignments) sec
      (assignments.assignedRoomslots sec) := by
  simp [missedRuns]

theorem gain_acquire
    (entered : enterAll sec roomslots (timesTeaching schedule assignments) =
      timesTeaching schedule (assignments.acquire sec roomslots)) :
    gain schedule (timesTeaching schedule assignments) sec roomslots =
      freshCount schedule (assignments.acquire sec roomslots) -
          missedRuns schedule (assignments.acquire sec roomslots) [sec] -
        freshCount schedule assignments := by
  rw [gain, entered, missedRuns_single, Assignments.acquire_self, freshCount, freshCount]
  ring

theorem gain_release
    (entered : enterAll sec (assignments.assignedRoomslots sec)
        (timesTeaching schedule (assignments.release sec)) =
      timesTeaching schedule assignments) :
    gain schedule (timesTeaching schedule (assignments.release sec)) sec
        (assignments.assignedRoomslots sec) =
      freshCount schedule assignments - missedRuns schedule assignments [sec] -
        freshCount schedule (assignments.release sec) := by
  rw [gain, entered, missedRuns_single, freshCount, freshCount]
  ring

theorem scheduleHook_eq (checked : checkTimeslotConsistency schedule = .ok ())
    {startRoomslot : AS_RoomSlot} {count : ℚ}
    (soundAfter : Sound schedule (assignments.acquire sec
      (getRoomslotsByDuration startRoomslot sec.duration)))
    (placed : WellPlaced schedule assignments) (apart : TeachersApart schedule assignments)
    (listed : sec ∈ schedule.classSections)
    (registered : startRoomslot ∈ schedule.roomslots)
    (unscheduled : assignments.assignedRoomslots sec = []) (state : Assignments) :
    updateScheduleSection schedule state sec startRoomslot
        ⟨timesTeaching schedule assignments, count⟩ =
      .ok ⟨timesTeaching schedule (assignments.acquire sec
          (getRoomslotsByDuration startRoomslot sec.duration)),
        count + (freshCount schedule (assignments.acquire sec
              (getRoomslotsByDuration startRoomslot sec.duration)) -
            missedRuns schedule (assignments.acquire sec
              (getRoomslotsByDuration startRoomslot sec.duration)) [sec] -
          freshCount schedule assignments)⟩ := by
  have nonempty : getRoomslotsByDuration startRoomslot sec.duration ≠ [] :=
    Change.run_ne_nil registered
  have fits := soundAfter.fits sec listed
  rw [Assignments.acquire_self] at fits
  obtain ⟨enterable, entered⟩ := enters_acquire checked soundAfter.placed
    soundAfter.teachersApart placed apart listed unscheduled (fits nonempty) nonempty
  rw [updateScheduleSection_eq enterable nonempty, gain_acquire entered, entered]

theorem unscheduleHook_eq (checked : checkTimeslotConsistency schedule = .ok ())
    (sound : Sound schedule assignments) {count : ℚ}
    (listed : sec ∈ schedule.classSections)
    (scheduled : assignments.assignedRoomslots sec ≠ []) :
    updateUnscheduleSection schedule assignments sec
        ⟨timesTeaching schedule assignments, count⟩ =
      .ok ⟨timesTeaching schedule (assignments.release sec),
        count - (freshCount schedule assignments -
            missedRuns schedule assignments [sec] -
          freshCount schedule (assignments.release sec))⟩ := by
  obtain ⟨enterable, entered⟩ := enters_release checked sound.placed sound.teachersApart listed
    (sound.fits sec listed scheduled) scheduled
  have hook := @updateUnscheduleSection_eq _ _ _ _ count enterable scheduled
  rw [entered, gain_release entered] at hook
  exact hook

/-- What the swapped sections enter, starting from a schedule without the two.  The first
section takes its new place while the second one is still there. -/
theorem enters_swap (checked : checkTimeslotConsistency schedule = .ok ())
    (sound : Sound schedule assignments)
    (admissible : Admissible schedule assignments (.swap section1 section2)) :
    ∃ neither alone,
      (Enterable schedule neither section2 (assignments.assignedRoomslots section2) ∧
        enterAll section2 (assignments.assignedRoomslots section2) neither =
          timesTeaching schedule (assignments.release section1)) ∧
      (Enterable schedule neither section1 (assignments.assignedRoomslots section2) ∧
        enterAll section1 (assignments.assignedRoomslots section2) neither = alone) ∧
      (Enterable schedule alone section2 (assignments.assignedRoomslots section1) ∧
        enterAll section2 (assignments.assignedRoomslots section1) alone =
          timesTeaching schedule ((Change.swap section1 section2).apply assignments)) := by
  obtain ⟨listed1, listed2⟩ := admissible.registered
  obtain ⟨held1, held2, different⟩ := admissible.possible
  have soundAfter := admissible.sound
  have fits1 := sound.fits section1 listed1 held1
  have fits2 := sound.fits section2 listed2 held2
  have placed1 := sound.placed.release listed1
  have apart1 := sound.teachersApart.release section1
  have heldStill : (assignments.release section1).assignedRoomslots section2 =
      assignments.assignedRoomslots section2 := Assignments.release_of_ne different.symm
  have unscheduled1 : ((assignments.release section1).release section2).assignedRoomslots
      section1 = [] := by
    rw [Assignments.release_of_ne different, Assignments.release_self]
  have placedAlone : WellPlaced schedule (((assignments.release section1).release
      section2).acquire section1 (assignments.assignedRoomslots section2)) := by
    apply (placed1.release listed2).acquire listed1 unscheduled1
      (sound.placed.runs section2 listed2)
    intro roomslot assigned2
    exact Change.free_of_released sound.placed listed1 listed2 roomslot
      (List.mem_append_right _ assigned2)
  have unscheduled2 : (((assignments.release section1).release section2).acquire section1
      (assignments.assignedRoomslots section2)).assignedRoomslots section2 = [] := by
    rw [Assignments.acquire_of_ne different.symm, Assignments.release_self]
  have apartAlone : TeachersApart schedule (((assignments.release section1).release
      section2).acquire section1 (assignments.assignedRoomslots section2)) := by
    apply soundAfter.teachersApart.of_subset
    intro other listed
    by_cases same : other = section2
    · subst same
      rw [unscheduled2]
      exact List.nil_subset _
    · rw [Change.apply, Assignments.acquire_of_ne same]
      exact List.Subset.refl _
  have entered2 := enters_release checked placed1 apart1 listed2 (heldStill.symm ▸ fits2)
    (heldStill.symm ▸ held2)
  rw [heldStill] at entered2
  exact ⟨_, _, entered2,
    enters_acquire checked placedAlone apartAlone (placed1.release listed2)
      (apart1.release section2) listed1 unscheduled1 fits2 held2,
    enters_acquire checked soundAfter.placed soundAfter.teachersApart placedAlone apartAlone
      listed2 unscheduled2 fits1 held1⟩

theorem swapHook_eq (checked : checkTimeslotConsistency schedule = .ok ())
    (sound : Sound schedule assignments)
    (admissible : Admissible schedule assignments (.swap section1 section2))
    (tracks : (Change.swap section1 section2).Tracks assignments) {count : ℚ} :
    BaseScorer.updateSwapSections (updateScheduleSection schedule)
        (updateUnscheduleSection schedule) assignments section1 section2
        ⟨timesTeaching schedule assignments, count⟩ =
      .ok ⟨timesTeaching schedule ((Change.swap section1 section2).apply assignments),
        count + growth schedule assignments (.swap section1 section2)⟩ := by
  obtain ⟨listed1, listed2⟩ := admissible.registered
  obtain ⟨held1, held2, different⟩ := admissible.possible
  obtain ⟨-, disjoint⟩ := admissible.exchangeable
  obtain ⟨sameDuration, canonical1, canonical2⟩ := tracks
  have disjointSymm : ∀ teacher ∈ section2.teachers, teacher ∉ section1.teachers :=
    fun teacher teaches2 teaches1 => disjoint teacher teaches1 teaches2
  obtain ⟨start1, -, first1, taken1⟩ := canonical1.exists_start held1
  obtain ⟨start2, -, first2, taken2⟩ := canonical2.exists_start held2
  rw [sameDuration] at taken1
  rw [← sameDuration] at taken2
  obtain ⟨enterable1, entered1⟩ := enters_release checked sound.placed sound.teachersApart
    listed1 (sound.fits section1 listed1 held1) held1
  obtain ⟨neither, alone, ⟨enterable2, entered2⟩, ⟨enterableNew1, enteredNew1⟩,
    enterableNew2, enteredNew2⟩ := enters_swap checked sound admissible
  have enterableBoth := enterableNew1.enterAll listed2 disjoint
    (assignments.assignedRoomslots section2)
  rw [entered2] at enterableBoth
  have enterableStill := enterable2.enterAll listed1 disjointSymm
    (assignments.assignedRoomslots section2)
  rw [enteredNew1] at enterableStill
  -- Both sections are at the roomslots of the second one between the two moves.
  have both : enterAll section1 (assignments.assignedRoomslots section2)
      (timesTeaching schedule (assignments.release section1)) =
        enterAll section2 (assignments.assignedRoomslots section2) alone := by
    rw [← entered2, ← enteredNew1]
    exact enterAll_comm listed2 listed1 disjointSymm
  have unscheduled1 : ∀ count, updateUnscheduleSection schedule assignments section1
      ⟨timesTeaching schedule assignments, count⟩ = .ok ⟨_, _⟩ :=
    fun count => entered1 ▸ updateUnscheduleSection_eq enterable1 held1
  have scheduled1 : ∀ count, updateScheduleSection schedule assignments section1 start2
      ⟨timesTeaching schedule (assignments.release section1), count⟩ = .ok ⟨_, _⟩ :=
    fun count => updateScheduleSection_eq (taken2.symm ▸ enterableBoth) (taken2.symm ▸ held2)
  have unscheduled2 : ∀ count, updateUnscheduleSection schedule assignments section2
      ⟨enterAll section2 (assignments.assignedRoomslots section2) alone, count⟩ = .ok ⟨_, _⟩ :=
    fun count => updateUnscheduleSection_eq enterableStill held2
  have scheduled2 : ∀ count, updateScheduleSection schedule assignments section2 start1
      ⟨alone, count⟩ = .ok ⟨_, _⟩ :=
    fun count => updateScheduleSection_eq (taken1.symm ▸ enterableNew2) (taken1.symm ▸ held1)
  have missed1 : missed schedule (enterAll section1 (assignments.assignedRoomslots section2)
      (timesTeaching schedule (assignments.release section1))) section1
        (assignments.assignedRoomslots section2) =
      missed schedule (timesTeaching schedule ((Change.swap section1 section2).apply
        assignments)) section1 (assignments.assignedRoomslots section2) := by
    apply missed_congr
    intro teacher teaches
    have unrelated := AS_Schedule.disjoint_teacherIds listed1 listed2 disjoint teacher.id
      (List.mem_map_of_mem teaches)
    rw [both, enterAll_of_unrelated unrelated, ← enteredNew2, enterAll_of_unrelated unrelated]
  have missed2 : missed schedule (enterAll section1 (assignments.assignedRoomslots section2)
      (timesTeaching schedule (assignments.release section1))) section2
        (assignments.assignedRoomslots section2) =
      missed schedule (timesTeaching schedule assignments) section2
        (assignments.assignedRoomslots section2) := by
    apply missed_congr
    intro teacher teaches
    have unrelated := AS_Schedule.disjoint_teacherIds listed2 listed1 disjointSymm teacher.id
      (List.mem_map_of_mem teaches)
    rw [enterAll_of_unrelated unrelated, ← entered1, enterAll_of_unrelated unrelated]
  simp only [BaseScorer.updateSwapSections, BaseScorer.updateMoveSection, first1, first2,
    ok_bind, unscheduled1, scheduled1, taken1, taken2, both, unscheduled2, scheduled2,
    enteredNew2]
  rw [both] at missed1 missed2
  simp only [growth, gain, freshCount, missedRuns, Change.sections, List.map_cons, List.map_nil,
    List.sum_cons, List.sum_nil, Change.assigned_apply_swap_left assignments different,
    Change.assigned_apply_swap_right, entered1, enteredNew2, both, missed1, missed2]
  congr 2
  ring

theorem updateScorer_eq (checked : checkTimeslotConsistency schedule = .ok ())
    (sound : Sound schedule assignments) (admissible : Admissible schedule assignments change)
    (tracks : change.Tracks assignments) {count : ℚ} :
    change.updateScorer (TeachersWhoLikeRunningScorer schedule) assignments
        ⟨timesTeaching schedule assignments, count⟩ =
      (.ok ⟨timesTeaching schedule (change.apply assignments),
        count + growth schedule assignments change⟩ : Raises State) := by
  have registered := admissible.registered
  have possible := admissible.possible
  cases change with
  | schedule sec startRoomslot =>
      refine (scheduleHook_eq checked admissible.sound sound.placed sound.teachersApart
        registered.1 registered.2 possible.1 assignments).trans ?_
      rw [growth, Change.sections, missedRuns_unscheduled possible.1, sub_zero]
      rfl
  | unschedule sec =>
      refine (unscheduleHook_eq checked sound registered possible).trans ?_
      rw [growth, Change.sections, Change.apply,
        missedRuns_unscheduled Assignments.release_self]
      congr 2
      ring
  | move sec startRoomslot =>
      have unscheduled : ∀ count, updateUnscheduleSection schedule assignments sec
          ⟨timesTeaching schedule assignments, count⟩ = .ok ⟨_, _⟩ :=
        fun count => unscheduleHook_eq checked sound registered.1 possible.1
      have scheduled : ∀ count, updateScheduleSection schedule assignments sec
          startRoomslot ⟨timesTeaching schedule (assignments.release sec), count⟩ =
            .ok ⟨_, _⟩ :=
        fun count => scheduleHook_eq checked admissible.sound
          (sound.placed.release registered.1) (sound.teachersApart.release sec)
          registered.1 registered.2 Assignments.release_self assignments
      simp only [Change.updateScorer, TeachersWhoLikeRunningScorer,
        BaseScorer.updateMoveSection, unscheduled, ok_bind, scheduled]
      rw [growth, Change.sections, Change.apply]
      congr 2
      ring
  | swap section1 section2 => exact swapHook_eq checked sound admissible tracks

/-! ## Balanced runs -/

/-- A change after which as many runs from last timeslots are missed as before. -/
def Balanced (schedule : AS_Schedule) (assignments : Assignments) (change : Change) : Prop :=
  missedRuns schedule (change.apply assignments) change.sections =
    missedRuns schedule assignments change.sections

/-- An operation that, if it changes something, makes an admissible and balanced
change. -/
def BalancedStep (constraints : CompositeConstraint)
    (manipulator result : ScheduleManipulator (TeachersWhoLikeRunningScorer schedule)) :
    Prop :=
  ∃ (operation : Operation) (answer : Bool),
    operation.Guarded schedule manipulator.assignments ∧
    operation.run constraints manipulator = .ok (answer, result) ∧
    (answer = true → ∀ change, operation.change manipulator.history = some change →
      Balanced schedule manipulator.assignments change)

variable {constraints : CompositeConstraint}
  {manipulator result : ScheduleManipulator (TeachersWhoLikeRunningScorer schedule)}

theorem updateSchedule_eq : (TeachersWhoLikeRunningScorer schedule).updateSchedule assignments =
    (.ok ⟨timesTeaching schedule assignments, freshCount schedule assignments⟩ :
      Raises State) := rfl

theorem built_of_hook (checked : checkTimeslotConsistency schedule = .ok ())
    (sound : Sound schedule assignments) (admissible : Admissible schedule assignments change)
    (tracks : change.Tracks assignments) (balanced : Balanced schedule assignments change)
    {state updated : State}
    (built : (TeachersWhoLikeRunningScorer schedule).updateSchedule assignments = .ok state)
    (hook : change.updateScorer (TeachersWhoLikeRunningScorer schedule) assignments state =
      .ok updated) :
    (TeachersWhoLikeRunningScorer schedule).updateSchedule (change.apply assignments) =
      .ok updated := by
  rw [← Except.ok.inj (updateSchedule_eq.symm.trans built)] at hook
  have same := (updateScorer_eq checked sound admissible tracks).symm.trans hook
  rw [← Except.ok.inj same, growth, balanced]
  refine updateSchedule_eq.trans ?_
  congr 2
  ring

theorem built_of_balanced (checked : checkTimeslotConsistency schedule = .ok ())
    (undoable : Undoable schedule manipulator.assignments manipulator.history)
    (tidy : Tidy schedule manipulator.assignments)
    (built : (TeachersWhoLikeRunningScorer schedule).updateSchedule manipulator.assignments =
      .ok manipulator.scorerState)
    (run : Relation.ReflTransGen (BalancedStep constraints) manipulator result) :
    Undoable schedule result.assignments result.history ∧ Tidy schedule result.assignments ∧
      (TeachersWhoLikeRunningScorer schedule).updateSchedule result.assignments =
        .ok result.scorerState := by
  induction run with
  | refl => exact ⟨undoable, tidy, built⟩
  | tail _ step ih =>
      obtain ⟨undoableBefore, tidyBefore, builtBefore⟩ := ih
      obtain ⟨operation, answer, guarded, returned, balanced⟩ := step
      rcases makes_of_guarded undoableBefore guarded returned with
        ⟨-, same⟩ | ⟨changed, undoableAfter, change, makesChange, makes⟩
      · subst same
        exact ⟨undoableBefore, tidyBefore, builtBefore⟩
      · refine ⟨undoableAfter, ?_, ?_⟩
        · rw [makes.assignments]
          exact makes.admissible.tidy tidyBefore
        · rw [makes.assignments]
          exact built_of_hook checked undoableBefore.sound makes.admissible
            (makes.admissible.tracks tidyBefore) (balanced changed change makesChange)
            builtBefore makes.updated

end Hooks

end TeachersWhoLikeRunningScorer

end EspWebsite.Autoscheduler
