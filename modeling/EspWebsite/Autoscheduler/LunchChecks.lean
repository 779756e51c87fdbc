import EspWebsite.Autoscheduler.Scoring.Correctness
import EspWebsite.Library.Dicts
import EspWebsite.Library.Loops

/-!
# Sections over lunch

`LunchConstraint` refuses a section that lasts over all the lunch timeslots of a day.  Its checks
of the manipulations are compared with what the schedule is afterwards, and so is its check of the
whole schedule.
-/

namespace EspWebsite.Autoscheduler

open Calendar Python Loops Dicts

/-! ## The lunch timeslots of the days -/

/-- How Python orders pairs of times. -/
def earlier (left right : DateTime × DateTime) : Prop :=
  if left.1 = right.1 then left.2 < right.2 else left.1 < right.1

instance (left right : DateTime × DateTime) : Decidable (earlier left right) := by
  unfold earlier
  infer_instance

/-- `build_timeslot_dict`, with the timeslot of some times. -/
def timeslotDict (timeslots : List AS_Timeslot) (times : DateTime × DateTime) :
    Option AS_Timeslot :=
  timeslots.reverse.find? fun timeslot => timeslot.times = times

abbrev ByDay := Dict (Nat × Nat × Nat) (List AS_Timeslot)

/-- The loop of `build_lunch_timeslots`. -/
def addLunch (timeslots : List AS_Timeslot) (times : DateTime × DateTime) (timeslotsByDay : ByDay) :
    Raises ByDay :=
  match timeslotDict timeslots times with
  | none => .ok timeslotsByDay
  | some timeslot => do
      assert (times.2.date = times.1.date) "Timeslot spans multiple days"
      return setItem timeslotsByDay times.1.date
        ((get? timeslotsByDay times.1.date).getD [] ++ [timeslot])

def buildLunchTimeslots (timeslots : List AS_Timeslot)
    (lunchTimeslots : List (DateTime × DateTime)) : Raises ByDay :=
  forLoop (addLunch timeslots)
    (lunchTimeslots.insertionSort fun left right => ¬earlier right left) []

theorem ne_nil_of_mem_setItem {byDay : ByDay} {date : Nat × Nat × Nat}
    {timeslots : List AS_Timeslot} (filled : ∀ day ∈ byDay, day.2 ≠ [])
    (isFilled : timeslots ≠ []) :
    ∀ day ∈ setItem byDay date timeslots, day.2 ≠ [] := by
  induction byDay with
  | nil => simpa [setItem] using isFilled
  | cons first rest ih =>
      have others := ih fun day isDay => filled day (List.mem_cons_of_mem _ isDay)
      by_cases same : first.1 = date
      · simp only [setItem, same, if_true, List.forall_mem_cons]
        exact ⟨isFilled, fun day isDay => filled day (List.mem_cons_of_mem _ isDay)⟩
      · simp only [setItem, same, if_false, List.forall_mem_cons]
        exact ⟨filled first List.mem_cons_self, others⟩

theorem ne_nil_of_buildLunchTimeslots {timeslots : List AS_Timeslot}
    {lunchTimeslots : List (DateTime × DateTime)} {byDay : ByDay}
    (built : buildLunchTimeslots timeslots lunchTimeslots = .ok byDay) :
    ∀ day ∈ byDay, day.2 ≠ [] := by
  refine forLoop_invariant (fun byDay => ∀ day ∈ byDay, day.2 ≠ []) ?_ (by simp) built
  intro times _ before after filled added
  rw [addLunch] at added
  split at added
  · rwa [Except.ok.inj added] at filled
  · simp only [andThen_eq_ok, assert_eq_ok, pure_eq_ok, Except.ok.injEq] at added
    rw [← added.2]
    exact ne_nil_of_mem_setItem filled (by simp)

/-! ## Sections that are over lunch -/

namespace LunchConstraint

variable {schedule : AS_Schedule} {assignments after : Assignments}

/-- The roomslots start no later than the first of the lunch timeslots and end no earlier than the
last one. -/
def Covers (lunchSlots : List AS_Timeslot) (roomslots : List AS_RoomSlot) : Prop :=
  ∃ startLunch ∈ lunchSlots.head?, ∃ endLunch ∈ lunchSlots.getLast?,
    ∃ startSection ∈ roomslots.head?, ∃ endSection ∈ roomslots.getLast?,
      startSection.timeslot.startTime ≤ startLunch.startTime ∧
        endLunch.endTime ≤ endSection.timeslot.endTime

def OverLunch (schedule : AS_Schedule) (assignments : Assignments) : Prop :=
  ∃ day ∈ schedule.lunchTimeslots, ∃ sec ∈ schedule.classSections,
    Covers day.2 (assignments.assignedRoomslots sec)

def check (schedule : AS_Schedule) (assignments : Assignments) : Change → CheckResult
  | .schedule sec startRoomslot =>
      Constraint.checkScheduleSection schedule assignments sec startRoomslot .lunch
  | .move sec startRoomslot =>
      Constraint.checkMoveSection schedule assignments sec startRoomslot .lunch
  | .unschedule sec => Constraint.checkUnscheduleSection assignments sec .lunch
  | .swap section1 section2 =>
      Constraint.checkSwapSections schedule assignments section1 section2 .lunch

/-- The check of the schedule returns, and reports a violation exactly if a section is over
lunch. -/
def ScheduleCheckExact (schedule : AS_Schedule) (assignments : Assignments) : Prop :=
  ∃ violation, Constraint.checkSchedule schedule assignments .lunch = .ok violation ∧
    (violation.isSome = true ↔ OverLunch schedule assignments)

/-- From a schedule without a section over lunch, the check of each manipulation reports nothing
exactly if no section is over lunch after it. -/
def ChangeChecksExact (schedule : AS_Schedule) (assignments : Assignments) : Prop :=
  ¬OverLunch schedule assignments → ∀ change : Change, change.Registered schedule →
    ∀ after, change.effect assignments = .ok after →
      (check schedule assignments change = .ok none ↔ ¬OverLunch schedule after)

@[simp] theorem not_covers_nil (lunchSlots : List AS_Timeslot) : ¬Covers lunchSlots [] := by
  simp [Covers]

theorem coversLunch_eq {lunchSlots : List AS_Timeslot} {roomslots : List AS_RoomSlot}
    (hasLunch : lunchSlots ≠ []) (scheduled : roomslots ≠ []) :
    ∃ answer, coversLunch lunchSlots roomslots = .ok answer ∧
      (answer = true ↔ Covers lunchSlots roomslots) := by
  obtain ⟨startLunch, lunchRest, rfl⟩ := List.exists_cons_of_ne_nil hasLunch
  obtain ⟨startSection, rest, rfl⟩ := List.exists_cons_of_ne_nil scheduled
  refine ⟨_, rfl, ?_⟩
  simp [Covers, List.getLast?_eq_some_getLast]

theorem checkDays_eq_none {roomslots : List AS_RoomSlot} {days : ByDay}
    (hasLunch : ∀ day ∈ days, day.2 ≠ []) (scheduled : roomslots ≠ []) :
    checkDays roomslots days = .ok none ↔ ∀ day ∈ days, ¬Covers day.2 roomslots := by
  induction days with
  | nil => simp [checkDays]
  | cons day rest ih =>
      have others := ih fun day isDay => hasLunch day (List.mem_cons_of_mem _ isDay)
      obtain ⟨answer, answered, isCovered⟩ :=
        coversLunch_eq (hasLunch day List.mem_cons_self) scheduled
      rw [checkDays, answered, List.forall_mem_cons, ← isCovered]
      cases answer with
      | true => simp
      | false => simpa using others

end LunchConstraint

/-! ## What the manipulations leave -/

variable {schedule : AS_Schedule} {assignments after : Assignments}

theorem AS_Timeslot.before_trans {first second third : AS_Timeslot} (left : first.before second)
    (right : second.before third) : first.before third := by
  rw [AS_Timeslot.before] at *
  by_cases same : first.startTime = second.startTime
  · rw [if_pos same] at left
    rw [same]
    split at right
    next also =>
      rw [if_pos also]
      exact left.trans right
    next apart =>
      rw [if_neg apart]
      exact right
  · rw [if_neg same] at left
    split at right
    next also =>
      rw [← also, if_neg same]
      exact left
    next apart =>
      have before := left.trans right
      rw [if_neg before.ne]
      exact before

theorem insertionSort_of_consistent
    (consistent : runAllConsistencyChecks schedule assignments = .ok ())
    {sec : AS_ClassSection} (listed : sec ∈ schedule.classSections) :
    ((assignments.assignedRoomslots sec).insertionSort
        fun left right => ¬right.timeslot.before left.timeslot) =
      assignments.assignedRoomslots sec := by
  simp only [runAllConsistencyChecks, andThen_eq_ok, checkSortingConsistency, forEach_eq_ok,
    consistent_eq_ok] at consistent
  have neighbours := consistent.2.2.1.1 sec listed
  rw [forall_zip_tail_iff fun left right : AS_RoomSlot => left.timeslot.before right.timeslot]
    at neighbours
  have transitive : IsTrans AS_RoomSlot fun left right => left.timeslot.before right.timeslot :=
    ⟨fun _ _ _ => AS_Timeslot.before_trans⟩
  exact List.Pairwise.insertionSort_eq (neighbours.pairwise.imp AS_Timeslot.before_asymm)

theorem assignedRoomslots_assignRoomslots {sec : AS_ClassSection}
    {roomslots : List AS_RoomSlot}
    (assigned : assignments.assignRoomslots sec roomslots = .ok after) :
    assignments.assignedRoomslots sec = [] ∧
      after.assignedRoomslots = Function.update assignments.assignedRoomslots sec
        (roomslots.insertionSort fun left right => ¬right.timeslot.before left.timeslot) := by
  simp only [Assignments.assignRoomslots, assert_eq_ok, bind_eq_ok, pure_eq_ok,
    Except.ok.injEq] at assigned
  obtain ⟨-, vacant, _, -, rfl⟩ := assigned
  exact ⟨vacant, rfl⟩

theorem assignedRoomslots_assign_run {sec : AS_ClassSection}
    {startRoomslot : AS_RoomSlot} {duration : ℚ}
    (assigned : assignments.assignRoomslots sec
      (getRoomslotsByDuration startRoomslot duration) = .ok after) :
    after.assignedRoomslots = Function.update assignments.assignedRoomslots sec
      (getRoomslotsByDuration startRoomslot duration) := by
  rw [(assignedRoomslots_assignRoomslots assigned).2,
    Assignments.insertionSort_run getRoomslotsByDuration_infix]

theorem assignedRoomslots_swap (consistent : runAllConsistencyChecks schedule assignments = .ok ())
    {section1 section2 : AS_ClassSection} (listed1 : section1 ∈ schedule.classSections)
    (listed2 : section2 ∈ schedule.classSections)
    (swapped : (Change.swap section1 section2).effect assignments = .ok after)
    {sec : AS_ClassSection} (listed : sec ∈ schedule.classSections) :
    after.assignedRoomslots sec = [] ∨ ∃ other ∈ schedule.classSections,
      after.assignedRoomslots sec = assignments.assignedRoomslots other := by
  simp only [Change.effect, bind_eq_ok] at swapped
  obtain ⟨between, first, second⟩ := swapped
  have cleared : ((assignments.clearRoomslots section1).clearRoomslots section2).assignedRoomslots
      = Function.update (Function.update assignments.assignedRoomslots section1 []) section2 [] :=
    rfl
  rw [(assignedRoomslots_assignRoomslots second).2, (assignedRoomslots_assignRoomslots first).2,
    cleared, insertionSort_of_consistent consistent listed1,
    insertionSort_of_consistent consistent listed2]
  by_cases isSecond : sec = section2
  · subst isSecond
    exact .inr ⟨section1, listed1, Function.update_self ..⟩
  · rw [Function.update_of_ne isSecond]
    by_cases isFirst : sec = section1
    · subst isFirst
      exact .inr ⟨section2, listed2, Function.update_self ..⟩
    · refine .inr ⟨sec, listed, ?_⟩
      rw [Function.update_of_ne isFirst, Function.update_of_ne isSecond,
        Function.update_of_ne isFirst]

namespace LunchConstraint

theorem not_overLunch_update_iff {sec : AS_ClassSection} {roomslots : List AS_RoomSlot}
    (listed : sec ∈ schedule.classSections) (clear : ¬OverLunch schedule assignments)
    (updated : after.assignedRoomslots =
      Function.update assignments.assignedRoomslots sec roomslots) :
    ¬OverLunch schedule after ↔ ∀ day ∈ schedule.lunchTimeslots, ¬Covers day.2 roomslots := by
  constructor
  · intro still day isDay covers
    refine still ⟨day, isDay, sec, listed, ?_⟩
    rwa [updated, Function.update_self]
  · rintro off ⟨day, isDay, other, isOther, covers⟩
    rw [updated] at covers
    by_cases same : other = sec
    · rw [same, Function.update_self] at covers
      exact off day isDay covers
    · rw [Function.update_of_ne same] at covers
      exact clear ⟨day, isDay, other, isOther, covers⟩

theorem not_overLunch_of_forall (clear : ¬OverLunch schedule assignments)
    (had : ∀ sec ∈ schedule.classSections, after.assignedRoomslots sec = [] ∨
      ∃ other ∈ schedule.classSections,
        after.assignedRoomslots sec = assignments.assignedRoomslots other) :
    ¬OverLunch schedule after := by
  rintro ⟨day, isDay, sec, listed, covers⟩
  rcases had sec listed with vacant | ⟨other, isOther, same⟩
  · rw [vacant] at covers
    exact not_covers_nil _ covers
  · rw [same] at covers
    exact clear ⟨day, isDay, other, isOther, covers⟩

theorem changeChecksExact {lunchTimeslots : List (DateTime × DateTime)}
    (built : buildLunchTimeslots schedule.timeslots lunchTimeslots = .ok schedule.lunchTimeslots)
    (consistent : runAllConsistencyChecks schedule assignments = .ok ()) :
    ChangeChecksExact schedule assignments := by
  have hasLunch := ne_nil_of_buildLunchTimeslots built
  intro clear change registered after made
  cases change with
  | schedule sec startRoomslot =>
      have available := (AS_Schedule.mem_roomslots.mp registered.2).2
      rw [not_overLunch_update_iff registered.1 clear (assignedRoomslots_assign_run made)]
      exact checkDays_eq_none hasLunch (getRoomslotsByDuration_ne_nil available)
  | move sec startRoomslot =>
      have available := (AS_Schedule.mem_roomslots.mp registered.2).2
      have updated := assignedRoomslots_assign_run made
      have cleared : (assignments.clearRoomslots sec).assignedRoomslots =
          Function.update assignments.assignedRoomslots sec [] := rfl
      rw [cleared, Function.update_idem] at updated
      rw [not_overLunch_update_iff registered.1 clear updated]
      exact checkDays_eq_none hasLunch (getRoomslotsByDuration_ne_nil available)
  | unschedule sec =>
      have after_eq : assignments.clearRoomslots sec = after := by
        simpa [Change.effect] using made
      rw [← after_eq, not_overLunch_update_iff registered clear rfl]
      simp [check, Constraint.checkUnscheduleSection]
  | swap section1 section2 =>
      have still := not_overLunch_of_forall clear fun sec listed =>
        assignedRoomslots_swap consistent registered.1 registered.2 made listed
      simpa [check, Constraint.checkSwapSections] using still

theorem checkSchedule_loop {days : ByDay} (hasLunch : ∀ day ∈ days, day.2 ≠ [])
    (answer : Raises Unit) :
    (forEach days fun day => do
        let _ ← first day.2
        let _ ← last day.2
        answer) = forEach days fun _ => answer := by
  induction days with
  | nil => rfl
  | cons day rest ih =>
      obtain ⟨slot, slots, isSlots⟩ :=
        List.exists_cons_of_ne_nil (hasLunch day List.mem_cons_self)
      have isLast : last (slot :: slots) = .ok ((slot :: slots).getLast (by simp)) := by
        simp [last, List.getLast?_eq_some_getLast]
      have others := ih fun day isDay => hasLunch day (List.mem_cons_of_mem _ isDay)
      rw [forEach, forEach, isSlots, isLast, others]
      rfl

theorem checkSchedule_eq (hasLunch : ∀ day ∈ schedule.lunchTimeslots, day.2 ≠ []) :
    Constraint.checkSchedule schedule assignments .lunch =
      if schedule.lunchTimeslots = [] ∨ schedule.classSections = [] then .ok none
      else .error .attributeError := by
  have loop := checkSchedule_loop hasLunch
    (if schedule.classSections = [] then return () else .error .attributeError)
  simp only [Constraint.checkSchedule, checkSchedule, loop]
  by_cases noSections : schedule.classSections = []
  · have each : forEach schedule.lunchTimeslots (fun _ => .ok ()) = .ok () :=
      forEach_eq_ok.mpr fun _ _ => rfl
    simp [noSections, each]
  · rcases days : schedule.lunchTimeslots with _ | ⟨day, rest⟩
    · simp [forEach]
    · simp [noSections, forEach]

/-- The checks of lunch are exact if and only if there is no day with lunch or no section; those of
the manipulations always are. -/
theorem checksExact_iff {lunchTimeslots : List (DateTime × DateTime)}
    (built : buildLunchTimeslots schedule.timeslots lunchTimeslots = .ok schedule.lunchTimeslots)
    (consistent : runAllConsistencyChecks schedule assignments = .ok ()) :
    (ScheduleCheckExact schedule assignments ∧ ChangeChecksExact schedule assignments ↔
        schedule.lunchTimeslots = [] ∨ schedule.classSections = []) ∧
      ChangeChecksExact schedule assignments := by
  have exact := changeChecksExact built consistent
  refine ⟨?_, exact⟩
  rw [and_iff_left exact, ScheduleCheckExact,
    checkSchedule_eq (ne_nil_of_buildLunchTimeslots built)]
  constructor
  · rintro ⟨violation, returned, -⟩
    by_contra neither
    rw [if_neg neither] at returned
    cases returned
  · intro either
    refine ⟨none, if_pos either, ?_⟩
    rcases either with noLunch | noSections
    · simp [OverLunch, noLunch]
    · simp [OverLunch, noSections]

section Sample

open SmallSchedule

/-- The theorem at the small schedule, with nothing assigned. -/
theorem checksExact_iff_vacant :
    buildLunchTimeslots small.timeslots [(hour 12, hour 13)] = .ok small.lunchTimeslots ∧
      runAllConsistencyChecks small vacant = .ok () ∧
      (ScheduleCheckExact small vacant ∧ ChangeChecksExact small vacant ↔
          small.lunchTimeslots = [] ∨ small.classSections = []) ∧
        ChangeChecksExact small vacant :=
  have built : buildLunchTimeslots small.timeslots [(hour 12, hour 13)] =
      .ok small.lunchTimeslots := by decide
  have consistent : runAllConsistencyChecks small vacant = .ok () := by decide
  ⟨built, consistent, checksExact_iff built consistent⟩

/-- The check of a schedule with a lunch timeslot and two sections raises. -/
theorem checkSchedule_small_raises : ¬ScheduleCheckExact small vacant := by
  rintro ⟨violation, returned, -⟩
  have raised : Constraint.checkSchedule small vacant .lunch = .error .attributeError := rfl
  rw [raised] at returned
  cases returned

end Sample

end LunchConstraint

end EspWebsite.Autoscheduler
