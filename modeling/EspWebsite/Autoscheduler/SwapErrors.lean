import EspWebsite.Autoscheduler.Undoing

/-!
# When swapping raises

`swap_sections` runs `check_swap_sections` of every constraint and the hooks of every scorer.  Here
is exactly when it returns an answer.
-/

namespace EspWebsite.Autoscheduler

open Python SmallSchedule

/-! ## Constraints -/

theorem firstViolation_eq_error {check : Constraint → CheckResult}
    {constraints : List Constraint} {raised : PyError} :
    firstViolation check constraints = .error raised ↔
      ∃ before constraint after, constraints = before ++ constraint :: after ∧
        (∀ earlier ∈ before, check earlier = .ok none) ∧ check constraint = .error raised := by
  induction constraints with
  | nil =>
      constructor
      · intro raises
        cases raises
      · rintro ⟨before, constraint, after, whole, -⟩
        exact absurd whole.symm (List.append_ne_nil_of_right_ne_nil _ (List.cons_ne_nil _ _))
  | cons head rest ih =>
      rw [firstViolation]
      constructor
      · intro raises
        cases outcome : check head with
        | error other =>
            rw [outcome] at raises
            refine ⟨[], head, rest, rfl, fun _ listed => absurd listed List.not_mem_nil, ?_⟩
            rw [outcome, Except.error.inj raises]
        | ok violation =>
            cases violation with
            | some violation =>
                rw [outcome] at raises
                cases raises
            | none =>
                rw [outcome] at raises
                obtain ⟨before, constraint, after, whole, silent, stops⟩ := ih.mp raises
                refine ⟨head :: before, constraint, after, congrArg _ whole, ?_, stops⟩
                exact List.forall_mem_cons.mpr ⟨outcome, silent⟩
      · rintro ⟨before, constraint, after, whole, silent, stops⟩
        cases before with
        | nil =>
            rw [(List.cons.inj whole).1, stops]
            rfl
        | cons first before =>
            obtain ⟨same, wholeRest⟩ := List.cons.inj whole
            obtain ⟨silentFirst, silentRest⟩ := List.forall_mem_cons.mp silent
            rw [same, silentFirst]
            exact ih.mpr ⟨before, constraint, after, wholeRest, silentRest, stops⟩

namespace CompositeConstraint

/-- The checks of a swap come to a `ResourceCriteriaConstraint`: none of the constraints before
it, in the order in which they are held, finds a violation. -/
def ReachesCriteria (constraints : CompositeConstraint) (schedule : AS_Schedule)
    (assignments : Assignments) (section1 section2 : AS_ClassSection) : Prop :=
  ∃ before criteria after,
    constraints.constraints = before ++ .resourceCriteria criteria :: after ∧
      ∀ earlier ∈ before,
        earlier.checkSwapSections schedule assignments section1 section2 = .ok none

variable {schedule : AS_Schedule} {assignments : Assignments}
  {section1 section2 : AS_ClassSection} {constraint : Constraint}
  {constraints : CompositeConstraint} {raised : PyError}

theorem checkSwapSections_eq_error (scheduled : assignments.assignedRoomslots section2 ≠ []) :
    constraint.checkSwapSections schedule assignments section1 section2 = .error raised ↔
      raised = .typeError ∧ ∃ criteria, constraint = .resourceCriteria criteria := by
  cases constraint with
  | resourceCriteria criteria =>
      obtain ⟨first, rest, held⟩ := List.exists_cons_of_ne_nil scheduled
      rw [Constraint.checkSwapSections, ResourceCriteriaConstraint.checkSwapSections, held]
      constructor
      · intro raises
        cases raises
        exact ⟨rfl, criteria, rfl⟩
      · rintro ⟨rfl, -⟩
        rfl
  | contiguous | lunch | precondition | roomAvailability | roomConcurrency | sectionDuration
  | teacherAvailability | teacherConcurrency =>
      constructor
      · intro raises
        cases raises
      · rintro ⟨-, criteria, same⟩
        cases same

theorem checkSwapSections_raises (scheduled : assignments.assignedRoomslots section2 ≠ []) :
    (∃ raised, constraints.checkSwapSections schedule assignments section1 section2 =
        .error raised) ↔
      constraints.ReachesCriteria schedule assignments section1 section2 := by
  constructor
  · rintro ⟨raised, raises⟩
    obtain ⟨before, constraint, after, whole, silent, stops⟩ := firstViolation_eq_error.mp raises
    obtain ⟨-, criteria, rfl⟩ := (checkSwapSections_eq_error scheduled).mp stops
    exact ⟨before, criteria, after, whole, silent⟩
  · rintro ⟨before, criteria, after, whole, silent⟩
    exact ⟨.typeError, firstViolation_eq_error.mpr ⟨before, _, after, whole, silent,
      (checkSwapSections_eq_error scheduled).mpr ⟨rfl, criteria, rfl⟩⟩⟩

end CompositeConstraint

/-! ## Scorers -/

namespace ScorerClass

variable {schedule : AS_Schedule} {assignments : Assignments}
  {section1 section2 : AS_ClassSection}

/-- No key is missing that the hook for a change deletes from the dictionaries of a
`TeachersWhoLikeRunningScorer`. -/
def KeysEntered (scorerClass : ScorerClass) (assignments : Assignments) (change : Change)
    (state : (scorerClass.scorer schedule).State) : Prop :=
  match scorerClass, state with
  | teachersWhoLikeRunning, state =>
      TeachersWhoLikeRunningScorer.Complete assignments
        (TeachersWhoLikeRunningScorer.State.timesTeacherIsTeaching state) change
  | _, _ => True

theorem swap_returns_iff {scorerClass : ScorerClass} (placed : WellPlaced schedule assignments)
    (registered : (Change.swap section1 section2).Registered schedule)
    (possible : (Change.swap section1 section2).Possible assignments)
    (state : (scorerClass.scorer schedule).State) :
    (∃ updated, (Change.swap section1 section2).updateScorer (scorerClass.scorer schedule)
        assignments state = .ok updated) ↔
      scorerClass.KeysEntered assignments (.swap section1 section2) state := by
  cases scorerClass with
  | teachersWhoLikeRunning =>
      have returns := fun timesAfter =>
        @TeachersWhoLikeRunningScorer.updateScorer_eq_ok schedule assignments _ timesAfter state
          placed registered possible
      constructor
      · rintro ⟨updated, hook⟩
        exact ((returns _).mp ⟨updated, hook, rfl⟩).1
      · intro complete
        obtain ⟨updated, hook, -⟩ := (returns _).mpr ⟨complete, rfl⟩
        exact ⟨updated, hook⟩
  | numSections | numSubjects | numTeachers => exact iff_of_true ⟨_, rfl⟩ trivial
  | roomConsecutivity => exact iff_of_true ⟨_, rfl⟩ trivial
  | adminDistribution | categoryBalance | lunchStudentClassHours | hungryTeacher =>
      exact iff_of_true (BaseScorer.updateScorer_returns possible (fun _ _ _ => ⟨_, rfl⟩)
        (fun _ _ _ => ⟨_, rfl⟩) rfl rfl state) trivial
  | resourceCriteria _ | resourceMatching | resourceValueMatching | roomSizeMismatch
  | studentClassHours =>
      refine iff_of_true (BaseScorer.updateScorer_returns possible (fun _ _ _ => ⟨_, rfl⟩) ?_
        rfl rfl state) trivial
      intro sec total scheduled
      obtain ⟨first, found⟩ := Change.first_ok_iff.mpr scheduled
      exact ⟨_, bind_eq_ok.mpr ⟨first, found, rfl⟩⟩

end ScorerClass

namespace CompositeScorer

variable {schedule : AS_Schedule} {assignments : Assignments}
  {section1 section2 : AS_ClassSection}

/-- No key is missing that the hooks of the components for a change delete. -/
def KeysEntered (assignments : Assignments) (change : Change) :
    (weights : List (ScorerClass × ℚ)) → State (scorersAndWeights schedule weights) → Prop
  | [], () => True
  | (scorerClass, _) :: rest, (state, states) =>
      scorerClass.KeysEntered assignments change state ∧
        KeysEntered assignments change rest states

theorem swap_returns_iff (placed : WellPlaced schedule assignments)
    (registered : (Change.swap section1 section2).Registered schedule)
    (possible : (Change.swap section1 section2).Possible assignments)
    {weights : List (ScorerClass × ℚ)} (states : State (scorersAndWeights schedule weights)) :
    (∃ updated, forScorers
        (fun scorer => (Change.swap section1 section2).updateScorer scorer assignments)
        (scorersAndWeights schedule weights) states = .ok updated) ↔
      KeysEntered assignments (.swap section1 section2) weights states := by
  induction weights with
  | nil => exact iff_of_true ⟨(), rfl⟩ trivial
  | cons entry rest ih =>
      obtain ⟨state, others⟩ := states
      have one := entry.1.swap_returns_iff placed registered possible state
      have later := ih others
      constructor
      · rintro ⟨updated, hook⟩
        obtain ⟨stateUpdated, stateHook, othersRun⟩ := bind_eq_ok.mp hook
        obtain ⟨othersUpdated, othersHook, -⟩ := bind_eq_ok.mp othersRun
        exact ⟨one.mp ⟨stateUpdated, stateHook⟩, later.mp ⟨othersUpdated, othersHook⟩⟩
      · rintro ⟨entered, othersEntered⟩
        obtain ⟨stateUpdated, stateHook⟩ := one.mpr entered
        obtain ⟨othersUpdated, othersHook⟩ := later.mpr othersEntered
        exact ⟨(stateUpdated, othersUpdated), bind_eq_ok.mpr ⟨stateUpdated, stateHook,
          bind_eq_ok.mpr ⟨othersUpdated, othersHook, rfl⟩⟩⟩

end CompositeScorer

/-! ## Swapping -/

section Swapping

variable {schedule : AS_Schedule} {weights : List (ScorerClass × ℚ)}
  {constraints : CompositeConstraint}
  {manipulator : ScheduleManipulator (compositeOf schedule weights)}
  {section1 section2 : AS_ClassSection}

theorem refuses_swap_eq (scheduled1 : manipulator.isScheduled section1 = true)
    (scheduled2 : manipulator.isScheduled section2 = true)
    (sameDuration : section1.duration = section2.duration) :
    (Change.swap section1 section2).refuses constraints manipulator = do
      let violation ← constraints.checkSwapSections schedule manipulator.assignments section1
        section2
      return violation.isSome := by
  simp only [Change.refuses, ScheduleManipulator.refusesSwap, scheduled1, scheduled2,
    Bool.and_self, Bool.not_true, Bool.false_eq_true, if_false, ne_eq, sameDuration,
    not_true_eq_false]

theorem swap_eq_false_of_durations (scheduled1 : manipulator.isScheduled section1 = true)
    (scheduled2 : manipulator.isScheduled section2 = true)
    (different : section1.duration ≠ section2.duration) :
    manipulator.swapSections constraints section1 section2 = .ok (false, manipulator) := by
  apply (@Change.call_eq_false _ _ constraints manipulator (.swap section1 section2)).mpr
  refine ⟨rfl, ?_, rfl⟩
  simp [Change.refuses, ScheduleManipulator.refusesSwap, scheduled1, scheduled2, different]

theorem performSwap_returns_iff (placed : WellPlaced schedule manipulator.assignments)
    (registered : (Change.swap section1 section2).Registered schedule)
    (possible : (Change.swap section1 section2).Possible manipulator.assignments) :
    (∃ result, manipulator.performSwap section1 section2 = .ok result) ↔
      CompositeScorer.KeysEntered manipulator.assignments (.swap section1 section2) weights
        manipulator.scorerState := by
  have performs := fun result =>
    @Change.perform_eq_ok _ _ manipulator (.swap section1 section2) result placed registered
  have hooks := @CompositeScorer.swap_returns_iff schedule manipulator.assignments
    section1 section2 placed registered possible weights manipulator.scorerState
  rw [← CompositeScorer.updateScorer_eq] at hooks
  have records : ∃ action, (Change.swap section1 section2).record manipulator.assignments =
      .ok action := Change.record_ok_iff.mpr ⟨possible.1, possible.2.1⟩
  rw [← hooks]
  constructor
  · rintro ⟨result, performed⟩
    obtain ⟨-, action, updated, -, hook, -⟩ := (performs result).mp performed
    exact ⟨updated, hook⟩
  · rintro ⟨updated, hook⟩
    obtain ⟨action, recorded⟩ := records
    exact ⟨_, (performs _).mpr ⟨possible, action, updated, recorded, hook, rfl⟩⟩

/-- Swapping two distinct sections returns, and changes nothing when it returns false, exactly
when their durations differ, or the checks come to no resource criteria and, if they find
nothing, no key is missing that the scorers delete. -/
theorem swapSections_returns_iff (passes : PassesChecks schedule manipulator.assignments)
    (listed1 : section1 ∈ schedule.classSections) (listed2 : section2 ∈ schedule.classSections)
    (different : section1 ≠ section2) (scheduled1 : manipulator.isScheduled section1 = true)
    (scheduled2 : manipulator.isScheduled section2 = true) :
    (∃ answer result, manipulator.swapSections constraints section1 section2 =
        .ok (answer, result) ∧ (answer = false → result = manipulator)) ↔
      (section1.duration = section2.duration →
        ¬ constraints.ReachesCriteria schedule manipulator.assignments section1 section2 ∧
          (constraints.checkSwapSections schedule manipulator.assignments section1 section2 =
              .ok none →
            CompositeScorer.KeysEntered manipulator.assignments (.swap section1 section2)
              weights manipulator.scorerState)) := by
  have held1 : manipulator.assignments.assignedRoomslots section1 ≠ [] := by
    simpa [ScheduleManipulator.isScheduled, Assignments.isScheduled] using scheduled1
  have held2 : manipulator.assignments.assignedRoomslots section2 ≠ [] := by
    simpa [ScheduleManipulator.isScheduled, Assignments.isScheduled] using scheduled2
  have performs := @performSwap_returns_iff schedule weights manipulator section1 section2
    passes.wellPlaced ⟨listed1, listed2⟩ ⟨held1, held2, different⟩
  have raises := @CompositeConstraint.checkSwapSections_raises schedule manipulator.assignments
    section1 section2 constraints held2
  have called : manipulator.swapSections constraints section1 section2 =
      (Change.swap section1 section2).call constraints manipulator false := rfl
  by_cases sameDuration : section1.duration = section2.duration
  · have refuses := @refuses_swap_eq schedule weights constraints manipulator section1 section2
      scheduled1 scheduled2 sameDuration
    rw [called, Change.call_eq, ScheduleManipulator.unlessRefused, refuses, ← raises, ← performs]
    cases outcome : constraints.checkSwapSections schedule manipulator.assignments section1
        section2 with
    | error raised =>
        constructor
        · rintro ⟨answer, result, returned, -⟩
          cases returned
        · intro returns
          exact absurd ⟨raised, rfl⟩ (returns sameDuration).1
    | ok violation =>
        have noError : ¬ ∃ raised, (.ok violation : CheckResult) = .error raised := by
          rintro ⟨raised, isError⟩
          cases isError
        cases violation with
        | some violation =>
            apply iff_of_true
            · exact ⟨false, manipulator, rfl, fun _ => rfl⟩
            · intro _
              refine ⟨noError, fun noViolation => ?_⟩
              cases noViolation
        | none =>
            constructor
            · rintro ⟨answer, result, returned, -⟩ -
              refine ⟨noError, fun _ => ?_⟩
              obtain ⟨refused, notRefused, later⟩ := bind_eq_ok.mp returned
              cases notRefused
              obtain ⟨performed, isPerformed, -⟩ := bind_eq_ok.mp later
              exact ⟨performed, isPerformed⟩
            · intro returns
              obtain ⟨result, performed⟩ := (returns sameDuration).2 rfl
              refine ⟨true, result, ?_, fun isFalse => Bool.noConfusion isFalse⟩
              exact bind_eq_ok.mpr ⟨false, rfl, bind_eq_ok.mpr ⟨result, performed, rfl⟩⟩
  · apply iff_of_true
    · exact ⟨false, manipulator, swap_eq_false_of_durations scheduled1 scheduled2 sameDuration,
        fun _ => rfl⟩
    · intro same
      exact absurd same sameDuration

end Swapping

/-! ## Two hours in one room -/

namespace PairSchedule

/-- A section of one hour, without teachers. -/
def earlier : AS_ClassSection := ⟨1, 1, 1, [], 10, 7, 12, 1, []⟩

/-- Another one. -/
def later : AS_ClassSection := ⟨2, 2, 1, [], 10, 7, 12, 1, []⟩

/-- Two sections of one hour in a room with three hours. -/
def pair : AS_Schedule where
  timeslots := [ten, eleven, twelve]
  classSections := [earlier, later]
  teachers := []
  classrooms := [roomA]
  lunchTimeslots := []
  timeslotIds := small.timeslotIds
  sectionIds := by decide
  teacherIds := LongSchedule.halves.teacherIds
  classroomNames := roomA_named
  teachersRegistered := by decide
  teachersDistinct := by decide
  timeslotsRegistered := roomA_slots

/-- The first section is taught at ten, the second one at eleven. -/
def taught : Assignments where
  assignedRoomslots sec :=
    if sec = earlier then [⟨ten, roomA⟩]
    else if sec = later then [⟨eleven, roomA⟩]
    else []
  assignedSection roomslot :=
    if roomslot = ⟨ten, roomA⟩ then some earlier
    else if roomslot = ⟨eleven, roomA⟩ then some later
    else none

theorem passesChecks_taught : PassesChecks pair taught :=
  ⟨by decide +kernel, by decide +kernel⟩

/-- A manipulator of the schedule, without scorers. -/
def start : ScheduleManipulator (compositeOf pair []) := ⟨taught, (), []⟩

/-- The required constraints and one of resource criteria, without any. -/
def withCriteria : CompositeConstraint :=
  ⟨Constraint.required ++ [.resourceCriteria []],
    fun _ isRequired => List.mem_append_left _ isRequired⟩

/-- The theorem at a swap of the two sections under the required constraints. -/
theorem swapSections_returns_iff_pair :
    (∃ answer result, start.swapSections required earlier later = .ok (answer, result) ∧
        (answer = false → result = start)) ↔
      (earlier.duration = later.duration →
        ¬ required.ReachesCriteria pair taught earlier later ∧
          (required.checkSwapSections pair taught earlier later = .ok none →
            @CompositeScorer.KeysEntered pair taught (.swap earlier later) []
              start.scorerState)) := by
  have passes : PassesChecks pair start.assignments := passesChecks_taught
  exact swapSections_returns_iff passes (by decide) (by decide)
    (by decide) (by decide) (by decide)

/-- With a constraint of resource criteria, even without criteria, the swap raises. -/
theorem swapSections_raises_withCriteria :
    PassesChecks pair start.assignments ∧ earlier ≠ later ∧
      start.isScheduled earlier = true ∧ start.isScheduled later = true ∧
      ¬ ∃ answer result, start.swapSections withCriteria earlier later = .ok (answer, result) := by
  refine ⟨passesChecks_taught, by decide, by decide, by decide, ?_⟩
  have raises : (start.swapSections withCriteria earlier later).isOk = false := by
    decide
  rintro ⟨answer, result, returned⟩
  rw [returned] at raises
  cases raises

end PairSchedule

end EspWebsite.Autoscheduler
