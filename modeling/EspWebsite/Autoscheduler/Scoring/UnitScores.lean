import EspWebsite.Autoscheduler.Scoring.Correctness
import EspWebsite.Autoscheduler.Scoring.Range

/-!
# Scores between zero and one

In runs on a schedule that is well scaled for the classes of a composite scorer, the
components and the composite scorer have scores between zero and one.
-/

namespace EspWebsite.Autoscheduler

open Python

/-! ## Well scaled schedules -/

namespace ScorerClass

/-- What the scorers of the class divide by is not zero, and their totals are not more. -/
def WellScaled (schedule : AS_Schedule) : ScorerClass → Prop
  | adminDistribution =>
      (∃ teacher ∈ schedule.teachers, teacher.isAdmin = true) ∧
        0 < (schedule.classSections.map AS_ClassSection.duration).sum ∧
        ∃ sec ∈ schedule.classSections, sec.teachers ≠ []
  | categoryBalance =>
      schedule.Nonnegative ∧
        (∀ category ∈ CategoryBalanceScorer.categories schedule,
          0 < CategoryBalanceScorer.studentClassHours schedule category) ∧
        (∀ timeslot ∈ schedule.timeslots, timeslot.duration ≤ 1) ∧
        ∀ sec ∈ schedule.classSections, ∀ start ∈ schedule.roomslots,
          ((getRoomslotsByDuration start sec.duration).length : ℚ) ≤
            sec.duration
  | lunchStudentClassHours =>
      schedule.Nonnegative ∧
        0 < LunchStudentClassHoursScorer.totalStudentClassHours schedule ∧
        ∀ sec ∈ schedule.classSections, ∀ start ∈ schedule.roomslots,
          LunchStudentClassHoursScorer.nonLunchHours schedule
            (getRoomslotsByDuration start sec.duration) ≤ sec.duration
  | hungryTeacher => ∃ sec ∈ schedule.classSections, sec.teachers ≠ []
  | resourceCriteria criteria =>
      (∀ entry ∈ criteria, 0 ≤ entry.2) ∧ (criteria = [] ∨ ∃ entry ∈ criteria, 0 < entry.2)
  | studentClassHours =>
      schedule.Nonnegative ∧ 0 < StudentClassHoursScorer.totalStudentClassHours schedule
  | teachersWhoLikeRunning =>
      checkTimeslotConsistency schedule = .ok () ∧
        TeachersWhoLikeRunningScorer.mostRuns schedule ≤ schedule.classSections.length
  | numSections | numSubjects | numTeachers | resourceMatching | resourceValueMatching
  | roomConsecutivity | roomSizeMismatch => True

variable {schedule : AS_Schedule} {assignments : Assignments} {change : Change}

theorem div_of_pos {numerator denominator : ℚ} (positive : 0 < denominator) :
    div numerator denominator = .ok (numerator / denominator) :=
  if_neg positive.ne'

theorem numTeachers_pos
    (taught : ∃ sec ∈ schedule.classSections, sec.teachers ≠ []) :
    0 < (schedule.classSections.map fun sec =>
      (sec.teachers.length : ℚ)).sum := by
  obtain ⟨sec, listed, hasTeacher⟩ := taught
  refine lt_of_lt_of_le (Nat.cast_pos.mpr (List.length_pos_iff.mpr hasTeacher)) ?_
  refine List.single_le_sum ?_ _ (List.mem_map_of_mem (f := fun sec : AS_ClassSection =>
    (sec.teachers.length : ℚ)) listed)
  intro count member
  obtain ⟨other, _, same⟩ := List.mem_map.mp member
  exact same ▸ Nat.cast_nonneg _

theorem adminScaling (populated : schedule.Populated)
    (wellScaled : adminDistribution.WellScaled schedule) :
    ∃ scaling, AdminDistributionScorer.computeScaling schedule = .ok scaling ∧ 0 ≤ scaling := by
  obtain ⟨_, lasts, taught⟩ := wellScaled
  obtain ⟨firstTimeslot, rest, same⟩ := List.exists_cons_of_ne_nil populated.timeslots
  have numSections := populated.numSections_pos
  have average := mul_pos (mul_pos (div_pos lasts numSections)
    (div_pos (numTeachers_pos taught) numSections)) numSections
  have admins : 0 ≤ AdminDistributionScorer.totalAdmins schedule := Nat.cast_nonneg _
  refine ⟨_, ?_, div_nonneg admins average.le⟩
  rw [AdminDistributionScorer.computeScaling]
  simp only [first_eq_ok.mpr ⟨rest, same⟩, ok_bind, div_of_pos numSections, div_of_pos average]

theorem hungryScaling (taught : hungryTeacher.WellScaled schedule) :
    ∃ scaling, HungryTeacherScorer.computeScaling schedule = .ok scaling ∧ 0 ≤ scaling :=
  ⟨_, div_of_pos (numTeachers_pos taught),
    div_nonneg (Nat.cast_nonneg _) (numTeachers_pos taught).le⟩

theorem criteriaScaling {criteria : List (ResourceCriterion × ℚ)}
    (wellScaled : (resourceCriteria criteria).WellScaled schedule) :
    ∃ scaling, ResourceCriteriaScorer.computeScaling criteria = .ok scaling ∧ 0 ≤ scaling := by
  obtain ⟨nonneg, someWeight⟩ := wellScaled
  rw [ResourceCriteriaScorer.computeScaling]
  cases greatest : (criteria.map Prod.snd).max? with
  | none => exact ⟨1, rfl, zero_le_one⟩
  | some maxWeight =>
      have positive : 0 < maxWeight := by
        cases someWeight with
        | inl none =>
            rw [none] at greatest
            cases greatest
        | inr some =>
            obtain ⟨entry, listed, positive⟩ := some
            exact positive.trans_le ((List.max?_eq_some_iff.mp greatest).2 entry.2
              (List.mem_map_of_mem listed))
      exact ⟨_, div_of_pos positive,
        div_nonneg (ResourceCriteriaScorer.totalWeight_pos nonneg).1.le positive.le⟩

theorem builds (populated : schedule.Populated) (scorerClass : ScorerClass)
    (wellScaled : scorerClass.WellScaled schedule) (assignments : Assignments) :
    ∃ state, (scorerClass.scorer schedule).updateSchedule assignments = .ok state := by
  cases scorerClass with
  | adminDistribution =>
      obtain ⟨scaling, computed, _⟩ := adminScaling populated wellScaled
      exact ⟨_, andThen_eq_ok.mpr ⟨bind_eq_ok.mpr ⟨scaling, computed, rfl⟩, rfl⟩⟩
  | hungryTeacher =>
      obtain ⟨scaling, computed, _⟩ := hungryScaling wellScaled
      exact ⟨_, HungryTeacherScorer.updateSchedule_eq_ok.mpr ⟨⟨scaling, computed⟩, rfl⟩⟩
  | resourceCriteria criteria =>
      obtain ⟨scaling, computed, _⟩ := criteriaScaling wellScaled
      exact ⟨_, andThen_eq_ok.mpr ⟨bind_eq_ok.mpr ⟨scaling, computed, rfl⟩, rfl⟩⟩
  | numSubjects | numTeachers =>
      exact ⟨_, bind_eq_ok.mpr ⟨_, div_of_pos populated.numSections_pos, rfl⟩⟩
  | roomConsecutivity => exact ⟨_, RoomConsecutivityScorer.updateSchedule_eq⟩
  | roomSizeMismatch =>
      have maximum_returns {values : List Int} (nonempty : values ≠ []) :
          ∃ greatest, maximum values = .ok greatest := by
        cases found : values.max? with
        | none => exact absurd (List.max?_eq_none_iff.mp found) nonempty
        | some greatest => exact ⟨greatest, by rw [maximum, found]⟩
      obtain ⟨maxClassSize, sections⟩ := maximum_returns
        (List.map_eq_nil_iff.not.mpr populated.sections)
      obtain ⟨maxRoomSize, rooms⟩ := maximum_returns
        (List.map_eq_nil_iff.not.mpr populated.classrooms)
      refine ⟨_, andThen_eq_ok.mpr ⟨?_, rfl⟩⟩
      exact bind_eq_ok.mpr ⟨maxClassSize, sections, bind_eq_ok.mpr ⟨maxRoomSize, rooms, rfl⟩⟩
  | numSections | categoryBalance | lunchStudentClassHours | resourceMatching
  | resourceValueMatching | studentClassHours | teachersWhoLikeRunning => exact ⟨_, rfl⟩

theorem scaling_nonneg (populated : schedule.Populated) (scorerClass : ScorerClass)
    (wellScaled : scorerClass.WellScaled schedule) :
    0 ≤ (scorerClass.scorer schedule).scaling := by
  cases scorerClass with
  | adminDistribution =>
      obtain ⟨scaling, computed, nonneg⟩ := adminScaling populated wellScaled
      change 0 ≤ resultOr 1 (AdminDistributionScorer.computeScaling schedule)
      rwa [computed]
  | hungryTeacher =>
      obtain ⟨scaling, computed, nonneg⟩ := hungryScaling wellScaled
      change 0 ≤ resultOr 1 (HungryTeacherScorer.computeScaling schedule)
      rwa [computed]
  | resourceCriteria criteria =>
      obtain ⟨scaling, computed, nonneg⟩ := criteriaScaling wellScaled
      change 0 ≤ resultOr 1 (ResourceCriteriaScorer.computeScaling criteria)
      rwa [computed]
  | numSubjects | numTeachers =>
      have positive := populated.numSections_pos
      simp only [scorer, NumSubjectsScorer, NumTeachersScorer, CountScorer, div_of_pos positive,
        resultOr]
      exact div_nonneg (Nat.cast_nonneg _) positive.le
  | numSections | roomConsecutivity | roomSizeMismatch | categoryBalance
  | lunchStudentClassHours | resourceMatching | resourceValueMatching | studentClassHours
  | teachersWhoLikeRunning => exact zero_le_one

/-! ## What the hooks keep -/

/-- The state is the one that a fresh scorer builds; of the hungry teachers it is enough
that they are teachers. -/
def Reflects (assignments : Assignments) (scorerClass : ScorerClass)
    (state : (scorerClass.scorer schedule).State) : Prop :=
  match scorerClass, state with
  | hungryTeacher, state => ∃ byTeacher, state = HungryTeacherScorer.summary schedule byTeacher
  | scorerClass, state => (scorerClass.scorer schedule).updateSchedule assignments = .ok state

theorem reflects_of_built {scorerClass : ScorerClass}
    {state : (scorerClass.scorer schedule).State}
    (built : (scorerClass.scorer schedule).updateSchedule assignments = .ok state) :
    scorerClass.Reflects assignments state := by
  cases scorerClass with
  | hungryTeacher => exact ⟨_, (HungryTeacherScorer.updateSchedule_eq_ok.mp built).2⟩
  | _ => exact built

theorem hungryTeacher_reflects (registered : change.Registered schedule)
    {byTeacher : Nat → Nat → Bool} {updated : HungryTeacherScorer.State}
    (hook : change.updateScorer (HungryTeacherScorer schedule) assignments
      (HungryTeacherScorer.summary schedule byTeacher) = .ok updated) :
    ∃ byTeacher, updated = HungryTeacherScorer.summary schedule byTeacher := by
  have marks {sec : AS_ClassSection} (listed : sec ∈ schedule.classSections)
      (roomslots : List AS_RoomSlot) (teaching : Bool) (byTeacher : Nat → Nat → Bool) :=
    @HungryTeacherScorer.updateTeachers_summary schedule _ roomslots teaching byTeacher
      (schedule.teachersRegistered sec listed)
  cases change with
  | schedule sec startRoomslot =>
      rw [← Except.ok.inj hook]
      exact ⟨_, marks registered.1 _ _ _⟩
  | unschedule sec =>
      rw [← Except.ok.inj hook]
      exact ⟨_, marks registered _ _ _⟩
  | move sec startRoomslot =>
      rw [← Except.ok.inj hook, marks registered.1]
      exact ⟨_, marks registered.1 _ _ _⟩
  | swap section1 section2 =>
      obtain ⟨start2, _, later⟩ := bind_eq_ok.mp hook
      obtain ⟨first, moved, last⟩ := bind_eq_ok.mp later
      obtain ⟨start1, _, movedBack⟩ := bind_eq_ok.mp last
      rw [← Except.ok.inj moved, marks registered.1, marks registered.1] at movedBack
      rw [← Except.ok.inj movedBack, marks registered.2]
      exact ⟨_, marks registered.2 _ _ _⟩

/-- A change keeps the state; of the scorer of running teachers only a balanced one. -/
theorem Reflects.step (placed : WellPlaced schedule assignments)
    (registered : change.Registered schedule) (possible : change.Possible assignments)
    (tracks : change.Tracks assignments) {scorerClass : ScorerClass}
    (running : scorerClass = teachersWhoLikeRunning →
      checkTimeslotConsistency schedule = .ok () ∧ Sound schedule assignments ∧
        Admissible schedule assignments change ∧
          TeachersWhoLikeRunningScorer.Balanced schedule assignments change)
    {state updated : (scorerClass.scorer schedule).State}
    (reflects : scorerClass.Reflects assignments state)
    (hook : change.updateScorer (scorerClass.scorer schedule) assignments state = .ok updated) :
    scorerClass.Reflects (change.apply assignments) updated := by
  have ofIncremental (incremental : Incremental (scorerClass.scorer schedule))
      (built : (scorerClass.scorer schedule).updateSchedule assignments = .ok state) :
      scorerClass.Reflects (change.apply assignments) updated := by
    obtain ⟨other, otherHook, builtAfter⟩ :=
      incremental _ _ _ placed registered possible tracks built
    rw [hook, Except.ok.injEq] at otherHook
    exact reflects_of_built (otherHook ▸ builtAfter)
  cases scorerClass with
  | hungryTeacher =>
      obtain ⟨byTeacher, same⟩ := reflects
      subst same
      exact hungryTeacher_reflects registered hook
  | teachersWhoLikeRunning =>
      obtain ⟨checked, sound, admissible, balanced⟩ := running rfl
      exact TeachersWhoLikeRunningScorer.built_of_hook checked sound admissible tracks balanced
        reflects hook
  | roomConsecutivity =>
      exact ofIncremental (RoomConsecutivityScorer.unconditional schedule).incremental reflects
  | adminDistribution | categoryBalance | lunchStudentClassHours | numSections | numSubjects
  | numTeachers | resourceCriteria _ | resourceMatching | resourceValueMatching
  | roomSizeMismatch | studentClassHours => exact ofIncremental (incremental _ rfl) reflects

theorem Reflects.inUnit (populated : schedule.Populated) {scorerClass : ScorerClass}
    (wellScaled : scorerClass.WellScaled schedule) (tidy : Tidy schedule assignments)
    (running : scorerClass = teachersWhoLikeRunning → Sound schedule assignments)
    {state : (scorerClass.scorer schedule).State}
    (reflects : scorerClass.Reflects assignments state) :
    InUnit ((scorerClass.scorer schedule).scoreSchedule state) := by
  cases scorerClass with
  | adminDistribution =>
      obtain ⟨admins, _⟩ := wellScaled
      apply AdminDistributionScorer.inUnit
      exact Nat.cast_pos.mpr (List.countP_pos_iff.mpr admins)
  | categoryBalance =>
      obtain ⟨nonnegative, positive, short, few⟩ := wellScaled
      exact CategoryBalanceScorer.inUnit populated nonnegative positive short few tidy reflects
  | lunchStudentClassHours =>
      obtain ⟨nonnegative, positive, exact⟩ := wellScaled
      exact LunchStudentClassHoursScorer.inUnit nonnegative positive exact tidy reflects
  | hungryTeacher =>
      obtain ⟨byTeacher, same⟩ := reflects
      subst same
      exact HungryTeacherScorer.inUnit populated byTeacher
  | numSections => exact NumSectionsScorer.inUnit populated reflects
  | numSubjects =>
      refine CountScorer.inUnit ?_ reflects
      intro none
      exact populated.sections (List.map_eq_nil_iff.mp ((List.dedup_eq_nil _).mp none))
  | numTeachers =>
      exact CountScorer.inUnit (List.map_eq_nil_iff.not.mpr populated.teachers) reflects
  | resourceCriteria criteria =>
      exact ResourceCriteriaScorer.inUnit populated tidy wellScaled.1 reflects
  | resourceMatching => exact ResourceMatchingScorer.inUnit populated tidy reflects
  | resourceValueMatching => exact ResourceValueMatchingScorer.inUnit populated tidy reflects
  | roomConsecutivity => exact RoomConsecutivityScorer.inUnit populated reflects
  | roomSizeMismatch => exact RoomSizeMismatchScorer.inUnit populated tidy reflects
  | studentClassHours =>
      exact StudentClassHoursScorer.inUnit wellScaled.1 wellScaled.2 tidy reflects
  | teachersWhoLikeRunning =>
      obtain ⟨checked, few⟩ := wellScaled
      have state_eq := Except.ok.inj
        (TeachersWhoLikeRunningScorer.updateSchedule_eq.symm.trans reflects)
      subst state_eq
      have atMost := TeachersWhoLikeRunningScorer.freshCount_le checked (running rfl)
      exact (inUnit_div populated.numSections_pos TeachersWhoLikeRunningScorer.freshCount_nonneg
        (atMost.trans (Nat.cast_le.mpr few))).complement

end ScorerClass

/-! ## Composite scorers -/

namespace CompositeScorer

variable {schedule : AS_Schedule} {assignments : Assignments} {change : Change}
  {weights : List (ScorerClass × ℚ)}

/-- The states of all components reflect the schedule. -/
def Reflects (assignments : Assignments) : (weights : List (ScorerClass × ℚ)) →
    State (scorersAndWeights schedule weights) → Prop
  | [], () => True
  | (scorerClass, _) :: rest, (state, states) =>
      scorerClass.Reflects assignments state ∧ Reflects assignments rest states

/-- The scores of all components are in the range. -/
def ScoresInUnit : (weights : List (ScorerClass × ℚ)) →
    State (scorersAndWeights schedule weights) → Prop
  | [], () => True
  | (scorerClass, _) :: rest, (state, states) =>
      InUnit ((scorerClass.scorer schedule).scoreSchedule state) ∧ ScoresInUnit rest states

def Running (weights : List (ScorerClass × ℚ)) : Prop :=
  .teachersWhoLikeRunning ∈ weights.map Prod.fst

theorem reflects_of_built {states : State (scorersAndWeights schedule weights)}
    (built : updateSchedule assignments (scorersAndWeights schedule weights) = .ok states) :
    Reflects assignments weights states := by
  induction weights with
  | nil => trivial
  | cons entry rest ih =>
      obtain ⟨state, stateBuilt, later⟩ := bind_eq_ok.mp built
      obtain ⟨others, othersBuilt, same⟩ := bind_eq_ok.mp later
      cases same
      exact ⟨ScorerClass.reflects_of_built stateBuilt, ih othersBuilt⟩

theorem builds (populated : schedule.Populated)
    (wellScaled : ∀ entry ∈ weights, entry.1.WellScaled schedule) (assignments : Assignments) :
    ∃ states, updateSchedule assignments (scorersAndWeights schedule weights) = .ok states := by
  induction weights with
  | nil => exact ⟨(), rfl⟩
  | cons entry rest ih =>
      obtain ⟨state, built⟩ :=
        entry.1.builds populated (wellScaled entry List.mem_cons_self) assignments
      obtain ⟨states, othersBuilt⟩ := ih fun other member =>
        wellScaled other (List.mem_cons_of_mem _ member)
      exact ⟨(state, states), bind_eq_ok.mpr ⟨state, built,
        bind_eq_ok.mpr ⟨states, othersBuilt, rfl⟩⟩⟩

theorem Reflects.step (placed : WellPlaced schedule assignments)
    (registered : change.Registered schedule) (possible : change.Possible assignments)
    (tracks : change.Tracks assignments)
    (running : Running weights → checkTimeslotConsistency schedule = .ok () ∧
      Sound schedule assignments ∧ Admissible schedule assignments change ∧
        TeachersWhoLikeRunningScorer.Balanced schedule assignments change)
    {states updated : State (scorersAndWeights schedule weights)}
    (reflects : Reflects assignments weights states)
    (hook : forScorers (fun scorer => change.updateScorer scorer assignments)
      (scorersAndWeights schedule weights) states = .ok updated) :
    Reflects (change.apply assignments) weights updated := by
  induction weights with
  | nil => trivial
  | cons entry rest ih =>
      obtain ⟨state, others⟩ := states
      obtain ⟨stateUpdated, stateHook, later⟩ := bind_eq_ok.mp hook
      obtain ⟨othersUpdated, othersHook, same⟩ := bind_eq_ok.mp later
      cases same
      constructor
      · refine reflects.1.step placed registered possible tracks (fun isRunning => ?_) stateHook
        exact running (List.mem_cons.mpr (.inl isRunning.symm))
      · exact ih (fun isRunning => running (List.mem_cons_of_mem _ isRunning)) reflects.2 othersHook

theorem Reflects.scoresInUnit (populated : schedule.Populated)
    (wellScaled : ∀ entry ∈ weights, entry.1.WellScaled schedule)
    (tidy : Tidy schedule assignments) (running : Running weights → Sound schedule assignments)
    {states : State (scorersAndWeights schedule weights)}
    (reflects : Reflects assignments weights states) : ScoresInUnit weights states := by
  induction weights with
  | nil => trivial
  | cons entry rest ih =>
      obtain ⟨state, others⟩ := states
      constructor
      · refine reflects.1.inUnit populated (wellScaled entry List.mem_cons_self) tidy
          fun isRunning => ?_
        exact running (List.mem_cons.mpr (.inl isRunning.symm))
      · exact ih (fun other member => wellScaled other (List.mem_cons_of_mem _ member))
          (fun isRunning => running (List.mem_cons_of_mem _ isRunning)) reflects.2

/-- The weighted sum is at most the sum of the scaled weights. -/
theorem totalScore_mem (populated : schedule.Populated)
    (wellScaled : ∀ entry ∈ weights, entry.1.WellScaled schedule)
    (nonneg : ∀ entry ∈ weights, 0 ≤ entry.2)
    {states : State (scorersAndWeights schedule weights)}
    (inUnit : ScoresInUnit weights states) :
    ∃ total, totalScore (scorersAndWeights schedule weights) states = .ok total ∧ 0 ≤ total ∧
      total ≤ ((scorersAndWeights schedule weights).map fun entry =>
        entry.1.scaling * entry.2).sum := by
  induction weights with
  | nil => exact ⟨0, rfl, le_refl _, le_refl _⟩
  | cons entry rest ih =>
      obtain ⟨state, others⟩ := states
      obtain ⟨⟨score, scored, least, most⟩, othersInUnit⟩ := inUnit
      obtain ⟨total, totalled, totalNonneg, bounded⟩ := ih
        (fun other member => wellScaled other (List.mem_cons_of_mem _ member))
        (fun other member => nonneg other (List.mem_cons_of_mem _ member)) othersInUnit
      have scale := mul_nonneg
        (entry.1.scaling_nonneg populated (wellScaled entry List.mem_cons_self))
        (nonneg entry List.mem_cons_self)
      refine ⟨score * entry.2 * (entry.1.scorer schedule).scaling + total, ?_, ?_, ?_⟩
      · exact bind_eq_ok.mpr ⟨score, scored, bind_eq_ok.mpr ⟨total, totalled, rfl⟩⟩
      · have weighted := mul_nonneg least scale
        have rearranged : score * entry.2 * (entry.1.scorer schedule).scaling =
          score * ((entry.1.scorer schedule).scaling * entry.2) := by ring
        rw [rearranged]
        exact add_nonneg weighted totalNonneg
      · have weighted := mul_le_of_le_one_left scale most
        have rearranged : score * entry.2 * (entry.1.scorer schedule).scaling =
          score * ((entry.1.scorer schedule).scaling * entry.2) := by ring
        rw [rearranged, scorersAndWeights, List.map_cons, List.map_cons, List.sum_cons]
        exact add_le_add weighted bounded

/-- The weighted average of scores in the range is in the range. -/
theorem inUnit (populated : schedule.Populated)
    (wellScaled : ∀ entry ∈ weights, entry.1.WellScaled schedule)
    (nonneg : ∀ entry ∈ weights, 0 ≤ entry.2)
    {states : State (scorersAndWeights schedule weights)}
    (inUnit : ScoresInUnit weights states) :
    InUnit ((compositeOf schedule weights).scoreSchedule states) := by
  obtain ⟨total, totalled, totalNonneg, bounded⟩ :=
    totalScore_mem populated wellScaled nonneg inUnit
  have average : InUnit (div total (totalWeight (scorersAndWeights schedule weights))) := by
    simp only [totalWeight]
    split
    next none =>
      rw [none] at bounded
      exact inUnit_div one_pos totalNonneg (bounded.trans zero_le_one)
    next some =>
      have positive := lt_of_le_of_ne (totalNonneg.trans bounded) (Ne.symm some)
      exact inUnit_div positive totalNonneg bounded
  obtain ⟨value, divided, least, most⟩ := average
  exact ⟨value, bind_eq_ok.mpr ⟨total, totalled, divided⟩, least, most⟩

end CompositeScorer

/-! ## Runs -/

section Runs

open CompositeScorer

variable {schedule : AS_Schedule} {assignments : Assignments}
  {constraints : CompositeConstraint} {weights : List (ScorerClass × ℚ)}

/-- An operation that forces no swap of sections of different durations.  If teachers who
run are scored, a change that it makes is admissible and balanced. -/
def ScaledStep (constraints : CompositeConstraint) (weights : List (ScorerClass × ℚ))
    (manipulator result : ScheduleManipulator (compositeOf schedule weights)) : Prop :=
  ∃ (operation : Operation) (answer : Bool),
    operation.Registered schedule ∧ operation.Proper ∧
    operation.run constraints manipulator = .ok (answer, result) ∧
    (Running weights → operation.Guarded schedule manipulator.assignments ∧
      (answer = true → ∀ change, operation.change manipulator.history = some change →
        TeachersWhoLikeRunningScorer.Balanced schedule manipulator.assignments change))

/-- What a run of such operations keeps. -/
structure Keeping (weights : List (ScorerClass × ℚ))
    (manipulator : ScheduleManipulator (compositeOf schedule weights)) : Prop where
  tidy : Tidy schedule manipulator.assignments
  orderly : ¬ Running weights → Orderly Change.SameDuration manipulator
  undoable : Running weights →
    Undoable schedule manipulator.assignments manipulator.history
  reflects : Reflects manipulator.assignments weights manipulator.scorerState

theorem Keeping.step
    (checked : Running weights → checkTimeslotConsistency schedule = .ok ())
    {manipulator result : ScheduleManipulator (compositeOf schedule weights)}
    (keeping : Keeping weights manipulator)
    (step : ScaledStep constraints weights manipulator result) :
    Keeping weights result := by
  obtain ⟨operation, answer, registered, proper, returned, whenRunning⟩ := step
  by_cases running : Running weights
  · obtain ⟨guarded, balanced⟩ := whenRunning running
    have undoable := keeping.undoable running
    cases makes_of_guarded undoable guarded returned with
    | inl unchanged => exact unchanged.2 ▸ keeping
    | inr changed =>
        obtain ⟨answered, undoableAfter, change, makesChange, makes⟩ := changed
        have admissible := makes.admissible
        have hook := makes.updated
        rw [CompositeScorer.updateScorer_eq] at hook
        have reflects := keeping.reflects.step undoable.sound.placed admissible.registered
          admissible.possible (admissible.tracks keeping.tidy)
          (fun _ => ⟨checked running, undoable.sound, admissible,
            balanced answered change makesChange⟩) hook
        have tidy := admissible.tidy keeping.tidy
        rw [← makes.assignments] at reflects tidy
        exact ⟨tidy, fun notRunning => absurd running notRunning, fun _ => undoableAfter, reflects⟩
  · have orderly := keeping.orderly running
    have performs := performs_of_step orderly
      (fun change force proper forced => forced.elim proper sameDuration_of_accepted)
      sameDuration_inverse ⟨operation, answer, ⟨registered, proper⟩, returned⟩
    cases performs with
    | inl unchanged => exact unchanged ▸ keeping
    | inr changed =>
        obtain ⟨change, performs, sameDuration, orderlyAfter⟩ := changed
        have hook := performs.updated
        rw [CompositeScorer.updateScorer_eq] at hook
        have reflects := keeping.reflects.step orderly.placed performs.registered performs.possible
          (keeping.tidy.tracks performs.registered sameDuration)
          (fun isRunning => absurd isRunning running) hook
        have tidy := keeping.tidy.apply performs.registered performs.possible sameDuration
        rw [← performs.assignments] at reflects tidy
        exact ⟨tidy, fun _ => orderlyAfter, fun isRunning => absurd isRunning running, reflects⟩

theorem Keeping.run
    (checked : Running weights → checkTimeslotConsistency schedule = .ok ())
    {manipulator result : ScheduleManipulator (compositeOf schedule weights)}
    (keeping : Keeping weights manipulator)
    (run : Relation.ReflTransGen (ScaledStep constraints weights) manipulator result) :
    Keeping weights result := by
  induction run with
  | refl => exact keeping
  | tail _ step ih => exact ih.step checked step

end Runs

/-! ## The small schedule -/

namespace SmallSchedule

theorem populated_small : small.Populated where
  sections := List.cons_ne_nil _ _
  timeslots := List.cons_ne_nil _ _
  teachers := List.cons_ne_nil _ _
  classrooms := List.cons_ne_nil _ _

/-- Scorers for which the small schedule is well scaled. -/
def balancedWeights : List (ScorerClass × ℚ) :=
  [(.teachersWhoLikeRunning, 1), (.categoryBalance, 2), (.lunchStudentClassHours, 1),
    (.numTeachers, 1)]

theorem wellScaled_small : ∀ entry ∈ balancedWeights, entry.1.WellScaled small := by
  have nonnegative : small.Nonnegative := by
    constructor <;> decide
  intro entry listed
  simp only [balancedWeights, List.mem_cons, List.not_mem_nil, or_false] at listed
  rcases listed with rfl | rfl | rfl | rfl
  · exact ⟨by decide, by decide⟩
  · exact ⟨nonnegative, by decide +kernel, by decide +kernel, by decide +kernel⟩
  · exact ⟨nonnegative, by decide +kernel, by decide +kernel⟩
  · trivial

end SmallSchedule

end EspWebsite.Autoscheduler
