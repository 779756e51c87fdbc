import EspWebsite.Autoscheduler.Scoring.CountScorers
import EspWebsite.Autoscheduler.Scoring.HungryTeacher
import EspWebsite.Autoscheduler.Scoring.RoomConsecutivity
import EspWebsite.Autoscheduler.Scoring.RoomScorers
import EspWebsite.Autoscheduler.Scoring.RunningHooks

/-!
# The scorer classes

All scorer classes and the composite scorers built of them.  In every class the hooks
keep the state in step with the schedule, and undoing a change restores the state.
-/

namespace EspWebsite.Autoscheduler

open Python

/-! ## Staying in step -/

/-- A scorer has to do with a relation between assignments and its states: a fresh state
is related, admissible changes keep it so, and undoing a change restores the state. -/
structure Steady {schedule : AS_Schedule} (scorer : Scorer schedule)
    (inStep : Assignments → scorer.State → Prop) : Prop where
  fresh : ∀ {assignments state}, scorer.updateSchedule assignments = .ok state →
    inStep assignments state
  step : ∀ {assignments} {change : Change} {state}, Sound schedule assignments →
    Admissible schedule assignments change → change.Tracks assignments →
      inStep assignments state →
        ∃ updated, change.updateScorer scorer assignments state = .ok updated ∧
          inStep (change.apply assignments) updated
  back : ∀ {assignments} {change back : Change} {state updated},
    Sound schedule assignments → Admissible schedule assignments change →
      change.Tracks assignments → change.Inverse assignments back →
        change.Retraceable assignments → inStep assignments state →
          change.updateScorer scorer assignments state = .ok updated →
            back.updateScorer scorer (change.apply assignments) updated = .ok state

section Steadiness

variable {schedule : AS_Schedule} {scorer : Scorer schedule} {assignments : Assignments}
  {change back : Change}

theorem Change.tracks_inverse (possible : change.Possible assignments)
    (tracks : change.Tracks assignments) (inverse : Change.Inverse assignments change back) :
    back.Tracks (change.apply assignments) := by
  cases inverse with
  | schedule | move _ | unschedule _ => trivial
  | @swap section1 section2 =>
      obtain ⟨sameDuration, canonical1, canonical2⟩ := tracks
      refine ⟨sameDuration, ?_, ?_⟩
      · intro first rest held
        rw [Change.assigned_apply_swap_left _ possible.2.2] at held
        rw [sameDuration]
        exact canonical2 first rest held
      · intro first rest held
        rw [Change.assigned_apply_swap_right] at held
        rw [← sameDuration]
        exact canonical1 first rest held

theorem Admissible.inverse (admissible : Admissible schedule assignments change)
    (sound : Sound schedule assignments) (inverse : Change.Inverse assignments change back) :
    Admissible schedule (change.apply assignments) back :=
  (admissible_inverse sound admissible.sound admissible inverse (.refl _)).1

theorem Follows.steady (follows : Follows scorer) :
    Steady scorer fun assignments state => scorer.updateSchedule assignments = .ok state where
  fresh built := built
  step sound admissible tracks built := follows _ _ _ sound admissible tracks built
  back := by
    intro assignments change back state updated sound admissible tracks inverse retraceable
      built hook
    obtain ⟨other, otherHook, builtAfter⟩ := follows _ _ _ sound admissible tracks built
    rw [hook, Except.ok.injEq] at otherHook
    subst otherHook
    obtain ⟨restored, backHook, builtBack⟩ := follows _ _ _ admissible.sound
      (admissible.inverse sound inverse) (change.tracks_inverse admissible.possible tracks
        inverse) builtAfter
    rw [Change.apply_inverse sound.placed admissible.registered admissible.possible inverse
      retraceable, built, Except.ok.injEq] at builtBack
    rw [builtBack]
    exact backHook

namespace TeachersWhoLikeRunningScorer

/-- Undoing a change takes back what the count grew by. -/
theorem growth_inverse (inverse : Change.Inverse assignments change back)
    (restored : back.apply (change.apply assignments) = assignments) :
    growth schedule (change.apply assignments) back = -growth schedule assignments change := by
  rw [growth, growth, restored, Change.sections_inverse inverse]
  ring

/-- The dictionaries of the scorer of running teachers are those of the schedule, though
its count may be off. -/
theorem steady (checked : checkTimeslotConsistency schedule = .ok ()) :
    Steady (TeachersWhoLikeRunningScorer schedule) fun assignments (state : State) =>
      state.timesTeacherIsTeaching = timesTeaching schedule assignments where
  fresh built := by
    cases Except.ok.inj (updateSchedule_eq.symm.trans built)
    rfl
  step := by
    rintro assignments change ⟨times, count⟩ sound admissible tracks same
    subst same
    exact ⟨_, updateScorer_eq checked sound admissible tracks, rfl⟩
  back := by
    rintro assignments change back ⟨times, count⟩ updated sound admissible tracks inverse
      retraceable same hook
    subst same
    have restored := Change.apply_inverse sound.placed admissible.registered
      admissible.possible inverse retraceable
    cases Except.ok.inj ((updateScorer_eq checked sound admissible tracks).symm.trans hook)
    refine (updateScorer_eq checked admissible.sound (admissible.inverse sound inverse)
      (change.tracks_inverse admissible.possible tracks inverse)).trans ?_
    rw [restored, growth_inverse inverse restored, add_neg_cancel_right]
    rfl

end TeachersWhoLikeRunningScorer

end Steadiness

/-! ## The classes -/

/-- The classes of `scoring.py`, with what their constructors are given. -/
inductive ScorerClass where
  | adminDistribution
  | categoryBalance
  | lunchStudentClassHours
  | hungryTeacher
  | numSections
  | numSubjects
  | numTeachers
  | resourceCriteria (resourceCriteria : List (ResourceCriterion × ℚ))
  | resourceMatching
  | resourceValueMatching
  | roomConsecutivity
  | roomSizeMismatch
  | studentClassHours
  | teachersWhoLikeRunning

namespace ScorerClass

def scorer (schedule : AS_Schedule) : ScorerClass → Scorer schedule
  | adminDistribution => AdminDistributionScorer schedule
  | categoryBalance => CategoryBalanceScorer schedule
  | lunchStudentClassHours => LunchStudentClassHoursScorer schedule
  | hungryTeacher => HungryTeacherScorer schedule
  | numSections => NumSectionsScorer schedule
  | numSubjects => NumSubjectsScorer schedule
  | numTeachers => NumTeachersScorer schedule
  | resourceCriteria criteria => ResourceCriteriaScorer schedule criteria
  | resourceMatching => ResourceMatchingScorer schedule
  | resourceValueMatching => ResourceValueMatchingScorer schedule
  | roomConsecutivity => RoomConsecutivityScorer schedule
  | roomSizeMismatch => RoomSizeMismatchScorer schedule
  | studentClassHours => StudentClassHoursScorer schedule
  | teachersWhoLikeRunning => TeachersWhoLikeRunningScorer schedule

/-- Whether the class adds up or counts something for each section. -/
def isAdditive : ScorerClass → Bool
  | hungryTeacher | roomConsecutivity | teachersWhoLikeRunning => false
  | _ => true

variable {schedule : AS_Schedule}

theorem incremental (scorerClass : ScorerClass) (additive : scorerClass.isAdditive = true) :
    Incremental (scorerClass.scorer schedule) := by
  cases scorerClass with
  | adminDistribution =>
      apply RoomslotScorer.incremental
      intro sec
      exact List.flatMap_eq_nil_iff.mpr fun _ _ => rfl
  | categoryBalance | lunchStudentClassHours => exact RoomslotScorer.incremental fun _ => rfl
  | numSections => exact NumSectionsScorer.unconditional.incremental
  | numSubjects => exact NumSubjectsScorer.unconditional.incremental
  | numTeachers => exact NumTeachersScorer.unconditional.incremental
  | resourceCriteria _ | resourceMatching | resourceValueMatching | roomSizeMismatch
  | studentClassHours => exact RoomScorer.incremental
  | hungryTeacher | roomConsecutivity | teachersWhoLikeRunning => cases additive

theorem follows (scorerClass : ScorerClass)
    (notRunning : scorerClass ≠ teachersWhoLikeRunning) :
    Follows (scorerClass.scorer schedule) := by
  cases scorerClass with
  | hungryTeacher => exact HungryTeacherScorer.follows schedule
  | roomConsecutivity => exact (RoomConsecutivityScorer.unconditional schedule).incremental.follows
  | teachersWhoLikeRunning => exact absurd rfl notRunning
  | adminDistribution | categoryBalance | lunchStudentClassHours | numSections | numSubjects
  | numTeachers | resourceCriteria _ | resourceMatching | resourceValueMatching
  | roomSizeMismatch | studentClassHours => exact (incremental _ rfl).follows

/-- A scorer is in step with the schedule: its state is the one that a fresh scorer
builds; of the scorer of running teachers only the dictionaries need be. -/
def InStep (scorerClass : ScorerClass) (assignments : Assignments)
    (state : (scorerClass.scorer schedule).State) : Prop :=
  match scorerClass, state with
  | teachersWhoLikeRunning, state =>
      TeachersWhoLikeRunningScorer.State.timesTeacherIsTeaching state =
        TeachersWhoLikeRunningScorer.timesTeaching schedule assignments
  | scorerClass, state =>
      (scorerClass.scorer schedule).updateSchedule assignments = .ok state

theorem steady (checked : checkTimeslotConsistency schedule = .ok ())
    (scorerClass : ScorerClass) :
    Steady (scorerClass.scorer schedule) scorerClass.InStep := by
  by_cases running : scorerClass = teachersWhoLikeRunning
  · subst running
    exact TeachersWhoLikeRunningScorer.steady checked
  · have steady := (@follows schedule scorerClass running).steady
    have same : @InStep schedule scorerClass = fun assignments state =>
        (scorerClass.scorer schedule).updateSchedule assignments = .ok state := by
      cases scorerClass with
      | teachersWhoLikeRunning => exact absurd rfl running
      | _ => rfl
    rw [same]
    exact steady

end ScorerClass

/-! ## Composite scorers -/

def scorersAndWeights (schedule : AS_Schedule) (weights : List (ScorerClass × ℚ)) :
    List (Scorer schedule × ℚ) :=
  weights.map fun entry => (entry.1.scorer schedule, entry.2)

/-- The scorer that a manipulator makes from names and weights of classes. -/
def compositeOf (schedule : AS_Schedule) (weights : List (ScorerClass × ℚ)) :
    Scorer schedule :=
  CompositeScorer (scorersAndWeights schedule weights)

namespace CompositeScorer

variable {schedule : AS_Schedule} {assignments : Assignments} {weight : ℚ}
  {scorerClass : ScorerClass} {weights : List (ScorerClass × ℚ)}

/-- All components are in step with the schedule. -/
def InStep (assignments : Assignments) : (weights : List (ScorerClass × ℚ)) →
    State (scorersAndWeights schedule weights) → Prop
  | [], () => True
  | (scorerClass, _) :: rest, (state, states) =>
      scorerClass.InStep assignments state ∧ InStep assignments rest states

theorem updateScorer_eq (change : Change) :
    change.updateScorer (compositeOf schedule weights) assignments =
      forScorers (fun scorer => change.updateScorer scorer assignments)
        (scorersAndWeights schedule weights) := by
  cases change <;> rfl

theorem updateSchedule_inStep
    {states : State (scorersAndWeights schedule weights)}
    (checked : checkTimeslotConsistency schedule = .ok ())
    (built : updateSchedule assignments (scorersAndWeights schedule weights) = .ok states) :
    InStep assignments weights states := by
  induction weights with
  | nil => trivial
  | cons entry rest ih =>
      obtain ⟨state, stateBuilt, later⟩ := bind_eq_ok.mp built
      obtain ⟨others, othersBuilt, same⟩ := bind_eq_ok.mp later
      cases same
      exact ⟨(entry.1.steady checked).fresh stateBuilt, ih othersBuilt⟩

theorem forScorers_step {change : Change}
    {states : State (scorersAndWeights schedule weights)}
    (checked : checkTimeslotConsistency schedule = .ok ())
    (sound : Sound schedule assignments) (admissible : Admissible schedule assignments change)
    (tracks : change.Tracks assignments) (inStep : InStep assignments weights states) :
    ∃ updated, forScorers (fun scorer => change.updateScorer scorer assignments)
        (scorersAndWeights schedule weights) states = .ok updated ∧
      InStep (change.apply assignments) weights updated := by
  induction weights with
  | nil => exact ⟨(), rfl, trivial⟩
  | cons entry rest ih =>
      obtain ⟨state, others⟩ := states
      obtain ⟨updated, hook, stepped⟩ :=
        (entry.1.steady checked).step sound admissible tracks inStep.1
      obtain ⟨othersUpdated, othersHook, othersStepped⟩ := ih inStep.2
      refine ⟨(updated, othersUpdated), ?_, stepped, othersStepped⟩
      refine bind_eq_ok.mpr ⟨updated, hook, ?_⟩
      exact bind_eq_ok.mpr ⟨othersUpdated, othersHook, rfl⟩

theorem forScorers_back {change back : Change}
    {states updated : State (scorersAndWeights schedule weights)}
    (checked : checkTimeslotConsistency schedule = .ok ())
    (sound : Sound schedule assignments) (admissible : Admissible schedule assignments change)
    (tracks : change.Tracks assignments) (inverse : Change.Inverse assignments change back)
    (retraceable : change.Retraceable assignments) (inStep : InStep assignments weights states)
    (hook : forScorers (fun scorer => change.updateScorer scorer assignments)
      (scorersAndWeights schedule weights) states = .ok updated) :
    forScorers (fun scorer => back.updateScorer scorer (change.apply assignments))
      (scorersAndWeights schedule weights) updated = .ok states := by
  induction weights with
  | nil => rfl
  | cons entry rest ih =>
      obtain ⟨state, others⟩ := states
      obtain ⟨stateUpdated, stateHook, later⟩ := bind_eq_ok.mp hook
      obtain ⟨othersUpdated, othersHook, same⟩ := bind_eq_ok.mp later
      cases same
      have stateBack := (entry.1.steady checked).back sound admissible tracks inverse
        retraceable inStep.1 stateHook
      refine bind_eq_ok.mpr ⟨state, stateBack, ?_⟩
      exact bind_eq_ok.mpr ⟨others, ih inStep.2 othersHook, rfl⟩

theorem steady (checked : checkTimeslotConsistency schedule = .ok ())
    (weights : List (ScorerClass × ℚ)) :
    Steady (compositeOf schedule weights) fun assignments states =>
      InStep assignments weights states where
  fresh built := updateSchedule_inStep checked built
  step sound admissible tracks inStep := by
    rw [updateScorer_eq]
    exact forScorers_step checked sound admissible tracks inStep
  back sound admissible tracks inverse retraceable inStep hook := by
    rw [updateScorer_eq] at hook ⊢
    exact forScorers_back checked sound admissible tracks inverse retraceable inStep hook

end CompositeScorer

end EspWebsite.Autoscheduler
