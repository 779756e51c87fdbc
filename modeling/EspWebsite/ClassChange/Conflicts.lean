import EspWebsite.ClassChange.Runs

/-!
# Nobody loses a class for nothing

No student is ever enrolled in two sections at once, and when pushing back has ended,
whoever is no longer in a section of his has something else at one of its times.
-/

namespace EspWebsite.ClassChange.ClassChangeController

open Python Loops Draws

variable {c : ClassChangeController} {state after : c.State} {sec : c.Section}

variable (c) in
/-- No student was enrolled in two sections at the same time. -/
def ConflictFree : Prop :=
  ∀ student left right ts, c.enrollOrig student left ts = true →
    c.enrollOrig student right ts = true → left = right

/-- Enrollments are at times of their sections, and no two of a student at once. -/
structure Consistent (state : c.State) : Prop where
  scheduled : ∀ student sec ts, state.enrollFinal student sec ts = true →
    c.sectionSchedules sec ts = true
  unique : ∀ student left right ts, state.enrollFinal student left ts = true →
    state.enrollFinal student right ts = true → left = right

theorem Consistent.enroll {students : List c.Student} (consistent : Consistent state)
    (free : ∀ student ∈ students, c.anyDuring state.enrollFinal student sec = false) :
    Consistent (state.enroll students sec true) := by
  have cases' : ∀ student other ts,
      (state.enroll students sec true).enrollFinal student other ts = true →
      (student ∈ students ∧ other = sec ∧ c.sectionSchedules sec ts = true) ∨
        state.enrollFinal student other ts = true := by
    intro student other ts enrolled
    rw [enroll_apply] at enrolled
    split at enrolled
    · rename_i inside
      exact .inl inside
    · exact .inr enrolled
  have apart : ∀ student other ts, student ∈ students → c.sectionSchedules sec ts = true →
      state.enrollFinal student other ts ≠ true := by
    intro student other ts member meets enrolled
    have busy := anyDuring_eq_true.mpr ⟨other, ts, meets, enrolled⟩
    rw [free student member] at busy
    cases busy
  constructor
  · intro student other ts enrolled
    rcases cases' student other ts enrolled with ⟨-, rfl, meets⟩ | before
    · exact meets
    · exact consistent.scheduled student other ts before
  · intro student left right ts inLeft inRight
    rcases cases' student left ts inLeft with ⟨member, rfl, meets⟩ | beforeLeft
    · rcases cases' student right ts inRight with ⟨-, rfl, -⟩ | beforeRight
      · rfl
      · exact absurd beforeRight (apart student right ts member meets)
    · rcases cases' student right ts inRight with ⟨member, rfl, meets⟩ | beforeRight
      · exact absurd beforeLeft (apart student left ts member meets)
      · exact consistent.unique student left right ts beforeLeft beforeRight

/-- Taking students out of a section keeps consistency. -/
theorem Consistent.leave {students : List c.Student} (consistent : Consistent state) :
    Consistent (state.enroll students sec false) := by
  have before : ∀ student other ts,
      (state.enroll students sec false).enrollFinal student other ts = true →
      state.enrollFinal student other ts = true := by
    intro student other ts enrolled
    rw [enroll_apply] at enrolled
    split at enrolled
    · cases enrolled
    · exact enrolled
  constructor
  · intro student other ts enrolled
    exact consistent.scheduled student other ts (before student other ts enrolled)
  · intro student left right ts inLeft inRight
    exact consistent.unique student left right ts (before _ _ _ inLeft) (before _ _ _ inRight)

theorem Consistent.congr (consistent : Consistent state)
    (same : after.enrollFinal = state.enrollFinal) : Consistent after := by
  constructor
  · rw [same]
    exact consistent.scheduled
  · rw [same]
    exact consistent.unique

theorem consistent_clearAssignments (conflictFree : c.ConflictFree) (source : Source) :
    Consistent (c.clearAssignments source) := by
  have original : ∀ student sec ts,
      (c.clearAssignments source).enrollFinal student sec ts = true →
      c.enrollOrig student sec ts = true := by
    intro student sec ts enrolled
    change c.enrollFinalOrig student sec ts = true at enrolled
    rw [enrollFinalOrig, Bool.and_eq_true, Bool.and_eq_true, anyIn_enrollOrig] at enrolled
    rw [enrollOrig, Bool.and_eq_true]
    exact ⟨enrolled.2.1.1, enrolled.1⟩
  constructor
  · intro student sec ts enrolled
    have held := original student sec ts enrolled
    rw [enrollOrig, Bool.and_eq_true] at held
    exact held.2
  · intro student left right ts inLeft inRight
    exact conflictFree student left right ts (original _ _ _ inLeft) (original _ _ _ inRight)

theorem Consistent.fillSection {si : c.Section} {priority : ℕ} {filled : Bool}
    (consistent : Consistent state)
    (returns : fillSection si priority state = .ok (filled, after)) : Consistent after := by
  rcases fillSection_eq_ok returns with rfl | ⟨students, source, selected, rfl⟩
  · exact consistent
  · have free : ∀ student ∈ students, c.anyDuring state.enrollFinal student si = false := by
      intro student member
      exact free_of_possible (selected.possible student member)
    exact (consistent.enroll free).congr rfl

theorem Consistent.pushStudent {student : c.Student} (consistent : Consistent state)
    (pushed : toPush state sec student = true)
    (returns : pushStudent sec student state = .ok after) : Consistent after := by
  have free : ∀ other ∈ [student], c.anyDuring state.enrollFinal other sec = false := by
    intro other member
    rw [toPush, Bool.and_eq_true, Bool.not_eq_true'] at pushed
    rw [List.mem_singleton.mp member]
    exact pushed.2
  have enrolled := consistent.enroll free
  rcases pushStudent_eq_ok.mp returns with
    ⟨-, rfl⟩ | ⟨-, queue, source, -, ⟨-, rfl⟩ | ⟨entry, rest, -, rfl⟩⟩
  · exact enrolled.congr rfl
  · exact enrolled.congr rfl
  · exact enrolled.leave.congr rfl

/-- The order in which the sections are gone over has all of them. -/
def Complete (state : c.State) : Prop := ∀ sec, sec ∈ state.sortedSectionIndices

theorem Complete.fillSection {si : c.Section} {priority : ℕ} {filled : Bool}
    (complete : Complete state) (returns : fillSection si priority state = .ok (filled, after)) :
    Complete after := by
  rcases fillSection_eq_ok returns with rfl | ⟨students, source, selected, rfl⟩
  · exact complete
  · exact complete

theorem Complete.pushStudent {student : c.Student} (complete : Complete state)
    (returns : pushStudent sec student state = .ok after) : Complete after := by
  rcases pushStudent_eq_ok.mp returns with
    ⟨-, rfl⟩ | ⟨-, queue, source, -, ⟨-, rfl⟩ | ⟨entry, rest, -, rfl⟩⟩
  · exact complete
  · exact complete
  · exact complete

theorem complete_sortSections : SortInvariant (Complete (c := c)) := by
  intro state key complete sec
  simpa [State.sortSections, List.mem_insertionSort] using complete sec

theorem consistent_fillAll {source : Source} (conflictFree : c.ConflictFree)
    (filling : c.fillAll source = .ok after) : Consistent after ∧ Complete after := by
  apply fillAll_preserves (fun state => Consistent state ∧ Complete state) _ _ _ filling
  · intro state key kept
    exact ⟨kept.1.congr rfl, complete_sortSections state key kept.2⟩
  · intro state after si priority flag kept fill
    exact ⟨kept.1.fillSection fill, kept.2.fillSection fill⟩
  · exact ⟨(consistent_clearAssignments conflictFree source).congr rfl, List.mem_finRange⟩

theorem consistent_pushBackStudents {rounds : ℕ} (consistent : Consistent state)
    (complete : Complete state) (ends : pushBackStudents rounds state = some (.ok after)) :
    Consistent after ∧ ∀ sec student, toPush after sec student = false := by
  have pushes := pushBackStudents_preserves (fun _ _ _ => True)
    (fun state => Consistent state ∧ Complete state)
    (beforePushes_of_forall _ fun _ _ _ => trivial) ?_ ?_ ⟨consistent.congr rfl, complete⟩ ends
  · rcases pushes with ⟨kept, last, keptLast, round⟩
    refine ⟨kept.1, ?_⟩
    intro sec student
    exact pushRound_eq_ok_false round sec (keptLast.2 sec) student
  · intro state key kept
    exact ⟨kept.1.congr rfl, complete_sortSections state key kept.2⟩
  · intro state after sec student _ pushed kept step
    exact ⟨kept.1.pushStudent pushed step, kept.2.pushStudent step⟩

/-- When the assignment of a conflict-free enrollment ends, whoever was in a section is in
it still or has something at one of its times, and nobody has two things at once. -/
theorem computeAssignments_keepsClasses (c : ClassChangeController) (rounds : ℕ)
    (source : Source) (final : c.State) (conflictFree : c.ConflictFree)
    (ends : c.computeAssignments rounds source = some (.ok final)) :
    (∀ student sec, (∃ ts, c.enrollOrig student sec ts = true) →
      (∃ ts, final.enrollFinal student sec ts = true) ∨
        ∃ other ts, c.sectionSchedules sec ts = true ∧
          final.enrollFinal student other ts = true) ∧
      ∀ student left right ts, final.enrollFinal student left ts = true →
        final.enrollFinal student right ts = true → left = right := by
  rw [computeAssignments] at ends
  cases filling : c.fillAll source with
  | error raised =>
      rw [filling] at ends
      cases ends
  | ok filled =>
      rw [filling] at ends
      rcases consistent_fillAll conflictFree filling with ⟨consistent, complete⟩
      rcases consistent_pushBackStudents consistent complete ends with ⟨kept, pushed⟩
      refine ⟨?_, kept.unique⟩
      intro student sec original
      rcases original with ⟨ts, original⟩
      have enrolled := original
      rw [enrollOrig, Bool.and_eq_true] at enrolled
      have held := anyIn_eq_true.mpr ⟨ts, enrolled.2, original⟩
      have busy := pushed sec student
      rw [toPush, held, Bool.true_and, Bool.not_eq_false'] at busy
      exact .inr (anyDuring_eq_true.mp busy)

/-- Two students of a full section want to leave it for one without spaces, and two others
want to come. -/
def crowded : ClassChangeController where
  numStudents := 4
  numSections := 2
  numTimeslots := 1
  enrolled := fun student sec => student.val < 2 && sec == 0
  requested := fun student sec => if student.val < 2 then sec == 1 else sec == 0
  prioritized := fun _ _ _ => false
  priorityLimit := 0
  sectionSchedules := fun _ _ => true
  parentClasses := fun sec => sec
  capacity := fun sec => if sec = 0 then 2 else 0
  otherStudents := fun _ => 0
  sectionGradeMin := fun _ => 7
  sectionGradeMax := fun _ => 12
  studentGrades := fun _ => 9
  checkGrade := false
  lunchByDay := []

def endState (outcome : Option (Raises c.State)) : Option c.State :=
  match outcome with
  | some (.ok final) => some final
  | _ => none

theorem eq_of_endState {outcome : Option (Raises c.State)} {final : c.State}
    (ended : endState outcome = some final) : outcome = some (.ok final) := by
  rcases outcome with _ | raised | final'
  · cases ended
  · cases ended
  · cases ended
    rfl

theorem computeAssignments_keepsClasses_crowded :
    ∃ final, crowded.computeAssignments 2 (fun _ => 0) = some (.ok final) ∧
      ((∀ student sec, (∃ ts, crowded.enrollOrig student sec ts = true) →
        (∃ ts, final.enrollFinal student sec ts = true) ∨
          ∃ other ts, crowded.sectionSchedules sec ts = true ∧
            final.enrollFinal student other ts = true) ∧
      ∀ student left right ts, final.enrollFinal student left ts = true →
        final.enrollFinal student right ts = true → left = right) := by
  have ended : (endState (crowded.computeAssignments 2 fun _ => 0)).isSome = true := by
    decide
  rcases Option.isSome_iff_exists.mp ended with ⟨final, ended⟩
  have ends := eq_of_endState ended
  exact ⟨final, ends, computeAssignments_keepsClasses crowded 2 _ final
    (by unfold ConflictFree; decide) ends⟩

end EspWebsite.ClassChange.ClassChangeController
