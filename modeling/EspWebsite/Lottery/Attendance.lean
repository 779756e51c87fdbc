import EspWebsite.Lottery.Runs
import EspWebsite.Lottery.Lunches

/-!
# The cap of the program

A section that is filled meets at some timeslot, so that the students who have a section
are those whose schedules are not empty, whom every fill counts against the cap.  Lunch is
given to students who have a section already.
-/

namespace EspWebsite.Lottery.LotteryAssignmentController

open Python Loops Draws

variable {Weight : Type} {c : LotteryAssignmentController Weight} {state : c.State}
  {lunch after : c.LunchState} {student : c.Student} {source : Source}

theorem mem_attendingStudents : student ∈ attendingStudents state ↔
    ∃ sec, state.studentSections student sec = true := by
  rw [attendingStudents, mem_nonzero, anyOf_eq_true]

/-! ## The main lottery -/

def Meeting (state : c.State) : Prop :=
  ∀ student sec, state.studentSections student sec = true →
    ∃ ts, c.sectionSchedules sec ts = true

theorem meeting_mainLottery (assigned : c.mainLottery source = .ok state) :
    Lawful state ∧ Meeting state := by
  apply mainLottery_invariant _ _ _ assigned
  · intro si priority rank students state after _ meeting taken student sec held
    rcases taken.sections_iff.mp held with before | given
    · exact meeting student sec before
    · rw [given.2]
      exact taken.meets
  · intro state source meeting
    exact meeting
  · intro priorities student sec held
    cases held

theorem length_attendingStudents_le (lawful : Lawful state) (meeting : Meeting state) :
    (attendingStudents state).length ≤ attendance state := by
  change countNonzero _ ≤ countNonzero _
  rw [countNonzero_eq_card, countNonzero_eq_card]
  apply Finset.card_le_card
  intro student member
  rw [Finset.mem_filter, anyOf_eq_true] at member ⊢
  rcases member.2 with ⟨sec, held⟩
  rcases meeting student sec held with ⟨ts, meets⟩
  exact ⟨Finset.mem_univ _, ts, (lawful.union student ts).mpr ⟨sec, held, meets⟩⟩

/-! ## Lunches -/

theorem attendingStudents_assignLunch {periods : List c.Timeslot} {other : c.Student}
    (returns : assignLunch periods student lunch = .ok after)
    (member : other ∈ attendingStudents after.1) :
    other = student ∨ other ∈ attendingStudents lunch.1 := by
  rw [assignLunch] at returns
  split at returns
  · cases returns
    exact .inr member
  · rename_i sec rest _
    cases returns
    rcases mem_attendingStudents.mp member with ⟨held, inHeld⟩
    rcases giveLunch_sections.mp inHeld with given | before
    · exact .inl given.1
    · exact .inr (mem_attendingStudents.mpr ⟨held, before⟩)

theorem mem_lunchOrder {periods : List c.Timeslot} {attending : List c.Student} :
    student ∈ (lunchOrder state periods attending).1 ↔ student ∈ attending := by
  rw [lunchOrder]
  exact (List.mem_insertionSort _).trans (shuffle_perm attending state.source).mem_iff

theorem attendingStudents_assignDay {attending : List c.Student} {day : List c.Timeslot}
    (kept : ∀ student ∈ attendingStudents lunch.1, student ∈ attending)
    (returns : assignDay attending day lunch = .ok after) :
    ∀ student ∈ attendingStudents after.1, student ∈ attending := by
  rw [assignDay] at returns
  split at returns
  · cases returns
    exact kept
  · apply forLoop_invariant
      (fun lunch : c.LunchState => ∀ student ∈ attendingStudents lunch.1, student ∈ attending)
      _ _ returns
    · intro student ordered lunch after kept step other member
      rcases attendingStudents_assignLunch step member with rfl | before
      · exact mem_lunchOrder.mp ordered
      · exact kept other before
    · exact kept

theorem attendingStudents_assignLunches {final : c.State}
    (returns : assignLunches state = .ok final) :
    ∀ student ∈ attendingStudents final, student ∈ attendingStudents state := by
  rcases map_eq_ok.mp returns with ⟨lunch, loop, rfl⟩
  apply forLoop_invariant (fun lunch : c.LunchState =>
    ∀ student ∈ attendingStudents lunch.1, student ∈ attendingStudents state)
    _ (fun _ member => member) loop
  intro day _ lunch after kept step
  exact attendingStudents_assignDay kept step

/-! ## The cap -/

/-- With a cap on the program, filling sections raises no assertion and no more students
than the cap allows have a section in the end, lunch included. -/
theorem computeAssignments_capped (c : LotteryAssignmentController Weight) (source : Source)
    (capped : c.programSizeMax ≠ 0) :
    (∀ message, c.mainLottery source ≠ .error (.assertion message)) ∧
      ∀ checkResult final, c.computeAssignments checkResult source = .ok final →
        (attendingStudents final).length ≤ c.programSizeMax := by
  constructor
  · intro message raises
    cases (lawful_mainLottery source).2 _ raises
  · intro checkResult final computed
    rcases mainLottery_of_computeAssignments computed with ⟨state, assigned, lunches⟩
    have within : (attendingStudents state).length ≤ c.programSizeMax := by
      rcases meeting_mainLottery assigned with ⟨lawful, meeting⟩
      exact (length_attendingStudents_le lawful meeting).trans (lawful.program capped)
    have brought : ∀ student ∈ attendingStudents final, student ∈ attendingStudents state := by
      split at lunches
      · exact attendingStudents_assignLunches lunches
      · cases lunches
        exact fun _ member => member
    have distinct : (attendingStudents final).Nodup := nonzero_nodup _
    exact (distinct.subperm brought).length_le.trans within

/-- The lottery with a cap of one student. -/
def oneStudent : LotteryAssignmentController ℚ := { uncheckedGrades with programSizeMax := 1 }

theorem computeAssignments_capped_oneStudent :
    (∀ message, oneStudent.mainLottery (fun _ => 0) ≠ .error (.assertion message)) ∧
      ∀ checkResult final, oneStudent.computeAssignments checkResult (fun _ => 0) = .ok final →
        (attendingStudents final).length ≤ oneStudent.programSizeMax :=
  computeAssignments_capped oneStudent (fun _ => 0) (by decide)

end EspWebsite.Lottery.LotteryAssignmentController
