import EspWebsite.Lottery.Controller

/-!
# What filling a section does

A fill changes nothing or gives the section to distinct students who pass every filter, no
more than there are spaces.  None of its assertions fires as long as the sections and the
program are within their capacities; the only thing that can go wrong is that the weighted
draw refuses the weights.
-/

namespace EspWebsite.Lottery.LotteryAssignmentController

open Python Loops Draws

variable {Weight : Type} {c : LotteryAssignmentController Weight} {state after : c.State}
  {si : c.Section} {priority : ℕ} {rank : ℤ} {student : c.Student}

/-! ## Candidates -/

/-- What the filters of `fill_section` require of a student. -/
structure Candidate (state : c.State) (si : c.Section) (priority : ℕ) (rank : ℤ)
    (student : c.Student) : Prop where
  signup : (if priority = 0 then c.interest student si
    else state.priority priority student si) = true
  grade : c.options.checkGrade = true →
    ¬ (priority = c.effectivePriorityLimit ∧ c.gradeRangeExceptions = true) →
    c.gradeEligible student si = true
  app : c.options.useStudentApps = true → c.ranks student si = rank
  sections : c.options.maxSections = 0 ∨
    (countNonzero (state.studentSections student) : ℚ) < c.options.maxSections
  timeslots : c.options.maxTimeslots = 0 ∨
    (countNonzero (state.studentSchedules student) : ℚ) < c.options.maxTimeslots
  free : ∀ ts, c.sectionSchedules si ts = true → state.studentSchedules student ts = false
  classes : ∀ other, c.parentClasses other = c.parentClasses si →
    state.studentSections student other = false
  lunch : ∀ ts, c.sectionSchedules si ts = true → ∀ day ∈ c.lunchTimeslotIndices, ts ∈ day →
    ∀ other ∈ day, other ≠ ts → state.studentSchedules student other = false

theorem possible_iff : possible state si priority rank student = true ↔
    Candidate state si priority rank student := by
  simp only [possible, Bool.and_eq_true, Bool.or_eq_true, Bool.not_eq_true', List.all_eq_true,
    mem_nonzero, sectionOverlap, beq_iff_eq, decide_eq_true_eq, Bool.and_eq_false_iff,
    Bool.not_eq_false']
  constructor
  · intro filters
    rcases filters with ⟨⟨⟨⟨⟨⟨⟨signup, grade⟩, app⟩, sections⟩, timeslots⟩, free⟩, classes⟩, lunch⟩
    refine ⟨signup, ?_, ?_, sections, timeslots, free, classes, ?_⟩
    · intro checked unexcepted
      rcases grade with (unchecked | excepted) | eligible
      · rw [checked] at unchecked
        cases unchecked
      · exact absurd excepted unexcepted
      · exact eligible
    · intro used
      rcases app with unused | ranked
      · rw [used] at unused
        cases unused
      · exact ranked
    · intro ts meets day member inDay other inDay' apart
      rcases lunch ts meets day member with outside | others
      · have outside' : ¬ ts ∈ day := by simpa using outside
        exact absurd inDay outside'
      · rcases others other inDay' with same | empty
        · exact absurd same apart
        · exact empty
  · intro candidate
    refine ⟨⟨⟨⟨⟨⟨⟨candidate.signup, ?_⟩, ?_⟩, candidate.sections⟩, candidate.timeslots⟩,
      candidate.free⟩, candidate.classes⟩, ?_⟩
    · by_cases checked : c.options.checkGrade = true
      · by_cases excepted : priority = c.effectivePriorityLimit ∧ c.gradeRangeExceptions = true
        · exact .inl (.inr excepted)
        · exact .inr (candidate.grade checked excepted)
      · exact .inl (.inl (by simpa using checked))
    · by_cases used : c.options.useStudentApps = true
      · exact .inr (candidate.app used)
      · exact .inl (by simpa using used)
    · intro ts meets day member
      by_cases inDay : ts ∈ day
      · right
        intro other inDay'
        by_cases same : other = ts
        · exact .inl same
        · exact .inr (candidate.lunch ts meets day member inDay other inDay' same)
      · exact .inl (by simpa using inDay)

/-! ## The students who are selected -/

theorem select_eq_ok {spaces : ℕ} {candidates selected : List c.Student} {filled : Bool}
    {source : Source} (distinct : candidates.Nodup)
    (returns : select state spaces candidates = .ok (selected, filled, source)) :
    selected.Nodup ∧ (∀ student ∈ selected, student ∈ candidates) ∧
      selected.length ≤ spaces := by
  have draws : ∀ chosen : List c.Student, chosen.Subperm candidates → chosen.length = spaces →
      chosen.Nodup ∧ (∀ student ∈ chosen, student ∈ candidates) ∧ chosen.length ≤ spaces := by
    intro chosen subperm length
    rcases subperm with ⟨sub, perm, sublist⟩
    exact ⟨perm.nodup_iff.mp (distinct.sublist sublist),
      fun student member => sublist.subset (perm.mem_iff.mpr member), length.le⟩
  rw [select] at returns
  split at returns
  · rename_i enough
    cases returns
    exact ⟨distinct, fun _ member => member, enough⟩
  · rename_i many
    dsimp only at returns
    split at returns
    · rcases map_eq_ok.mp returns with ⟨chosen, drawn, equal⟩
      cases equal
      have spec := c.draws.choice_draws _ _ _ _ _ _ drawn
      exact draws chosen.1 spec.1 spec.2
    · rename_i few
      cases returns
      have parts := List.filter_append_perm
        (fun student => c.draws.positive (state.studentWeights student)) candidates
      have total := parts.length_eq
      rw [List.length_append] at total
      apply draws
      · exact ((List.subperm_append_left _).mpr (choice_subperm _ _ _)).trans parts.subperm
      · rw [List.length_append, choice_length (by omega)]
        omega

theorem select_eq_error {spaces : ℕ} {candidates : List c.Student} {raised : PyError}
    (raises : select state spaces candidates = .error raised) : raised = .valueError := by
  rw [select] at raises
  split at raises
  · cases raises
  · dsimp only at raises
    split at raises
    · cases drawn : c.draws.choice candidates state.studentWeights spaces state.source with
      | ok chosen =>
          rw [drawn] at raises
          cases raises
      | error refused =>
          rw [drawn] at raises
          cases raises
          exact c.draws.choice_raises _ _ _ _ _ drawn
    · cases raises

/-! ## Giving a section to students -/

theorem occupyAt_studentSchedules {students : List c.Student} {ts other : c.Timeslot} :
    (state.occupyAt si priority students ts).studentSchedules student other =
      if student ∈ students ∧ other = ts then true else state.studentSchedules student other := by
  simp [State.occupyAt]

/-- Giving a section at distinct timeslots to students who are free then raises nothing and
occupies exactly these students and timeslots. -/
theorem occupyAll {students : List c.Student} {timeslots : List c.Timeslot}
    (distinct : timeslots.Nodup)
    (free : ∀ student ∈ students, ∀ ts ∈ timeslots, state.studentSchedules student ts = false) :
    ∃ occupied : c.State, forLoop (occupy si priority students) timeslots state = .ok occupied ∧
      (∀ student ts, occupied.studentSchedules student ts =
        (state.studentSchedules student ts ||
          (students.contains student && timeslots.contains ts))) ∧
      occupied.studentSections = state.studentSections ∧ occupied.priority = state.priority := by
  induction timeslots generalizing state with
  | nil => exact ⟨state, rfl, by simp, rfl, rfl⟩
  | cons ts rest ih =>
      rcases List.nodup_cons.mp distinct with ⟨fresh, distinct⟩
      have unoccupied :
          (students.all fun student => !state.studentSchedules student ts) = true := by
        rw [List.all_eq_true]
        intro student member
        rw [free student member ts List.mem_cons_self]
        rfl
      rw [forLoop, occupy, assert, if_pos unoccupied]
      have freeLater : ∀ student ∈ students, ∀ other ∈ rest,
          (state.occupyAt si priority students ts).studentSchedules student other = false := by
        intro student member other later
        rw [occupyAt_studentSchedules, if_neg]
        · exact free student member other (List.mem_cons_of_mem _ later)
        · intro same
          exact fresh (same.2 ▸ later)
      rcases ih distinct freeLater with ⟨occupied, loop, schedules, sections, priorities⟩
      refine ⟨occupied, loop, ?_, sections, priorities⟩
      intro student other
      rw [schedules, occupyAt_studentSchedules, List.contains_cons]
      by_cases same : other = ts
      · subst same
        by_cases member : student ∈ students
        · simp [member]
        · simp [member]
      · have apart : (other == ts) = false := by simpa using same
        simp [same, apart]

/-- The section is given to students who may be given it, and nothing else changes. -/
structure Taken (state after : c.State) (si : c.Section) (priority : ℕ) (rank : ℤ)
    (students : List c.Student) : Prop where
  distinct : students.Nodup
  candidates : ∀ student ∈ students, Candidate state si priority rank student
  meets : ∃ ts, c.sectionSchedules si ts = true
  uncovered : c.coversLunch si = false
  sections : ∀ student sec, after.studentSections student sec =
    (state.studentSections student sec || (students.contains student && sec == si))
  schedules : ∀ student ts, after.studentSchedules student ts =
    (state.studentSchedules student ts || (students.contains student && c.sectionSchedules si ts))
  priority : after.priority = state.priority

theorem fillSpaces_of_select {spaces : ℕ} {selected : List c.Student} {filled : Bool}
    {source : Source} (meets : ∃ ts, c.sectionSchedules si ts = true)
    (uncovered : c.coversLunch si = false)
    (selecting : select state spaces (nonzero (possible state si priority rank)) =
      .ok (selected, filled, source)) :
    ∃ after, fillSpaces si priority rank spaces state = .ok (filled, after) ∧
      Taken state after si priority rank selected ∧ selected.length ≤ spaces := by
  rcases select_eq_ok (nonzero_nodup _) selecting with ⟨distinct, members, few⟩
  have candidates : ∀ student ∈ selected, Candidate state si priority rank student :=
    fun student member => possible_iff.mp (mem_nonzero.mp (members student member))
  have unassigned :
      (selected.all fun student => !state.studentSections student si) = true := by
    rw [List.all_eq_true]
    intro student member
    rw [(candidates student member).classes si rfl]
    rfl
  have nonempty : (nonzero (c.sectionSchedules si)).isEmpty = false := by
    rcases meets with ⟨ts, meets⟩
    exact List.isEmpty_eq_false_iff_exists_mem.mpr ⟨ts, mem_nonzero.mpr meets⟩
  let assigned : c.State := { state.assign si selected with source }
  have free : ∀ student ∈ selected, ∀ ts ∈ nonzero (c.sectionSchedules si),
      assigned.studentSchedules student ts = false := fun student member ts listed =>
    (candidates student member).free ts (mem_nonzero.mp listed)
  rcases @occupyAll _ _ assigned si priority _ _ (nonzero_nodup _) free with
    ⟨occupied, loop, schedules, sections, priorities⟩
  have returns : fillSpaces si priority rank spaces state = .ok (filled,
      occupied.weaken selected (if priority = 0 then c.options.Ki else c.options.Kp)) := by
    rw [fillSpaces, if_neg (by simp [nonempty, uncovered]), selecting, ok_bind]
    dsimp only
    rw [assert_of_holds unassigned, ok_bind, loop]
    rfl
  refine ⟨_, returns, ⟨distinct, candidates, meets, uncovered, ?_, ?_, priorities⟩, few⟩
  · intro student sec
    change occupied.studentSections student sec = _
    rw [sections]
    change (if (selected.contains student && sec == si) = true then true
      else state.studentSections student sec) = _
    cases selected.contains student && sec == si with
    | true => simp
    | false => simp
  · intro student ts
    change occupied.studentSchedules student ts = _
    have listed : (nonzero (c.sectionSchedules si)).contains ts = c.sectionSchedules si ts := by
      rw [Bool.eq_iff_iff, List.contains_iff_mem, mem_nonzero]
    rw [schedules, listed]
    rfl

/-- A fill of a section with spaces changes nothing or gives the section to as many
students as there are spaces, unless the weights are refused. -/
theorem fillSpaces_cases (spaces : ℕ) :
    fillSpaces si priority rank spaces state = .error .valueError ∨
      ∃ filled after, fillSpaces si priority rank spaces state = .ok (filled, after) ∧
        (after = state ∨
          ∃ students, Taken state after si priority rank students ∧ students.length ≤ spaces) := by
  by_cases skipped : ((nonzero (c.sectionSchedules si)).isEmpty || c.coversLunch si) = true
  · right
    exact ⟨false, state, by rw [fillSpaces, if_pos skipped], .inl rfl⟩
  · have kept := skipped
    rw [Bool.not_eq_true, Bool.or_eq_false_iff, List.isEmpty_eq_false_iff_exists_mem] at kept
    rcases kept with ⟨⟨ts, member⟩, uncovered⟩
    cases selecting : select state spaces (nonzero (possible state si priority rank)) with
    | error raised =>
        left
        rw [fillSpaces, if_neg skipped, selecting, error_bind, select_eq_error selecting]
    | ok selection =>
        right
        rcases fillSpaces_of_select ⟨ts, mem_nonzero.mp member⟩ uncovered selecting with
          ⟨after, returns, taken, few⟩
        exact ⟨selection.2.1, after, returns, .inr ⟨selection.1, taken, few⟩⟩

theorem fillSection_cases (si : c.Section) (priority : ℕ) (rank : ℤ)
    (capacity : enrollment state si ≤ c.sectionCapacities si)
    (program : c.programSizeMax ≠ 0 → attendance state ≤ c.programSizeMax) :
    fillSection si priority rank state = .error .valueError ∨
      ∃ filled after, fillSection si priority rank state = .ok (filled, after) ∧
        (after = state ∨
          ∃ students, Taken state after si priority rank students ∧
            enrollment state si + students.length ≤ c.sectionCapacities si ∧
            (c.programSizeMax ≠ 0 →
              attendance state + students.length ≤ c.programSizeMax)) := by
  rw [fillSection]
  cases counted : numSpaces state si with
  | none => exact .inr ⟨true, state, rfl, .inl rfl⟩
  | some spaces =>
      have bounds : 0 ≤ spaces ∧ enrollment state si + spaces ≤ c.sectionCapacities si ∧
          (c.programSizeMax ≠ 0 → attendance state + spaces ≤ c.programSizeMax) := by
        rw [numSpaces] at counted
        dsimp only at counted
        split at counted
        · rename_i uncapped
          cases counted
          refine ⟨by omega, by omega, ?_⟩
          intro capped
          exact absurd uncapped capped
        · rename_i capped
          have within := program capped
          split at counted
          · cases counted
          · cases counted
            refine ⟨by omega, by omega, ?_⟩
            intro _
            omega
      by_cases full : spaces = 0
      · exact .inr ⟨true, state, if_pos full, .inl rfl⟩
      · have positive : 0 < spaces := by omega
        simp only [full, if_false, assert, positive, if_true, ok_bind]
        rcases @fillSpaces_cases _ _ state si priority rank spaces.toNat with
          refused | ⟨filled, after, returns, same | ⟨students, taken, few⟩⟩
        · exact .inl refused
        · exact .inr ⟨filled, after, returns, .inl same⟩
        · refine .inr ⟨filled, after, returns, .inr ⟨students, taken, by omega, ?_⟩⟩
          intro capped
          have within := bounds.2.2 capped
          omega

end EspWebsite.Lottery.LotteryAssignmentController
