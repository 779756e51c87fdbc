import EspWebsite.Lottery.Fill

/-!
# What the lottery assigns

Every fill keeps the assignment lawful: sections and the program within their capacities,
schedules made of disjoint sections, one section of a class for a student, only sections
that he asked for and may take, and a lunch period left free on every day.
-/

namespace EspWebsite.Lottery.LotteryAssignmentController

open Python Loops Draws

variable {Weight : Type} {c : LotteryAssignmentController Weight} {state after : c.State}
  {si : c.Section} {priority : ℕ} {rank : ℤ} {student : c.Student}

variable (c) in
/-- A student is interested in a section or registered for it at some level. -/
def Requested (student : c.Student) (sec : c.Section) : Prop :=
  c.interest student sec = true ∨
    ∃ i, 1 ≤ i ∧ i ≤ c.effectivePriorityLimit ∧ c.registered i student sec = true

variable (c) in
/-- A section is within the grades of a student, or he is excepted from them. -/
def Eligible (student : c.Student) (sec : c.Section) : Prop :=
  c.gradeEligible student sec = true ∨
    c.gradeRangeExceptions = true ∧ c.registered c.effectivePriorityLimit student sec = true

/-- What the assignments of a lottery satisfy. -/
structure Sound (state : c.State) : Prop where
  capacity : ∀ sec, enrollment state sec ≤ c.sectionCapacities sec
  disjoint : ∀ student left right ts, state.studentSections student left = true →
    state.studentSections student right = true → c.sectionSchedules left ts = true →
    c.sectionSchedules right ts = true → left = right
  union : ∀ student ts, state.studentSchedules student ts = true ↔
    ∃ sec, state.studentSections student sec = true ∧ c.sectionSchedules sec ts = true
  classes : ∀ student left right, state.studentSections student left = true →
    state.studentSections student right = true →
    c.parentClasses left = c.parentClasses right → left = right
  requested : ∀ student sec, state.studentSections student sec = true →
    c.Requested student sec
  eligible : c.options.checkGrade = true → ∀ student sec,
    state.studentSections student sec = true → c.Eligible student sec
  lunch : ∀ student, ∀ day ∈ c.lunchTimeslotIndices, day ≠ [] →
    ∃ ts ∈ day, state.studentSchedules student ts = false

variable (c) in
/-- Levels of priority come from registrations or, below the exceptions, from interest. -/
def Registered (priorities : ℕ → c.Student → c.Section → Bool) : Prop :=
  ∀ i student sec, priorities i student sec = true →
    c.registered i student sec = true ∨
      i ≤ c.realPriorityLimit ∧ c.interest student sec = true

/-- What every fill keeps. -/
structure Lawful (state : c.State) : Prop extends Sound state where
  program : c.programSizeMax ≠ 0 → attendance state ≤ c.programSizeMax
  priorities : c.Registered state.priority

/-- The draws, weights, utilities and enrollments do not matter to lawfulness. -/
theorem Lawful.congr (lawful : Lawful state)
    (sections : after.studentSections = state.studentSections)
    (schedules : after.studentSchedules = state.studentSchedules)
    (priorities : after.priority = state.priority) : Lawful after := by
  have capacity : ∀ sec, enrollment after sec ≤ c.sectionCapacities sec := by
    intro sec
    rw [enrollment, sections]
    exact lawful.capacity sec
  have program : c.programSizeMax ≠ 0 → attendance after ≤ c.programSizeMax := by
    rw [attendance, schedules]
    exact lawful.program
  refine ⟨⟨capacity, ?_, ?_, ?_, ?_, ?_, ?_⟩, program, ?_⟩
  · rw [sections]
    exact lawful.disjoint
  · rw [sections, schedules]
    exact lawful.union
  · rw [sections]
    exact lawful.classes
  · rw [sections]
    exact lawful.requested
  · rw [sections]
    exact lawful.eligible
  · rw [schedules]
    exact lawful.lunch
  · rw [priorities]
    exact lawful.priorities

/-! ## Giving a section keeps the assignment lawful -/

section Taken

variable {students : List c.Student}

theorem Taken.sections_iff (taken : Taken state after si priority rank students)
    {sec : c.Section} : after.studentSections student sec = true ↔
      state.studentSections student sec = true ∨ student ∈ students ∧ sec = si := by
  rw [taken.sections, Bool.or_eq_true, Bool.and_eq_true, List.contains_iff_mem, beq_iff_eq]

theorem Taken.schedules_iff (taken : Taken state after si priority rank students)
    {ts : c.Timeslot} : after.studentSchedules student ts = true ↔
      state.studentSchedules student ts = true ∨
        student ∈ students ∧ c.sectionSchedules si ts = true := by
  rw [taken.schedules, Bool.or_eq_true, Bool.and_eq_true, List.contains_iff_mem]

theorem Taken.enrollment_le (taken : Taken state after si priority rank students)
    (sec : c.Section) : enrollment after sec ≤
      enrollment state sec + if sec = si then students.length else 0 := by
  rw [enrollment, enrollment, countNonzero_eq_card, countNonzero_eq_card]
  by_cases same : sec = si
  · rw [if_pos same]
    apply (Finset.card_le_card (_ : _ ⊆
      (Finset.univ.filter fun student => state.studentSections student sec = true) ∪
        students.toFinset)).trans
    · apply (Finset.card_union_le _ _).trans
      exact Nat.add_le_add_left (List.toFinset_card_le _) _
    · intro student member
      rw [Finset.mem_filter, taken.sections_iff] at member
      rw [Finset.mem_union, Finset.mem_filter, List.mem_toFinset]
      rcases member.2 with before | given
      · exact .inl ⟨Finset.mem_univ _, before⟩
      · exact .inr given.1
  · rw [if_neg same, Nat.add_zero]
    apply Finset.card_le_card
    intro student member
    rw [Finset.mem_filter, taken.sections_iff] at member
    rw [Finset.mem_filter]
    rcases member.2 with before | given
    · exact ⟨Finset.mem_univ _, before⟩
    · exact absurd given.2 same

theorem Taken.attendance_le (taken : Taken state after si priority rank students) :
    attendance after ≤ attendance state + students.length := by
  rw [attendance, attendance, countNonzero_eq_card, countNonzero_eq_card]
  apply (Finset.card_le_card (_ : _ ⊆
    (Finset.univ.filter fun student => anyOf (state.studentSchedules student) = true) ∪
      students.toFinset)).trans
  · apply (Finset.card_union_le _ _).trans
    exact Nat.add_le_add_left (List.toFinset_card_le _) _
  · intro student member
    rw [Finset.mem_filter, anyOf_eq_true] at member
    rcases member.2 with ⟨ts, busy⟩
    rw [Finset.mem_union, Finset.mem_filter, List.mem_toFinset, anyOf_eq_true]
    rcases taken.schedules_iff.mp busy with before | given
    · exact .inl ⟨Finset.mem_univ _, ts, before⟩
    · exact .inr given.1

/-- A lunch period that a section takes leaves another one of its day, and nothing else
may be in that day's lunch then. -/
theorem Taken.lunch (taken : Taken state after si priority rank students)
    (lunch : ∀ student, ∀ day ∈ c.lunchTimeslotIndices, day ≠ [] →
      ∃ ts ∈ day, state.studentSchedules student ts = false)
    (student : c.Student) {day : List c.Timeslot} (listed : day ∈ c.lunchTimeslotIndices)
    (nonempty : day ≠ []) : ∃ ts ∈ day, after.studentSchedules student ts = false := by
  by_cases touched : student ∈ students ∧ ∃ ts ∈ day, c.sectionSchedules si ts = true
  · rcases touched with ⟨member, ts, inDay, meets⟩
    have outside : ∃ other ∈ day, c.sectionSchedules si other = false := by
      by_contra covered
      push Not at covered
      have full : (day.filter fun ts => c.lunchSchedule ts && c.sectionSchedules si ts) = day := by
        rw [List.filter_eq_self]
        intro other member
        have during : c.lunchSchedule other = true := by
          simp only [lunchSchedule, List.any_eq_true, List.contains_iff_mem]
          exact ⟨day, listed, member⟩
        rw [during, Bool.true_and]
        simpa using covered other member
      have covers : c.coversLunch si = true := by
        rw [coversLunch, List.any_eq_true]
        refine ⟨day, listed, ?_⟩
        rw [full]
        simpa using nonempty
      rw [taken.uncovered] at covers
      cases covers
    rcases outside with ⟨other, inDay', free⟩
    refine ⟨other, inDay', ?_⟩
    have apart : other ≠ ts := by
      intro same
      rw [same, meets] at free
      cases free
    have before := (taken.candidates student member).lunch ts meets day listed inDay other
      inDay' apart
    rw [taken.schedules, before, free, Bool.and_false, Bool.or_false]
  · rcases lunch student day listed nonempty with ⟨ts, inDay, free⟩
    refine ⟨ts, inDay, ?_⟩
    rw [Bool.eq_false_iff]
    intro busy
    rcases taken.schedules_iff.mp busy with before | given
    · rw [free] at before
      cases before
    · exact touched ⟨given.1, ts, inDay, given.2⟩

theorem Candidate.requested (candidate : Candidate state si priority rank student)
    (priorities : c.Registered state.priority) (level : priority ≤ c.effectivePriorityLimit) :
    c.Requested student si := by
  have signup := candidate.signup
  split at signup
  · exact .inl signup
  · rename_i prioritized
    rcases priorities priority student si signup with registered | interested
    · exact .inr ⟨priority, by omega, level, registered⟩
    · exact .inl interested.2

theorem Candidate.eligible (candidate : Candidate state si priority rank student)
    (priorities : c.Registered state.priority) (checked : c.options.checkGrade = true) :
    c.Eligible student si := by
  by_cases excepted : priority = c.effectivePriorityLimit ∧ c.gradeRangeExceptions = true
  · rcases excepted with ⟨last, excepting⟩
    have limit : c.effectivePriorityLimit = c.realPriorityLimit + 1 := by
      rw [effectivePriorityLimit, if_pos excepting]
    have signup := candidate.signup
    rw [if_neg (by omega)] at signup
    rcases priorities priority student si signup with registered | interested
    · exact .inr ⟨excepting, last ▸ registered⟩
    · omega
  · exact .inl (candidate.grade checked excepted)

theorem Lawful.taken (lawful : Lawful state)
    (taken : Taken state after si priority rank students)
    (level : priority ≤ c.effectivePriorityLimit)
    (room : enrollment state si + students.length ≤ c.sectionCapacities si)
    (program : c.programSizeMax ≠ 0 → attendance state + students.length ≤ c.programSizeMax) :
    Lawful after := by
  have capacity : ∀ sec, enrollment after sec ≤ c.sectionCapacities sec := by
    intro sec
    have grown := taken.enrollment_le sec
    have before := lawful.capacity sec
    split at grown
    · rename_i same
      subst same
      omega
    · omega
  have disjoint : ∀ student sec ts, state.studentSections student sec = true →
      student ∈ students → c.sectionSchedules sec ts = true →
      c.sectionSchedules si ts ≠ true := by
    intro student sec ts held member meets meets'
    have busy := (lawful.union student ts).mpr ⟨sec, held, meets⟩
    rw [(taken.candidates student member).free ts meets'] at busy
    cases busy
  have classes : ∀ student sec, state.studentSections student sec = true →
      student ∈ students → c.parentClasses sec ≠ c.parentClasses si := by
    intro student sec held member same
    rw [(taken.candidates student member).classes sec same] at held
    cases held
  refine ⟨⟨capacity, ?_, ?_, ?_, ?_, ?_, ?_⟩, ?_, ?_⟩
  · intro student left right ts inLeft inRight meetsLeft meetsRight
    rcases taken.sections_iff.mp inLeft with beforeLeft | ⟨member, rfl⟩
    · rcases taken.sections_iff.mp inRight with beforeRight | ⟨member, rfl⟩
      · exact lawful.disjoint student left right ts beforeLeft beforeRight meetsLeft meetsRight
      · exact absurd meetsRight (disjoint student left ts beforeLeft member meetsLeft)
    · rcases taken.sections_iff.mp inRight with beforeRight | ⟨-, rfl⟩
      · exact absurd meetsLeft (disjoint student right ts beforeRight member meetsRight)
      · rfl
  · intro student ts
    rw [taken.schedules_iff, lawful.union]
    constructor
    · intro busy
      rcases busy with ⟨sec, held, meets⟩ | ⟨member, meets⟩
      · exact ⟨sec, taken.sections_iff.mpr (.inl held), meets⟩
      · exact ⟨si, taken.sections_iff.mpr (.inr ⟨member, rfl⟩), meets⟩
    · intro found
      rcases found with ⟨sec, held, meets⟩
      rcases taken.sections_iff.mp held with before | ⟨member, rfl⟩
      · exact .inl ⟨sec, before, meets⟩
      · exact .inr ⟨member, meets⟩
  · intro student left right inLeft inRight same
    rcases taken.sections_iff.mp inLeft with beforeLeft | ⟨member, rfl⟩
    · rcases taken.sections_iff.mp inRight with beforeRight | ⟨member, rfl⟩
      · exact lawful.classes student left right beforeLeft beforeRight same
      · exact absurd same (classes student left beforeLeft member)
    · rcases taken.sections_iff.mp inRight with beforeRight | ⟨-, rfl⟩
      · exact absurd same.symm (classes student right beforeRight member)
      · rfl
  · intro student sec held
    rcases taken.sections_iff.mp held with before | ⟨member, rfl⟩
    · exact lawful.requested student sec before
    · exact (taken.candidates student member).requested lawful.priorities level
  · intro checked student sec held
    rcases taken.sections_iff.mp held with before | ⟨member, rfl⟩
    · exact lawful.eligible checked student sec before
    · exact (taken.candidates student member).eligible lawful.priorities checked
  · intro student day listed nonempty
    exact taken.lunch lawful.lunch student listed nonempty
  · intro capped
    exact taken.attendance_le.trans (program capped)
  · rw [taken.priority]
    exact lawful.priorities

end Taken

/-! ## The main lottery -/

theorem Lawful.fillSection (lawful : Lawful state) (level : priority ≤ c.effectivePriorityLimit) :
    Ends {.valueError} (fun result : Bool × c.State => Lawful result.2)
      (fillSection si priority rank state) := by
  rcases fillSection_cases si priority rank (lawful.capacity si) lawful.program with
    refused | ⟨filled, after, returns, outcome⟩
  · rw [refused]
    exact ends_error rfl
  · rw [returns]
    apply ends_ok
    rcases outcome with same | ⟨students, taken, room, program⟩
    · exact same ▸ lawful
    · exact lawful.taken taken level room program

theorem Lawful.fillSections (lawful : Lawful state) (level : priority ≤ c.effectivePriorityLimit)
    (rank : ℤ) (sections : List c.Section) :
    Ends {.valueError} Lawful (c.fillSections priority rank sections state) := by
  apply ends_forLoop Lawful _ lawful
  intro si _ state lawful
  exact (lawful.fillSection level).map fun result kept => kept

theorem Lawful.fillPriorityLevel (lawful : Lawful state)
    (level : priority ≤ c.effectivePriorityLimit) (rank : ℤ) :
    Ends {.valueError} Lawful (c.fillPriorityLevel rank priority state) := by
  apply ends_forLoop Lawful _ lawful
  intro length _ state lawful
  rw [fillShuffled]
  refine Lawful.fillSections ?_ level rank _
  exact lawful.congr rfl rfl rfl

theorem Lawful.fillRank (lawful : Lawful state) (rank : ℤ) :
    Ends {.valueError} Lawful (c.fillRank rank state) := by
  have levels : Ends {.valueError} Lawful (forLoop (c.fillPriorityLevel rank)
      ((List.range c.effectivePriorityLimit).map (· + 1)) state) := by
    apply ends_forLoop Lawful _ lawful
    intro priority member state lawful
    rw [List.mem_map] at member
    rcases member with ⟨i, inRange, rfl⟩
    rw [List.mem_range] at inRange
    exact lawful.fillPriorityLevel (by omega) rank
  apply levels.bind
  intro filled lawful
  rw [fillInterested]
  refine Lawful.fillSections ?_ (Nat.zero_le _) rank _
  exact lawful.congr rfl rfl rfl

theorem registered_priorities (source : Source) :
    Ends ∅ (fun filled : c.Priorities => c.Registered filled.1) (c.priorities source) := by
  have initially : c.Registered c.registered := fun i student sec registered => .inl registered
  rw [priorities]
  split
  · apply ends_forLoop (fun filled : c.Priorities => c.Registered filled.1) _ initially
    intro i member filled kept
    have level : i ≤ c.realPriorityLimit := by
      rw [List.mem_map] at member
      rcases member with ⟨j, inRange, rfl⟩
      rw [List.mem_range] at inRange
      omega
    apply ends_forLoop (fun filled : c.Priorities => c.Registered filled.1) _ kept
    intro place _ filled kept
    rw [fillPriority]
    split
    · exact ends_ok kept
    · rename_i choice drawn
      apply ends_ok
      intro j student sec prioritized
      rw [Bool.or_eq_true, Bool.and_eq_true, Bool.and_eq_true, beq_iff_eq, beq_iff_eq,
        beq_iff_eq] at prioritized
      rcases prioritized with ⟨⟨rfl, rfl⟩, rfl⟩ | before
      · have listed := mem_nonzero.mp (List.mem_of_getElem? drawn)
        rw [Bool.and_eq_true, Bool.and_eq_true] at listed
        exact .inr ⟨level, listed.1.1⟩
      · exact kept j student sec before
  · exact ends_ok initially

theorem lawful_clearAssignments {priorities : c.Priorities}
    (registered : c.Registered priorities.1) : Lawful (c.clearAssignments priorities) := by
  have nobody : ∀ sec, enrollment (c.clearAssignments priorities) sec = 0 := by
    intro sec
    simp [enrollment, countNonzero, nonzero, clearAssignments]
  refine ⟨⟨?_, ?_, ?_, ?_, ?_, ?_, ?_⟩, ?_, registered⟩
  · intro sec
    rw [nobody]
    exact Nat.zero_le _
  · intro student left right ts inLeft
    cases inLeft
  · intro student ts
    simp [clearAssignments]
  · intro student left right inLeft
    cases inLeft
  · intro student sec held
    cases held
  · intro _ student sec held
    cases held
  · intro student day _ nonempty
    rcases List.exists_mem_of_ne_nil day nonempty with ⟨ts, member⟩
    exact ⟨ts, member, rfl⟩
  · intro _
    rw [attendance, countNonzero_eq_card]
    simp [clearAssignments]

theorem lawful_mainLottery (source : Source) :
    Ends {.valueError} Lawful (c.mainLottery source) := by
  have prioritized := registered_priorities (c := c) source
  have priorities : Ends {.valueError} (fun filled : c.Priorities => c.Registered filled.1)
      (c.priorities source) :=
    ⟨prioritized.1, fun raised raises => absurd (prioritized.2 raised raises) id⟩
  apply priorities.bind
  intro filled registered
  apply ends_forLoop Lawful _ (lawful_clearAssignments registered)
  intro rank _ state lawful
  exact lawful.fillRank rank

/-! ## Checks -/

theorem countNonzero_sections (student : c.Student) (ts : c.Timeslot)
    (disjoint : ∀ left right, state.studentSections student left = true →
      state.studentSections student right = true → c.sectionSchedules left ts = true →
      c.sectionSchedules right ts = true → left = right)
    (union : state.studentSchedules student ts = true ↔
      ∃ sec, state.studentSections student sec = true ∧ c.sectionSchedules sec ts = true) :
    (if state.studentSchedules student ts then 1 else 0) =
      countNonzero fun sec => state.studentSections student sec && c.sectionSchedules sec ts := by
  rw [countNonzero_eq_card]
  split
  · rename_i busy
    rcases union.mp busy with ⟨sec, held, meets⟩
    symm
    rw [Finset.card_eq_one]
    refine ⟨sec, ?_⟩
    ext other
    rw [Finset.mem_filter, Finset.mem_singleton, Bool.and_eq_true]
    constructor
    · intro found
      exact disjoint other sec found.2.1 held found.2.2 meets
    · intro same
      rw [same]
      exact ⟨Finset.mem_univ _, held, meets⟩
  · rename_i free
    symm
    rw [Finset.card_eq_zero, Finset.filter_eq_empty_iff]
    intro sec _ both
    rw [Bool.and_eq_true] at both
    exact free (union.mpr ⟨sec, both⟩)

theorem checkAssignments_eq_ok : checkAssignments state = .ok () ↔
    (∀ sec, enrollment state sec ≤ c.sectionCapacities sec) ∧
    (∀ day ∈ c.lunchTimeslotIndices, day ≠ [] → ∀ student, lunchTaken state day student = false) ∧
    ∀ student ts, (if state.studentSchedules student ts then 1 else 0) =
      countNonzero fun sec => state.studentSections student sec && c.sectionSchedules sec ts := by
  rw [LotteryAssignmentController.checkAssignments, andThen_eq_ok, andThen_eq_ok, assert_eq_ok,
    forEach_eq_ok, forEach_eq_ok]
  apply and_congr
  · rw [anyOf_eq_false]
    simp
  · apply and_congr
    · apply forall₂_congr
      intro day listed
      by_cases nonempty : day = []
      · simp [nonempty]
      · rw [if_neg (by simpa using nonempty), assert_eq_ok, anyOf_eq_false]
        simp [nonempty]
    · simp only [assert_eq_ok, anyOf_eq_false, List.mem_finRange, true_implies,
        decide_eq_false_iff_not, ne_eq, not_not]

theorem lunchTaken_eq_false {day : List c.Timeslot} (spared : ∃ ts ∈ day,
    state.studentSchedules student ts = false ∨
      ∃ sec, c.isLunch sec = true ∧ c.sectionSchedules sec ts = true ∧
        state.studentSections student sec = true) :
    lunchTaken state day student = false := by
  rcases spared with ⟨ts, member, spared⟩
  rw [lunchTaken, decide_eq_false_iff_not, not_lt]
  apply Nat.le_sub_one_of_lt
  apply List.length_filter_lt_length_iff_exists.mpr
  refine ⟨ts, member, ?_⟩
  rw [Bool.and_eq_true, Bool.not_eq_true', not_and, Bool.not_eq_false, List.any_eq_true]
  intro busy
  rcases spared with free | ⟨sec, isLunch, meets, held⟩
  · rw [free] at busy
    cases busy
  · exact ⟨sec, by simp [lunchSectionsByTimeslot, isLunch, meets], held⟩

theorem Sound.checkAssignments (sound : Sound state) : checkAssignments state = .ok () := by
  rw [checkAssignments_eq_ok]
  refine ⟨sound.capacity, ?_, ?_⟩
  · intro day listed nonempty student
    rcases sound.lunch student day listed nonempty with ⟨ts, member, free⟩
    exact lunchTaken_eq_false ⟨ts, member, .inl free⟩
  · intro student ts
    exact countNonzero_sections student ts
      (fun left right => sound.disjoint student left right ts) (sound.union student ts)

/-- Without lunches, the lottery ends in a sound assignment and no assertion fires. -/
theorem computeAssignments_sound (c : LotteryAssignmentController Weight) (checkResult : Bool)
    (source : Source) (lunchless : c.options.assignLunches = false) :
    (∀ message, c.computeAssignments checkResult source ≠ .error (.assertion message)) ∧
      ∀ final, c.computeAssignments checkResult source = .ok final → Sound final := by
  have ends : Ends {.valueError} Sound (c.computeAssignments checkResult source) := by
    rw [computeAssignments]
    apply (lawful_mainLottery source).bind
    intro assigned lawful
    simp only [lunchless, Bool.false_eq_true, if_false, pure_eq_ok, ok_bind]
    cases checkResult with
    | false => exact ends_ok lawful.toSound
    | true =>
        simp only [if_true, lawful.toSound.checkAssignments, ok_bind]
        exact ends_ok lawful.toSound
  refine ⟨?_, ends.1⟩
  intro message raises
  cases ends.2 _ raises

/-! ## A lottery without grade checks -/

def evenDraws : WeightedDraws ℚ where
  one := 1
  divide := fun weight factor => weight / factor
  positive := fun weight => decide (0 < weight)
  choice := fun pool _ size source =>
    if size ≤ pool.length then .ok (choice pool size source) else .error .valueError
  choice_draws := by
    intro n pool weights size source chosen rest returns
    split at returns
    · rename_i enough
      cases returns
      exact ⟨choice_subperm pool size source, choice_length enough source⟩
    · cases returns
  choice_raises := by
    intro n pool weights size source raised raises
    split at raises
    · cases raises
    · cases raises
      rfl

/-- A fifth grader is interested in a section for the grades 7 to 12, and grades are not
checked. -/
def uncheckedGrades : LotteryAssignmentController ℚ where
  numStudents := 1
  numSections := 1
  numTimeslots := 1
  programSizeMax := 0
  realPriorityLimit := 1
  gradeRangeExceptions := false
  options :=
    { Kp := 6 / 5, Ki := 11 / 10, checkGrade := false, useStudentApps := false
      fillLowPriorities := false, maxTimeslots := 0, maxSections := 0, assignLunches := false }
  draws := evenDraws
  interest := fun _ _ => true
  registered := fun _ _ _ => false
  ranks := fun _ _ => 10
  sectionIds := fun _ => 1
  sectionSchedules := fun _ _ => true
  sectionStartSchedules := fun _ _ => true
  sectionCapacities := fun _ => 1
  parentClasses := fun _ => 1
  isLunch := fun _ => false
  sectionGradeMin := fun _ => 7
  sectionGradeMax := fun _ => 12
  studentGrades := fun _ => 5
  lunchTimeslotIndices := []

theorem computeAssignments_sound_uncheckedGrades :
    (∀ message, uncheckedGrades.computeAssignments true (fun _ => 0) ≠
      .error (.assertion message)) ∧
      ∀ final, uncheckedGrades.computeAssignments true (fun _ => 0) = .ok final → Sound final :=
  computeAssignments_sound uncheckedGrades true (fun _ => 0) rfl

/-- The fifth grader is given the section. -/
theorem uncheckedGrades_assigned :
    ∃ final, uncheckedGrades.computeAssignments true (fun _ => 0) = .ok final ∧
      final.studentSections (0 : Fin 1) (0 : Fin 1) = true ∧
      ¬ uncheckedGrades.Eligible (0 : Fin 1) (0 : Fin 1) := by
  have assigned : ((uncheckedGrades.computeAssignments true fun _ => 0).map
      fun final => final.studentSections (0 : Fin 1) (0 : Fin 1)) = .ok true := by
    decide
  rcases map_eq_ok.mp assigned with ⟨final, ends, given⟩
  refine ⟨final, ends, given, ?_⟩
  intro eligible
  rcases eligible with within | excepted
  · revert within
    decide
  · cases excepted.1

end EspWebsite.Lottery.LotteryAssignmentController
