import EspWebsite.Lottery.Runs
import EspWebsite.Lottery.Lunches

/-!
# The limits on a student's timeslots and sections

The filter of `fill_section` lets a student take a section as long as he has fewer
timeslots and sections than the limits, however many timeslots the section has, and
lunches are given out without looking at the limits.
-/

namespace EspWebsite.Lottery.LotteryAssignmentController

open Python Loops Draws

variable {Weight : Type} {c : LotteryAssignmentController Weight} {state after : c.State}
  {lunch : c.LunchState} {si sec : c.Section} {priority : ℕ} {rank : ℤ} {student : c.Student}
  {filled : Bool} {periods : List c.Timeslot}

/-- The timeslots that a student's sections occupy. -/
def occupied (state : c.State) (student : c.Student) (ts : c.Timeslot) : Bool :=
  anyOf fun sec => state.studentSections student sec && c.sectionSchedules sec ts

/-- No student's sections occupy more timeslots, and no student has more sections, than the
limits, where there are limits. -/
structure WithinLimits (state : c.State) : Prop where
  timeslots : 0 < c.options.maxTimeslots →
    ∀ student, (countNonzero (occupied state student) : ℚ) ≤ c.options.maxTimeslots
  sections : 0 < c.options.maxSections →
    ∀ student, (countNonzero (state.studentSections student) : ℚ) ≤ c.options.maxSections

/-! ## Who is given a section -/

/-- The students to whom `fill_section` gives a section. -/
def selectedStudents (state : c.State) (si : c.Section) (priority : ℕ) (rank : ℤ) :
    List c.Student :=
  match numSpaces state si with
  | none => []
  | some spaces =>
      if spaces = 0 ∨ (nonzero (c.sectionSchedules si)).isEmpty ∨ c.coversLunch si then []
      else
        match select state spaces.toNat (nonzero (possible state si priority rank)) with
        | .ok (selected, _) => selected
        | .error _ => []

theorem taken_selectedStudents
    (returns : fillSection si priority rank state = .ok (filled, after)) :
    after = state ∧ selectedStudents state si priority rank = [] ∨
      Taken state after si priority rank (selectedStudents state si priority rank) := by
  rw [fillSection] at returns
  rw [selectedStudents]
  cases counted : numSpaces state si with
  | none =>
      rw [counted] at returns
      cases returns
      exact .inl ⟨rfl, rfl⟩
  | some spaces =>
      rw [counted] at returns
      dsimp only at returns ⊢
      by_cases full : spaces = 0
      · rw [if_pos full] at returns
        cases returns
        exact .inl ⟨rfl, if_pos (.inl full)⟩
      · rw [if_neg full] at returns
        rcases andThen_eq_ok.mp returns with ⟨-, fills⟩
        by_cases skipped : (nonzero (c.sectionSchedules si)).isEmpty ∨ c.coversLunch si
        · rw [fillSpaces, if_pos (by simpa using skipped)] at fills
          cases fills
          exact .inl ⟨rfl, if_pos (.inr skipped)⟩
        · right
          have kept := skipped
          rw [not_or, Bool.not_eq_true, Bool.not_eq_true,
            List.isEmpty_eq_false_iff_exists_mem] at kept
          rcases kept with ⟨⟨ts, member⟩, uncovered⟩
          rw [if_neg (not_or.mpr ⟨full, skipped⟩)]
          cases selecting :
              select state spaces.toNat (nonzero (possible state si priority rank)) with
          | error raised =>
              rw [fillSpaces, if_neg (by simpa using skipped), selecting] at fills
              cases fills
          | ok selection =>
              rcases fillSpaces_of_select ⟨ts, mem_nonzero.mp member⟩ uncovered selecting with
                ⟨other, spec, taken, -⟩
              rw [spec] at fills
              cases fills
              exact taken

/-! ## Staying within the limits -/

/-- Whether a student who is given a section stays within the limits. -/
structure Fits (state : c.State) (student : c.Student) (sec : c.Section) : Prop where
  timeslots : 0 < c.options.maxTimeslots →
    (countNonzero (fun ts => occupied state student ts || c.sectionSchedules sec ts) : ℚ) ≤
      c.options.maxTimeslots
  sections : 0 < c.options.maxSections →
    (countNonzero (state.studentSections student) + 1 : ℚ) ≤ c.options.maxSections

structure Given (state after : c.State) (students : List c.Student) (sec : c.Section) :
    Prop where
  sections : ∀ student other, after.studentSections student other = true ↔
    state.studentSections student other = true ∨ student ∈ students ∧ other = sec
  fresh : ∀ student ∈ students, state.studentSections student sec = false

section Given

variable {students : List c.Student}

theorem Given.occupied_of_mem (given : Given state after students sec)
    (member : student ∈ students) :
    occupied after student = fun ts => occupied state student ts || c.sectionSchedules sec ts := by
  funext ts
  rw [Bool.eq_iff_iff, Bool.or_eq_true, occupied, occupied, anyOf_eq_true, anyOf_eq_true]
  simp only [Bool.and_eq_true, given.sections]
  constructor
  · intro found
    rcases found with ⟨other, before | ⟨-, rfl⟩, meets⟩
    · exact .inl ⟨other, before, meets⟩
    · exact .inr meets
  · intro busy
    rcases busy with ⟨other, before, meets⟩ | meets
    · exact ⟨other, .inl before, meets⟩
    · exact ⟨sec, .inr ⟨member, rfl⟩, meets⟩

theorem Given.sections_of_mem (given : Given state after students sec)
    (member : student ∈ students) :
    countNonzero (after.studentSections student) =
      countNonzero (state.studentSections student) + 1 := by
  have grown : after.studentSections student =
      fun other => state.studentSections student other || other == sec := by
    funext other
    rw [Bool.eq_iff_iff, given.sections, Bool.or_eq_true, beq_iff_eq]
    simp [member]
  rw [grown, countNonzero_or, countNonzero_beq]
  intro other before
  rw [beq_eq_false_iff_ne]
  rintro rfl
  rw [given.fresh student member] at before
  cases before

theorem Given.sections_of_not_mem (given : Given state after students sec)
    (absent : student ∉ students) :
    after.studentSections student = state.studentSections student := by
  funext other
  rw [Bool.eq_iff_iff, given.sections]
  simp [absent]

theorem Given.occupied_of_not_mem (given : Given state after students sec)
    (absent : student ∉ students) : occupied after student = occupied state student := by
  funext ts
  rw [occupied, occupied, given.sections_of_not_mem absent]

theorem Given.withinLimits_iff (given : Given state after students sec) :
    WithinLimits after ↔
      WithinLimits state ∧ ∀ student ∈ students, Fits state student sec := by
  constructor
  · intro within
    refine ⟨⟨?_, ?_⟩, ?_⟩
    · intro limited student
      have bound := within.timeslots limited student
      by_cases member : student ∈ students
      · rw [given.occupied_of_mem member] at bound
        refine le_trans ?_ bound
        rw [Nat.cast_le, countNonzero_eq_card, countNonzero_eq_card]
        apply Finset.card_le_card
        intro ts busy
        rw [Finset.mem_filter] at busy ⊢
        exact ⟨busy.1, by rw [busy.2]; rfl⟩
      · rwa [given.occupied_of_not_mem member] at bound
    · intro limited student
      have bound := within.sections limited student
      by_cases member : student ∈ students
      · rw [given.sections_of_mem member, Nat.cast_add, Nat.cast_one] at bound
        linarith
      · rwa [given.sections_of_not_mem member] at bound
    · intro student member
      constructor
      · intro limited
        have bound := within.timeslots limited student
        rwa [given.occupied_of_mem member] at bound
      · intro limited
        have bound := within.sections limited student
        rwa [given.sections_of_mem member, Nat.cast_add, Nat.cast_one] at bound
  · intro kept
    rcases kept with ⟨within, fits⟩
    constructor
    · intro limited student
      by_cases member : student ∈ students
      · rw [given.occupied_of_mem member]
        exact (fits student member).timeslots limited
      · rw [given.occupied_of_not_mem member]
        exact within.timeslots limited student
    · intro limited student
      by_cases member : student ∈ students
      · rw [given.sections_of_mem member, Nat.cast_add, Nat.cast_one]
        exact (fits student member).sections limited
      · rw [given.sections_of_not_mem member]
        exact within.sections limited student

end Given

/-! ## Fills -/

variable (c) in
/-- The students to whom a section is given have room for all its timeslots, and for one
more section, within the limits. -/
def FillFits (si : c.Section) (priority : ℕ) (rank : ℤ) (state : c.State) : Prop :=
  ∀ student ∈ selectedStudents state si priority rank,
    (0 < c.options.maxTimeslots →
      (countNonzero (state.studentSchedules student) + countNonzero (c.sectionSchedules si) : ℚ) ≤
        c.options.maxTimeslots) ∧
    (0 < c.options.maxSections →
      (countNonzero (state.studentSections student) + 1 : ℚ) ≤ c.options.maxSections)

theorem occupied_eq (union : ∀ student ts, state.studentSchedules student ts = true ↔
    ∃ sec, state.studentSections student sec = true ∧ c.sectionSchedules sec ts = true)
    (student : c.Student) : occupied state student = state.studentSchedules student := by
  funext ts
  rw [Bool.eq_iff_iff, union, occupied, anyOf_eq_true]
  simp

theorem Lawful.fits_iff (lawful : Lawful state)
    (candidate : Candidate state si priority rank student) : Fits state student si ↔
      (0 < c.options.maxTimeslots →
        (countNonzero (state.studentSchedules student) +
          countNonzero (c.sectionSchedules si) : ℚ) ≤ c.options.maxTimeslots) ∧
      (0 < c.options.maxSections →
        (countNonzero (state.studentSections student) + 1 : ℚ) ≤ c.options.maxSections) := by
  have total : (countNonzero fun ts =>
      occupied state student ts || c.sectionSchedules si ts) =
        countNonzero (state.studentSchedules student) + countNonzero (c.sectionSchedules si) := by
    rw [occupied_eq lawful.union]
    apply countNonzero_or
    intro ts busy
    rw [Bool.eq_false_iff]
    intro meets
    rw [candidate.free ts meets] at busy
    cases busy
  constructor
  · intro fits
    refine ⟨?_, fits.sections⟩
    intro limited
    have bound := fits.timeslots limited
    rwa [total, Nat.cast_add] at bound
  · intro room
    refine ⟨?_, room.2⟩
    intro limited
    rw [total, Nat.cast_add]
    exact room.1 limited

theorem fillRule_withinLimits :
    FillRule Lawful WithinLimits c.FillFits := by
  constructor
  · intro si priority rank state filled after level lawful step
    refine ⟨(lawful.fillSection level).1 _ step, ?_⟩
    rcases taken_selectedStudents step with ⟨rfl, none⟩ | taken
    · simp [FillFits, none]
    · have given : Given state after (selectedStudents state si priority rank) si :=
        ⟨fun _ _ => taken.sections_iff,
          fun student member => (taken.candidates student member).classes si rfl⟩
      rw [given.withinLimits_iff, FillFits]
      apply and_congr_right'
      apply forall₂_congr
      intro student member
      exact lawful.fits_iff (taken.candidates student member)
  · intro state source lawful
    refine ⟨lawful.congr rfl rfl rfl, ?_⟩
    exact ⟨fun within => ⟨within.timeslots, within.sections⟩,
      fun within => ⟨within.timeslots, within.sections⟩⟩

theorem withinLimits_clearAssignments (priorities : c.Priorities) :
    WithinLimits (c.clearAssignments priorities) := by
  constructor
  · intro limited student
    have none : occupied (c.clearAssignments priorities) student = fun _ => false := by
      funext ts
      simp [occupied, clearAssignments]
    simp [none, countNonzero, nonzero, limited.le]
  · intro limited student
    simp [clearAssignments, countNonzero, nonzero, limited.le]

theorem withinLimits_mainLottery {source : Source} (assigned : c.mainLottery source = .ok state) :
    Lawful state ∧ (WithinLimits state ↔ BeforeFills c.FillFits source) :=
  fillRule_withinLimits.mainLottery (fun priorities registered =>
    ⟨lawful_clearAssignments registered, withinLimits_clearAssignments priorities⟩) assigned

theorem fillFits_of_single {timeslots sections : ℕ}
    (maxTimeslots : c.options.maxTimeslots = timeslots)
    (maxSections : c.options.maxSections = sections)
    (single : countNonzero (c.sectionSchedules si) ≤ 1) : c.FillFits si priority rank state := by
  intro student member
  have candidate : Candidate state si priority rank student := by
    rw [selectedStudents] at member
    split at member
    · cases member
    · split at member
      · cases member
      · split at member
        · rename_i selecting
          exact possible_iff.mp (mem_nonzero.mp
            ((select_eq_ok (nonzero_nodup _) selecting).2.1 student member))
        · cases member
  constructor
  · intro limited
    rcases candidate.timeslots with unlimited | fewer
    · exact absurd unlimited limited.ne'
    · rw [maxTimeslots] at fewer ⊢
      norm_cast at fewer ⊢
      omega
  · intro limited
    rcases candidate.sections with unlimited | fewer
    · exact absurd unlimited limited.ne'
    · rw [maxSections] at fewer ⊢
      norm_cast at fewer ⊢

/-! ## Lunches -/

/-- The lunch section that a student is about to be given, if any, leaves him within the
limits. -/
def LunchFits (periods : List c.Timeslot) (student : c.Student) (lunch : c.LunchState) : Prop :=
  match chooseLunch lunch periods student with
  | none => True
  | some (sec, _) =>
      (0 < c.options.maxTimeslots →
        (countNonzero (fun ts =>
          lunch.1.studentSchedules student ts || c.sectionSchedules sec ts) : ℚ) ≤
            c.options.maxTimeslots) ∧
      (0 < c.options.maxSections →
        (countNonzero (lunch.1.studentSections student) + 1 : ℚ) ≤ c.options.maxSections)

theorem withinLimits_assignLunch {after : c.LunchState} (counted : Counted lunch)
    (returns : assignLunch periods student lunch = .ok after) :
    WithinLimits after.1 ↔ WithinLimits lunch.1 ∧ LunchFits periods student lunch := by
  rw [assignLunch] at returns
  rw [LunchFits]
  cases choice : chooseLunch lunch periods student with
  | none =>
      rw [choice] at returns
      cases returns
      simp
  | some chosen =>
      rcases chosen with ⟨sec, source⟩
      rw [choice] at returns
      cases returns
      have given : Given lunch.1 ({ lunch.1.giveLunch student sec with source := source } : c.State)
          [student] sec := by
        constructor
        · intro other held
          rw [List.mem_singleton, or_comm]
          exact giveLunch_sections
        · intro other member
          rw [List.mem_singleton.mp member]
          exact (chosen_of_chooseLunch choice).fresh
      rw [given.withinLimits_iff]
      simp only [List.mem_singleton, forall_eq]
      apply and_congr_right'
      rw [← occupied_eq counted.union]
      exact ⟨fun fits => ⟨fits.timeslots, fits.sections⟩, fun fits => ⟨fits.1, fits.2⟩⟩

/-- No student is over the limits in the end exactly if each section and each lunch fitted
the students it was given to, by the timeslots and sections they had until then. -/
theorem withinLimits_computeAssignments (c : LotteryAssignmentController Weight)
    (checkResult : Bool) (source : Source) (final : c.State)
    (computed : c.computeAssignments checkResult source = .ok final) :
    WithinLimits final ↔ BeforeFills c.FillFits source ∧
      (c.options.assignLunches = true →
        ∀ state, c.mainLottery source = .ok state → BeforeLunches LunchFits state) := by
  rcases mainLottery_of_computeAssignments computed with ⟨state, assigned, lunches⟩
  rcases withinLimits_mainLottery assigned with ⟨lawful, fills⟩
  rw [← fills]
  simp only [assigned, Except.ok.injEq, forall_eq']
  split at lunches
  · rename_i lunching
    rcases map_eq_ok.mp lunches with ⟨lunch, loop, rfl⟩
    have limits := beforeLunches_iff Counted (fun lunch => WithinLimits lunch.1)
      (fun counted step => ⟨(counted_assignLunch counted step).1,
        withinLimits_assignLunch counted step⟩)
      (fun counted => ⟨counted.congr, ⟨fun within => ⟨within.timeslots, within.sections⟩,
        fun within => ⟨within.timeslots, within.sections⟩⟩⟩)
      (counted_of_lawful lawful) loop
    rw [limits.2]
    simp [lunching]
  · rename_i lunchless
    cases lunches
    simp [lunchless]

/-- Where every section meets at one timeslot, the limits are whole numbers and no lunches are given
out, no student is over the limits in the end. -/
theorem withinLimits_of_single {checkResult : Bool} {source : Source} {final : c.State}
    {timeslots sections : ℕ} (maxTimeslots : c.options.maxTimeslots = timeslots)
    (maxSections : c.options.maxSections = sections)
    (single : ∀ si, countNonzero (c.sectionSchedules si) ≤ 1)
    (lunchless : c.options.assignLunches = false)
    (computed : c.computeAssignments checkResult source = .ok final) : WithinLimits final := by
  rcases mainLottery_of_computeAssignments computed with ⟨state, assigned, returned⟩
  rw [lunchless, if_neg Bool.false_ne_true] at returned
  cases returned
  have limits : FillRule (fun state : c.State => Lawful state ∧ WithinLimits state)
      (fun _ => True) fun _ _ _ _ => True := by
    constructor
    · intro si priority rank state filled after level within step
      rcases fillRule_withinLimits.fills level within.1 step with ⟨lawful, exactly⟩
      have fits : c.FillFits si priority rank state :=
        fillFits_of_single maxTimeslots maxSections (single si)
      exact ⟨⟨lawful, exactly.mpr ⟨within.2, fits⟩⟩, by simp⟩
    · intro state source within
      rcases fillRule_withinLimits.redraws within.1 with ⟨lawful, same⟩
      exact ⟨⟨lawful, same.mpr within.2⟩, Iff.rfl⟩
  exact (limits.mainLottery (fun priorities registered => ⟨⟨lawful_clearAssignments registered,
    withinLimits_clearAssignments priorities⟩, trivial⟩) assigned).1.2

/-! ## A class of two timeslots -/

/-- A class over two timeslots, which a student is interested in, and a lunch section at a
third one, with limits of one timeslot and one section. -/
def longClass : LotteryAssignmentController ℚ where
  numStudents := 1
  numSections := 2
  numTimeslots := 3
  programSizeMax := 0
  realPriorityLimit := 1
  gradeRangeExceptions := false
  options :=
    { Kp := 6 / 5, Ki := 11 / 10, checkGrade := true, useStudentApps := false
      fillLowPriorities := false, maxTimeslots := 1, maxSections := 1, assignLunches := true }
  draws := evenDraws
  interest := fun _ sec => sec == 0
  registered := fun _ _ _ => false
  ranks := fun _ _ => 10
  sectionIds := fun sec => sec + 1
  sectionSchedules := fun sec ts => if sec = 1 then ts == 2 else ts != 2
  sectionStartSchedules := fun sec ts => if sec = 1 then ts == 2 else ts == 0
  sectionCapacities := fun _ => 5
  parentClasses := fun sec => sec
  isLunch := fun sec => sec == 1
  sectionGradeMin := fun _ => 7
  sectionGradeMax := fun _ => 12
  studentGrades := fun _ => 9
  lunchTimeslotIndices := [[2]]

theorem longClass_assigned : ∃ final, longClass.computeAssignments true (fun _ => 0) = .ok final ∧
    countNonzero (occupied final (0 : Fin 1)) = 3 ∧
      countNonzero (final.studentSections (0 : Fin 1)) = 2 := by
  have counts : ((longClass.computeAssignments true fun _ => 0).map fun final =>
      (countNonzero (occupied final (0 : Fin 1)),
        countNonzero (final.studentSections (0 : Fin 1)))) = .ok (3, 2) := by
    decide +kernel
  rcases map_eq_ok.mp counts with ⟨final, computed, equal⟩
  exact ⟨final, computed, congrArg Prod.fst equal, congrArg Prod.snd equal⟩

theorem withinLimits_longClass : ∃ final,
    longClass.computeAssignments true (fun _ => 0) = .ok final ∧
      (WithinLimits final ↔ BeforeFills longClass.FillFits (fun _ => 0) ∧
        (longClass.options.assignLunches = true →
          ∀ state, longClass.mainLottery (fun _ => 0) = .ok state →
            BeforeLunches LunchFits state)) := by
  rcases longClass_assigned with ⟨final, computed, -⟩
  exact ⟨final, computed,
    withinLimits_computeAssignments longClass true (fun _ => 0) final computed⟩

def shortClass : LotteryAssignmentController ℚ :=
  { longClass with
    options := { longClass.options with assignLunches := false }
    sectionSchedules := longClass.sectionStartSchedules }

theorem withinLimits_shortClass : ∃ final,
    shortClass.computeAssignments true (fun _ => 0) = .ok final ∧ WithinLimits final := by
  have returns : ((shortClass.computeAssignments true fun _ => 0).map fun _ => ()) = .ok () := by
    decide +kernel
  rcases map_eq_ok.mp returns with ⟨final, computed, -⟩
  exact ⟨final, computed, @withinLimits_of_single _ shortClass _ _ _ 1 1 (by decide) (by decide)
    (by decide) rfl computed⟩

/-- He ends up with three timeslots and two sections. -/
theorem longClass_exceeds : ∃ final,
    longClass.computeAssignments true (fun _ => 0) = .ok final ∧
      ¬ (0 < longClass.options.maxTimeslots → ∀ student,
        (countNonzero (occupied final student) : ℚ) ≤ longClass.options.maxTimeslots) ∧
      ¬ (0 < longClass.options.maxSections → ∀ student,
        (countNonzero (final.studentSections student) : ℚ) ≤ longClass.options.maxSections) := by
  rcases longClass_assigned with ⟨final, computed, timeslots, sections⟩
  refine ⟨final, computed, ?_, ?_⟩
  · intro within
    have bound := within (by decide) (0 : Fin 1)
    rw [timeslots] at bound
    revert bound
    decide
  · intro within
    have bound := within (by decide) (0 : Fin 1)
    rw [sections] at bound
    revert bound
    decide

end EspWebsite.Lottery.LotteryAssignmentController
