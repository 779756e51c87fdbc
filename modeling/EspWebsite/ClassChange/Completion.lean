import EspWebsite.ClassChange.Runs
import EspWebsite.ClassChange.Termination

/-!
# Assignments that end without an exception

The lunch filter reads an array that the controller does not have, for every section that
meets during lunch without covering all lunch timeslots of a day.  A kick queue takes
positions among the timeslots of a section for indices of sections, which may not exist.
Nothing else can raise.
-/

namespace EspWebsite.ClassChange.ClassChangeController

open Python Loops Draws

variable {c : ClassChangeController} {state after : c.State} {sec si : c.Section}
  {student : c.Student} {priority : ℕ} {ts : c.Timeslot}

/-! ## The lunch filter -/

variable (c) in
/-- A section that is not filled because it seems to cover the lunch of a day, or does not
meet during lunch. -/
def LunchSafe (si : c.Section) : Prop :=
  c.coversLunch si = true ∨
    ∀ ts, c.sectionSchedules si ts = true → c.lunchSchedule ts = false

theorem length_le_lunchWidth {day : List c.Timeslot} (listed : day ∈ c.lunchByDay) :
    day.length ≤ c.lunchWidth := by
  have greatest : (0 :: c.lunchByDay.map List.length).max? = some c.lunchWidth :=
    List.max?_cons'
  exact (List.max?_eq_some_iff.mp greatest).2 _
    (List.mem_cons_of_mem _ (List.mem_map_of_mem listed))

theorem lunchSchedule_eq_true : c.lunchSchedule ts = true ↔ ∃ day ∈ c.lunchByDay, ts ∈ day := by
  simp [lunchSchedule]

theorem mem_lunchTimeslots {row : List (Option c.Timeslot)} :
    row ∈ c.lunchTimeslots ↔ ∃ day ∈ c.lunchByDay,
      day.map some ++ List.replicate (c.lunchWidth - day.length) none = row := by
  rw [lunchTimeslots, List.mem_map]

theorem mem_row {day : List c.Timeslot} {count : ℕ} :
    some ts ∈ day.map some ++ List.replicate count none ↔ ts ∈ day := by
  simp

theorem coversLunch_of_all {row : List (Option c.Timeslot)} (listed : row ∈ c.lunchTimeslots)
    (inRow : some ts ∈ row) (only : ∀ entry ∈ row, entry = some ts)
    (meets : c.sectionSchedules si ts = true) : c.coversLunch si = true := by
  rcases mem_lunchTimeslots.mp listed with ⟨day, inDays, rfl⟩
  have during : c.lunchSchedule ts = true :=
    lunchSchedule_eq_true.mpr ⟨day, inDays, mem_row.mp inRow⟩
  rw [coversLunch, List.any_eq_true]
  refine ⟨_, listed, ?_⟩
  have overlaps : ∀ entry ∈ day.map some ++ List.replicate (c.lunchWidth - day.length) none,
      c.lunchOverlap si entry = true := by
    intro entry member
    rw [only entry member]
    simp [lunchOverlap, during, meets]
  rw [List.filter_eq_self.mpr overlaps]
  have nonempty := List.length_pos_of_mem inRow
  have width := length_le_lunchWidth inDays
  rw [Bool.and_eq_true, bne_iff_ne, decide_eq_true_eq]
  refine ⟨nonempty.ne', ?_⟩
  rw [List.length_append, List.length_map, List.length_replicate]
  omega

theorem lunchFilter_eq_ok (uncovered : c.coversLunch si = false)
    (meets : c.sectionSchedules si ts = true) :
    c.lunchFilter ts = .ok () ↔ c.lunchSchedule ts = false := by
  rw [lunchFilter]
  cases found : c.lunchTimeslots.find? fun day => day.contains (some ts) with
  | none =>
      simp only [true_iff]
      rw [Bool.eq_false_iff]
      intro during
      rcases lunchSchedule_eq_true.mp during with ⟨day, inDays, member⟩
      have absent := List.find?_eq_none.mp found _ (mem_lunchTimeslots.mpr ⟨day, inDays, rfl⟩)
      rw [List.contains_iff_mem] at absent
      exact absent (mem_row.mpr member)
  | some row =>
      have listed := List.mem_of_find?_eq_some found
      have inRow : some ts ∈ row := by
        simpa using List.find?_some found
      have during : c.lunchSchedule ts = true := by
        rcases mem_lunchTimeslots.mp listed with ⟨day, inDays, rfl⟩
        exact lunchSchedule_eq_true.mpr ⟨day, inDays, mem_row.mp inRow⟩
      have raises : row.all (· == some ts) = false := by
        rw [Bool.eq_false_iff]
        intro only
        rw [List.all_eq_true] at only
        have covers : c.coversLunch si = true :=
          coversLunch_of_all listed inRow (fun entry member => beq_iff_eq.mp (only entry member))
            meets
        rw [uncovered] at covers
        cases covers
      simp [raises, during]

/-! ## Filling sections -/

theorem unenrolled_of_possible (candidate : possible state si priority student = true) :
    (anyOf fun ts => state.enrollFinal student si ts) = false := by
  simp only [possible, Bool.and_eq_true, List.all_eq_true, mem_nonzero,
    Bool.not_eq_true'] at candidate
  exact candidate.2 si (by simp [sameSubject])

theorem fillSection_returns_iff :
    (∃ result, fillSection si priority state = .ok result) ↔ c.LunchSafe si := by
  by_cases aborted : ((nonzero (c.sectionSchedules si)).isEmpty || c.coversLunch si) = true
  · rw [fillSection, if_pos aborted]
    simp only [pure_eq_ok, Except.ok.injEq, exists_eq', true_iff]
    rw [Bool.or_eq_true, List.isEmpty_iff] at aborted
    rcases aborted with never | covers
    · right
      intro ts meets
      have listed := mem_nonzero.mpr meets
      rw [never] at listed
      cases listed
    · exact .inl covers
  · rw [fillSection, if_neg aborted]
    rw [Bool.not_eq_true, Bool.or_eq_false_iff] at aborted
    constructor
    · intro returns
      rcases returns with ⟨result, returns⟩
      rcases bind_eq_ok.mp returns with ⟨_, filters, -⟩
      right
      intro ts meets
      exact (lunchFilter_eq_ok aborted.2 meets).mp
        (forEach_eq_ok.mp filters ts (mem_nonzero.mpr meets))
    · intro safe
      rcases safe with covers | free
      · rw [aborted.2] at covers
        cases covers
      · have filters : forEach (nonzero (c.sectionSchedules si)) c.lunchFilter = .ok () := by
          rw [forEach_eq_ok]
          intro ts listed
          have meets := mem_nonzero.mp listed
          exact (lunchFilter_eq_ok aborted.2 meets).mpr (free ts meets)
        have unenrolled : ((select state si (nonzero (possible state si priority))).1.all
            fun student => !anyOf fun ts => state.enrollFinal student si ts) = true := by
          rw [List.all_eq_true]
          intro student member
          have candidate := (select_spec state si _).1.subset member
          rw [unenrolled_of_possible (mem_nonzero.mp candidate)]
          rfl
        rw [filters, ok_bind]
        dsimp only
        rw [assert_of_holds unenrolled, ok_bind]
        exact ⟨_, rfl⟩

theorem fillAll_returns_iff {source : Source} :
    (∃ filled, c.fillAll source = .ok filled) ↔ ∀ si, c.LunchSafe si := by
  have fills : ∀ (priority : ℕ) (state : c.State),
      (∃ after, c.fillSections priority state = .ok after) ↔
        ∀ si ∈ state.sortedSectionIndices, c.LunchSafe si := by
    intro priority state
    apply forLoop_returns_iff_forall
    intro si between
    rw [← @fillSection_returns_iff c between si priority]
    simp only [map_eq_ok]
    constructor
    · intro returns
      rcases returns with ⟨after, result, filled, -⟩
      exact ⟨result, filled⟩
    · intro returns
      rcases returns with ⟨result, filled⟩
      exact ⟨_, result, filled, rfl⟩
  constructor
  · intro returns si
    rcases returns with ⟨filled, loop⟩
    cases priorities : (List.range c.priorityLimit).map (· + 1) ++ [0] with
    | nil => simp at priorities
    | cons priority rest =>
        rw [fillAll, priorities] at loop
        rcases forLoop_cons_eq_ok.mp loop with ⟨between, first, -⟩
        apply (fills priority _).mp ⟨between, first⟩ si
        simp [State.sortSections, List.mem_insertionSort]
  · intro safe
    have ends : Ends ∅ (fun _ : c.State => True) (c.fillAll source) := by
      apply ends_forLoop (fun _ => True) _ trivial
      intro priority _ state _
      rcases (fills priority state).mpr fun si _ => safe si with ⟨after, returns⟩
      rw [returns]
      exact ends_ok trivial
    rcases ends.exists_ok with ⟨filled, returns, -⟩
    exact ⟨filled, returns⟩

/-! ## Pushing students back -/

/-- When a push is about to build a kick queue, the positions of the timeslots at which its
students were enrolled are indices of sections. -/
def IndexedQueue (sec : c.Section) (student : c.Student) (state : c.State) : Prop :=
  state.sectionCapacities sec ≤ 0 → state.studentsToKick sec = none →
    ∀ other ∈ (shuffleRows (nonzero (kickable (state.enroll [student] sec true) sec))
      state.source).1, ∀ index ∈ c.oldSections other sec, index < c.numSections

theorem scoreAt_returns_iff {index : ℕ} :
    (∃ score, c.scoreAt index = .ok score) ↔ index < c.numSections := by
  rw [scoreAt]
  split
  · rename_i valid
    simp [valid]
  · rename_i invalid
    simp [invalid]

theorem putStudent_returns_iff {queue : List (Entry c.numStudents) × Source} :
    (∃ built, c.putStudent sec student queue = .ok built) ↔
      ∀ index ∈ c.oldSections student sec, index < c.numSections := by
  rw [putStudent]
  cases c.oldSections student sec with
  | nil => simp
  | cons first rest =>
      apply forLoop_returns_iff_forall
      intro index queue
      rw [← scoreAt_returns_iff]
      cases c.scoreAt index with
      | error raised => simp [Except.map]
      | ok score => simp [Except.map]

theorem pushStudent_returns_iff :
    (∃ after, pushStudent sec student state = .ok after) ↔ IndexedQueue sec student state := by
  rw [pushStudent, IndexedQueue]
  by_cases space : 0 < state.sectionCapacities sec
  · simp [space, not_le.mpr space]
  · have built : (∃ queued, buildQueue sec (state.enroll [student] sec true) = .ok queued) ↔
        ∀ other ∈ (shuffleRows (nonzero (kickable (state.enroll [student] sec true) sec))
          state.source).1, ∀ index ∈ c.oldSections other sec, index < c.numSections :=
      forLoop_returns_iff_forall fun other queue => putStudent_returns_iff
    simp only [enroll_sectionCapacities, space, if_false, not_lt.mp space, true_imp_iff,
      ← built, withQueue, enroll_studentsToKick]
    cases state.studentsToKick sec with
    | some queue => simp [Except.map]
    | none =>
        cases buildQueue sec (state.enroll [student] sec true) with
        | error raised => simp [Except.map]
        | ok queued => simp [Except.map]

theorem pushSection_returns_iff {between : c.State × Bool} :
    (∃ after, pushSection sec between = .ok after) ↔
      BeforeEach (pushStudent sec) (IndexedQueue sec) (nonzero (toPush between.1 sec))
        between.1 := by
  have returns : (fun student state => ∃ after, pushStudent sec student state = .ok after) =
      (IndexedQueue sec : c.Student → c.State → Prop) := by
    funext student state
    exact propext pushStudent_returns_iff
  rw [← returns, ← forLoop_returns_iff, pushSection]
  cases forLoop (pushStudent sec) (nonzero (toPush between.1 sec)) between.1 with
  | error raised => simp [Except.map]
  | ok pushed => simp [Except.map]

theorem pushBackStudents_returns_iff :
    (∃ final, pushBackStudents (c.pushBound + 1) state = some (.ok final)) ↔
      BeforePushes IndexedQueue (c.pushBound + 1) state := by
  rw [pushBackStudents, whileLoop_returns_iff, BeforePushes]
  · have sections : (fun sec (between : c.State × Bool) =>
        ∃ after, pushSection sec between = .ok after) =
        fun sec between => BeforeEach (pushStudent sec) (IndexedQueue sec)
          (nonzero (toPush between.1 sec)) between.1 := by
      funext sec between
      exact propext pushSection_returns_iff
    have rounds : (fun state : c.State => ∃ outcome, pushRound state = .ok outcome) =
        fun state =>
          let state := state.sortSections fun sec => -state.sectionCapacities sec
          BeforeEach pushSection
            (fun sec state => BeforeEach (pushStudent sec) (IndexedQueue sec)
              (nonzero (toPush state.1 sec)) state.1)
            state.sortedSectionIndices (state, false) := by
      funext state
      rw [← sections]
      exact propext forLoop_returns_iff
    rw [rounds]
  · exact pushBackStudents_isSome state

/-! ## Whom the lunch filter excludes -/

variable (c) in
/-- The students whom the lunch filter excludes from a section, unless it raises: nothing
else than the array that the controller does not have would exclude any. -/
def lunchExcluded (si : c.Section) : Raises (c.Student → Bool) :=
  (forEach (nonzero (c.sectionSchedules si)) c.lunchFilter).map fun _ _ => false

/-- With the section, a student would have no lunch timeslot left on one of the days in
whose lunch it meets. -/
def LeavesNoLunch (state : c.State) (si : c.Section) (student : c.Student) : Prop :=
  ∃ day ∈ c.lunchByDay, (∃ ts ∈ day, c.sectionSchedules si ts = true) ∧
    ∀ ts ∈ day, c.sectionSchedules si ts = true ∨
      ∃ other, state.enrollFinal student other ts = true

/-- The filter, where a fill comes to it, excludes exactly the students who would have no
lunch timeslot left. -/
def LunchFilterExact (state : c.State) (si : c.Section) : Prop :=
  (∃ ts, c.sectionSchedules si ts = true) → c.coversLunch si = false →
    ∃ excluded, c.lunchExcluded si = .ok excluded ∧
      ∀ student, excluded student = true ↔ LeavesNoLunch state si student

theorem lunchFilterExact_of_lunchSafe (safe : c.LunchSafe si) (state : c.State) :
    LunchFilterExact state si := by
  intro _ uncovered
  rcases safe with covers | free
  · rw [uncovered] at covers
    cases covers
  · have filters : forEach (nonzero (c.sectionSchedules si)) c.lunchFilter = .ok () := by
      rw [forEach_eq_ok]
      intro ts listed
      have meets := mem_nonzero.mp listed
      exact (lunchFilter_eq_ok uncovered meets).mpr (free ts meets)
    refine ⟨fun _ => false, by rw [lunchExcluded, filters]; rfl, ?_⟩
    intro student
    simp only [Bool.false_eq_true, false_iff]
    intro leaves
    rcases leaves with ⟨day, listed, ⟨ts, inDay, meets⟩, -⟩
    have during := lunchSchedule_eq_true.mpr ⟨day, listed, inDay⟩
    rw [free ts meets] at during
    cases during

/-- A student asks for a section at the first of the two lunch timeslots of a day. -/
def twoLunches : ClassChangeController where
  numStudents := 1
  numSections := 1
  numTimeslots := 2
  enrolled := fun _ _ => false
  requested := fun _ _ => true
  prioritized := fun _ _ _ => false
  priorityLimit := 0
  sectionSchedules := fun _ ts => ts == 0
  parentClasses := fun _ => 1
  capacity := fun _ => 5
  otherStudents := fun _ => 0
  sectionGradeMin := fun _ => 7
  sectionGradeMax := fun _ => 12
  studentGrades := fun _ => 9
  checkGrade := false
  lunchByDay := [[0, 1]]

end EspWebsite.ClassChange.ClassChangeController
