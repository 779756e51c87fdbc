import EspWebsite.Lottery.Assignments

/-!
# Lunch assignments

A student is given a lunch section that has room and meets at a period in which he is free.
Whether he is free at the other meeting times of the section is not looked at, so the
assignment passes its checks afterwards exactly if he always was.
-/

namespace EspWebsite.Lottery.LotteryAssignmentController

open Python Loops Draws

variable {Weight : Type} {c : LotteryAssignmentController Weight} {state : c.State}
  {lunch after : c.LunchState} {student : c.Student} {sec : c.Section}
  {periods : List c.Timeslot}

/-! ## Choosing a lunch section -/

theorem mem_of_drawLeast {α : Type} {key : α → ℕ} {items : List α} {source rest : Source}
    {item : α} (drawn : drawLeast key items source = some (item, rest)) : item ∈ items := by
  rw [drawLeast, Option.map_eq_some_iff] at drawn
  rcases drawn with ⟨found, indexed, equal⟩
  cases equal
  exact List.mem_of_mem_filter (List.mem_of_getElem? indexed)

theorem mem_lunchOptions {option : c.Timeslot × List c.Section} :
    option ∈ lunchOptions lunch periods student ↔
      option.1 ∈ periods ∧ lunch.1.studentSchedules student option.1 = false ∧
        option.2 ≠ [] ∧ (c.lunchSectionsByTimeslot option.1).filter
          (fun sec => decide (lunch.2 sec < c.sectionCapacities sec)) = option.2 := by
  rw [lunchOptions, List.mem_filterMap]
  constructor
  · intro listed
    rcases listed with ⟨ts, inPeriods, found⟩
    rw [List.mem_filter, Bool.not_eq_true'] at inPeriods
    split at found
    · cases found
    · rename_i room
      cases found
      exact ⟨inPeriods.1, inPeriods.2, room, rfl⟩
  · intro listed
    rcases option with ⟨ts, openSections⟩
    rcases listed with ⟨inPeriods, free, nonempty, room⟩
    refine ⟨ts, List.mem_filter.mpr ⟨inPeriods, by rw [free]; rfl⟩, ?_⟩
    rw [room]
    split
    · rename_i empty
      exact absurd empty nonempty
    · rfl

structure Chosen (lunch : c.LunchState) (periods : List c.Timeslot) (student : c.Student)
    (sec : c.Section) : Prop where
  isLunch : c.isLunch sec = true
  fresh : lunch.1.studentSections student sec = false
  room : lunch.2 sec < c.sectionCapacities sec
  free : ∃ ts ∈ periods, c.sectionSchedules sec ts = true ∧
    lunch.1.studentSchedules student ts = false

theorem chosen_of_chooseLunch {source : Source}
    (choice : chooseLunch lunch periods student = some (sec, source)) :
    Chosen lunch periods student sec := by
  rw [chooseLunch] at choice
  split at choice
  · cases choice
  · rename_i hungry
    rw [Option.bind_eq_bind, Option.bind_eq_some_iff] at choice
    rcases choice with ⟨⟨option, between⟩, optionDrawn, sectionDrawn⟩
    have inOption := mem_of_drawLeast sectionDrawn
    rcases mem_lunchOptions.mp (mem_of_drawLeast optionDrawn) with
      ⟨inPeriods, free, -, openSections⟩
    rw [← openSections, List.mem_filter, lunchSectionsByTimeslot, mem_nonzero,
      Bool.and_eq_true, decide_eq_true_eq] at inOption
    refine ⟨inOption.1.1, ?_, inOption.2, option.1, inPeriods, inOption.1.2, free⟩
    rw [Bool.eq_false_iff]
    intro held
    apply hungry
    rw [hasLunch, List.any_eq_true]
    refine ⟨option.1, inPeriods, ?_⟩
    rw [List.any_eq_true]
    exact ⟨sec, by simpa [lunchSectionsByTimeslot] using inOption.1, held⟩

/-! ## Giving a lunch section -/

theorem giveLunch_sections {other : c.Student} {otherSec : c.Section} :
    (state.giveLunch student sec).studentSections other otherSec = true ↔
      (other = student ∧ otherSec = sec) ∨ state.studentSections other otherSec = true := by
  rw [State.giveLunch]
  dsimp only
  split
  · rename_i same
    simp [same]
  · rename_i apart
    simp [apart]

theorem giveLunch_schedules {other : c.Student} {ts : c.Timeslot} :
    (state.giveLunch student sec).studentSchedules other ts = true ↔
      (other = student ∧ c.sectionSchedules sec ts = true) ∨
        state.studentSchedules other ts = true := by
  rw [State.giveLunch]
  dsimp only
  split
  · rename_i same
    simp [same]
  · rename_i apart
    simp [apart]

/-- What lunch assignments keep in any case. -/
structure Counted (lunch : c.LunchState) : Prop where
  counts : ∀ sec, lunch.2 sec = enrollment lunch.1 sec
  capacity : ∀ sec, enrollment lunch.1 sec ≤ c.sectionCapacities sec
  union : ∀ student ts, lunch.1.studentSchedules student ts = true ↔
    ∃ sec, lunch.1.studentSections student sec = true ∧ c.sectionSchedules sec ts = true
  lunch : ∀ student, ∀ day ∈ c.lunchTimeslotIndices, day ≠ [] →
    ∃ ts ∈ day, lunch.1.studentSchedules student ts = false ∨
      ∃ sec, c.isLunch sec = true ∧ c.sectionSchedules sec ts = true ∧
        lunch.1.studentSections student sec = true

/-- No student has two sections at once. -/
def Disjoint (state : c.State) : Prop :=
  ∀ student left right ts, state.studentSections student left = true →
    state.studentSections student right = true → c.sectionSchedules left ts = true →
    c.sectionSchedules right ts = true → left = right

/-- The student is free at all meeting times of the lunch section he is about to be given. -/
def LunchFree (periods : List c.Timeslot) (student : c.Student) (lunch : c.LunchState) : Prop :=
  match chooseLunch lunch periods student with
  | none => True
  | some (sec, _) => ∀ ts, c.sectionSchedules sec ts = true →
      lunch.1.studentSchedules student ts = false

theorem enrollment_giveLunch (fresh : state.studentSections student sec = false)
    (other : c.Section) : enrollment (state.giveLunch student sec) other =
      enrollment state other + if other = sec then 1 else 0 := by
  rw [enrollment, enrollment, countNonzero_eq_card, countNonzero_eq_card]
  by_cases same : other = sec
  · subst same
    rw [if_pos rfl, ← Finset.card_insert_of_notMem (a := student) (by simp [fresh])]
    congr 1
    ext found
    simp [giveLunch_sections]
  · rw [if_neg same, Nat.add_zero]
    congr 1
    ext found
    simp [giveLunch_sections, same]

theorem Counted.congr {source : Source} (counted : Counted lunch) :
    Counted ({ lunch.1 with source := source }, lunch.2) :=
  ⟨counted.counts, counted.capacity, counted.union, counted.lunch⟩

theorem Chosen.counted (chosen : Chosen lunch periods student sec) (counted : Counted lunch) :
    Counted (lunch.1.giveLunch student sec, Function.update lunch.2 sec (lunch.2 sec + 1)) := by
  have grown : ∀ other, enrollment (lunch.1.giveLunch student sec) other =
      enrollment lunch.1 other + if other = sec then 1 else 0 :=
    enrollment_giveLunch chosen.fresh
  refine ⟨?_, ?_, ?_, ?_⟩
  · intro other
    change Function.update lunch.2 sec (lunch.2 sec + 1) other =
      enrollment (lunch.1.giveLunch student sec) other
    rw [grown, ← counted.counts other]
    by_cases same : other = sec
    · subst same
      rw [Function.update_self, if_pos rfl]
    · rw [Function.update_of_ne same, if_neg same, Nat.add_zero]
  · intro other
    change enrollment (lunch.1.giveLunch student sec) other ≤ _
    rw [grown]
    have before := counted.capacity other
    split
    · rename_i same
      subst same
      have room := chosen.room
      rw [counted.counts] at room
      omega
    · omega
  · intro other ts
    change (lunch.1.giveLunch student sec).studentSchedules other ts = true ↔
      ∃ held, (lunch.1.giveLunch student sec).studentSections other held = true ∧ _
    rw [giveLunch_schedules, counted.union]
    constructor
    · intro busy
      rcases busy with ⟨same, meets⟩ | ⟨held, inHeld, meets⟩
      · exact ⟨sec, giveLunch_sections.mpr (.inl ⟨same, rfl⟩), meets⟩
      · exact ⟨held, giveLunch_sections.mpr (.inr inHeld), meets⟩
    · intro found
      rcases found with ⟨held, inHeld, meets⟩
      rcases giveLunch_sections.mp inHeld with ⟨same, rfl⟩ | before
      · exact .inl ⟨same, meets⟩
      · exact .inr ⟨held, before, meets⟩
  · intro other day listed nonempty
    rcases counted.lunch other day listed nonempty with ⟨ts, member, spared⟩
    refine ⟨ts, member, ?_⟩
    rcases spared with free | ⟨held, isLunch, meets, inHeld⟩
    · by_cases taken : other = student ∧ c.sectionSchedules sec ts = true
      · exact .inr ⟨sec, chosen.isLunch, taken.2,
          giveLunch_sections.mpr (.inl ⟨taken.1, rfl⟩)⟩
      · left
        rw [Bool.eq_false_iff]
        intro busy
        rcases giveLunch_schedules.mp busy with now | before
        · exact taken now
        · rw [free] at before
          cases before
    · exact .inr ⟨held, isLunch, meets, giveLunch_sections.mpr (.inr inHeld)⟩

/-- A new section keeps the sections disjoint exactly if the student is free at all its meeting
times. -/
theorem disjoint_giveLunch (counted : Counted lunch)
    (fresh : lunch.1.studentSections student sec = false) :
    Disjoint (lunch.1.giveLunch student sec) ↔ Disjoint lunch.1 ∧
      ∀ ts, c.sectionSchedules sec ts = true → lunch.1.studentSchedules student ts = false := by
  constructor
  · intro disjoint
    refine ⟨?_, ?_⟩
    · intro other left right ts inLeft inRight
      exact disjoint other left right ts (giveLunch_sections.mpr (.inr inLeft))
        (giveLunch_sections.mpr (.inr inRight))
    · intro ts meets
      rw [Bool.eq_false_iff]
      intro busy
      rcases (counted.union student ts).mp busy with ⟨held, inHeld, heldMeets⟩
      have same := disjoint student held sec ts (giveLunch_sections.mpr (.inr inHeld))
        (giveLunch_sections.mpr (.inl ⟨rfl, rfl⟩)) heldMeets meets
      rw [same, fresh] at inHeld
      cases inHeld
  · intro kept
    rcases kept with ⟨disjoint, free⟩
    have apart : ∀ held ts, lunch.1.studentSections student held = true →
        c.sectionSchedules held ts = true → c.sectionSchedules sec ts ≠ true := by
      intro held ts inHeld heldMeets meets
      have busy := (counted.union student ts).mpr ⟨held, inHeld, heldMeets⟩
      rw [free ts meets] at busy
      cases busy
    intro other left right ts inLeft inRight meetsLeft meetsRight
    rcases giveLunch_sections.mp inLeft with ⟨rfl, rfl⟩ | beforeLeft
    · rcases giveLunch_sections.mp inRight with ⟨-, rfl⟩ | beforeRight
      · rfl
      · exact absurd meetsLeft (apart right ts beforeRight meetsRight)
    · rcases giveLunch_sections.mp inRight with ⟨rfl, rfl⟩ | beforeRight
      · exact absurd meetsRight (apart left ts beforeLeft meetsLeft)
      · exact disjoint other left right ts beforeLeft beforeRight meetsLeft meetsRight

theorem counted_assignLunch (counted : Counted lunch)
    (returns : assignLunch periods student lunch = .ok after) :
    Counted after ∧
      (Disjoint after.1 ↔ Disjoint lunch.1 ∧ LunchFree periods student lunch) := by
  rw [assignLunch] at returns
  cases choice : chooseLunch lunch periods student with
  | none =>
      rw [choice] at returns
      cases returns
      exact ⟨counted, by simp [LunchFree, choice]⟩
  | some drawn =>
      rcases drawn with ⟨sec, source⟩
      rw [choice] at returns
      cases returns
      have chosen := chosen_of_chooseLunch choice
      refine ⟨(chosen.counted counted).congr, ?_⟩
      rw [LunchFree, choice]
      exact disjoint_giveLunch counted chosen.fresh

/-! ## The lunches of all days -/

/-- On one day every student is free at all meeting times of the lunch section he is given,
at the moment he is given it. -/
def DayFree (attending : List c.Student) (day : List c.Timeslot) (lunch : c.LunchState) : Prop :=
  match lunchPeriods day with
  | [] => True
  | periods =>
      let order := lunchOrder lunch.1 periods attending
      BeforeEach (assignLunch periods) (LunchFree periods) order.1
        ({ lunch.1 with source := order.2 }, lunch.2)

/-- The same on all days. -/
def LunchesFree (state : c.State) : Prop :=
  BeforeEach (assignDay (attendingStudents state)) (DayFree (attendingStudents state))
    c.lunchTimeslotIndices (state, enrollment state)

theorem counted_assignDay {attending : List c.Student} {day : List c.Timeslot}
    (counted : Counted lunch) (returns : assignDay attending day lunch = .ok after) :
    Counted after ∧
      (Disjoint after.1 ↔ Disjoint lunch.1 ∧ DayFree attending day lunch) := by
  rw [assignDay] at returns
  rw [DayFree]
  cases found : lunchPeriods day with
  | nil =>
      rw [found] at returns
      cases returns
      exact ⟨counted, by simp⟩
  | cons ts periods =>
      rw [found] at returns
      exact forLoop_iff Counted (fun lunch => Disjoint lunch.1)
        (fun student _ before between kept step => counted_assignLunch kept step)
        counted.congr returns

theorem assignLunches_returns (state : c.State) :
    ∃ lunch, forLoop (assignDay (attendingStudents state)) c.lunchTimeslotIndices
      (state, enrollment state) = .ok lunch := by
  have ends : Ends ∅ (fun _ => True) (forLoop (assignDay (attendingStudents state))
      c.lunchTimeslotIndices (state, enrollment state)) := by
    apply ends_forLoop (fun _ => True) _ trivial
    intro day _ lunch _
    rw [assignDay]
    split
    · exact ends_ok trivial
    · apply ends_forLoop (fun _ => True) _ trivial
      intro student _ lunch _
      rw [assignLunch]
      split
      · exact ends_ok trivial
      · exact ends_ok trivial
  rcases ends.exists_ok with ⟨lunch, returns, -⟩
  exact ⟨lunch, returns⟩

theorem counted_of_lawful (lawful : Lawful state) : Counted (state, enrollment state) := by
  refine ⟨fun _ => rfl, lawful.capacity, lawful.union, ?_⟩
  intro student day listed nonempty
  rcases lawful.lunch student day listed nonempty with ⟨ts, member, free⟩
  exact ⟨ts, member, .inl free⟩

theorem Counted.checkAssignments (counted : Counted lunch) :
    checkAssignments lunch.1 = .ok () ↔ Disjoint lunch.1 := by
  rw [checkAssignments_eq_ok]
  constructor
  · intro checks student left right ts inLeft inRight meetsLeft meetsRight
    have counts := checks.2.2 student ts
    rw [countNonzero_eq_card] at counts
    have single : (Finset.univ.filter fun sec => (lunch.1.studentSections student sec &&
        c.sectionSchedules sec ts) = true).card ≤ 1 := by
      rw [← counts]
      split
      · exact Nat.le_refl _
      · exact Nat.zero_le _
    exact Finset.card_le_one.mp single left (by simp [inLeft, meetsLeft]) right
      (by simp [inRight, meetsRight])
  · intro disjoint
    refine ⟨counted.capacity, ?_, ?_⟩
    · intro day listed nonempty student
      exact lunchTaken_eq_false (counted.lunch student day listed nonempty)
    · intro student ts
      exact countNonzero_sections student ts
        (fun left right => disjoint student left right ts) (counted.union student ts)

/-- After the main lottery, giving out lunches leaves no section over its capacity, the
sections of each student disjoint and his schedule their union, as the checks require,
exactly if every student was free at all meeting times of the lunch section he was given. -/
theorem assignLunches_checks (c : LotteryAssignmentController Weight) (source : Source)
    (state : c.State) (assigned : c.mainLottery source = .ok state) :
    ∃ final, assignLunches state = .ok final ∧
      (((∀ sec, enrollment final sec ≤ c.sectionCapacities sec) ∧ Disjoint final ∧
          ∀ student ts, final.studentSchedules student ts = true ↔
            ∃ sec, final.studentSections student sec = true ∧ c.sectionSchedules sec ts = true) ↔
        LunchesFree state) ∧
      (checkAssignments final = .ok () ↔ LunchesFree state) := by
  have lawful := (lawful_mainLottery source).1 state assigned
  rcases assignLunches_returns state with ⟨lunch, returns⟩
  rcases forLoop_iff Counted (fun lunch => Disjoint lunch.1)
    (fun day _ before between kept step => counted_assignDay kept step)
    (counted_of_lawful lawful) returns with ⟨counted, exactly⟩
  have free : Disjoint lunch.1 ↔ LunchesFree state := by
    rw [exactly, LunchesFree]
    exact ⟨fun both => both.2, fun free => ⟨lawful.disjoint, free⟩⟩
  refine ⟨lunch.1, ?_, ?_, ?_⟩
  · rw [assignLunches, returns]
    rfl
  · rw [← free]
    exact ⟨fun kept => kept.2.1, fun disjoint => ⟨counted.capacity, disjoint, counted.union⟩⟩
  · rw [← free]
    exact counted.checkAssignments

/-! ## A lunch section of two timeslots -/

/-- A class at the second lunch timeslot, which a student is interested in, and a lunch
section over both lunch timeslots. -/
def longLunch : LotteryAssignmentController ℚ where
  numStudents := 1
  numSections := 2
  numTimeslots := 2
  programSizeMax := 0
  realPriorityLimit := 1
  gradeRangeExceptions := false
  options :=
    { Kp := 6 / 5, Ki := 11 / 10, checkGrade := true, useStudentApps := false
      fillLowPriorities := false, maxTimeslots := 0, maxSections := 0, assignLunches := true }
  draws := evenDraws
  interest := fun _ sec => sec == 0
  registered := fun _ _ _ => false
  ranks := fun _ _ => 10
  sectionIds := fun sec => sec + 1
  sectionSchedules := fun sec ts => sec == 1 || ts == 1
  sectionStartSchedules := fun sec ts => if sec = 1 then ts == 0 else ts == 1
  sectionCapacities := fun _ => 5
  parentClasses := fun sec => sec
  isLunch := fun sec => sec == 1
  sectionGradeMin := fun _ => 7
  sectionGradeMax := fun _ => 12
  studentGrades := fun _ => 9
  lunchTimeslotIndices := [[0, 1]]

theorem longLunch_assigned : ∃ state, longLunch.mainLottery (fun _ => 0) = .ok state := by
  have returns : (longLunch.mainLottery fun _ => 0).isOk = true := by decide +kernel
  exact exists_of_isOk returns

theorem assignLunches_checks_longLunch : ∃ state,
    longLunch.mainLottery (fun _ => 0) = .ok state ∧
      ∃ final, assignLunches state = .ok final ∧
        (((∀ sec, enrollment final sec ≤ longLunch.sectionCapacities sec) ∧ Disjoint final ∧
            ∀ student ts, final.studentSchedules student ts = true ↔
              ∃ sec, final.studentSections student sec = true ∧
                longLunch.sectionSchedules sec ts = true) ↔
          LunchesFree state) ∧
        (checkAssignments final = .ok () ↔ LunchesFree state) := by
  rcases longLunch_assigned with ⟨state, assigned⟩
  exact ⟨state, assigned, assignLunches_checks longLunch (fun _ => 0) state assigned⟩

/-- The student is given the lunch section for the first timeslot, and has it and the class
at the second one. -/
theorem longLunch_overlaps : ∃ state final,
    longLunch.mainLottery (fun _ => 0) = .ok state ∧ assignLunches state = .ok final ∧
      ¬ Disjoint final := by
  have both : ((longLunch.mainLottery fun _ => 0).bind fun state =>
      (assignLunches state).map fun final =>
        (final.studentSections (0 : Fin 1) (0 : Fin 2),
          final.studentSections (0 : Fin 1) (1 : Fin 2))) = .ok (true, true) := by
    decide +kernel
  rcases bind_eq_ok.mp both with ⟨state, assigned, lunches⟩
  rcases map_eq_ok.mp lunches with ⟨final, returns, held⟩
  refine ⟨state, final, assigned, returns, ?_⟩
  intro disjoint
  have same := disjoint (0 : Fin 1) (0 : Fin 2) (1 : Fin 2) (1 : Fin 2)
    (congrArg Prod.fst held) (congrArg Prod.snd held) rfl rfl
  cases same

end EspWebsite.Lottery.LotteryAssignmentController
