import EspWebsite.Library.Loops
import EspWebsite.Library.Draws

/-!
# The lottery

Sections are filled one after the other, for each level of priority and then for the
students who are interested only, with as many of the students who may still take them as
there is room for.  Lunch sections are given out afterwards, a day at a time.
-/

namespace EspWebsite.Lottery

open Python Loops Draws

/-- The floating point weights of students, and `numpy.random.choice` without replacement
with probabilities in proportion to weights, which may refuse them. -/
structure WeightedDraws (Weight : Type) where
  one : Weight
  divide : Weight → Weight → Weight
  positive : Weight → Bool
  choice : {n : ℕ} → List (Fin n) → (Fin n → Weight) → ℕ → Source → Raises (List (Fin n) × Source)
  /-- As many items of the pool as are asked for, none twice. -/
  choice_draws : ∀ {n : ℕ} (pool : List (Fin n)) (weights : Fin n → Weight) (size : ℕ)
    (source : Source) (chosen : List (Fin n)) (rest : Source),
    choice pool weights size source = .ok (chosen, rest) →
      chosen.Subperm pool ∧ chosen.length = size
  /-- Weights are refused with a `ValueError`. -/
  choice_raises : ∀ {n : ℕ} (pool : List (Fin n)) (weights : Fin n → Weight) (size : ℕ)
    (source : Source) (raised : PyError),
    choice pool weights size source = .error raised → raised = .valueError

structure Options (Weight : Type) where
  Kp : Weight
  Ki : Weight
  checkGrade : Bool
  useStudentApps : Bool
  fillLowPriorities : Bool
  maxTimeslots : ℚ
  maxSections : ℚ
  assignLunches : Bool

/-- What the controller has read from the database. -/
structure LotteryAssignmentController (Weight : Type) where
  numStudents : ℕ
  numSections : ℕ
  numTimeslots : ℕ
  /-- The cap of the program, 0 if there is none. -/
  programSizeMax : ℕ
  realPriorityLimit : ℕ
  gradeRangeExceptions : Bool
  options : Options Weight
  draws : WeightedDraws Weight
  interest : Fin numStudents → Fin numSections → Bool
  /-- The `Priority/i` registrations, and the `GradeRangeException` ones after the last. -/
  registered : ℕ → Fin numStudents → Fin numSections → Bool
  ranks : Fin numStudents → Fin numSections → ℤ
  sectionIds : Fin numSections → ℤ
  sectionSchedules : Fin numSections → Fin numTimeslots → Bool
  sectionStartSchedules : Fin numSections → Fin numTimeslots → Bool
  sectionCapacities : Fin numSections → ℕ
  parentClasses : Fin numSections → ℕ
  /-- Whether a section's category is lunch. -/
  isLunch : Fin numSections → Bool
  sectionGradeMin : Fin numSections → ℤ
  sectionGradeMax : Fin numSections → ℤ
  studentGrades : Fin numStudents → ℤ
  /-- The lunch timeslots of each day. -/
  lunchTimeslotIndices : List (List (Fin numTimeslots))

namespace LotteryAssignmentController

variable {Weight : Type}

abbrev Student (c : LotteryAssignmentController Weight) := Fin c.numStudents

abbrev Section (c : LotteryAssignmentController Weight) := Fin c.numSections

abbrev Timeslot (c : LotteryAssignmentController Weight) := Fin c.numTimeslots

variable (c : LotteryAssignmentController Weight)

/-! ## The arrays of `initialize` -/

def effectivePriorityLimit : ℕ :=
  if c.gradeRangeExceptions then c.realPriorityLimit + 1 else c.realPriorityLimit

def sectionOverlap (sec other : c.Section) : Bool := c.parentClasses sec == c.parentClasses other

def lunchSchedule (ts : c.Timeslot) : Bool :=
  c.lunchTimeslotIndices.any fun day => day.contains ts

/-- `lunch_sections_by_timeslot.get(ts, [])`. -/
def lunchSectionsByTimeslot (ts : c.Timeslot) : List c.Section :=
  nonzero fun sec => c.isLunch sec && c.sectionSchedules sec ts

/-- Whether a student has registered for a section at a level of priority or a lower one. -/
def priorityAtLeast (i : ℕ) (student : c.Student) (sec : c.Section) : Bool :=
  (List.range (c.effectivePriorityLimit + 1)).any fun j =>
    decide (i ≤ j) && c.registered j student sec

def hasPriority (i : ℕ) (student : c.Student) (ts : c.Timeslot) : Bool :=
  anyOf fun sec => c.priorityAtLeast i student sec && c.sectionSchedules sec ts

def sectionsAtSameTime (sec other : c.Section) : Bool :=
  anyOf fun ts => c.sectionSchedules sec ts && c.sectionSchedules other ts

def hasOverlappingPriority (i : ℕ) (student : c.Student) (ts : c.Timeslot) : Bool :=
  anyOf fun other =>
    (anyOf fun sec => c.priorityAtLeast i student sec && c.sectionsAtSameTime sec other) &&
      c.sectionSchedules other ts

/-- The levels of priority, as `fill_low_priorities` changes them, with the draws left. -/
abbrev Priorities := (ℕ → c.Student → c.Section → Bool) × Source

/-- Gives a student a priority for a random class of interest that starts in a timeslot. -/
def fillPriority (i : ℕ) (place : c.Student × c.Timeslot) (filled : c.Priorities) :
    Raises c.Priorities :=
  let possibleClasses := nonzero fun sec =>
    c.interest place.1 sec && c.sectionStartSchedules sec place.2 &&
      !anyOf fun ts => c.sectionSchedules sec ts && c.hasPriority i place.1 ts
  match possibleClasses[filled.2.below possibleClasses.length]? with
  | none => .ok filled
  | some choice =>
      .ok (fun j student sec =>
        (j == i && student == place.1 && sec == choice) || filled.1 j student sec,
        filled.2.rest)

/-- `priority` after `initialize`. -/
def priorities (source : Source) : Raises c.Priorities :=
  if c.options.fillLowPriorities then
    forLoop (fun i filled =>
        forLoop (c.fillPriority i)
          ((List.finRange c.numStudents ×ˢ List.finRange c.numTimeslots).filter fun place =>
            c.hasPriority 1 place.1 place.2 && !c.hasOverlappingPriority i place.1 place.2)
          filled)
      ((List.range c.realPriorityLimit).map (· + 1)) (c.registered, source)
  else .ok (c.registered, source)

/-! ## The state of an assignment -/

structure State where
  priority : ℕ → c.Student → c.Section → Bool
  studentSchedules : c.Student → c.Timeslot → Bool
  /-- The identifier of the section that a student has at a timeslot, 0 for none. -/
  studentEnrollments : c.Student → c.Timeslot → ℤ
  studentSections : c.Student → c.Section → Bool
  studentWeights : c.Student → Weight
  studentUtilities : c.Student → ℚ
  source : Source

/-- `clear_assignments`, with the levels of priority and the draws. -/
def clearAssignments (priorities : c.Priorities) : c.State where
  priority := priorities.1
  studentSchedules := fun _ _ => false
  studentEnrollments := fun _ _ => 0
  studentSections := fun _ _ => false
  studentWeights := fun _ => c.draws.one
  studentUtilities := fun _ => 0
  source := priorities.2

variable {c}

/-- `numpy.sum(student_sections[:, sec])`. -/
def enrollment (state : c.State) (sec : c.Section) : ℕ :=
  countNonzero fun student => state.studentSections student sec

/-- The number of students who have anything. -/
def attendance (state : c.State) : ℕ :=
  countNonzero fun student => anyOf (state.studentSchedules student)

/-! ## Filling sections -/

variable (c)

/-- Whether a section covers all lunch timeslots of some day. -/
def coversLunch (si : c.Section) : Bool :=
  c.lunchTimeslotIndices.any fun day =>
    day.length != 0 && decide (day.length ≤
      (day.filter fun ts => c.lunchSchedule ts && c.sectionSchedules si ts).length)

/-- Whether a section is within the grades of a student. -/
def gradeEligible (student : c.Student) (si : c.Section) : Bool :=
  decide (c.sectionGradeMin si ≤ c.studentGrades student) &&
    decide (c.studentGrades student ≤ c.sectionGradeMax si)

variable {c}

/-- `num_spaces`, before it is compared with 0; nothing if the program is full. -/
def numSpaces (state : c.State) (si : c.Section) : Option ℤ :=
  let spaces : ℤ := c.sectionCapacities si - enrollment state si
  if c.programSizeMax = 0 then some spaces
  else
    let remaining : ℤ := c.programSizeMax - attendance state
    if remaining = 0 then none else some (min spaces remaining)

/-- Whether a student may be given a section; the priority 0 stands for interest. -/
def possible (state : c.State) (si : c.Section) (priority : ℕ) (rank : ℤ)
    (student : c.Student) : Bool :=
  (if priority = 0 then c.interest student si else state.priority priority student si) &&
  (!(c.options.checkGrade &&
      !(priority == c.effectivePriorityLimit && c.gradeRangeExceptions)) ||
    c.gradeEligible student si) &&
  (!c.options.useStudentApps || c.ranks student si == rank) &&
  (decide (c.options.maxSections = 0) ||
    decide ((countNonzero (state.studentSections student) : ℚ) < c.options.maxSections)) &&
  (decide (c.options.maxTimeslots = 0) ||
    decide ((countNonzero (state.studentSchedules student) : ℚ) < c.options.maxTimeslots)) &&
  ((nonzero (c.sectionSchedules si)).all fun ts => !state.studentSchedules student ts) &&
  ((nonzero fun other => c.sectionOverlap other si).all fun other =>
    !state.studentSections student other) &&
  ((nonzero (c.sectionSchedules si)).all fun ts =>
    c.lunchTimeslotIndices.all fun day =>
      !day.contains ts ||
        day.all fun other => other == ts || !state.studentSchedules student other)

/-- The students who get a section, and whether it was filled. -/
def select (state : c.State) (spaces : ℕ) (candidates : List c.Student) :
    Raises (List c.Student × Bool × Source) :=
  if candidates.length ≤ spaces then .ok (candidates, false, state.source)
  else
    let positive := fun student => c.draws.positive (state.studentWeights student)
    let guaranteed := candidates.filter positive
    if spaces ≤ guaranteed.length then
      (c.draws.choice candidates state.studentWeights spaces state.source).map fun chosen =>
        (chosen.1, true, chosen.2)
    else
      let filler := choice (candidates.filter fun student => !positive student)
        (spaces - guaranteed.length) state.source
      .ok (guaranteed ++ filler.1, true, filler.2)

/-- The schedules, enrollments and utilities of students who have a section at a timeslot. -/
def State.occupyAt (state : c.State) (si : c.Section) (priority : ℕ)
    (students : List c.Student) (ts : c.Timeslot) : c.State :=
  { state with
    studentSchedules := fun student other =>
      if students.contains student && other == ts then true
      else state.studentSchedules student other
    studentEnrollments := fun student other =>
      if students.contains student && other == ts then c.sectionIds si
      else state.studentEnrollments student other
    studentUtilities := fun student =>
      if students.contains student then
        state.studentUtilities student + if priority = 0 then 1 else 3 / 2
      else state.studentUtilities student }

/-- Gives a section to students at one of its timeslots. -/
def occupy (si : c.Section) (priority : ℕ) (students : List c.Student) (ts : c.Timeslot)
    (state : c.State) : Raises c.State :=
  (assert (students.all fun student => !state.studentSchedules student ts) "").map fun _ =>
    state.occupyAt si priority students ts

/-- Gives a section to students. -/
def State.assign (state : c.State) (si : c.Section) (students : List c.Student) : c.State :=
  { state with
    studentSections := fun student sec =>
      if students.contains student && sec == si then true
      else state.studentSections student sec }

/-- `student_weights[students] /= factor`. -/
def State.weaken (state : c.State) (students : List c.Student) (factor : Weight) : c.State :=
  { state with
    studentWeights := fun student =>
      if students.contains student then c.draws.divide (state.studentWeights student) factor
      else state.studentWeights student }

/-- `fill_section`, from where the number of spaces is known to be positive. -/
def fillSpaces (si : c.Section) (priority : ℕ) (rank : ℤ) (spaces : ℕ) (state : c.State) :
    Raises (Bool × c.State) :=
  if (nonzero (c.sectionSchedules si)).isEmpty || c.coversLunch si then .ok (false, state)
  else do
    let (selected, filled, source) ←
      select state spaces (nonzero (possible state si priority rank))
    assert (selected.all fun student => !state.studentSections student si) ""
    let occupied ← forLoop (occupy si priority selected) (nonzero (c.sectionSchedules si))
      { state.assign si selected with source }
    return (filled,
      occupied.weaken selected (if priority = 0 then c.options.Ki else c.options.Kp))

/-- `fill_section`; it also returns whether the section was filled. -/
def fillSection (si : c.Section) (priority : ℕ) (rank : ℤ) (state : c.State) :
    Raises (Bool × c.State) :=
  match numSpaces state si with
  | none => .ok (true, state)
  | some spaces =>
      if spaces = 0 then .ok (true, state)
      else do
        assert (0 < spaces) ""
        fillSpaces si priority rank spaces.toNat state

/-! ## The main lottery -/

variable (c)

def sectionsOfLength (length : ℕ) : List c.Section :=
  nonzero fun sec => countNonzero (c.sectionSchedules sec) == length

/-- The order of `argsort(interested_counts / section_capacities)`: divisions of 0 by 0 come
last, other divisions by 0 before them. -/
def interestOrder (left right : c.Section) : Bool :=
  let counted := fun sec => countNonzero fun student => c.interest student sec
  let key : c.Section → ℕ ×ₗ ℚ := fun sec =>
    if c.sectionCapacities sec = 0 then toLex (if counted sec = 0 then 2 else 1, 0)
    else toLex (0, counted sec / c.sectionCapacities sec)
  decide (key left ≤ key right)

def fillSections (priority : ℕ) (rank : ℤ) (sections : List c.Section) (state : c.State) :
    Raises c.State :=
  forLoop (fun si state => (fillSection si priority rank state).map Prod.snd) sections state

def fillShuffled (priority : ℕ) (rank : ℤ) (sections : List c.Section) (state : c.State) :
    Raises c.State :=
  let shuffled := shuffle sections state.source
  c.fillSections priority rank shuffled.1 { state with source := shuffled.2 }

/-- The fill at one level of priority: the longest sections first. -/
def fillPriorityLevel (rank : ℤ) (priority : ℕ) (state : c.State) : Raises c.State :=
  forLoop (fun length => c.fillShuffled priority rank (c.sectionsOfLength length))
    ((List.range c.numTimeslots).reverse.map (· + 1)) state

/-- The fill with interested students.  Sections of the same order are in any order. -/
def fillInterested (rank : ℤ) (state : c.State) : Raises c.State :=
  let shuffled := shuffle (List.finRange c.numSections) state.source
  c.fillSections 0 rank (shuffled.1.insertionSort fun left right => c.interestOrder left right)
    { state with source := shuffled.2 }

def fillRank (rank : ℤ) (state : c.State) : Raises c.State := do
  let filled ← forLoop (c.fillPriorityLevel rank)
    ((List.range c.effectivePriorityLimit).map (· + 1)) state
  c.fillInterested rank filled

/-- `compute_assignments` up to the lunches. -/
def mainLottery (source : Source) : Raises c.State := do
  let priorities ← c.priorities source
  forLoop c.fillRank (if c.options.useStudentApps then [10, 5] else [10])
    (c.clearAssignments priorities)

/-! ## Lunches -/

/-- The assignment and the running enrollment of each section. -/
abbrev LunchState := c.State × (c.Section → ℕ)

variable {c}

def periodSize (enrollments : c.Section → ℕ) (ts : c.Timeslot) : ℕ :=
  ((c.lunchSectionsByTimeslot ts).map enrollments).sum

def drawLeast {α : Type} (key : α → ℕ) (items : List α) (source : Source) : Option (α × Source) :=
  let least := items.filter fun item => items.all fun other => decide (key item ≤ key other)
  (least[source.below least.length]?).map fun item => (item, source.rest)

/-- Whether a student has a lunch section in one of the periods. -/
def hasLunch (state : c.State) (periods : List c.Timeslot) (student : c.Student) : Bool :=
  periods.any fun ts =>
    (c.lunchSectionsByTimeslot ts).any fun sec => state.studentSections student sec

/-- The periods in which a student is free, with their lunch sections that have room. -/
def lunchOptions (lunch : c.LunchState) (periods : List c.Timeslot) (student : c.Student) :
    List (c.Timeslot × List c.Section) :=
  (periods.filter fun ts => !lunch.1.studentSchedules student ts).filterMap fun ts =>
    match (c.lunchSectionsByTimeslot ts).filter fun sec =>
      decide (lunch.2 sec < c.sectionCapacities sec) with
    | [] => none
    | openSections => some (ts, openSections)

/-- The lunch section that a student is given, with the draws left; none if he has one or
there is none for him. -/
def chooseLunch (lunch : c.LunchState) (periods : List c.Timeslot) (student : c.Student) :
    Option (c.Section × Source) :=
  if hasLunch lunch.1 periods student then none
  else do
    let (option, source) ← drawLeast (fun option => periodSize lunch.2 option.1)
      (lunchOptions lunch periods student) lunch.1.source
    drawLeast lunch.2 option.2 source

/-- `student_sections[student, sec] = True`, and the schedule and enrollment of the student
at all meeting times of the section. -/
def State.giveLunch (state : c.State) (student : c.Student) (sec : c.Section) : c.State :=
  { state with
    studentSections := fun other otherSec =>
      if other = student ∧ otherSec = sec then true else state.studentSections other otherSec
    studentSchedules := fun other ts =>
      if other = student ∧ c.sectionSchedules sec ts = true then true
      else state.studentSchedules other ts
    studentEnrollments := fun other ts =>
      if other = student ∧ c.sectionSchedules sec ts = true then c.sectionIds sec
      else state.studentEnrollments other ts }

def assignLunch (periods : List c.Timeslot) (student : c.Student) (lunch : c.LunchState) :
    Raises c.LunchState :=
  match chooseLunch lunch periods student with
  | none => .ok lunch
  | some (sec, source) =>
      .ok ({ lunch.1.giveLunch student sec with source },
        Function.update lunch.2 sec (lunch.2 sec + 1))

/-- The order in which students are given lunch: shuffled, then by how many periods they
have free. -/
def lunchOrder (state : c.State) (periods : List c.Timeslot) (attending : List c.Student) :
    List c.Student × Source :=
  let shuffled := shuffle attending state.source
  let free := fun student =>
    (periods.filter fun ts => !state.studentSchedules student ts).length
  (shuffled.1.insertionSort fun left right => free left ≤ free right, shuffled.2)

/-- The lunch periods of a day that have a lunch section. -/
def lunchPeriods (day : List c.Timeslot) : List c.Timeslot :=
  day.filter fun ts => !(c.lunchSectionsByTimeslot ts).isEmpty

def assignDay (attending : List c.Student) (day : List c.Timeslot) (lunch : c.LunchState) :
    Raises c.LunchState :=
  match lunchPeriods day with
  | [] => .ok lunch
  | periods =>
      let order := lunchOrder lunch.1 periods attending
      forLoop (assignLunch periods) order.1 ({ lunch.1 with source := order.2 }, lunch.2)

def attendingStudents (state : c.State) : List c.Student :=
  nonzero fun student => anyOf (state.studentSections student)

/-- `assign_lunches`.  Without lunch sections no day has a lunch period. -/
def assignLunches (state : c.State) : Raises c.State :=
  (forLoop (assignDay (attendingStudents state)) c.lunchTimeslotIndices
    (state, enrollment state)).map Prod.fst

/-! ## Checks -/

/-- Whether a student's lunch timeslots of a day are all taken by classes. -/
def lunchTaken (state : c.State) (day : List c.Timeslot) (student : c.Student) : Bool :=
  decide (day.length - 1 < (day.filter fun ts =>
    state.studentSchedules student ts &&
      !(c.lunchSectionsByTimeslot ts).any fun sec => state.studentSections student sec).length)

def checkAssignments (state : c.State) : Raises Unit := do
  assert ((anyOf fun sec => decide (c.sectionCapacities sec < enrollment state sec)) = false) ""
  forEach c.lunchTimeslotIndices fun day =>
    if day.length = 0 then .ok ()
    else assert ((anyOf fun student => lunchTaken state day student) = false) ""
  forEach (List.finRange c.numStudents) fun student =>
    assert ((anyOf fun ts => decide ((if state.studentSchedules student ts then 1 else 0) ≠
      countNonzero fun sec => state.studentSections student sec && c.sectionSchedules sec ts)) =
        false) ""

variable (c)

def computeAssignments (checkResult : Bool) (source : Source) : Raises c.State := do
  let assigned ← c.mainLottery source
  let assigned ← if c.options.assignLunches then assignLunches assigned else pure assigned
  if checkResult then
    checkAssignments assigned
  return assigned

end LotteryAssignmentController

end EspWebsite.Lottery
