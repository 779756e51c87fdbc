import EspWebsite.Library.Loops
import EspWebsite.Library.Draws

/-!
# The class change controller

Students who asked for other sections after registration are moved into these as far as
there is room (`fill_section`); then everyone who lost a section without getting another
one at its times is pushed back into it, at the cost of newcomers (`push_back_students`).
-/

namespace EspWebsite.ClassChange

open Python Loops Draws

/-- What the controller has read from the database. -/
structure ClassChangeController where
  numStudents : ℕ
  numSections : ℕ
  numTimeslots : ℕ
  /-- The `Enrolled`, `Request` and `Priority/i` registrations of the students. -/
  enrolled : Fin numStudents → Fin numSections → Bool
  requested : Fin numStudents → Fin numSections → Bool
  prioritized : ℕ → Fin numStudents → Fin numSections → Bool
  priorityLimit : ℕ
  sectionSchedules : Fin numSections → Fin numTimeslots → Bool
  parentClasses : Fin numSections → ℕ
  capacity : Fin numSections → ℤ
  /-- How many students without requests are enrolled in a section. -/
  otherStudents : Fin numSections → ℕ
  sectionGradeMin : Fin numSections → ℤ
  sectionGradeMax : Fin numSections → ℤ
  studentGrades : Fin numStudents → ℤ
  checkGrade : Bool
  /-- The lunch timeslots of each day. -/
  lunchByDay : List (List (Fin numTimeslots))

/-- An entry of a kick queue: a score, a random number and a student. -/
abbrev Entry (numStudents : ℕ) := ℤ ×ₗ ℕ ×ₗ Fin numStudents

namespace ClassChangeController

abbrev Student (c : ClassChangeController) := Fin c.numStudents

abbrev Section (c : ClassChangeController) := Fin c.numSections

abbrev Timeslot (c : ClassChangeController) := Fin c.numTimeslots

/-- A matrix of students, sections and timeslots. -/
abbrev Matrix (c : ClassChangeController) := c.Student → c.Section → c.Timeslot → Bool

variable (c : ClassChangeController)

/-! ## The arrays of `initialize` -/

def enrollOrig : c.Matrix := fun student sec ts =>
  c.enrolled student sec && c.sectionSchedules sec ts

def request : c.Matrix := fun student sec ts =>
  c.requested student sec && c.sectionSchedules sec ts

/-- `waitlist[priority]`; the entry 0 is true except where a priority is. -/
def waitlist (priority : ℕ) : c.Matrix := fun student sec ts =>
  if priority = 0 then
    (List.range c.priorityLimit).all fun i =>
      !(c.prioritized (i + 1) student sec && c.sectionSchedules sec ts)
  else c.prioritized priority student sec && c.sectionSchedules sec ts

/-- `array[student, sec, section_schedules[sec,:]].any()`. -/
def anyIn (array : c.Matrix) (student : c.Student) (sec : c.Section) : Bool :=
  anyOf fun ts => c.sectionSchedules sec ts && array student sec ts

/-- `array[student,:, section_schedules[sec,:]].any()`. -/
def anyDuring (array : c.Matrix) (student : c.Student) (sec : c.Section) : Bool :=
  anyOf fun other => anyOf fun ts => c.sectionSchedules sec ts && array student other ts

/-- `sec.num_students()`. -/
def numStudentsIn (sec : c.Section) : ℕ :=
  c.otherStudents sec + countNonzero fun student => c.enrolled student sec

/-- The remaining capacities; who is enrolled and wants to switch out leaves a space. -/
def sectionCapacitiesOrig (sec : c.Section) : ℤ :=
  c.capacity sec - c.numStudentsIn sec +
    countNonzero fun student =>
      c.anyIn c.enrollOrig student sec && c.anyDuring c.request student sec

def sectionScores (sec : c.Section) : ℤ :=
  -c.sectionCapacitiesOrig sec +
    countNonzero fun student => anyOf fun ts => c.request student sec ts

/-- Who was enrolled in a section and requested none at its times stays in it. -/
def enrollFinalOrig : c.Matrix := fun student sec ts =>
  c.sectionSchedules sec ts &&
    (c.anyIn c.enrollOrig student sec && !c.anyDuring c.request student sec)

def sameSubject (sec other : c.Section) : Bool := c.parentClasses sec == c.parentClasses other

/-- The width of `lunch_timeslots`. -/
def lunchWidth : ℕ := (c.lunchByDay.map List.length).foldl max 0

/-- `lunch_timeslots`: the days' lists, padded with the invalid identifier 0. -/
def lunchTimeslots : List (List (Option c.Timeslot)) :=
  c.lunchByDay.map fun day =>
    day.map some ++ List.replicate (c.lunchWidth - day.length) none

def lunchSchedule (ts : c.Timeslot) : Bool := c.lunchByDay.any fun day => day.contains ts

/-- `lunch_overlap` at the index of an identifier.  The invalid one has the index -1, which
reads the last timeslot. -/
def lunchOverlap (sec : c.Section) (identifier : Option c.Timeslot) : Bool :=
  match identifier.orElse fun _ => (List.finRange c.numTimeslots).getLast? with
  | some ts => c.lunchSchedule ts && c.sectionSchedules sec ts
  | none => false

/-! ## The state of an assignment -/

/-- What an assignment changes, the kick queues of `push_back_students` included. -/
structure State where
  enrollFinal : c.Matrix
  sectionCapacities : c.Section → ℤ
  sortedSectionIndices : List c.Section
  studentsToKick : c.Section → Option (List (Entry c.numStudents))
  source : Source

/-- `clear_assignments`, with the draws that the random choices will make. -/
def clearAssignments (source : Source) : c.State where
  enrollFinal := c.enrollFinalOrig
  sectionCapacities := c.sectionCapacitiesOrig
  sortedSectionIndices := []
  studentsToKick := fun _ => none
  source := source

variable {c}

/-- `enroll_final[students, sec, section_schedules[sec,:]] = value`. -/
def State.enroll (state : c.State) (students : List c.Student) (sec : c.Section)
    (value : Bool) : c.State :=
  { state with
    enrollFinal := fun student other ts =>
      if students.contains student && other == sec && c.sectionSchedules sec ts then value
      else state.enrollFinal student other ts }

/-- `section_capacities[sec] -= count`. -/
def State.fill (state : c.State) (sec : c.Section) (count : ℕ) : c.State :=
  { state with
    sectionCapacities := Function.update state.sectionCapacities sec
      (state.sectionCapacities sec - count) }

/-! ## Filling sections -/

variable (c)

/-- Whether a section covers all lunch timeslots of some day. -/
def coversLunch (si : c.Section) : Bool :=
  c.lunchTimeslots.any fun day =>
    day.length != 0 && decide (c.lunchWidth ≤ (day.filter (c.lunchOverlap si)).length)

/-- The lunch filter at one timeslot of a section.  It reads `student_schedules`, which the
controller does not have. -/
def lunchFilter (ts : c.Timeslot) : Raises Unit :=
  match c.lunchTimeslots.find? fun day => day.contains (some ts) with
  | some day => if day.all (· == some ts) then .ok () else .error .attributeError
  | none => .ok ()

variable {c}

/-- Whether a student may be given a section at a priority level, 0 being none. -/
def possible (state : c.State) (si : c.Section) (priority : ℕ) (student : c.Student) : Bool :=
  (anyOf fun ts => c.request student si ts) &&
  (anyOf fun ts => c.waitlist priority student si ts) &&
  (!c.checkGrade ||
    (decide (c.sectionGradeMin si ≤ c.studentGrades student) &&
      decide (c.studentGrades student ≤ c.sectionGradeMax si))) &&
  ((nonzero (c.sectionSchedules si)).all fun ts =>
    !anyOf fun other => state.enrollFinal student other ts) &&
  ((nonzero fun other => c.sameSubject other si).all fun other =>
    !anyOf fun ts => state.enrollFinal student other ts)

/-- The students that get a section: every candidate if there is room, else a random
choice.  Also whether the section was filled, and the draws that are left. -/
def select (state : c.State) (si : c.Section) (candidates : List c.Student) :
    List c.Student × Bool × Source :=
  let spaces := (max (state.sectionCapacities si) 0).toNat
  if candidates.length ≤ spaces then (candidates, false, state.source)
  else
    let chosen := choice candidates spaces state.source
    (chosen.1, true, chosen.2)

/-- `fill_section`; it also returns whether the section was filled. -/
def fillSection (si : c.Section) (priority : ℕ) (state : c.State) : Raises (Bool × c.State) := do
  let timeslots := nonzero (c.sectionSchedules si)
  if timeslots.isEmpty || c.coversLunch si then
    return (false, state)
  forEach timeslots c.lunchFilter
  let candidates := nonzero (possible state si priority)
  let (selected, filled, source) := select state si candidates
  assert (selected.all fun student => !anyOf fun ts => state.enrollFinal student si ts) ""
  return (filled, { (state.enroll selected si true).fill si selected.length with source })

/-! ## Pushing students back -/

/-- Whether a student was enrolled in a section and has nothing at its times now. -/
def toPush (state : c.State) (sec : c.Section) (student : c.Student) : Bool :=
  c.anyIn c.enrollOrig student sec && !c.anyDuring state.enrollFinal student sec

/-- Whether a student is enrolled in a section that he requested. -/
def kickable (state : c.State) (sec : c.Section) (student : c.Student) : Bool :=
  c.anyIn (fun student sec ts => state.enrollFinal student sec ts && c.request student sec ts)
    student sec

variable (c)

/-- `old_sections`: the positions among a section's timeslots at which a student was
enrolled in any section.  In `enroll_orig[student,:, schedule]` the axis of the timeslots
comes first, so that `any(axis=1)` goes over the sections. -/
def oldSections (student : c.Student) (sec : c.Section) : List ℕ :=
  ((nonzero (c.sectionSchedules sec)).zipIdx.filter fun slot =>
    anyOf fun other => c.enrollOrig student other slot.1).map Prod.snd

/-- `section_scores[index]`. -/
def scoreAt (index : ℕ) : Raises ℤ :=
  if valid : index < c.numSections then .ok (c.sectionScores ⟨index, valid⟩)
  else .error .indexError

def put (student : c.Student) (score : ℤ) (queue : List (Entry c.numStudents) × Source) :
    List (Entry c.numStudents) × Source :=
  (queue.1 ++ [toLex (score, toLex (queue.2 0, student))], queue.2.rest)

def putStudent (sec : c.Section) (student : c.Student)
    (queue : List (Entry c.numStudents) × Source) :
    Raises (List (Entry c.numStudents) × Source) :=
  match c.oldSections student sec with
  | [] => .ok (c.put student 0 queue)
  | oldSections =>
      forLoop (fun index queue => (c.scoreAt index).map fun score => c.put student score queue)
        oldSections queue

variable {c}

def buildQueue (sec : c.Section) (state : c.State) :
    Raises (List (Entry c.numStudents) × Source) :=
  let shuffled := shuffleRows (nonzero (kickable state sec)) state.source
  forLoop (c.putStudent sec) shuffled.1 ([], shuffled.2)

/-- The state with a kick queue for a section, built when it is first needed. -/
def withQueue (sec : c.Section) (state : c.State) : Raises c.State :=
  match state.studentsToKick sec with
  | some _ => .ok state
  | none =>
      (buildQueue sec state).map fun built =>
        { state with
          studentsToKick := Function.update state.studentsToKick sec (some built.1)
          source := built.2 }

/-- Kicks the first student of a section's queue, if there is one. -/
def kick (sec : c.Section) (state : c.State) : c.State :=
  match (state.studentsToKick sec).bind popLeast with
  | some (entry, rest) =>
      { state.enroll [(ofLex (ofLex entry).2).2] sec false with
        studentsToKick := Function.update state.studentsToKick sec (some rest) }
  | none => state

def pushStudent (sec : c.Section) (student : c.Student) (state : c.State) : Raises c.State :=
  let state := state.enroll [student] sec true
  if 0 < state.sectionCapacities sec then .ok (state.fill sec 1)
  else (withQueue sec state).map (kick sec)

/-- Enrolls the students of a section back into it.  The flag is `more_pushing`. -/
def pushSection (sec : c.Section) (state : c.State × Bool) : Raises (c.State × Bool) :=
  let students := nonzero (toPush state.1 sec)
  (forLoop (pushStudent sec) students state.1).map fun pushed =>
    (pushed, state.2 || !students.isEmpty)

/-- `sorted_section_indices.sort(key=...)`, which is stable. -/
def State.sortSections (state : c.State) (key : c.Section → ℤ) : c.State :=
  { state with
    sortedSectionIndices :=
      state.sortedSectionIndices.insertionSort fun left right => key left ≤ key right }

/-- One round over the sections, by decreasing remaining capacity. -/
def pushRound (state : c.State) : Raises (c.State × Bool) :=
  let state := state.sortSections fun sec => -state.sectionCapacities sec
  forLoop pushSection state.sortedSectionIndices (state, false)

/-- `push_back_students`, for at most the given number of rounds. -/
def pushBackStudents (rounds : ℕ) (state : c.State) : Option (Raises c.State) :=
  whileLoop pushRound rounds { state with studentsToKick := fun _ => none }

variable (c)

def fillSections (priority : ℕ) (state : c.State) : Raises c.State :=
  forLoop (fun si state => (fillSection si priority state).map Prod.snd)
    state.sortedSectionIndices state

/-- `compute_assignments` up to `push_back_students`. -/
def fillAll (source : Source) : Raises c.State :=
  let state := { c.clearAssignments source with
    sortedSectionIndices := List.finRange c.numSections }
  forLoop c.fillSections ((List.range c.priorityLimit).map (· + 1) ++ [0])
    (state.sortSections c.sectionScores)

/-- `compute_assignments`, with at most the given number of rounds of pushing back. -/
def computeAssignments (rounds : ℕ) (source : Source) : Option (Raises c.State) :=
  match c.fillAll source with
  | .error raised => some (.error raised)
  | .ok state => pushBackStudents rounds state

end ClassChangeController

end EspWebsite.ClassChange
