import EspWebsite.Library.Python
import EspWebsite.Registration.ClassSection

/-!
# What a student cannot add

`cannotAdd` of sections and classes in `program/models/class_.py`, which return an error
message, or the empty text for `False`, and `getRegistrationPriority` of
`users/models/__init__.py`.
-/

namespace EspWebsite.Registration

open Python

/-- The dictionary of a `ScheduleMap`: the sections at each of the events of a program. -/
abbrev ScheduleMap := ℕ → Option (List ℕ)

/-- A schedule constraint: the label of its requirement, and what `evaluate` makes of a
schedule map.  Trying again after a failure changes nothing. -/
structure ScheduleConstraint where
  label : String
  evaluate : ScheduleMap → Bool

/-- More of what registering reads.  `sections` is the table of sections, `assigned` tells
whether a section has a resource, and `userCanJoin` is what the size limits of a program make
of the registrations. -/
structure Catalog extends Site where
  sections : List ℕ
  nodup : sections.Nodup
  title : ℕ → String
  status : ℕ → ℤ
  registrationStatus : ℕ → ℤ
  assigned : ℕ → Bool
  classStatus : ℕ → ℤ
  gradeMin : ℕ → ℤ
  gradeMax : ℕ → ℤ
  timeSlots : ℕ → List ℕ
  scheduleConstraints : ℕ → List ScheduleConstraint
  priorityLimit : ℕ → ℤ
  enforceMax : ℕ → Bool
  temporarilyFullText : ℕ → String
  isStudent : ℕ → Bool
  getGrade : ℕ → ℕ → ℤ
  gradeOverride : ℕ → ℕ → Bool
  userCanJoin : ℕ → ℕ → List StudentRegistration → DateTime → Bool

/-- `ClassStatus.CANCELLED`. -/
def cancelled : ℤ := -20

/-- `ClassStatus.ACCEPTED`. -/
def accepted : ℤ := 10

/-- `OPEN`. -/
def opened : ℤ := 0

namespace Catalog

variable (catalog : Catalog) (db : Database) (user program classSection classSubject : ℕ)
  (now : DateTime)

def timeslotIds : List ℕ := (catalog.meetingTimes classSection).map Event.id

/-- `get_sections` of a class. -/
def getSections : List ℕ :=
  catalog.sections.filter fun classSection => catalog.parentClass classSection = classSubject

def getSectionsFromProgram : List ℕ :=
  catalog.sections.filter fun classSection =>
    catalog.parentProgram classSection = program &&
      !(db.getRegistrations classSection user now).isEmpty

def getEnrolledSectionsFromProgram : List ℕ :=
  catalog.sections.filter fun classSection =>
    catalog.parentProgram classSection = program &&
      decide (user ∈ db.students classSection "Enrolled" now)

/-! ## Schedule maps -/

def mapOf (schedule : List ℕ) : ScheduleMap := fun timeslot =>
  if timeslot ∈ catalog.timeSlots program then
    some (schedule.flatMap fun classSection =>
      ((catalog.timeslotIds classSection).filter fun id => id = timeslot).map
        fun _ => classSection)
  else none

/-- `populate`, which finds no entry for an event that is not a timeslot of the program. -/
def populate (schedule : List ℕ) : Raises ScheduleMap :=
  if schedule.all fun classSection =>
      (catalog.timeslotIds classSection).all fun id => id ∈ catalog.timeSlots program then
    .ok (catalog.mapOf program schedule)
  else .error .keyError

def addSection (map : ScheduleMap) : Raises ScheduleMap :=
  if (catalog.timeslotIds classSection).all fun id => (map id).isSome then
    .ok fun timeslot => (map timeslot).map fun sections => sections ++
      ((catalog.timeslotIds classSection).filter fun id => id = timeslot).map
        fun _ => classSection
  else .error .keyError

/-- The message for the first constraint that a schedule with the section violates. -/
def constraintError (schedule : List ℕ) : Raises String :=
  let constraints := catalog.scheduleConstraints (catalog.parentProgram classSection)
  if constraints.isEmpty then .ok ""
  else do
    let map ← catalog.populate (catalog.parentProgram classSection) schedule
    let map ← catalog.addSection classSection map
    match constraints.find? fun constraint => !constraint.evaluate map with
    | some constraint =>
        .ok ("Adding <i>" ++ catalog.title (catalog.parentClass classSection) ++
          "</i> to your schedule requires that you " ++ constraint.label ++
          ".  You can go back and correct this.")
    | none => .ok ""

/-! ## Conflicts -/

/-- The start of `firstBlockEvent` of a class. -/
def classStart : Option DateTime :=
  (((catalog.getSections classSubject).flatMap catalog.meetingTimes).map Event.start).min?

/-- `==` of classes, which compares their first starts and their titles. -/
def sameClass (other : ℕ) : Bool :=
  catalog.classStart classSubject = catalog.classStart other &&
    catalog.title classSubject = catalog.title other

/-- `==` of sections. -/
def sameSection (other : ℕ) : Bool :=
  catalog.startTime classSection = catalog.startTime other &&
    catalog.title (catalog.parentClass classSection) = catalog.title (catalog.parentClass other)

/-- Two sections have a timeslot in common. -/
def overlaps (other : ℕ) : Bool :=
  (catalog.timeslotIds other).any fun id => id ∈ catalog.timeslotIds classSection

/-- The class has another accepted section with a time and a resource. -/
def hasOtherSections : Bool :=
  (catalog.getSections (catalog.parentClass classSection)).any fun other =>
    catalog.assigned other && !(catalog.meetingTimes other).isEmpty &&
      catalog.status other = accepted && other ≠ classSection

/-- The message for the first section of a schedule that is of the same class or in
conflict. -/
def conflictError : List ℕ → String
  | [] => ""
  | sec :: rest =>
      if catalog.sameClass (catalog.parentClass sec) (catalog.parentClass classSection) then
        "You are already signed up for a section of this class!"
      else if catalog.overlaps classSection sec then
        if catalog.hasOtherSections classSection then
          "This section conflicts with your schedule--check out the other sections!"
        else "This class conflicts with your schedule!"
      else conflictError rest

def isRegOpen : Bool := catalog.registrationStatus classSection = opened

def isCancelled : Bool := catalog.status classSection = cancelled

/-! ## Priorities -/

/-- The first level from some level on that is not taken, among so many. -/
def firstFree (taken : List ℕ) : ℕ → ℕ → ℕ
  | 0, priority => priority
  | further + 1, priority =>
      if priority ∈ taken then firstFree taken further (priority + 1) else priority

/-- The levels that `getRegistrationPriority` finds taken at some timeslots. -/
def takenPriorities (timeslots : List Event) : List ℕ :=
  (catalog.getSectionsFromProgram db user program now).flatMap fun sec =>
    (catalog.meetingTimes sec).flatMap fun t =>
      if t.id ∈ timeslots.map Event.id then
        -- The code takes the level from a slice of the registration type, not of its name;
        -- that fails, and so each type counts as the first level.  For the same reason no
        -- type is equal to `'Enrolled'`.
        ((db.getRegistrations sec user now).filter fun v =>
          startswith v.relationship "Priority").map fun _ => 1
      else []

def getRegistrationPriority (timeslots : List Event) : ℕ :=
  if timeslots.length < 1 then 0
  else
    let taken := catalog.takenPriorities db user program now timeslots
    firstFree taken taken.sum 1

/-! ## Adding -/

/-- The error of adding a section to a schedule, where the section may be full and the next
priority of the student is known. -/
def cannotAddTo (schedule : List ℕ) (full : Bool) (priority : ℕ) : Raises String :=
  let program := catalog.parentProgram classSection
  if full then .ok (catalog.temporarilyFullText program)
  else do
    let constraintError ← catalog.constraintError classSection schedule
    if constraintError ≠ "" then .ok constraintError
    else if catalog.conflictError classSection schedule ≠ "" then
      .ok (catalog.conflictError classSection schedule)
    else if !catalog.isRegOpen classSection then
      .ok "Registration for this section is not currently open."
    else if catalog.isCancelled classSection then .ok "This section has been cancelled."
    else if catalog.usePriority program && decide (catalog.priorityLimit program < priority) then
      .ok ("You are only allowed to select up to " ++ toString (catalog.priorityLimit program) ++
        " top classes")
    else .ok ""

/-- `cannotAdd` of a section, without `ignore_constraints`. -/
def cannotAdd (checkFull webapp : Bool) : Raises String :=
  let program := catalog.parentProgram classSection
  catalog.cannotAddTo classSection (catalog.getEnrolledSectionsFromProgram db user program now)
    (checkFull && catalog.isFull db classSection now false webapp)
    (catalog.getRegistrationPriority db user program now (catalog.meetingTimes classSection))

/-- `isFull` of a class. -/
def isFullClass (webapp : Bool) : Bool :=
  (catalog.getSections classSubject).all fun classSection =>
    catalog.isFull db classSection now false webapp

/-- The loop of `cannotAdd` of a class over its sections, with the last error so far. -/
def cannotAddAny (checkFull webapp : Bool) : List ℕ → Option String → Raises String
  | [], none => .error (.raised "UnboundLocalError" "")
  | [], some error => .ok (if error = "" then "This class conflicts with your schedule!" else error)
  | classSection :: rest, _ => do
      let error ← catalog.cannotAdd db user classSection now checkFull webapp
      if error = "" then .ok "" else cannotAddAny checkFull webapp rest (some error)

/-- `cannotAdd` of a class. -/
def cannotAddClass (checkFull webapp : Bool) : Raises String :=
  let program := catalog.classProgram classSubject
  if !catalog.isStudent user then .ok "You are not a student!"
  else if catalog.classStatus classSubject ≤ 0 then .ok "This class is not accepted."
  else if checkFull && !catalog.userCanJoin program user db.registrations now then
    .ok "This program cannot accept any more students!  Please try again in its next session."
  else if checkFull && catalog.isFullClass db classSubject now webapp then
    .ok (catalog.temporarilyFullText program)
  else if (catalog.getGrade user program < catalog.gradeMin classSubject ∨
      catalog.gradeMax classSubject < catalog.getGrade user program) ∧
        catalog.gradeOverride user program = false then
    .ok "You are not in the requested grade range for this class."
  else if (catalog.getSections classSubject).any fun classSection =>
      user ∈ db.students classSection "Enrolled" now then
    .ok "You are already signed up for a section of this class!"
  else catalog.cannotAddAny db user now checkFull webapp (catalog.getSections classSubject) none

/-- The error of `addclass_logic`: that of the class, if it is looked at, or that of the
section. -/
def addError (webapp : Bool) : Raises String := do
  let checkFull := catalog.enforceMax program
  let sectionError ← catalog.cannotAdd db user classSection now checkFull webapp
  if catalog.usePriority program || sectionError = "" then
    let cobjError ← catalog.cannotAddClass db user classSubject now checkFull webapp
    .ok (if cobjError ≠ "" then cobjError else sectionError)
  else .ok sectionError

/-- The level with which `addclass_logic` registers a student. -/
def addPriority : ℕ :=
  if catalog.usePriority program then
    catalog.getRegistrationPriority db user program now (catalog.meetingTimes classSection)
  else 1

/-- `addclass_logic`: the database after a student, or an onsite administrator for one, adds a
section. -/
def addclassLogic (onsiteLocal webapp isMorphed : Bool) : Raises Database :=
  if ¬(classSection ∈ catalog.sections ∧ catalog.parentClass classSection = classSubject ∧
      catalog.parentProgram classSection = program) then
    .error (.raised "Http404" "")
  else do
    let error ← catalog.addError db user program classSection classSubject now webapp
    if error ≠ "" && !onsiteLocal then .error (.raised "ESPError" error)
    else
      match catalog.preregisterStudent db classSection user now
          { overridefull := onsiteLocal
            priority := catalog.addPriority db user program classSection now
            webapp, isMorphed } with
      | (true, after) => .ok after
      | (false, _) => .error (.raised "ESPError" <|
          "According to our latest information, this class is full. " ++
            "Please go back and choose another class.")

section Errors

variable {catalog : Catalog} {classSection priority : ℕ} {schedule : List ℕ} {raised : PyError}

theorem cannotAddTo_eq_empty_iff :
    catalog.cannotAddTo classSection schedule false priority = .ok "" ↔
      catalog.constraintError classSection schedule = .ok "" ∧
        catalog.conflictError classSection schedule = "" ∧
          catalog.isRegOpen classSection = true ∧ catalog.isCancelled classSection = false ∧
            (catalog.usePriority (catalog.parentProgram classSection) = true →
              (priority : ℤ) ≤ catalog.priorityLimit (catalog.parentProgram classSection)) := by
  rw [cannotAddTo, if_neg Bool.false_ne_true, bind_eq_ok]
  constructor
  · intro passes
    rcases passes with ⟨constraintError, evaluated, passes⟩
    split at passes
    next violated => exact absurd (Except.ok.inj passes) violated
    next satisfied =>
      split at passes
      next conflicting => exact absurd (Except.ok.inj passes) conflicting
      next free =>
        split at passes
        next => exact absurd (Except.ok.inj passes) (by decide)
        next isOpen =>
          split at passes
          next => exact absurd (Except.ok.inj passes) (by decide)
          next notCancelled =>
            split at passes
            next => exact absurd (Except.ok.inj passes) (by simp)
            next within =>
              rw [not_not.mp satisfied] at evaluated
              simp only [Bool.not_eq_true', Bool.not_eq_false] at isOpen
              simp only [Bool.and_eq_true, decide_eq_true_eq, not_and, not_lt] at within
              exact ⟨evaluated, not_not.mp free, isOpen, eq_false_of_ne_true notCancelled, within⟩
  · intro checks
    rcases checks with ⟨satisfied, free, isOpen, notCancelled, within⟩
    refine ⟨"", satisfied, ?_⟩
    rw [if_neg (not_not.mpr rfl), if_neg (not_not.mpr free), isOpen, notCancelled,
      if_neg (by decide), if_neg (by decide), if_neg]
    simp only [Bool.and_eq_true, decide_eq_true_eq, not_and, not_lt]
    exact within

theorem cannotAddTo_eq_error_iff :
    catalog.cannotAddTo classSection schedule false priority = .error raised ↔
      catalog.constraintError classSection schedule = .error raised := by
  rw [cannotAddTo, if_neg Bool.false_ne_true]
  cases catalog.constraintError classSection schedule with
  | error other => exact Iff.rfl
  | ok constraintError =>
      refine iff_of_false (fun fails => ?_) (fun fails => by cases fails)
      change (if _ then _ else _) = _ at fails
      repeat' split at fails
      all_goals cases fails

end Errors

end Catalog

theorem Sample.sections_nodup : [0, 1, 2].Nodup := by decide

end EspWebsite.Registration
