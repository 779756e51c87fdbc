import EspWebsite.Utils.ExpirableModel

/-!
# Students, sections and registrations

The rows of `program/models/class_.py` and `program/models/__init__.py` that registering
students reads and writes.
-/

namespace EspWebsite.Registration

/-- `Event`. -/
structure Event where
  id : ℕ
  start : DateTime
  deriving DecidableEq

/-- `StudentRegistration`.  A registration type is told by its name. -/
structure StudentRegistration extends ExpirableModel where
  user : ℕ
  classSection : ℕ
  relationship : String
  deriving DecidableEq

/-- The mailing lists of the students of a section, a class and a program. -/
inductive MailingList where
  | ofSection (sec : ℕ)
  | ofClass (classSubject : ℕ)
  | ofProgram (program : ℕ)
  deriving DecidableEq

/-- What registering changes.  `members` are the mailing lists with the users on them,
`checkedIn` the programs with the users who are checked in. -/
structure Database where
  registrations : List StudentRegistration
  members : Finset (MailingList × ℕ)
  checkedIn : Finset (ℕ × ℕ)
  deriving DecidableEq

/-- What registering reads and does not change: classes and their sections, and the settings
of programs.  `capacity` is what `_get_capacity` gets from rooms and class sizes, for each
value of `ignore_changes`; `switchTime` is the minute of the day, and `switchLag` the number
of minutes after the start of a class, that the tags of a program contain. -/
structure Site where
  parentClass : ℕ → ℕ
  classProgram : ℕ → ℕ
  meetingTimes : ℕ → List Event
  capacity : ℕ → Bool → ℤ
  usePriority : ℕ → Bool
  switchTime : ℕ → Option ℕ
  switchLag : ℕ → Option ℤ

namespace Site

variable (site : Site)

/-- `parent_program` of a section. -/
def parentProgram (sec : ℕ) : ℕ := site.classProgram (site.parentClass sec)

/-- `start_time_prefetchable`. -/
def startTime (sec : ℕ) : Option DateTime :=
  ((site.meetingTimes sec).map Event.start).min?

end Site

def minute : ℤ := 60 * 1000000

/-- Midnight of the day of a time. -/
def midnight (now : DateTime) : DateTime := now - now % (24 * 60 * minute)

namespace Database

variable (db : Database)

/-- The registrations of a student in a section that are valid. -/
def getRegistrations (sec user : ℕ) (now : DateTime) : List StudentRegistration :=
  db.registrations.filter fun row =>
    row.isValid now && row.classSection = sec && row.user = user

/-- `students` of a section. -/
def students (sec : ℕ) (verb : String) (now : DateTime) : Finset ℕ :=
  ((db.registrations.filter fun row =>
    row.isValid now && row.classSection = sec && row.relationship = verb).map
      StudentRegistration.user).toFinset

def numStudents (sec : ℕ) (now : DateTime) : ℕ :=
  (db.students sec "Enrolled" now).card

def countAttendingStudents (sec : ℕ) (now : DateTime) : ℕ :=
  (db.students sec "Attended" now).card

/-- `currentlyCheckedInStudents` of a program. -/
def currentlyCheckedInStudents (program : ℕ) : Finset ℕ :=
  (db.checkedIn.filter fun entry => entry.1 = program).image Prod.snd

variable {db} {sec user : ℕ} {verb : String} {now : DateTime}

theorem mem_students : user ∈ db.students sec verb now ↔
    ∃ row ∈ db.registrations, row.isValid now = true ∧ row.classSection = sec ∧
      row.relationship = verb ∧ row.user = user := by
  simp only [students, List.mem_toFinset, List.mem_map, List.mem_filter, Bool.and_eq_true,
    decide_eq_true_eq, and_assoc]

theorem mem_getRegistrations {row : StudentRegistration} :
    row ∈ db.getRegistrations sec user now ↔
      row ∈ db.registrations ∧ row.isValid now = true ∧ row.classSection = sec ∧
        row.user = user := by
  simp only [getRegistrations, List.mem_filter, Bool.and_eq_true, decide_eq_true_eq, and_assoc]

theorem mem_students_iff_exists_getRegistrations :
    user ∈ db.students sec verb now ↔
      ∃ row ∈ db.getRegistrations sec user now, row.relationship = verb := by
  rw [mem_students]
  constructor
  · intro isStudent
    rcases isStudent with ⟨row, isRow, valid, ofSection, verbed, ofUser⟩
    exact ⟨row, mem_getRegistrations.mpr ⟨isRow, valid, ofSection, ofUser⟩, verbed⟩
  · intro registered
    rcases registered with ⟨row, isRow, verbed⟩
    rcases mem_getRegistrations.mp isRow with ⟨isRow, valid, ofSection, ofUser⟩
    exact ⟨row, isRow, valid, ofSection, verbed, ofUser⟩

end Database

end EspWebsite.Registration
