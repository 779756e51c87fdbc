import EspWebsite.Registration.DataModel

/-!
# Registering for a section

`ClassSection` of `program/models/class_.py`: when a section is full, and how a student is
registered for it and taken out of it.
-/

namespace EspWebsite.Registration

/-- The arguments of `preregister_student`, after the student, and whether an onsite
administrator acts for the student. -/
structure Options where
  overridefull : Bool := false
  priority : ℕ := 1
  preregVerb : Option String := none
  fastForceCreate : Bool := false
  webapp : Bool := false
  isMorphed : Bool := false

namespace Site

variable (site : Site) (db : Database) (sec user : ℕ) (now : DateTime)

/-- The program goes by who attends its classes, so many minutes after their start. -/
def lagPassed : Bool :=
  match site.switchLag (site.parentProgram sec), site.startTime sec with
  | some lag, some start => lag ≠ 0 && decide (start + lag * minute ≤ now)
  | _, _ => false

/-- The program goes by who is checked in, from a time of the day on. -/
def switchPassed : Bool :=
  match site.switchTime (site.parentProgram sec) with
  | some switchTime => decide (midnight now + switchTime * minute ≤ now)
  | none => false

/-- The fullness of the section is based on class attendance. -/
def byClassAttendance : Bool :=
  site.lagPassed sec now && decide (1 ≤ db.countAttendingStudents sec now)

/-- The fullness of the section is based on program attendance, if not on class
attendance. -/
def byProgramAttendance : Bool :=
  site.switchPassed sec now &&
    decide (5 ≤ (db.currentlyCheckedInStudents (site.parentProgram sec)).card)

def numStudentsCheckedIn : ℕ :=
  (db.students sec "Enrolled" now ∩
    db.currentlyCheckedInStudents (site.parentProgram sec)).card

/-- The number of students that is compared with the capacity. -/
def countedStudents (webapp : Bool) : ℕ :=
  if webapp && site.byClassAttendance db sec now then
    db.countAttendingStudents sec now
  else if webapp && site.byProgramAttendance db sec now then
    site.numStudentsCheckedIn db sec now
  else db.numStudents sec now

def isFull (ignoreChanges webapp : Bool) : Bool :=
  if (site.meetingTimes sec).isEmpty then true
  else if db.numStudents sec now = 0 ∧ site.capacity sec ignoreChanges = 0 then
    false
  else decide (site.capacity sec ignoreChanges ≤
    site.countedStudents db sec now webapp)

/-- The registration type that `preregister_student` uses. -/
def verb (options : Options) : String :=
  match options.preregVerb with
  | some verb => verb
  | none =>
      if site.usePriority (site.parentProgram sec) then
        "Priority/" ++ toString options.priority
      else "Enrolled"

def mailingLists : List MailingList :=
  [.ofSection sec, .ofClass (site.parentClass sec),
    .ofProgram (site.parentProgram sec)]

end Site

namespace Database

variable (db : Database) (sec user : ℕ) (now : DateTime)

/-- A new registration starts now and does not end. -/
def register (verb : String) : Database :=
  { db with registrations := db.registrations ++ [⟨⟨some now, none⟩, user, sec, verb⟩] }

def addListMember (list : MailingList) : Database :=
  { db with members := insert (list, user) db.members }

def removeListMember (list : MailingList) : Database :=
  { db with members := db.members.erase (list, user) }

/-- The valid registrations of the student in the section that have one of some verbs, or
any verb if none is given. -/
def concerns (verbs : List String) (row : StudentRegistration) : Bool :=
  row.isValid now && row.classSection = sec && row.user = user &&
    (verbs.isEmpty || decide (row.relationship ∈ verbs))

/-- The registrations that a condition selects end now. -/
def expire (condition : StudentRegistration → Bool) : Database :=
  { db with registrations := db.registrations.map fun row =>
      if condition row then { row with endDate := some now } else row }

end Database

namespace Site

variable (site : Site) (db : Database) (sec user : ℕ) (now : DateTime)

/-- The note on how a student came to be registered. -/
def annotate (options : Options) : Database :=
  if options.webapp then db.register sec user now "Onsite/Webapp"
  else if options.isMorphed then db.register sec user now "OnSite/ChangedClasses"
  else db

/-- The registrations that `preregister_student` adds. -/
def addRegistrations (options : Options) : Database :=
  let verb := site.verb sec options
  if options.fastForceCreate then db.register sec user now verb
  else if (db.getRegistrations sec user now).any fun row => row.relationship = verb then db
  else annotate (db.register sec user now verb) sec user now options

/-- `preregister_student`: false if the section is full. -/
def preregisterStudent (options : Options) : Bool × Database :=
  if options.overridefull || options.fastForceCreate ||
      !site.isFull db sec now false options.webapp then
    let registered := site.addRegistrations db sec user now options
    if options.fastForceCreate then (true, registered)
    else (true, (site.mailingLists sec).foldl
      (fun db list => db.addListMember user list) registered)
  else (false, db)

/-- The student has a valid registration as enrolled in a section of the program. -/
def isEnrolled (program : ℕ) : Bool :=
  db.registrations.any fun row =>
    row.isValid now && row.user = user && site.parentProgram row.classSection = program &&
      row.relationship = "Enrolled"

def unpreregisterStudent (preregVerbs : List String) : Database :=
  let expired := db.expire now (Database.concerns sec user now preregVerbs)
  let removed :=
    (expired.removeListMember user (.ofSection sec)).removeListMember user
      (.ofClass (site.parentClass sec))
  if site.isEnrolled removed user now (site.parentProgram sec) then removed
  else removed.removeListMember user (.ofProgram (site.parentProgram sec))

end Site

end EspWebsite.Registration
