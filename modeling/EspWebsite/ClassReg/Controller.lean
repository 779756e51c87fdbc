import EspWebsite.Library.Loops
import EspWebsite.Library.Tables

/-!
# Registering classes

`ClassCreationController` of `program/controllers/classreg.py`, as far as the hours that
teachers teach are concerned: a class is stored with its sections, edited, or promoted from a
draft, after a check that its teachers have time for it.
-/

namespace EspWebsite.ClassReg

open Python Loops Tables

namespace ClassStatus

def CANCELLED : ℤ := -20
def REJECTED : ℤ := -10
def DRAFT : ℤ := -5
def UNREVIEWED : ℤ := 0

end ClassStatus

/-- A section; its duration is in hours. -/
structure ClassSection where
  status : ℤ
  duration : Option ℚ
  enrolled_students : ℕ
  deriving DecidableEq

/-- A class with its teachers, and its sections in the order of their ids. -/
structure ClassSubject where
  id : ℕ
  parent_program : ℕ
  status : ℤ
  duration : Option ℚ
  teachers : List ℕ
  sections : List ClassSection
  deriving DecidableEq

instance : Keyed ClassSubject := ⟨ClassSubject.id⟩

/-- The stored classes. -/
abbrev Database := Table ClassSubject

/-- The cleaned data of the registration form that decide about hours. -/
structure RegForm where
  duration : ℚ
  num_sections : ℕ

/-- The program of the controller, and the names of users that its errors contain. -/
structure Site where
  program : ℕ
  total_duration : ℚ
  name : ℕ → String
  first_name : ℕ → String

/-- `_get_total_time_requested`. -/
def RegForm.totalTimeRequested (form : RegForm) : ℚ := form.duration * form.num_sections

/-- `float` of a duration that may be missing. -/
def floatOf : Option ℚ → Raises ℚ
  | none => .error .typeError
  | some hours => .ok hours

/-! ## The time a user teaches -/

/-- `getTaughtClassesFromProgram`, without rejected classes and drafts. -/
def getTaughtClasses (db : Database) (program user : ℕ) : List ClassSubject :=
  db.rows.filter fun cls => user ∈ cls.teachers ∧ cls.parent_program = program ∧
    cls.status ≠ ClassStatus.REJECTED ∧ cls.status ≠ ClassStatus.DRAFT

/-- `getTaughtSectionsFromProgram`: each section with its parent class. -/
def getTaughtSections (db : Database) (program user : ℕ) : List (ClassSubject × ClassSection) :=
  (getTaughtClasses db program user).flatMap fun cls =>
    (cls.sections.filter fun sec =>
      sec.status ≠ ClassStatus.REJECTED ∧ sec.status ≠ ClassStatus.DRAFT).map (Prod.mk cls)

/-- A section that `getTaughtTime` counts: neither it nor its class is cancelled or rejected. -/
def counts (entry : ClassSubject × ClassSection) : Bool :=
  0 ≤ entry.2.status ∧ 0 ≤ entry.1.status

/-- One round of the loop of `getTaughtTime`. -/
def addTime (entry : ClassSubject × ClassSection) (total_time : ℚ) : Raises ℚ :=
  if counts entry then
    match floatOf entry.2.duration with
    | .error raised => .error raised
    | .ok hours => .ok (total_time + hours)
  else .ok total_time

/-- `getTaughtTime` with its default arguments. -/
def getTaughtTime (db : Database) (program user : ℕ) : Raises ℚ :=
  forLoop addTime (getTaughtSections db program user) 0

def teacher_has_time (site : Site) (db : Database) (user : ℕ) (hours : ℚ) : Raises Bool := do
  let taught ← getTaughtTime db site.program user
  return taught + hours ≤ site.total_duration

def noTimeMessage (site : Site) (user current_user : ℕ) : String :=
  if user = current_user then
    "We love you too!  However, you attempted to register for more hours of class than we have " ++
      "in the program.  Please go back to the class editing page and reduce the duration, or " ++
      "remove or shorten other classes to make room for this one."
  else
    site.name user ++ " doesn't have enough free time to teach a class of this length.  Please " ++
      "go back to the class editing page and reduce the duration, or have " ++
      site.first_name user ++ " remove or shorten other classes to make room for this one."

def require_teacher_has_time (site : Site) (db : Database) (user current_user : ℕ) (hours : ℚ) :
    Raises Unit := do
  let hasTime ← teacher_has_time site db user hours
  if hasTime then .ok ()
  else .error (.raised "ESPError" (noTimeMessage site user current_user))

/-! ## Writing a class -/

namespace ClassSubject

variable (cls : ClassSubject)

def setClassData (form : RegForm) : ClassSubject := { cls with duration := some form.duration }

/-- `add_section`: the new section has the status of the class. -/
def newSection : ClassSection := ⟨cls.status, cls.duration, 0⟩

/-- The sections that are left for a number of them: missing ones are added, and those past the
number are deleted, unless students are enrolled. -/
def remainingSections (num_sections : ℕ) : List ClassSection :=
  let section_list :=
    cls.sections ++ List.replicate (num_sections - cls.sections.length) cls.newSection
  section_list.take num_sections ++
    (section_list.drop num_sections).filter fun sec => 0 < sec.enrolled_students

/-- `update_class_sections`: at last all sections get the duration of the class. -/
def updateClassSections (num_sections : ℕ) : ClassSubject :=
  { cls with sections :=
      (cls.remainingSections num_sections).map fun sec => { sec with duration := cls.duration } }

def makeTeacher (user : ℕ) : ClassSubject :=
  if user ∈ cls.teachers then cls else { cls with teachers := cls.teachers ++ [user] }

/-- One section in `set_all_sections_to_status`.  For a cancelled or rejected one it calls
`self.num_sections()`, which raises: `set_class_data` has put the string of the form in the
place of that method. -/
def unreviewSection (sec : ClassSection) : Raises ClassSection :=
  if sec.status = ClassStatus.CANCELLED ∨ sec.status = ClassStatus.REJECTED then
    .error .typeError
  else .ok { sec with status := ClassStatus.UNREVIEWED }

/-- `propose`, after `set_class_data`. -/
def propose : Raises ClassSubject := do
  let unreviewed ← cls.sections.mapM unreviewSection
  return { cls with status := ClassStatus.UNREVIEWED, sections := unreviewed }

def make_class_happen (user : Option ℕ) (form : RegForm) (editing : Bool) :
    Raises ClassSubject :=
  let updated := (cls.setClassData form).updateClassSections form.num_sections
  match user with
  | none => .ok updated
  | some user =>
      let associated := if editing then updated else updated.makeTeacher user
      if user ∈ associated.teachers then associated.propose else .ok associated

end ClassSubject

/-! ## The calls -/

def newClass (program id : ℕ) : ClassSubject :=
  ⟨id, program, ClassStatus.UNREVIEWED, none, [], []⟩

/-- `ClassSubject.objects.get(id=clsid)`. -/
def getClass (db : Database) (verb : String) (clsid : ℕ) : Raises ClassSubject :=
  match db.get? clsid with
  | some cls => .ok cls
  | none => .error (.raised "ESPError" ("The class you're trying to " ++ verb ++ " (ID " ++
      toString clsid ++ ") does not exist!"))

def makeaclass (site : Site) (db : Database) (user : ℕ) (form : RegForm) : Raises Database := do
  require_teacher_has_time site db user user form.totalTimeRequested
  let cls ← (newClass site.program db.next).make_class_happen (some user) form false
  return db.create (fun id => { cls with id := id }) fun _ => rfl

def editclass (site : Site) (db : Database) (current_user : ℕ) (form : RegForm) (clsid : ℕ) :
    Raises Database := do
  let cls ← getClass db "edit" clsid
  let duration ← floatOf cls.duration
  let extra_time := form.totalTimeRequested - cls.sections.length * duration
  forEach cls.teachers fun teacher =>
    require_teacher_has_time site db teacher current_user extra_time
  let edited ← cls.make_class_happen none form true
  return db.save edited

def submit_draft (site : Site) (db : Database) (user : ℕ) (form : RegForm) (clsid : ℕ) :
    Raises Database := do
  let cls ← getClass db "submit" clsid
  if cls.status ≠ ClassStatus.DRAFT then
    .error (.raised "ESPError" "Cannot submit a non-draft class via submit_draft.")
  else
    forEach cls.teachers fun teacher =>
      require_teacher_has_time site db teacher user form.totalTimeRequested
    if user ∈ cls.teachers then
      let submitted ← cls.make_class_happen (some user) form false
      return db.save submitted
    else
      let edited ← cls.make_class_happen none form true
      let submitted ← edited.propose
      return db.save submitted

inductive Call where
  | makeaclass (user : ℕ) (form : RegForm)
  | editclass (current_user : ℕ) (form : RegForm) (clsid : ℕ)
  | submit_draft (user : ℕ) (form : RegForm) (clsid : ℕ)

def call (site : Site) (db : Database) : Call → Raises Database
  | .makeaclass user form => makeaclass site db user form
  | .editclass current_user form clsid => editclass site db current_user form clsid
  | .submit_draft user form clsid => submit_draft site db user form clsid

/-- A call in its transaction: one that raises leaves the database as it was. -/
def step (site : Site) (db : Database) (action : Call) : Database :=
  match call site db action with
  | .ok after => after
  | .error _ => db

end EspWebsite.ClassReg
