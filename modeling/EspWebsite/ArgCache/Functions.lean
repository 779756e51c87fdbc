import EspWebsite.Accounting.AmountDue
import EspWebsite.Library.CachedReads

/-!
# Functions that are cached

Four methods with `@cache_function`, the rows that they read, and the dependencies that are
declared for them.  A dependency on the rows of a table looks at the row that is saved or deleted.
-/

namespace EspWebsite.ArgCache

open Accounting Binary64 CachedReads Tables Python

/-- A row of `Event`; times are in microseconds. -/
structure Event where
  id : ℕ
  startTime : ℤ
  endTime : ℤ
  deriving DecidableEq

/-- A row of `Resource`. -/
structure Resource where
  id : ℕ
  name : String
  event : ℕ
  deriving DecidableEq

/-- A row of `ResourceAssignment`. -/
structure ResourceAssignment where
  id : ℕ
  resource : ℕ
  target : Option ℕ
  deriving DecidableEq

/-- A row of `ClassSection`, with the events of its meeting times. -/
structure ClassSection where
  id : ℕ
  duration : Option ℚ
  meetingTimes : List ℕ
  deriving DecidableEq

/-- A row of `Record`, with the name of its event. -/
structure Record where
  id : ℕ
  event : Option String
  program : Option ℕ
  user : Option ℕ
  time : ℤ
  deriving DecidableEq

instance : Keyed Event := ⟨Event.id⟩
instance : Keyed ResourceAssignment := ⟨ResourceAssignment.id⟩
instance : Keyed ClassSection := ⟨ClassSection.id⟩
instance : Keyed FinancialAidRequest := ⟨FinancialAidRequest.id⟩
instance : Keyed Record := ⟨Record.id⟩

/-- The rows that the functions read, and the time. -/
structure Database where
  resources : List Resource
  assignments : Table ResourceAssignment
  events : Table Event
  sections : Table ClassSection
  requests : Table FinancialAidRequest
  accounting : Accounting.Database
  records : Table Record
  now : ℤ

/-- `Event.total_length`, in seconds: the hours from the start of the first event to the end of the
last one are rounded to hundredths. -/
def totalLength (events : List Event) : ℤ :=
  match events.insertionSort fun event other => event.startTime ≤ other.startTime with
  | [] => 0
  | first :: rest =>
      let last := (first :: rest).getLast (List.cons_ne_nil _ _)
      let seconds := nearest ((last.endTime - first.startTime : ℤ) / 10 ^ 6)
      36 * hundredths (nearest (seconds / 3600))

/-- `self.duration or 1.0`, in hours. -/
def durationOf (duration : Option ℚ) : ℚ :=
  match duration with
  | none => 1
  | some hours => if hours = 0 then 1 else hours

namespace Database

variable (db : Database)

/-! ## The functions -/

/-- The resource that `is_available` tests for a timeslot: one with the same name. -/
def testResource (resource timeslot : ℕ) : Option ℕ :=
  match db.resources.find? fun row => row.id = resource with
  | none => none
  | some row => ((db.resources.filter fun other => other.name = row.name).find? fun other =>
      other.event = timeslot).map Resource.id

def isTaken (resource : ℕ) : Bool := db.assignments.rows.any fun row => row.resource = resource

/-- `is_available`, which raises if there is no resource with the name at the timeslot. -/
def isAvailable (resource timeslot : ℕ) : Option Bool :=
  (db.testResource resource timeslot).map fun tested => !db.isTaken tested

def eventsOf (meetingTimes : List ℕ) : List Event :=
  db.events.rows.filter fun event => event.id ∈ meetingTimes

/-- Whether the meeting times of a section are shorter than its duration. -/
def isShort (sec : ClassSection) : Bool :=
  decide ((totalLength (db.eventsOf sec.meetingTimes) : ℚ) < durationOf sec.duration * 3600)

def sufficientLength (sec : ℕ) : Option Bool :=
  (db.sections.get? sec).map fun row => !db.isShort row

/-- Whether a user has an `attended` record for a program. -/
def hasAttended (program user : ℕ) : Bool :=
  db.records.rows.any fun row =>
    decide (row.program = some program) && decide (row.user = some user) &&
      decide (row.event = some "attended")

/-- The last record before now by which a user was checked in or out. -/
def lastRecord (program user : ℕ) : Option Record :=
  ((db.records.rows.filter fun row =>
    decide (row.program = some program) && decide (row.user = some user) &&
      decide (row.event = some "attended" ∨ row.event = some "checked_out") &&
      decide (row.time < db.now)).insertionSort fun row other => other.time ≤ row.time).head?

/-- Whether a user is one of the `checkedOutStudents`. -/
def isCheckedOut (program user : ℕ) : Bool :=
  (db.lastRecord program user).any fun row => row.event = some "checked_out"

/-- `currentlyCheckedInStudents`, by their ids. -/
def currentlyCheckedInStudents (program : ℕ) : Finset ℕ :=
  (db.records.rows.filterMap Record.user).toFinset.filter fun user =>
    db.hasAttended program user = true ∧ db.isCheckedOut program user = false

/-- `amount_finaid` of a user for a program, and the rows of accounting after it. -/
def amountFinaid (user : ℕ) (program : Program) : Raises ℤ × Accounting.Database :=
  (IndividualAccountingController.mk program user).amountFinaid none db.accounting

def hasFinancialAid (user : ℕ) (program : Program) : Option Bool × Database :=
  match db.amountFinaid user program with
  | (.ok amount, accounting) => (some (decide (0 < amount)), { db with accounting })
  | (.error _, accounting) => (none, { db with accounting })

end Database

/-- A function that is cached, with its arguments. -/
inductive Key where
  | isAvailable (resource timeslot : ℕ)
  | sufficientLength (sec : ℕ)
  | currentlyCheckedInStudents (program : ℕ)
  | hasFinancialAid (user : ℕ) (program : Program)
  deriving DecidableEq

/-- An answer of such a function. -/
inductive Answer where
  | truth (holds : Bool)
  | students (users : Finset ℕ)
  deriving DecidableEq

/-- What the body of a function answers, and the database after it. -/
def compute (key : Key) (db : Database) : Option Answer × Database :=
  match key with
  | .isAvailable resource timeslot => ((db.isAvailable resource timeslot).map .truth, db)
  | .sufficientLength sec => ((db.sufficientLength sec).map .truth, db)
  | .currentlyCheckedInStudents program =>
      (some (.students (db.currentlyCheckedInStudents program)), db)
  | .hasFinancialAid user program =>
      ((db.hasFinancialAid user program).1.map .truth, (db.hasFinancialAid user program).2)

/-- Whether what a function is asked about exists. -/
def Alive (db : Database) : Key → Prop
  | .isAvailable resource _ => ∃ row ∈ db.resources, row.id = resource
  | .sufficientLength sec => ∃ row ∈ db.sections.rows, row.id = sec
  | .currentlyCheckedInStudents _ => True
  | .hasFinancialAid _ _ => True

/-! ## Writes -/

/-- A row is saved or deleted, the meeting times of a section are set, or time passes.  Only a
section that is new gets a new key here. -/
inductive Write where
  | saveAssignment (row : ResourceAssignment)
  | deleteAssignment (id : ℕ)
  | saveEvent (row : Event)
  | deleteEvent (id : ℕ)
  | createSection (duration : Option ℚ)
  | saveSection (id : ℕ) (duration : Option ℚ)
  | deleteSection (id : ℕ)
  | setMeetingTimes (id : ℕ) (meetingTimes : List ℕ)
  | saveRequest (row : FinancialAidRequest)
  | deleteRequest (id : ℕ)
  | saveGrant (row : FinancialAidGrant)
  | deleteGrant (request : ℕ)
  | saveTransfer (row : Transfer)
  | deleteTransfer (id : ℕ)
  | saveRecord (row : Record)
  | deleteRecord (id : ℕ)
  | tick (time : ℕ)

namespace Database

variable (db : Database)

def resourcesAt (event : ℕ) : List ℕ :=
  (db.resources.filter fun row => row.event = event).map Resource.id

/-- The database after a write.  An event is deleted with its resources and their assignments, a
section with its assignments, and a request with its grant; a transfer that another one was paid in
is not deleted. -/
def after : Write → Database
  | .saveAssignment row => { db with assignments := db.assignments.put row }
  | .deleteAssignment id =>
      { db with assignments := db.assignments.delete fun row => row.id = id }
  | .saveEvent row => { db with events := db.events.put row }
  | .deleteEvent id =>
      { db with
        events := db.events.delete fun row => row.id = id
        resources := db.resources.filter fun row => row.event ≠ id
        assignments := db.assignments.delete fun row => row.resource ∈ db.resourcesAt id
        sections := db.sections.mapRows
          (fun row => { row with meetingTimes := row.meetingTimes.filter (· ≠ id) })
          fun _ => rfl }
  | .createSection duration =>
      { db with sections := db.sections.create (fun id => ⟨id, duration, []⟩) fun _ => rfl }
  | .saveSection id duration =>
      { db with
        sections := db.sections.mapRows
          (fun row => { row with duration := if row.id = id then duration else row.duration })
          fun _ => rfl }
  | .deleteSection id =>
      { db with
        sections := db.sections.delete fun row => row.id = id
        assignments := db.assignments.delete fun row => row.target = some id }
  | .setMeetingTimes id meetingTimes =>
      { db with
        sections := db.sections.mapRows
          (fun row =>
            { row with meetingTimes := if row.id = id then meetingTimes else row.meetingTimes })
          fun _ => rfl }
  | .saveRequest row =>
      { db with
        requests := db.requests.put row
        accounting.grants := db.accounting.grants.map fun grant =>
          if grant.request.id = row.id then { grant with request := row } else grant }
  | .deleteRequest id =>
      { db with
        requests := db.requests.delete fun row => row.id = id
        accounting.grants := db.accounting.grants.filter fun grant => grant.request.id ≠ id }
  | .saveGrant row =>
      { db with
        accounting.grants :=
          (db.accounting.grants.filter fun grant => grant.request.id ≠ row.request.id) ++ [row] }
  | .deleteGrant request =>
      { db with
        accounting.grants := db.accounting.grants.filter fun grant => grant.request.id ≠ request }
  | .saveTransfer row => { db with accounting.transfers := db.accounting.transfers.put row }
  | .deleteTransfer id =>
      if db.accounting.transfers.rows.any fun row => row.paidIn = some id && row.id != id then db
      else
        { db with
          accounting.transfers := db.accounting.transfers.delete fun row => row.id = id }
  | .saveRecord row => { db with records := db.records.put row }
  | .deleteRecord id => { db with records := db.records.delete fun row => row.id = id }
  | .tick time => { db with now := db.now + time }

end Database

/-- The answers that `depend_on_row` voids for a record. -/
def voidsRecord (row : Record) : Key → Bool
  | .currentlyCheckedInStudents program =>
      decide (row.event = some "attended") && decide (row.program = some program)
  | _ => false

/-- The answers that `depend_on_row` voids for an assignment. -/
def voidsAssignment (row : ResourceAssignment) : Key → Bool
  | .isAvailable resource _ => row.resource = resource
  | _ => false

/-- The answers that `depend_on_row` voids for an event. -/
def voidsEvent : Key → Bool
  | .isAvailable _ _ => true
  | _ => false

/-- The answers that `depend_on_row` voids for a request for financial aid. -/
def voidsRequest (row : FinancialAidRequest) : Key → Bool
  | .hasFinancialAid user _ => row.user = user
  | _ => false

/-- The answers that `depend_on_m2m` voids for the meeting times of a section. -/
def voidsMeetingTimes (id : ℕ) : Key → Bool
  | .sufficientLength sec => id = sec
  | _ => false

/-- The answers that a write voids.  Nothing depends on grants, on transfers, on the rows of
sections or on the time. -/
def voids (db : Database) : Write → Key → Bool
  | .saveAssignment row => voidsAssignment row
  | .deleteAssignment id => fun key =>
      db.assignments.rows.any fun row => row.id = id && voidsAssignment row key
  | .saveEvent _ => voidsEvent
  | .deleteEvent id => fun key => voidsEvent key ||
      db.assignments.rows.any fun row =>
        decide (row.resource ∈ db.resourcesAt id) && voidsAssignment row key
  | .createSection _ => fun _ => false
  | .saveSection _ _ => fun _ => false
  | .deleteSection id => fun key =>
      db.assignments.rows.any fun row => row.target = some id && voidsAssignment row key
  | .setMeetingTimes id _ => voidsMeetingTimes id
  | .saveRequest row => voidsRequest row
  | .deleteRequest id => fun key =>
      db.requests.rows.any fun row => row.id = id && voidsRequest row key
  | .saveGrant _ => fun _ => false
  | .deleteGrant _ => fun _ => false
  | .saveTransfer _ => fun _ => false
  | .deleteTransfer _ => fun _ => false
  | .saveRecord row => voidsRecord row
  | .deleteRecord id => fun key =>
      db.records.rows.any fun row => row.id = id && voidsRecord row key
  | .tick _ => fun _ => false

end EspWebsite.ArgCache
