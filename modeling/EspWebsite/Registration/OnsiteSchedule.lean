import EspWebsite.Library.Numerals
import EspWebsite.Registration.CannotAdd

/-!
# Schedules changed onsite

`update_schedule_json` of `program/modules/handlers/onsiteclasslist.py`: an onsite
administrator sends all sections that a student should have.
-/

namespace EspWebsite.Registration

open Python

/-- An entry of the requested list: a number, a text or something else. -/
inductive Entry where
  | int (id : ℤ)
  | str (text : List Char)
  | other
  deriving DecidableEq

/-- What a response tells. -/
inductive Message where
  | userNotFound
  | couldNotParse
  | notAList
  | tooMany
  | ignored (entry : Entry)
  | removed (classSection : ℕ)
  | added (classSection : ℕ)
  | failed (classSection : ℕ) (error : String)
  deriving DecidableEq

/-- The section ID that an entry is cast to. -/
def Entry.cast : Entry → Option ℤ
  | .int id => some id
  | .str text =>
      let unsigned := (strip text).dropWhile fun char => char = '+' || char = '-'
      if !unsigned.isEmpty && unsigned.all Char.isDigit then parseInt (strip text) else none
  | .other => none

/-- `sanitize_section_ids`, with the warnings. -/
def sanitizeSectionIds (sectionIds : List Entry) : List ℤ × List Message :=
  ((sectionIds.filterMap Entry.cast).eraseDups,
    (sectionIds.filter fun entry => entry.cast.isNone).map .ignored)

def maxScheduleSections : ℕ := 200

/-- The parameter `sections`, if there is one. -/
inductive Sections where
  | missing
  | malformed
  | notAList
  | list (entries : List Entry)

structure ScheduleRequest where
  user : Option ℕ
  sections : Sections
  checkIn : Bool
  override : Bool

/-- What tells the registration types that are visible: all of them, and the names that the tag
of a program contains. -/
structure RegistrationTypes where
  names : List String
  displayNames : ℕ → Option (List String)

def RegistrationTypes.getVisibleRegistrationTypeNames (types : RegistrationTypes) (program : ℕ) :
    List String :=
  let displayNames := (types.displayNames program).getD [] ++ ["Enrolled"]
  if "All" ∈ displayNames then types.names else displayNames

/-- An answer to a request. -/
structure Response where
  status : ℕ
  user : Option ℕ
  sections : List ℕ
  messages : List Message
  deriving DecidableEq

/-- The database while a request is served, after some changes to registrations. -/
structure Progress where
  db : Database
  ticks : ℕ
  messages : List Message

namespace Catalog

variable (catalog : Catalog) (clock : ℕ → DateTime) (program user : ℕ) (verbs : List String)

/-- The sections that count as those of the student, which are accepted. -/
def currentSections (db : Database) (now : DateTime) : List ℕ :=
  catalog.sections.filter fun classSection =>
    decide (0 < catalog.status classSection) &&
      decide (0 < catalog.classStatus (catalog.parentClass classSection)) &&
        catalog.parentProgram classSection = program &&
          decide (user ∈ db.students classSection "Enrolled" now)

def sectionsToRemove (current : List ℕ) (desired : List ℤ) : List ℕ :=
  catalog.sections.filter fun classSection =>
    classSection ∈ current && decide ((classSection : ℤ) ∉ desired)

def sectionsToAdd (current : List ℕ) (desired : List ℤ) : List ℕ :=
  catalog.sections.filter fun classSection =>
    decide ((classSection : ℤ) ∈ desired) && classSection ∉ current

/-- The timeslots of the sections to add, in the order of the timeslots. -/
def secTimes (toAdd : List ℕ) : List (ℕ × ℕ) :=
  (toAdd.flatMap fun sec => (catalog.timeslotIds sec).map fun ts => (sec, ts)).dedup.insertionSort
    fun earlier later => earlier.2 ≤ later.2

/-- The sections that a schedule map has at the timeslots of the sections to add. -/
def occupying (toAdd : List ℕ) (map : ScheduleMap) : List ℕ :=
  (catalog.secTimes toAdd).flatMap fun pair => (map pair.2).getD []

def removeSection (progress : Progress) (sec : ℕ) : Progress where
  db := catalog.unpreregisterStudent progress.db sec user (clock progress.ticks) verbs
  ticks := progress.ticks + 1
  messages := progress.messages ++ [.removed sec]

def addSections (override : Bool) (existing : List ℕ) :
    List ℕ → Progress → Progress × Raises Unit
  | [], progress => (progress, .ok ())
  | sec :: rest, progress =>
      if existing.any fun other => catalog.sameSection sec other then
        addSections override existing rest progress
      else
        match catalog.cannotAdd progress.db user sec (clock progress.ticks) (!override) true with
        | .error raised => (progress, .error raised)
        | .ok error =>
            if error = "" then
              match catalog.preregisterStudent progress.db sec user (clock progress.ticks)
                  { overridefull := override, webapp := true } with
              | (true, after) => addSections override existing rest
                  ⟨after, progress.ticks + 1, progress.messages ++ [.added sec]⟩
              | (false, _) => addSections override existing rest
                  { progress with
                    messages := progress.messages ++ [.failed sec "Class is currently full."] }
            else addSections override existing rest
              { progress with messages := progress.messages ++ [.failed sec error] }

/-- The change of a schedule, from the sections that the student has. -/
def updateSections (override : Bool) (current : List ℕ) (desired : List ℤ) (progress : Progress) :
    Progress × Raises Unit :=
  let toAdd := catalog.sectionsToAdd current desired
  let full := toAdd.filter fun sec =>
    catalog.isFull progress.db sec (clock progress.ticks) false true && !override
  if full.isEmpty then
    let removed := (catalog.sectionsToRemove current desired).foldl
      (catalog.removeSection clock user verbs) progress
    match catalog.populate program (catalog.getEnrolledSectionsFromProgram removed.db user program
        (clock removed.ticks)) with
    | .error raised => (removed, .error raised)
    | .ok map =>
        let occupying := catalog.occupying toAdd map
        let cleared := (occupying.filter fun sec => sec ∉ toAdd).foldl
          (catalog.removeSection clock user verbs) removed
        catalog.addSections clock user override (occupying.filter fun sec => sec ∈ toAdd) toAdd
          cleared
  else
    ({ progress with
        messages := progress.messages ++ full.map fun sec => .failed sec "Class is currently full." },
      .ok ())

/-- The student is checked in, if that is asked for and not done yet. -/
def checkIn (db : Database) : Database :=
  { db with checkedIn := insert (program, user) db.checkedIn }

/-- `update_schedule_json`.  A request that fails keeps the changes made so far. -/
def updateScheduleJson (types : RegistrationTypes) (db : Database) (request : ScheduleRequest) :
    Progress × Raises Response :=
  match request.user with
  | none => (⟨db, 0, []⟩, .ok ⟨400, none, [], [.userNotFound]⟩)
  | some user =>
      let db' := if request.checkIn then checkIn program user db else db
      match request.sections with
      | .malformed => (⟨db, 0, []⟩, .ok ⟨400, none, [], [.couldNotParse]⟩)
      | .notAList => (⟨db, 0, []⟩, .ok ⟨400, none, [], [.notAList]⟩)
      | .missing => (⟨db', 0, []⟩, .ok ⟨200, none, [], []⟩)
      | .list entries =>
          let desired := (sanitizeSectionIds entries).1
          let warnings := (sanitizeSectionIds entries).2
          if desired.isEmpty && !entries.isEmpty then
            (⟨db, 0, []⟩, .ok ⟨400, none, [], warnings ++ [.notAList]⟩)
          else if maxScheduleSections < desired.length then
            (⟨db, 0, []⟩, .ok ⟨400, none, [], warnings ++ [.tooMany]⟩)
          else
            let current := catalog.currentSections program user db' (clock 0)
            let verbs := types.getVisibleRegistrationTypeNames program
            let updated := catalog.updateSections clock program user verbs request.override current
              desired ⟨db', 0, warnings⟩
            (updated.1, updated.2.map fun _ =>
              ⟨200, some user,
                catalog.currentSections program user updated.1.db (clock updated.1.ticks),
                updated.1.messages⟩)

end Catalog

end EspWebsite.Registration
