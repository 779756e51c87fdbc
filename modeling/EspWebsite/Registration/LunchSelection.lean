import EspWebsite.Library.Transactions
import EspWebsite.Registration.Calls
import EspWebsite.Registration.CannotAdd

/-!
# Choosing lunches

`modules/handlers/studentlunchselection.py`: for each date of a program a student chooses one of
its lunch slots, or none.
-/

namespace EspWebsite.Registration

open Python Transactions Transactions.Action

structure Date where
  year : ℕ
  month : ℕ
  day : ℕ
  deriving DecidableEq

/-- What choosing lunches reads: the timeslots of a program in the order of their starts, the
classes that are lunches, the dates of times, and the texts of sections. -/
structure LunchCatalog extends Catalog where
  timeSlotList : ℕ → List Event
  isLunch : ℕ → Bool
  date : DateTime → Date
  str : ℕ → String

/-- When the lunches of a date are cleared and when a new one is tried, and whether an
administrator acts for the student. -/
structure Occasion where
  now : DateTime
  later : DateTime
  moves : now < later
  isMorphed : Bool

/-- The catalog with `ignore_constraints`. -/
def Catalog.ignoreConstraints (catalog : Catalog) : Catalog :=
  { catalog with scheduleConstraints := fun _ => [] }

namespace LunchCatalog

variable (catalog : LunchCatalog) (program user sec timeslot : ℕ) (day : Date)
  (now later : DateTime) (isMorphed : Bool) (choice : Option ℕ) (occasion : Occasion)

/-- `dates` of a program. -/
def dates : List Date :=
  (catalog.timeSlotList program).foldl
    (fun result ts =>
      if catalog.date ts.start ∈ result then result else result ++ [catalog.date ts.start]) []

def lunchSections : List ℕ :=
  catalog.sections.filter fun sec =>
    catalog.parentProgram sec = program &&
      catalog.isLunch (catalog.parentClass sec)

def lunchTimeslots : List Event :=
  ((catalog.lunchSections program).flatMap catalog.meetingTimes).dedup.insertionSort
    fun one other => one.start ≤ other.start

/-- The choices of the form for a date: timeslots, or no lunch period, which has the number
-1. -/
def choices : List (Option ℕ) :=
  ((catalog.lunchTimeslots program).filter fun ts => (catalog.date ts.start).day = day.day).map
    (fun ts => some ts.id) ++ [none]

def lunchSectionsAt : List ℕ :=
  (catalog.lunchSections program).filter fun sec =>
    timeslot ∈ catalog.timeslotIds sec

/-- A section is cleared if it is a lunch on such a day of a month. -/
def clearSection : Action Database PUnit :=
  if catalog.isLunch (catalog.parentClass sec) then do
    let time ← lift (first (catalog.meetingTimes sec))
    onlyIf ((catalog.date time.start).day = day.day)
      (change fun db => catalog.unpreregisterStudent db sec user now [])
  else pure ⟨⟩

def clearSections (sections : List ℕ) : Action Database PUnit :=
  forEach (fun sec _ => catalog.clearSection user sec day now) sections ⟨⟩

/-- `preregister_student`, as a computation. -/
def preregister : Action Database Bool := fun db =>
  let tried := catalog.preregisterStudent db sec user later { isMorphed }
  (.ok tried.1, tried.2)

/-- The student is signed up for a section, unless he cannot add it. -/
def signUp : Action Database Bool := do
  let db ← read
  let caMsg ← lift (catalog.ignoreConstraints.cannotAdd db user sec later true false)
  if caMsg ≠ "" then return false
  else catalog.preregister user sec later isMorphed

/-- `save_data`.  Clearing takes one moment, and signing up a later one. -/
def saveData : Action Database (Bool × String) := do
  let db ← read
  catalog.clearSections user day occasion.now
    (catalog.getSectionsFromProgram db user program occasion.now)
  match choice with
  | none => return (true, "Lunch period declined.")
  | some timeslot =>
      match catalog.lunchSectionsAt program timeslot with
      | [] => return (false, "No lunch sections are available for that timeslot.")
      | sec :: _ => do
          let result ← catalog.signUp user sec occasion.later occasion.isMorphed
          return (result,
            if result then "Registered for " ++ catalog.str sec ++ "."
            else "Failed to register for " ++ catalog.str sec ++
              ".  Please try another lunch period or remove conflicting classes from your " ++
                "schedule.")

/-! ## What saving is for -/

/-- The date of a section is that of its first time. -/
def firstDate : Option Date :=
  (catalog.meetingTimes sec).head?.map fun time => catalog.date time.start

/-- A registration for a lunch on another date. -/
def isElsewhere (row : StudentRegistration) : Bool :=
  catalog.isLunch (catalog.parentClass row.classSection) &&
    (catalog.firstDate row.classSection).any fun other => other ≠ day

/-- The lunch sections on a date in which the student has a valid registration. -/
def lunchesOn (db : Database) : List ℕ :=
  (catalog.lunchSections program).filter fun sec =>
    catalog.firstDate sec = some day &&
      !(db.getRegistrations sec user now).isEmpty

/-- The section that is chosen, the first one at the timeslot. -/
def chosen : Option ℕ :=
  choice.bind fun timeslot => (catalog.lunchSectionsAt program timeslot).head?

/-- What a save is to leave: registrations for lunches on other dates are as before; if it
returns true, then the lunches of the student on the date are the chosen one, and if it returns
false, then his registrations are as before. -/
structure Saved (db : Database) (run : Raises (Bool × String) × Database) : Prop where
  elsewhere : run.2.registrations.filter (catalog.isElsewhere day) =
    db.registrations.filter (catalog.isElsewhere day)
  accepted : ∀ message, run.1 = .ok (true, message) →
    catalog.lunchesOn program user day later run.2 = (catalog.chosen program choice).toList
  refused : ∀ message, run.1 = .ok (false, message) →
    (run.2.registrations.filter fun row => row.user = user) =
      db.registrations.filter fun row => row.user = user

/-! ## When it does -/

/-- A section is on such a day of a month. -/
def looksAlike : Bool := (catalog.firstDate sec).any fun other => other.day = day.day

/-- A valid registration of the student for a lunch on such a day of a month. -/
def clears (row : StudentRegistration) : Bool :=
  row.isValid now && row.user = user && row.classSection ∈ catalog.lunchSections program &&
    catalog.looksAlike row.classSection day

def without (db : Database) : Database :=
  { db with registrations := db.registrations.filter fun row =>
      !catalog.clears program user day now row }

/-- One of these registrations that does not end just now anyway. -/
def Loses (row : StudentRegistration) : Prop :=
  catalog.clears program user day now row = true ∧ row.endDate ≠ some now

/-- A registration of the student for a lunch on the date that has begun only since. -/
def Begins (row : StudentRegistration) : Prop :=
  row.user = user ∧ row.classSection ∈ catalog.lunchSections program ∧
    catalog.firstDate row.classSection = some day ∧
      row.isValid now = false ∧ row.isValid later = true

/-- A section can be added without the lunches that are cleared, and is not full. -/
def Accepts (db : Database) : Prop :=
  catalog.ignoreConstraints.cannotAdd (catalog.without program user day occasion.now db) user
      sec occasion.later true false = .ok "" ∧
    catalog.isFull (catalog.without program user day occasion.now db) sec
      occasion.later false false = false

/-- A timeslot is chosen, and its section, if any, is not accepted. -/
def Refuses (db : Database) : Prop :=
  choice ≠ none ∧ ∀ sec ∈ catalog.chosen program choice,
    ¬catalog.Accepts program user sec day occasion db

/-- A registration is for a lunch without a time. -/
def Untimed (db : Database) : Prop :=
  ∃ sec ∈ catalog.getSectionsFromProgram db user program now,
    catalog.isLunch (catalog.parentClass sec) = true ∧
      catalog.meetingTimes sec = []

/-- All lunches that are lost are on the date, and none is for nothing; the chosen section is on
the date, where no other lunch begins meanwhile. -/
structure Fits (db : Database) : Prop where
  alike : ∀ row ∈ db.registrations, catalog.Loses program user day occasion.now row →
    catalog.firstDate row.classSection = some day
  refused : catalog.Refuses program user day choice occasion db →
    ∀ row ∈ db.registrations, ¬catalog.Loses program user day occasion.now row
  dated : ¬catalog.Refuses program user day choice occasion db →
    ∀ sec ∈ catalog.chosen program choice, catalog.firstDate sec = some day
  begun : ¬catalog.Refuses program user day choice occasion db →
    ∀ row ∈ db.registrations, catalog.Begins program user day occasion.now occasion.later row →
      row.classSection ∈ catalog.chosen program choice

/-- A registration is ended when the lunches among some sections are cleared. -/
def isCleared (sections : List ℕ) (row : StudentRegistration) : Bool :=
  row.isValid now && row.user = user && row.classSection ∈ sections &&
    catalog.isLunch (catalog.parentClass row.classSection) &&
      catalog.looksAlike row.classSection day

/-- What becomes of a registration when the lunches among some sections are cleared. -/
def afterClearing (sections : List ℕ) (row : StudentRegistration) : StudentRegistration :=
  if catalog.isCleared user day now sections row then { row with endDate := some now } else row

/-- What becomes of a registration when the lunches of a day are cleared. -/
def afterSaving (row : StudentRegistration) : StudentRegistration :=
  if catalog.clears program user day now row then { row with endDate := some now } else row

end LunchCatalog

/-! ## Databases with the same valid registrations -/

/-- Two databases have the same registrations that are valid at a time. -/
structure SameAt (now : DateTime) (left right : Database) : Prop where
  valid : (left.registrations.filter fun row => row.isValid now) =
    right.registrations.filter fun row => row.isValid now
  checkedIn : left.checkedIn = right.checkedIn

section SameAt

variable {catalog : Catalog} {left right : Database} {now : DateTime}
  {program user sec : ℕ}

theorem SameAt.getRegistrations (same : SameAt now left right) (sec user : ℕ) :
    left.getRegistrations sec user now = right.getRegistrations sec user now := by
  have valid (db : Database) : db.getRegistrations sec user now =
      (db.registrations.filter fun row => row.isValid now).filter fun row =>
        row.classSection = sec && row.user = user := by
    simp [Database.getRegistrations, List.filter_filter, Bool.and_comm, Bool.and_assoc]
  rw [valid, valid, same.valid]

theorem SameAt.students (same : SameAt now left right) (sec : ℕ) (verb : String) :
    left.students sec verb now = right.students sec verb now := by
  ext user
  simp only [Database.mem_students_iff_exists_getRegistrations, same.getRegistrations]

theorem SameAt.cannotAdd (same : SameAt now left right) {checkFull webapp : Bool} :
    catalog.cannotAdd left user sec now checkFull webapp =
      catalog.cannotAdd right user sec now checkFull webapp := by
  have full : catalog.isFull left sec now false webapp =
      catalog.isFull right sec now false webapp :=
    isFull_congr (same.students sec) same.checkedIn
  have schedule (program : ℕ) : catalog.getEnrolledSectionsFromProgram left user program now =
      catalog.getEnrolledSectionsFromProgram right user program now := by
    simp only [Catalog.getEnrolledSectionsFromProgram, same.students]
  have priority (program : ℕ) (timeslots : List Event) :
      catalog.getRegistrationPriority left user program now timeslots =
        catalog.getRegistrationPriority right user program now timeslots := by
    simp only [Catalog.getRegistrationPriority, Catalog.takenPriorities,
      Catalog.getSectionsFromProgram, same.getRegistrations]
  simp only [Catalog.cannotAdd, full, schedule, priority]

end SameAt

namespace LunchCatalog

/-! ## Clearing -/

section Clearing

variable {catalog : LunchCatalog} {user sec : ℕ} {day : Date} {now : DateTime}
  {sections : List ℕ} {db : Database} {program : ℕ} {later : DateTime} {row : StudentRegistration}

theorem exists_clearSection (timed : catalog.isLunch (catalog.parentClass sec) = true →
    catalog.meetingTimes sec ≠ []) :
    ∃ after, catalog.clearSection user sec day now db = (.ok ⟨⟩, after) ∧
      after.registrations =
        db.registrations.map (catalog.afterClearing user day now [sec]) ∧
      after.checkedIn = db.checkedIn := by
  have unchanged (apart : catalog.isLunch (catalog.parentClass sec) = false ∨
      catalog.looksAlike sec day = false) :
      db.registrations =
        db.registrations.map (catalog.afterClearing user day now [sec]) := by
    nth_rewrite 1 [← List.map_id db.registrations]
    refine List.map_congr_left fun row _ => ?_
    rw [afterClearing, if_neg, id]
    intro cleared
    simp only [isCleared, Bool.and_eq_true, decide_eq_true_eq, List.mem_singleton] at cleared
    simp [cleared.1.1.2 ▸ cleared.1.2, cleared.1.1.2 ▸ cleared.2] at apart
  rw [clearSection]
  split
  next lunch =>
    cases times : catalog.meetingTimes sec with
    | nil => exact absurd times (timed lunch)
    | cons time rest =>
        have alike : catalog.looksAlike sec day =
            decide ((catalog.date time.start).day = day.day) := by
          simp [looksAlike, firstDate, times]
        by_cases cleared : (catalog.date time.start).day = day.day
        · refine ⟨_, congrFun (if_pos cleared) db, ?_, checkedIn_unpreregisterStudent⟩
          rw [registrations_unpreregisterStudent, Database.expire]
          refine List.map_congr_left fun row _ => ?_
          by_cases same : row.classSection = sec
          · simp [afterClearing, isCleared, Database.concerns, same, lunch, alike, cleared,
              and_comm]
          · simp [afterClearing, isCleared, Database.concerns, same]
        · refine ⟨db, congrFun (if_neg cleared) db, unchanged (.inr ?_), rfl⟩
          rw [alike, decide_eq_false cleared]
  next other =>
    exact ⟨db, rfl, unchanged (.inl (eq_false_of_ne_true other)), rfl⟩

theorem exists_clearSections (timed : ∀ sec ∈ sections,
    catalog.isLunch (catalog.parentClass sec) = true →
      catalog.meetingTimes sec ≠ []) :
    ∃ after, catalog.clearSections user day now sections db = (.ok ⟨⟩, after) ∧
      after.registrations = db.registrations.map (catalog.afterClearing user day now sections) ∧
      after.checkedIn = db.checkedIn := by
  induction sections generalizing db with
  | nil =>
      refine ⟨db, rfl, ?_, rfl⟩
      nth_rewrite 1 [← List.map_id db.registrations]
      refine List.map_congr_left fun row _ => ?_
      simp [afterClearing, isCleared]
  | cons sec rest ih =>
      rw [List.forall_mem_cons] at timed
      obtain ⟨between, clears, changed, kept⟩ :=
        @exists_clearSection catalog user sec day now db timed.1
      obtain ⟨after, clearsRest, changedAfter, keptAfter⟩ := @ih between timed.2
      refine ⟨after, (bind_of_ok clears).trans clearsRest, ?_, keptAfter.trans kept⟩
      rw [changedAfter, changed, List.map_map]
      refine List.map_congr_left fun row _ => ?_
      have either : catalog.isCleared user day now (sec :: rest) row =
          (catalog.isCleared user day now [sec] row ||
            catalog.isCleared user day now rest row) := by
        simp [isCleared, Bool.and_or_distrib_left, Bool.and_or_distrib_right]
      -- Ending a registration twice is ending it once.
      cases cleared : catalog.isCleared user day now [sec] row with
      | true =>
          simp only [Function.comp, afterClearing, either, cleared, Bool.true_or, if_true]
          split <;> rfl
      | false =>
          simp only [Function.comp, afterClearing, either, cleared, Bool.false_or, if_false,
            Bool.false_eq_true]

theorem clearSections_of_untimed (untimed : ∃ sec ∈ sections,
    catalog.isLunch (catalog.parentClass sec) = true ∧
      catalog.meetingTimes sec = []) :
    ∃ raised after, catalog.clearSections user day now sections db = (.error raised, after) := by
  induction sections generalizing db with
  | nil => simp at untimed
  | cons sec rest ih =>
      by_cases here : catalog.isLunch (catalog.parentClass sec) = true ∧
          catalog.meetingTimes sec = []
      · refine ⟨.indexError, db, bind_of_error ?_⟩
        change catalog.clearSection user sec day now db = _
        rw [clearSection, if_pos here.1, here.2]
        rfl
      · obtain ⟨between, clears, _⟩ := @exists_clearSection catalog user sec day now db
          fun lunch untimed => here ⟨lunch, untimed⟩
        obtain ⟨raised, after, stops⟩ := @ih between (by simpa [here] using untimed)
        exact ⟨raised, after, (bind_of_ok clears).trans stops⟩

theorem isCleared_getSectionsFromProgram (isRow : row ∈ db.registrations) :
    catalog.isCleared user day now (catalog.getSectionsFromProgram db user program now) row =
      catalog.clears program user day now row := by
  rw [Bool.eq_iff_iff]
  simp only [isCleared, clears, lunchSections, Catalog.getSectionsFromProgram, Bool.and_eq_true,
    decide_eq_true_eq, List.mem_filter, Bool.not_eq_true', List.isEmpty_eq_false_iff]
  constructor
  · intro cleared
    exact ⟨⟨cleared.1.1.1, cleared.1.1.2.1, cleared.1.1.2.2.1, cleared.1.2⟩, cleared.2⟩
  · intro cleared
    have found : row ∈ db.getRegistrations row.classSection user now :=
      Database.mem_getRegistrations.mpr ⟨isRow, cleared.1.1.1, rfl, cleared.1.1.2⟩
    exact ⟨⟨⟨cleared.1.1, cleared.1.2.1, cleared.1.2.2.1, List.ne_nil_of_mem found⟩,
      cleared.1.2.2.2⟩, cleared.2⟩

theorem exists_cleared (timed : ¬catalog.Untimed program user now db) :
    ∃ after, catalog.clearSections user day now
        (catalog.getSectionsFromProgram db user program now) db = (.ok ⟨⟩, after) ∧
      after.registrations = db.registrations.map (catalog.afterSaving program user day now) ∧
      after.checkedIn = db.checkedIn := by
  obtain ⟨after, clears, changed, kept⟩ := @exists_clearSections catalog user day now _ db
    fun sec isSection lunch untimed => timed ⟨sec, isSection, lunch, untimed⟩
  refine ⟨after, clears, changed.trans (List.map_congr_left fun row isRow => ?_), kept⟩
  rw [afterClearing, afterSaving, isCleared_getSectionsFromProgram isRow]

theorem isValid_afterSaving (moves : now < later) :
    ((catalog.afterSaving program user day now row).isValid later) =
      (row.isValid later && !catalog.clears program user day now row) := by
  rw [afterSaving]
  split
  next cleared =>
    rw [cleared, Bool.not_true, Bool.and_false, Bool.eq_false_iff]
    intro valid
    exact absurd ((ExpirableModel.isValid_iff.mp valid).2 now rfl) (not_le.mpr moves)
  next spared => simp [spared]

/-- Later, it is as if the registrations that are cleared were not there. -/
theorem sameAt_without {after : Database} (moves : now < later)
    (changed : after.registrations =
      db.registrations.map (catalog.afterSaving program user day now))
    (kept : after.checkedIn = db.checkedIn) :
    SameAt later after (catalog.without program user day now db) := by
  constructor
  · rw [changed, List.filter_map, without, List.filter_filter]
    simp only [Function.comp_def, isValid_afterSaving moves]
    nth_rewrite 2 [← List.map_id (List.filter _ _)]
    refine List.map_congr_left fun row isRow => ?_
    have spared := (List.mem_filter.mp isRow).2
    simp only [Bool.and_eq_true, Bool.not_eq_true'] at spared
    simp [afterSaving, spared.2]
  · exact kept

end Clearing

/-! ## Signing up -/

section Saving

variable {catalog : LunchCatalog} {program user sec : ℕ} {day : Date} {later : DateTime}
  {isMorphed : Bool} {choice : Option ℕ} {occasion : Occasion} {db : Database}

theorem exists_cannotAdd {checkFull webapp : Bool} : ∃ message,
    catalog.ignoreConstraints.cannotAdd db user sec later checkFull webapp =
      .ok message := by
  rw [Catalog.cannotAdd]
  cases full : checkFull && catalog.ignoreConstraints.isFull db sec later false webapp with
  | true =>
      rw [Catalog.cannotAddTo, if_pos rfl]
      exact ⟨_, rfl⟩
  | false =>
      cases added : catalog.ignoreConstraints.cannotAddTo sec _ false _ with
      | ok message => exact ⟨message, rfl⟩
      | error raised => cases Catalog.cannotAddTo_eq_error_iff.mp added

theorem preregisterStudent_fst :
    (catalog.preregisterStudent db sec user later { isMorphed }).1 =
      !catalog.isFull db sec later false false := by
  rw [Site.preregisterStudent]
  cases catalog.isFull db sec later false false <;> rfl

theorem signUp_eq :
    catalog.signUp user sec later isMorphed db =
      if catalog.ignoreConstraints.cannotAdd db user sec later true false = .ok "" ∧
          catalog.isFull db sec later false false = false then
        (.ok true, (catalog.preregisterStudent db sec user later { isMorphed }).2)
      else (.ok false, db) := by
  obtain ⟨message, isMessage⟩ := @exists_cannotAdd catalog user sec later db true false
  have runs : catalog.signUp user sec later isMorphed db =
      (if message ≠ "" then (.ok false, db)
      else (.ok (catalog.preregisterStudent db sec user later { isMorphed }).1,
        (catalog.preregisterStudent db sec user later { isMorphed }).2)) := by
    rw [signUp, read_bind, isMessage, lift_ok_bind]
    by_cases refused : message ≠ ""
    · rw [if_pos refused, if_pos refused]
      rfl
    · rw [if_neg refused, if_neg refused]
      rfl
  rw [runs, isMessage]
  by_cases empty : message = ""
  · cases full : catalog.isFull db sec later false false with
    | true =>
        have fails :
            (catalog.preregisterStudent db sec user later { isMorphed }).1 = false := by
          rw [preregisterStudent_fst, full, Bool.not_true]
        simp [empty, fails, preregisterStudent_of_fails fails]
    | false => simp [empty, preregisterStudent_fst, full]
  · simp [empty]

end Saving

end LunchCatalog

end EspWebsite.Registration
