import EspWebsite.Library.Runs
import EspWebsite.Library.Tables
import EspWebsite.Registration.DataModel

/-!
# The two-phase lottery

`save_priorities` of `StudentRegTwoPhase`: for each timeslot and each level of priority a student
chooses a class or none.  Registrations are expired and revived, and never deleted.
-/

namespace EspWebsite.Registration.TwoPhase

open Runs Tables

/-- A row of `StudentRegistration`. -/
structure Row extends StudentRegistration where
  id : ℕ
  deriving DecidableEq

instance : Keyed Row := ⟨Row.id⟩

/-- What `save_priorities` reads: sections and classes with their statuses, the grades that a class
admits and those of users for programs, timeslots by their ids, and the names of the registration
types for students. -/
structure Catalog where
  sections : List ℕ
  parentClass : ℕ → ℕ
  sectionStatus : ℕ → ℤ
  meetingTimes : ℕ → List DateTime
  parentProgram : ℕ → ℕ
  classStatus : ℕ → ℤ
  gradeMin : ℕ → ℤ
  gradeMax : ℕ → ℤ
  getGrade : ℕ → ℕ → ℤ
  timeslotStart : ℕ → Option DateTime
  hasRegistrationType : String → Bool

/-- What a student chooses: nothing, the id of a class, or what `int` does not read. -/
inductive Choice where
  | blank
  | number (clsId : ℤ)
  | notANumber
  deriving DecidableEq

/-- A level with what is chosen for it, and when it is handled. -/
structure Entry where
  now : DateTime
  relIndex : String
  choice : Choice
  deriving DecidableEq

structure Request where
  user : ℕ
  timeslotId : ℕ
  priorities : List Entry
  deriving DecidableEq

def relName (relIndex : String) : String := "Priority/" ++ relIndex

namespace Catalog

variable (catalog : Catalog) (prog : ℕ)

/-- `Min('meeting_times__start')`. -/
def start (sec : ℕ) : Option DateTime := (catalog.meetingTimes sec).min?

/-- The registrations of a user for a level in sections of the program that start at a time. -/
def inBucket (user : ℕ) (relIndex : String) (time : DateTime) (row : Row) : Bool :=
  decide (row.user = user) &&
    decide (catalog.parentProgram (catalog.parentClass row.classSection) = prog) &&
    decide (catalog.start row.classSection = some time) &&
    decide (row.relationship = relName relIndex)

/-- The section of a class that starts at a time, if there is exactly one. -/
def getSection (clsId : ℤ) (time : DateTime) : Option ℕ :=
  match catalog.sections.filter fun sec => decide ((catalog.parentClass sec : ℤ) = clsId) &&
      decide (catalog.parentProgram (catalog.parentClass sec) = prog) &&
      decide (catalog.start sec = some time) with
  | [sec] => some sec
  | _ => none

def passesChecks (user sec : ℕ) : Bool :=
  decide (0 < catalog.sectionStatus sec) &&
    decide (0 < catalog.classStatus (catalog.parentClass sec)) &&
    decide (catalog.gradeMin (catalog.parentClass sec) ≤ catalog.getGrade user prog) &&
    decide (catalog.getGrade user prog ≤ catalog.gradeMax (catalog.parentClass sec))

/-- A registration that is kept gets another section if it is not for the class, and is valid
again. -/
def revive (clsId : ℤ) (sec : ℕ) (now : DateTime) (row : Row) : Row :=
  { row with
    toExpirableModel := row.toExpirableModel.unexpire now
    classSection := if (catalog.parentClass row.classSection : ℤ) = clsId then row.classSection
      else sec }

/-- The registration with the least id is revived and the others expire; if there is none, one is
created. -/
def register (table : Table Row) (user : ℕ) (relIndex : String) (time : DateTime) (clsId : ℤ)
    (sec : ℕ) (now : DateTime) : Table Row :=
  match table.rows.filter (catalog.inBucket prog user relIndex time) with
  | [] => table.create (fun id =>
      { startDate := some now
        endDate := none
        user := user
        classSection := sec
        relationship := relName relIndex
        id := id }) fun _ => rfl
  | kept :: _ => table.mapRows (fun row =>
      if catalog.inBucket prog user relIndex time row then
        if row.id = kept.id then catalog.revive clsId sec now row
        else { row with toExpirableModel := row.toExpirableModel.expire now }
      else row) (by
        intro row
        split
        next =>
          split
          next => rfl
          next => rfl
        next => rfl)

def saveEntry (user : ℕ) (time : DateTime) (table : Table Row) (entry : Entry) :
    Option (Table Row) :=
  if catalog.hasRegistrationType (relName entry.relIndex) then
    match entry.choice with
    | .blank => some (table.mapRows (fun row =>
        if catalog.inBucket prog user entry.relIndex time row then
          { row with toExpirableModel := row.toExpirableModel.expire entry.now }
        else row) (by
          intro row
          split
          next => rfl
          next => rfl))
    | .number clsId =>
        match catalog.getSection prog clsId time with
        | none => some table
        | some sec =>
            if catalog.passesChecks prog user sec then
              some (catalog.register prog table user entry.relIndex time clsId sec entry.now)
            else some table
    | .notANumber => none
  else none

/-- The entries of a request up to the first one that raises. -/
def saveEntries (user : ℕ) (time : DateTime) : Table Row → List Entry → Table Row
  | table, [] => table
  | table, entry :: rest =>
      match catalog.saveEntry prog user time table entry with
      | none => table
      | some table => saveEntries user time table rest

def savePriorities (table : Table Row) (request : Request) : Table Row :=
  match catalog.timeslotStart request.timeslotId with
  | none => table
  | some time => catalog.saveEntries prog request.user time table request.priorities

/-! ## What the requests say -/

def isHandled (entry : Entry) : Bool :=
  catalog.hasRegistrationType (relName entry.relIndex) && decide (entry.choice ≠ .notANumber)

/-- A class that is accepted, nothing if the choice is blank, or no outcome if the entry is
rejected. -/
def outcome (user : ℕ) (time : DateTime) (entry : Entry) : Option (Option ℤ) :=
  match entry.choice with
  | .blank => some none
  | .number clsId =>
      if (catalog.getSection prog clsId time).any (catalog.passesChecks prog user) then
        some (some clsId)
      else none
  | .notANumber => none

/-- The outcomes of the handled entries of some requests for a user, a level and a time. -/
def outcomes (user : ℕ) (relIndex : String) (time : DateTime) (requests : List Request) :
    List (Option ℤ) :=
  requests.flatMap fun request =>
    if request.user = user ∧ catalog.timeslotStart request.timeslotId = some time then
      ((request.priorities.takeWhile catalog.isHandled).filter fun entry =>
        entry.relIndex = relIndex).filterMap (catalog.outcome prog user time)
    else []

/-- The class of the last accepted entry, if no blank one came after it. -/
def chosen (user : ℕ) (relIndex : String) (time : DateTime) (requests : List Request) :
    Option ℤ :=
  (catalog.outcomes prog user relIndex time requests).getLast?.join

/-- The registrations of a student for a level that are valid at a time, in sections that start
at another. -/
def validRows (user : ℕ) (relIndex : String) (time when' : DateTime) (table : Table Row) :
    List Row :=
  table.rows.filter fun row => row.isValid when' && decide (row.user = user) &&
    decide (row.relationship = relName relIndex) &&
    decide (catalog.start row.classSection = some time)

/-- The registrations of a bucket that do not end. -/
def openRows (user : ℕ) (relIndex : String) (time : DateTime) (table : Table Row) : List Row :=
  table.rows.filter fun row =>
    catalog.inBucket prog user relIndex time row && decide (row.endDate = none)

def classOf (row : Row) : ℤ := catalog.parentClass row.classSection

end Catalog

/-- A row that has started, and has ended if it ends. -/
def Dated (when' : DateTime) (row : Row) : Prop :=
  (∀ start ∈ row.startDate, start ≤ when') ∧ ∀ finish ∈ row.endDate, finish < when'

namespace Catalog

variable {catalog : Catalog} {prog user student : ℕ} {relIndex level : String}
  {time now when' : DateTime} {row kept : Row} {table after : Table Row} {clsId : ℤ} {sec : ℕ}
  {entry : Entry}

/-! ## Buckets -/

theorem inBucket_iff : catalog.inBucket prog user relIndex time row = true ↔
    row.user = user ∧ catalog.parentProgram (catalog.parentClass row.classSection) = prog ∧
      catalog.start row.classSection = some time ∧ row.relationship = relName relIndex := by
  simp only [inBucket, Bool.and_eq_true, decide_eq_true_eq, and_assoc]

theorem relName_inj : relName relIndex = relName level ↔ relIndex = level := by
  rw [relName, relName]
  exact String.append_right_inj _

theorem inBucket_unique {start : DateTime}
    (isIn : catalog.inBucket prog user relIndex time row = true)
    (alsoIn : catalog.inBucket prog student level start row = true) :
    user = student ∧ relIndex = level ∧ time = start := by
  rw [inBucket_iff] at isIn alsoIn
  refine ⟨isIn.1.symm.trans alsoIn.1, ?_, ?_⟩
  · exact relName_inj.mp (isIn.2.2.2.symm.trans alsoIn.2.2.2)
  · exact Option.some.inj (isIn.2.2.1.symm.trans alsoIn.2.2.1)

/-- A change within a bucket changes nothing elsewhere. -/
theorem filter_not_map {bucket : Row → Bool} {change : Row → Row} {rows : List Row}
    (inside : ∀ row, bucket row = true → bucket (change row) = true) :
    ((rows.map fun row => if bucket row then change row else row).filter fun row => !bucket row) =
      rows.filter fun row => !bucket row := by
  induction rows with
  | nil => rfl
  | cons row rows ih =>
      rw [List.map_cons, List.filter_cons, List.filter_cons, ih]
      cases isIn : bucket row with
      | true => simp [inside row isIn]
      | false => simp [isIn]

theorem getSection_eq_some (found : catalog.getSection prog clsId time = some sec) :
    (catalog.parentClass sec : ℤ) = clsId ∧
      catalog.parentProgram (catalog.parentClass sec) = prog ∧
        catalog.start sec = some time := by
  rw [getSection] at found
  split at found
  next only isOnly =>
    have isMember : only ∈ [only] := List.mem_singleton_self _
    rw [← isOnly, List.mem_filter] at isMember
    cases found
    simpa only [Bool.and_eq_true, decide_eq_true_eq, and_assoc] using isMember.2
  next => cases found

theorem inBucket_revive (found : catalog.getSection prog clsId time = some sec)
    (isIn : catalog.inBucket prog user relIndex time row = true) :
    catalog.inBucket prog user relIndex time (catalog.revive clsId sec now row) = true ∧
      catalog.classOf (catalog.revive clsId sec now row) = clsId := by
  have ofSection := getSection_eq_some found
  rw [inBucket_iff] at isIn ⊢
  rw [classOf, revive]
  by_cases same : (catalog.parentClass row.classSection : ℤ) = clsId
  · rw [if_pos same]
    exact ⟨isIn, same⟩
  · rw [if_neg same]
    exact ⟨⟨isIn.1, ofSection.2.1, ofSection.2.2, isIn.2.2.2⟩, ofSection.1⟩

/-! ## Dates -/

theorem dated_expire (dated : Dated when' row) (before : now < when') :
    Dated when' { row with toExpirableModel := row.toExpirableModel.expire now } := by
  refine ⟨dated.1, fun finish isFinish => ?_⟩
  cases isFinish
  exact before

theorem dated_revive (dated : Dated when' row) :
    Dated when' (catalog.revive clsId sec now row) := by
  refine ⟨fun start isStart => ?_, fun finish isFinish => by cases isFinish⟩
  rcases Option.mem_map.mp isStart with ⟨old, isOld, rfl⟩
  have oldBefore := dated.1 old isOld
  split
  next later => exact later.le.trans oldBefore
  next => exact oldBefore

theorem isValid_iff_of_dated (dated : Dated when' row) :
    row.isValid when' = true ↔ row.endDate = none := by
  rw [ExpirableModel.isValid_iff, and_iff_right dated.1]
  constructor
  · intro unended
    cases ends : row.endDate with
    | none => rfl
    | some finish => exact absurd (unended finish ends) (not_le.mpr (dated.2 finish ends))
  · intro never finish isFinish
    rw [never] at isFinish
    cases isFinish

/-! ## One entry -/

/-- What an entry does outside its bucket, and to the dates in it. -/
structure Handles (catalog : Catalog) (prog user : ℕ) (relIndex : String)
    (time now : DateTime) (table after : Table Row) : Prop where
  elsewhere : (after.rows.filter fun row => !catalog.inBucket prog user relIndex time row) =
    table.rows.filter fun row => !catalog.inBucket prog user relIndex time row
  dated : ∀ when', now < when' →
    (∀ row ∈ table.rows, catalog.inBucket prog user relIndex time row = true → Dated when' row) →
      ∀ row ∈ after.rows, catalog.inBucket prog user relIndex time row = true → Dated when' row

theorem handles_mapRows {change : Row → Row} {keyed}
    (inside : ∀ row, catalog.inBucket prog user relIndex time row = true →
      catalog.inBucket prog user relIndex time (change row) = true)
    (dates : ∀ when', now < when' → ∀ row, Dated when' row → Dated when' (change row)) :
    Handles catalog prog user relIndex time now table (table.mapRows (fun row =>
      if catalog.inBucket prog user relIndex time row then change row else row) keyed) where
  elsewhere := filter_not_map inside
  dated when' before dated row isRow isIn := by
    rcases List.mem_map.mp isRow with ⟨old, isOld, rfl⟩
    by_cases wasIn : catalog.inBucket prog user relIndex time old = true
    · rw [if_pos wasIn]
      exact dates when' before old (dated old isOld wasIn)
    · rw [if_neg wasIn] at isIn
      exact absurd isIn wasIn

theorem handles_register (found : catalog.getSection prog clsId time = some sec) :
    Handles catalog prog user relIndex time now table
      (catalog.register prog table user relIndex time clsId sec now) := by
  rw [register]
  split
  next =>
    have ofSection := getSection_eq_some found
    refine ⟨?_, fun when' before dated row isRow isIn => ?_⟩
    · rw [Table.rows_create, List.filter_append, List.filter_singleton]
      simp [inBucket, ofSection]
    · rcases List.mem_append.mp isRow with isOld | isNew
      · exact dated row isOld isIn
      · rw [List.mem_singleton.mp isNew]
        refine ⟨fun start isStart => ?_, fun finish isFinish => by cases isFinish⟩
        cases isStart
        exact before.le
  next kept _ _ =>
    refine handles_mapRows (fun row isIn => ?_) fun when' before row dated => ?_
    · split
      next => exact (inBucket_revive found isIn).1
      next => exact isIn
    · split
      next => exact dated_revive dated
      next => exact dated_expire dated before

theorem openRows_blank {keyed} : catalog.openRows prog user relIndex time
    (table.mapRows (fun row => if catalog.inBucket prog user relIndex time row then
      { row with toExpirableModel := row.toExpirableModel.expire now } else row) keyed) = [] := by
  rw [openRows, List.filter_eq_nil_iff]
  intro row isRow
  rcases List.mem_map.mp isRow with ⟨old, _, rfl⟩
  cases wasIn : catalog.inBucket prog user relIndex time old with
  | true => simp [ExpirableModel.expire]
  | false => simp [wasIn]

theorem filter_id_eq {rest : List Row}
    (bucket : table.rows.filter (catalog.inBucket prog user relIndex time) = kept :: rest) :
    (table.rows.filter fun row =>
      catalog.inBucket prog user relIndex time row && decide (row.id = kept.id)) = [kept] := by
  have ids : (kept :: rest).Pairwise fun row other => row.id ≠ other.id := by
    rw [← bucket]
    exact (table.ordered.imp fun before => before.ne).filter _
  rw [List.pairwise_cons] at ids
  have swapped : (table.rows.filter fun row =>
      catalog.inBucket prog user relIndex time row && decide (row.id = kept.id)) =
        (kept :: rest).filter fun row => decide (row.id = kept.id) := by
    rw [← bucket, List.filter_filter]
    refine List.filter_congr fun row _ => Bool.and_comm _ _
  rw [swapped, List.filter_cons_of_pos (by simp), List.filter_eq_nil_iff.mpr]
  intro row isRest
  rw [decide_eq_true_eq]
  exact (ids.1 row isRest).symm

theorem openRows_register (found : catalog.getSection prog clsId time = some sec) :
    (catalog.openRows prog user relIndex time
      (catalog.register prog table user relIndex time clsId sec now)).map catalog.classOf =
        [clsId] := by
  have ofSection := getSection_eq_some found
  rw [register, openRows]
  split
  next none =>
    rw [List.filter_eq_nil_iff] at none
    rw [Table.rows_create, List.filter_append, List.filter_eq_nil_iff.mpr]
    · simp [inBucket, ofSection, classOf]
    · intro row isRow isOpen
      exact none row isRow (Bool.and_eq_true_iff.mp isOpen).1
  next kept rest bucket =>
    have isKept : catalog.inBucket prog user relIndex time kept = true :=
      List.of_mem_filter (bucket ▸ List.mem_cons_self)
    rw [Table.rows_mapRows, List.filter_map, List.filter_congr (q := fun row =>
      catalog.inBucket prog user relIndex time row && decide (row.id = kept.id)),
      filter_id_eq bucket]
    · rw [List.map_singleton, List.map_singleton, if_pos isKept, if_pos rfl,
        (inBucket_revive found isKept).2]
    · intro row _
      rw [Function.comp]
      cases isIn : catalog.inBucket prog user relIndex time row with
      | true =>
          rw [if_pos rfl, Bool.true_and]
          by_cases same : row.id = kept.id
          · rw [if_pos same, (inBucket_revive found isIn).1]
            simp [same, revive, ExpirableModel.unexpire]
          · rw [if_neg same]
            simp [same, ExpirableModel.expire]
      | false => simp [isIn]

/-- What an entry does: nothing, or its outcome becomes the only open registration. -/
theorem saveEntry_spec (saved : catalog.saveEntry prog user time table entry = some after) :
    Handles catalog prog user entry.relIndex time entry.now table after ∧
      match catalog.outcome prog user time entry with
      | none => after = table
      | some outcome => (catalog.openRows prog user entry.relIndex time after).map
          catalog.classOf = outcome.toList := by
  have unchanged : Handles catalog prog user entry.relIndex time entry.now table table :=
    ⟨rfl, fun _ _ dated => dated⟩
  rw [saveEntry] at saved
  split at saved
  next =>
    rw [outcome]
    cases choice : entry.choice with
    | blank =>
        rw [choice] at saved
        cases saved
        refine ⟨handles_mapRows (fun row isIn => isIn) fun when' before row dated =>
          dated_expire dated before, ?_⟩
        exact congrArg (List.map catalog.classOf) openRows_blank
    | number clsId =>
        rw [choice] at saved
        dsimp only at saved ⊢
        cases found : catalog.getSection prog clsId time with
        | none =>
            rw [found] at saved
            cases saved
            exact ⟨unchanged, rfl⟩
        | some sec =>
            rw [found] at saved
            dsimp only at saved
            rw [Option.any_some]
            cases passes : catalog.passesChecks prog user sec with
            | true =>
                rw [passes, if_pos rfl] at saved
                cases saved
                rw [if_pos rfl]
                exact ⟨handles_register found, openRows_register found⟩
            | false =>
                rw [passes, if_neg Bool.false_ne_true] at saved
                cases saved
                rw [if_neg Bool.false_ne_true]
                exact ⟨unchanged, rfl⟩
    | notANumber =>
        rw [choice] at saved
        cases saved
  next => cases saved

theorem isSome_saveEntry (catalog : Catalog) (prog user : ℕ) (time : DateTime) (table : Table Row)
    (entry : Entry) :
    (catalog.saveEntry prog user time table entry).isSome = catalog.isHandled entry := by
  rw [saveEntry, isHandled]
  cases catalog.hasRegistrationType (relName entry.relIndex) with
  | false => rfl
  | true =>
      cases choice : entry.choice with
      | blank => rfl
      | number clsId =>
          simp only [if_true]
          cases catalog.getSection prog clsId time with
          | none => rfl
          | some sec =>
              dsimp only
              split
              next => rfl
              next => rfl
      | notANumber => rfl

/-! ## Runs -/

/-- The registrations of a student show the last outcome for each level and time. -/
structure Shows (catalog : Catalog) (prog student : ℕ) (when' : DateTime)
    (outcomes : String → DateTime → List (Option ℤ)) (table : Table Row) : Prop where
  ofProgram : ∀ row ∈ table.rows, row.user = student →
    catalog.parentProgram (catalog.parentClass row.classSection) = prog
  dated : ∀ row ∈ table.rows, row.user = student → Dated when' row
  openRows : ∀ level time, (catalog.openRows prog student level time table).map catalog.classOf =
    (outcomes level time).getLast?.join.toList

variable {requester : ℕ} {seen further : String → DateTime → List (Option ℤ)}
  {entries : List Entry} {request : Request} {requests : List Request}

theorem Shows.congr (shows : Shows catalog prog student when' seen table)
    (same : ∀ level time, seen level time = further level time) :
    Shows catalog prog student when' further table := by
  refine ⟨shows.ofProgram, shows.dated, fun level time => ?_⟩
  rw [← same]
  exact shows.openRows level time

theorem openRows_elsewhere {start : DateTime}
    (elsewhere : (after.rows.filter fun row => !catalog.inBucket prog user relIndex time row) =
      table.rows.filter fun row => !catalog.inBucket prog user relIndex time row)
    (different : ¬(user = student ∧ time = start ∧ relIndex = level)) :
    catalog.openRows prog student level start after =
      catalog.openRows prog student level start table := by
  have split : ∀ rows : List Row, (rows.filter fun row =>
      catalog.inBucket prog student level start row && decide (row.endDate = none)) =
        ((rows.filter fun row => !catalog.inBucket prog user relIndex time row).filter fun row =>
          catalog.inBucket prog student level start row && decide (row.endDate = none)) := by
    intro rows
    rw [List.filter_filter]
    refine List.filter_congr fun row _ => ?_
    cases isIn : catalog.inBucket prog student level start row with
    | false => rfl
    | true =>
        have apart : catalog.inBucket prog user relIndex time row = false := by
          by_contra alsoIn
          rcases inBucket_unique (Bool.of_not_eq_false alsoIn) isIn with ⟨sameUser, sameLevel, sameTime⟩
          exact different ⟨sameUser, sameTime, sameLevel⟩
        rw [apart, Bool.not_false, Bool.and_true]
  rw [Catalog.openRows, Catalog.openRows, split after.rows, split table.rows, elsewhere]

theorem Shows.saveEntry (shows : Shows catalog prog student when' seen table)
    (saved : catalog.saveEntry prog requester time table entry = some after)
    (before : entry.now < when') :
    Shows catalog prog student when' (fun level start => seen level start ++
      if requester = student ∧ time = start ∧ entry.relIndex = level then
        (catalog.outcome prog requester time entry).toList else []) after := by
  rcases saveEntry_spec saved with ⟨handles, effect⟩
  have isOld : ∀ row ∈ after.rows,
      catalog.inBucket prog requester entry.relIndex time row = false → row ∈ table.rows := by
    intro row isRow notIn
    have isOther : row ∈ after.rows.filter fun row =>
        !catalog.inBucket prog requester entry.relIndex time row :=
      List.mem_filter.mpr ⟨isRow, by rw [notIn]; rfl⟩
    rw [handles.elsewhere] at isOther
    exact List.mem_of_mem_filter isOther
  refine ⟨fun row isRow ofStudent => ?_, fun row isRow ofStudent => ?_, fun level start => ?_⟩
  · cases isIn : catalog.inBucket prog requester entry.relIndex time row with
    | true => exact (inBucket_iff.mp isIn).2.1
    | false => exact shows.ofProgram row (isOld row isRow isIn) ofStudent
  · cases isIn : catalog.inBucket prog requester entry.relIndex time row with
    | true =>
        refine handles.dated when' before (fun old wasRow wasIn => ?_) row isRow isIn
        refine shows.dated old wasRow ?_
        rw [(inBucket_iff.mp wasIn).1, ← (inBucket_iff.mp isIn).1]
        exact ofStudent
    | false => exact shows.dated row (isOld row isRow isIn) ofStudent
  · by_cases same : requester = student ∧ time = start ∧ entry.relIndex = level
    · rw [if_pos same]
      rcases same with ⟨rfl, rfl, rfl⟩
      cases outcome : catalog.outcome prog requester time entry with
      | none =>
          rw [outcome] at effect
          dsimp only at effect
          rw [effect, Option.toList_none, List.append_nil]
          exact shows.openRows _ _
      | some outcome' =>
          rw [outcome] at effect
          dsimp only at effect
          rw [effect, Option.toList_some, List.getLast?_concat]
          rfl
    · rw [if_neg same, List.append_nil, openRows_elsewhere handles.elsewhere same]
      exact shows.openRows level start

theorem Shows.saveEntries (requester : ℕ) (time : DateTime)
    (shows : Shows catalog prog student when' seen table)
    (before : ∀ entry ∈ entries, entry.now < when') :
    Shows catalog prog student when' (fun level start => seen level start ++
      if requester = student ∧ time = start then
        ((entries.takeWhile catalog.isHandled).filter fun entry =>
          entry.relIndex = level).filterMap (catalog.outcome prog requester time) else [])
      (catalog.saveEntries prog requester time table entries) := by
  induction entries generalizing table seen with
  | nil =>
      refine shows.congr fun level start => ?_
      rw [List.takeWhile_nil, List.filter_nil, List.filterMap_nil, ite_self, List.append_nil]
  | cons entry rest ih =>
      have isSome := isSome_saveEntry catalog prog requester time table entry
      rw [Catalog.saveEntries]
      cases saved : catalog.saveEntry prog requester time table entry with
      | none =>
          rw [saved] at isSome
          refine shows.congr fun level start => ?_
          rw [List.takeWhile_cons_of_neg (by simp [← isSome]), List.filter_nil, List.filterMap_nil,
            ite_self, List.append_nil]
      | some after =>
          rw [saved] at isSome
          refine (ih (shows.saveEntry saved (before entry List.mem_cons_self))
            fun entry isRest => before entry (List.mem_cons_of_mem _ isRest)).congr
              fun level start => ?_
          rw [List.takeWhile_cons_of_pos isSome.symm, List.append_assoc]
          congr 1
          by_cases here : requester = student ∧ time = start
          · rw [if_pos here, if_pos here, List.filter_cons]
            by_cases same : entry.relIndex = level
            · rw [if_pos ⟨here.1, here.2, same⟩, if_pos (by simp [same]), List.filterMap_cons]
              cases catalog.outcome prog requester time entry with
              | none => rfl
              | some outcome => rfl
            · rw [if_neg fun all => same all.2.2, if_neg (by simp [same]), List.nil_append]
          · rw [if_neg here, if_neg here, if_neg fun all => here ⟨all.1, all.2.1⟩, List.nil_append]

theorem Shows.run (shows : Shows catalog prog student when' seen table)
    (before : ∀ request ∈ requests, ∀ entry ∈ request.priorities, entry.now < when') :
    Shows catalog prog student when' (fun level start => seen level start ++
      catalog.outcomes prog student level start requests)
      (run (catalog.savePriorities prog) table requests) := by
  induction requests generalizing table seen with
  | nil => exact shows.congr fun level start => (List.append_nil _).symm
  | cons request requests ih =>
      have later : ∀ request ∈ requests, ∀ entry ∈ request.priorities, entry.now < when' :=
        fun request isLater => before request (List.mem_cons_of_mem _ isLater)
      have now := before request List.mem_cons_self
      rw [Runs.run, List.foldl_cons, Catalog.savePriorities]
      cases found : catalog.timeslotStart request.timeslotId with
      | none =>
          refine (ih shows later).congr fun level start => ?_
          rw [outcomes, outcomes, List.flatMap_cons, found, if_neg (by simp), List.nil_append]
      | some time =>
          refine (ih (shows.saveEntries request.user time now) later).congr fun level start => ?_
          rw [outcomes, outcomes, List.flatMap_cons, found, List.append_assoc]
          by_cases here : request.user = student ∧ time = start
          · rw [if_pos here, if_pos ⟨here.1, congrArg some here.2⟩, here.1, here.2]
          · rw [if_neg here, if_neg fun all => here ⟨all.1, Option.some.inj all.2⟩]

theorem Shows.validRows_eq (shows : Shows catalog prog student when' seen table) :
    catalog.validRows student level time when' table =
      catalog.openRows prog student level time table := by
  refine List.filter_congr fun row isRow => ?_
  rw [Bool.eq_iff_iff]
  simp only [Bool.and_eq_true, decide_eq_true_eq, inBucket_iff]
  constructor
  · intro valid
    have dated := shows.dated row isRow valid.1.1.2
    exact ⟨⟨valid.1.1.2, shows.ofProgram row isRow valid.1.1.2, valid.2, valid.1.2⟩,
      (isValid_iff_of_dated dated).mp valid.1.1.1⟩
  · intro isOpen
    have dated := shows.dated row isRow isOpen.1.1
    exact ⟨⟨⟨(isValid_iff_of_dated dated).mpr isOpen.2, isOpen.1.1⟩, isOpen.1.2.2.2⟩, isOpen.1.2.2.1⟩

/-- A student who had no registrations has, for each level and each time, after any requests one
valid registration for the class of the last entry that was accepted, if no blank one came after
it, and otherwise none. -/
theorem validRows_run_eq (catalog : Catalog) (prog student : ℕ) (table : Table Row)
    (requests : List Request) (when' : DateTime)
    (none : ∀ row ∈ table.rows, row.user ≠ student)
    (before : ∀ request ∈ requests, ∀ entry ∈ request.priorities, entry.now < when')
    (level : String) (time : DateTime) :
    (catalog.validRows student level time when'
      (run (catalog.savePriorities prog) table requests)).map catalog.classOf =
        (catalog.chosen prog student level time requests).toList := by
  have initially : Shows catalog prog student when' (fun _ _ => []) table := by
    refine ⟨fun row isRow ofStudent => absurd ofStudent (none row isRow),
      fun row isRow ofStudent => absurd ofStudent (none row isRow), fun level start => ?_⟩
    rw [openRows, List.filter_eq_nil_iff.mpr]
    · rfl
    · intro row isRow isOpen
      exact none row isRow (inBucket_iff.mp (Bool.and_eq_true_iff.mp isOpen).1).1
  have shows := initially.run before
  rw [shows.validRows_eq, shows.openRows, List.nil_append]
  rfl

end Catalog

namespace Sample

/-- Two classes at different times, which all grades may take. -/
def twoClasses : Catalog where
  sections := [1, 2]
  parentClass := id
  sectionStatus := fun _ => 10
  meetingTimes := fun sec => [100 * sec]
  parentProgram := fun _ => 1
  classStatus := fun _ => 10
  gradeMin := fun _ => 7
  gradeMax := fun _ => 12
  getGrade := fun _ _ => 9
  timeslotStart := fun timeslot => if timeslot = 1 then some 100 else none
  hasRegistrationType := fun _ => true

def noRows : Table Row := ⟨[], 1, List.Pairwise.nil, by simp⟩

/-- A student chooses a class, then nothing, and then the class again. -/
def changes : List Request :=
  [⟨5, 1, [⟨10, "1", .number 1⟩]⟩, ⟨5, 1, [⟨20, "1", .blank⟩]⟩, ⟨5, 1, [⟨30, "1", .number 1⟩]⟩]

/-- The student has one registration then. -/
theorem chosen_again : (twoClasses.validRows 5 "1" 100 40
    (run (twoClasses.savePriorities 1) noRows changes)).map twoClasses.classOf =
      (twoClasses.chosen 1 5 "1" 100 changes).toList :=
  Catalog.validRows_run_eq twoClasses 1 5 noRows changes 40 (by simp [noRows]) (by decide) "1" 100

example : twoClasses.chosen 1 5 "1" 100 changes = some 1 := by decide

end Sample

end EspWebsite.Registration.TwoPhase
