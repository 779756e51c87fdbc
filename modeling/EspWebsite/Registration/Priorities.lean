import EspWebsite.Library.Runs
import EspWebsite.Registration.Calls
import EspWebsite.Registration.CannotAdd

/-!
# Priorities

With priority registration a student ranks the sections of each timeslot by levels.  These are
the levels that `getRegistrationPriority` finds and that `addclass_logic` gives, over runs of
additions and removals.
-/

namespace EspWebsite.Registration

open Python Runs

def priorityName (level : ℕ) : String := "Priority/" ++ toString level

/-- A registration type takes a level: by its name, or the first level if its name has none. -/
def TakesLevel (verb : String) (level : ℕ) : Prop :=
  verb = priorityName level ∨
    level = 1 ∧ startswith verb "Priority" = true ∧ ∀ other, verb ≠ priorityName other

namespace Catalog

variable (catalog : Catalog) (db : Database) (program user : ℕ) (now : DateTime)

/-- A valid registration of the student in a section of the program that meets at one of some
timeslots. -/
structure Meets (timeslots : List ℕ) (row : StudentRegistration) : Prop where
  isRow : row ∈ db.registrations
  valid : row.isValid now = true
  ofUser : row.user = user
  isSection : row.classSection ∈ catalog.sections
  inProgram : catalog.parentProgram row.classSection = program
  meets : ∃ id ∈ catalog.timeslotIds row.classSection, id ∈ timeslots

def EnrolledAt (timeslots : List ℕ) : Prop :=
  ∃ row, catalog.Meets db program user now timeslots row ∧ row.relationship = "Enrolled"

/-- A registration of the student takes a level at one of some timeslots. -/
def TakenAt (timeslots : List ℕ) (level : ℕ) : Prop :=
  ∃ row, catalog.Meets db program user now timeslots row ∧ TakesLevel row.relationship level

/-- What a registration priority should be: zero if the student is enrolled at one of the
timeslots, and otherwise the least level that is not taken at them. -/
def IsDue (timeslots : List ℕ) (priority : ℕ) : Prop :=
  (catalog.EnrolledAt db program user now timeslots → priority = 0) ∧
    (¬catalog.EnrolledAt db program user now timeslots →
      IsLeast {level | 1 ≤ level ∧ ¬catalog.TakenAt db program user now timeslots level} priority)

/-- A registration of the student ranks a section of the program at a timeslot. -/
structure Ranks (row : StudentRegistration) (timeslot level : ℕ) : Prop where
  ofUser : row.user = user
  isSection : row.classSection ∈ catalog.sections
  inProgram : catalog.parentProgram row.classSection = program
  meets : timeslot ∈ catalog.timeslotIds row.classSection
  named : row.relationship = priorityName level

/-- At each timeslot, the levels of the valid registrations of the student are different, and
between one and the limit. -/
def LevelsRight (moment : Moment) : Prop :=
  ∀ now, moment.last < now →
    ((moment.db.registrations.filter fun row => row.isValid now).Pairwise fun row other =>
      ∀ timeslot level, ¬(catalog.Ranks program user row timeslot level ∧
        catalog.Ranks program user other timeslot level)) ∧
    ∀ row ∈ moment.db.registrations, row.isValid now = true → ∀ timeslot level,
      catalog.Ranks program user row timeslot level →
        1 ≤ level ∧ (level : ℤ) ≤ catalog.priorityLimit program

end Catalog

/-- A student adds a section of a class, or is taken out of a section. -/
inductive Action where
  | add (classSubject classSection : ℕ) (webapp isMorphed : Bool)
  | remove (classSection : ℕ) (verbs : List String)

structure Selection where
  now : DateTime
  user : ℕ
  action : Action

namespace Selection

variable (catalog : Catalog) (program : ℕ) (moment : Moment) (selection : Selection)

/-- What a selection makes of the database; nobody acts onsite. -/
def apply (db : Database) : Raises Database :=
  match selection.action with
  | .add classSubject classSection webapp isMorphed =>
      catalog.addclassLogic db selection.user program classSection classSubject selection.now false
        webapp isMorphed
  | .remove classSection verbs =>
      .ok (catalog.unpreregisterStudent db classSection selection.user selection.now verbs)

def step : Moment :=
  match selection.apply catalog program moment.db with
  | .ok after => ⟨after, selection.now⟩
  | .error _ => ⟨moment.db, selection.now⟩

/-- A selection, later than those before, that raises nothing. -/
structure Succeeds : Prop where
  later : moment.last < selection.now
  succeeds : ∃ after, selection.apply catalog program moment.db = .ok after

/-- Where a section is added in whose timeslots some level is taken, no other section in them
has the second level. -/
def Keeps (user : ℕ) : Prop :=
  selection.user = user →
    match selection.action with
    | .add _ classSection _ _ =>
        catalog.takenPriorities moment.db user program selection.now
            (catalog.meetingTimes classSection) ≠ [] →
          ∀ row ∈ moment.db.registrations, row.isValid selection.now = true →
            ∀ timeslot ∈ catalog.timeslotIds classSection,
              catalog.Ranks program user row timeslot 2 → row.classSection = classSection
    | .remove _ _ => True

end Selection

section Levels

variable {catalog : Catalog} {db : Database} {program user : ℕ} {now : DateTime}
  {timeslots : List Event} {taken : List ℕ} {level other : ℕ}

theorem priorityName_inj : priorityName level = priorityName other ↔ level = other := by
  rw [priorityName, priorityName, String.append_right_inj]
  exact Nat.repr_inj

theorem startswith_priorityName : startswith (priorityName level) "Priority" = true := by
  rw [startswith, priorityName, String.toList_append]
  exact List.isPrefixOf_iff_prefix.mpr ⟨'/' :: (toString level).toList, rfl⟩

theorem priorityName_not_mem_notes : priorityName level ∉ notes := by
  intro isNote
  have starts : startswith (priorityName level) "Priority" = true := startswith_priorityName
  have none : ∀ note ∈ notes, startswith note "Priority" = false := by decide
  rw [none _ isNote] at starts
  cases starts

theorem exists_takesLevel_iff {verb : String} :
    (∃ level, TakesLevel verb level) ↔ startswith verb "Priority" = true := by
  constructor
  · intro takes
    rcases takes with ⟨level, rfl | ⟨_, starts, _⟩⟩
    · exact startswith_priorityName
    · exact starts
  · intro starts
    by_cases named : ∃ level, verb = priorityName level
    · rcases named with ⟨level, named⟩
      exact ⟨level, .inl named⟩
    · exact ⟨1, .inr ⟨rfl, starts, fun level same => named ⟨level, same⟩⟩⟩

/-! ## The first free level -/

theorem isLeast_firstFree {further priority : ℕ}
    (near : ∀ level ∈ taken, level < priority + further) :
    IsLeast {level | priority ≤ level ∧ level ∉ taken}
      (Catalog.firstFree taken further priority) := by
  induction further generalizing priority with
  | zero =>
      refine ⟨⟨le_rfl, fun isTaken => absurd (near priority isTaken) (by omega)⟩, ?_⟩
      exact fun level isFree => isFree.1
  | succ further ih =>
      rw [Catalog.firstFree]
      split
      next isTaken =>
        have nearer : ∀ level ∈ taken, level < priority + 1 + further := by
          intro level isLevel
          have := near level isLevel
          omega
        rcases ih nearer with ⟨⟨above, free⟩, least⟩
        refine ⟨⟨by omega, free⟩, fun level isFree => least ⟨?_, isFree.2⟩⟩
        rcases Nat.lt_or_eq_of_le isFree.1 with later | same
        · exact later
        · exact absurd (same ▸ isTaken) isFree.2
      next isFree => exact ⟨⟨le_rfl, isFree⟩, fun level isFree => isFree.1⟩

theorem isLeast_getRegistrationPriority (nonempty : timeslots ≠ []) :
    IsLeast {level | 1 ≤ level ∧ level ∉ catalog.takenPriorities db user program now timeslots}
      (catalog.getRegistrationPriority db user program now timeslots) := by
  have some := List.length_pos_of_ne_nil nonempty
  rw [Catalog.getRegistrationPriority, if_neg (by omega)]
  refine isLeast_firstFree fun level isTaken => ?_
  have := List.single_le_sum (by simp) level isTaken
  omega

theorem mem_takenPriorities :
    level ∈ catalog.takenPriorities db user program now timeslots ↔
      level = 1 ∧ ∃ row, catalog.Meets db program user now (timeslots.map Event.id) row ∧
        startswith row.relationship "Priority" = true := by
  simp only [Catalog.takenPriorities, List.mem_flatMap]
  constructor
  · intro isTaken
    rcases isTaken with ⟨sec, isSection, t, isMeeting, isTaken⟩
    rcases List.mem_filter.mp isSection with ⟨isSection, inProgram⟩
    split at isTaken
    next isTimeslot =>
      rcases List.mem_map.mp isTaken with ⟨row, counted, rfl⟩
      rcases List.mem_filter.mp counted with ⟨registered, starts⟩
      rcases Database.mem_getRegistrations.mp registered with ⟨isRow, valid, rfl, ofUser⟩
      have inProgram := of_decide_eq_true (Bool.and_eq_true_iff.mp inProgram).1
      exact ⟨rfl, row, ⟨isRow, valid, ofUser, isSection, inProgram, t.id,
        List.mem_map_of_mem isMeeting, isTimeslot⟩, starts⟩
    next => cases isTaken
  · intro counts
    rcases counts with ⟨rfl, row, meets, starts⟩
    rcases meets with ⟨isRow, valid, ofUser, isSection, inProgram, id, isMeeting, isTimeslot⟩
    rcases List.mem_map.mp isMeeting with ⟨t, isEvent, rfl⟩
    have registered : row ∈ db.getRegistrations row.classSection user now :=
      Database.mem_getRegistrations.mpr ⟨isRow, valid, rfl, ofUser⟩
    refine ⟨row.classSection, List.mem_filter.mpr ⟨isSection, ?_⟩, t, isEvent, ?_⟩
    · rw [decide_eq_true inProgram, Bool.true_and, Bool.not_eq_true', List.isEmpty_eq_false_iff]
      exact List.ne_nil_of_mem registered
    · rw [if_pos isTimeslot]
      exact List.mem_map.mpr ⟨row, List.mem_filter.mpr ⟨registered, starts⟩, rfl⟩

theorem getRegistrationPriority_eq (nonempty : timeslots ≠ []) :
    catalog.getRegistrationPriority db user program now timeslots =
      if catalog.takenPriorities db user program now timeslots = [] then 1 else 2 := by
  refine (isLeast_getRegistrationPriority nonempty).unique ?_
  split
  next none => exact ⟨⟨le_rfl, none ▸ List.not_mem_nil⟩, fun level isFree => isFree.1⟩
  next some =>
    rcases List.exists_mem_of_ne_nil _ some with ⟨level, isTaken⟩
    rcases mem_takenPriorities.mp isTaken with ⟨rfl, _⟩
    refine ⟨⟨by omega, fun isTaken => ?_⟩, fun level isFree => ?_⟩
    · exact absurd (mem_takenPriorities.mp isTaken).1 (by omega)
    · have different : level ≠ 1 := fun first => isFree.2 (first ▸ isTaken)
      have positive := isFree.1
      omega

theorem takenPriorities_ne_nil_iff :
    catalog.takenPriorities db user program now timeslots ≠ [] ↔
      ∃ level, catalog.TakenAt db program user now (timeslots.map Event.id) level := by
  constructor
  · intro some
    rcases List.exists_mem_of_ne_nil _ some with ⟨level, isTaken⟩
    rcases mem_takenPriorities.mp isTaken with ⟨_, row, meets, starts⟩
    rcases exists_takesLevel_iff.mpr starts with ⟨level, takes⟩
    exact ⟨level, row, meets, takes⟩
  · intro taken
    rcases taken with ⟨level, row, meets, takes⟩
    exact List.ne_nil_of_mem (mem_takenPriorities.mpr
      ⟨rfl, row, meets, exists_takesLevel_iff.mp ⟨level, takes⟩⟩)

theorem isDue_getRegistrationPriority_iff :
    catalog.IsDue db program user now (timeslots.map Event.id)
        (catalog.getRegistrationPriority db user program now timeslots) ↔
      timeslots ≠ [] ∧ ¬catalog.EnrolledAt db program user now (timeslots.map Event.id) ∧
        ((∃ level, catalog.TakenAt db program user now (timeslots.map Event.id) level) →
          catalog.TakenAt db program user now (timeslots.map Event.id) 1 ∧
            ¬catalog.TakenAt db program user now (timeslots.map Event.id) 2) := by
  by_cases empty : timeslots = []
  · subst empty
    refine iff_of_false (fun due => ?_) fun holds => holds.1 rfl
    have free : ¬catalog.EnrolledAt db program user now (([] : List Event).map Event.id) :=
      fun enrolled => by
        rcases enrolled with ⟨row, meets, _⟩
        rcases meets.meets with ⟨id, _, impossible⟩
        cases impossible
    exact absurd (due.2 free).1.1 (by simp [Catalog.getRegistrationPriority])
  · rw [getRegistrationPriority_eq empty, Catalog.IsDue]
    by_cases enrolled : catalog.EnrolledAt db program user now (timeslots.map Event.id)
    · refine iff_of_false (fun due => ?_) fun holds => holds.2.1 enrolled
      have zero := due.1 enrolled
      split at zero <;> omega
    · simp only [enrolled, false_imp_iff, not_false_eq_true, true_imp_iff, true_and, ne_eq, empty]
      by_cases some : catalog.takenPriorities db user program now timeslots = []
      · have none : ¬∃ level, catalog.TakenAt db program user now (timeslots.map Event.id) level :=
          fun taken => takenPriorities_ne_nil_iff.mpr taken some
        rw [if_pos some]
        refine iff_of_true ⟨⟨le_rfl, fun taken => none ⟨1, taken⟩⟩, fun level isFree => isFree.1⟩ ?_
        exact fun taken => absurd taken none
      · rw [if_neg some]
        have taken := takenPriorities_ne_nil_iff.mp some
        constructor
        · intro least _
          refine ⟨by_contra fun free => ?_, least.1.2⟩
          exact absurd (least.2 ⟨le_rfl, free⟩) (by omega)
        · intro holds
          rcases holds taken with ⟨first, second⟩
          refine ⟨⟨by omega, second⟩, fun level isFree => ?_⟩
          have different : level ≠ 1 := fun same => isFree.2 (same ▸ first)
          have positive := isFree.1
          omega

/-! ## Adding a section -/

theorem cannotAdd_eq_empty {classSection : ℕ} {checkFull webapp : Bool}
    (notFull : catalog.isFull db classSection now false webapp = false)
    (priorities : catalog.usePriority (catalog.parentProgram classSection) = true)
    (added : catalog.cannotAdd db user classSection now checkFull webapp = .ok "") :
    (catalog.getRegistrationPriority db user (catalog.parentProgram classSection) now
      (catalog.meetingTimes classSection) : ℤ) ≤
        catalog.priorityLimit (catalog.parentProgram classSection) := by
  rw [Catalog.cannotAdd, notFull, Bool.and_false] at added
  exact (Catalog.cannotAddTo_eq_empty_iff.mp added).2.2.2.2 priorities

theorem addclassLogic_eq_ok {classSubject classSection : ℕ} {webapp isMorphed : Bool}
    {after : Database} (priorities : catalog.usePriority program = true)
    (added : catalog.addclassLogic db user program classSection classSubject now false webapp
      isMorphed = .ok after) :
    classSection ∈ catalog.sections ∧ catalog.parentProgram classSection = program ∧
      (catalog.getRegistrationPriority db user program now
        (catalog.meetingTimes classSection) : ℤ) ≤
        catalog.priorityLimit program ∧
      catalog.preregisterStudent db classSection user now
        { priority := catalog.getRegistrationPriority db user program now
            (catalog.meetingTimes classSection), webapp, isMorphed } = (true, after) := by
  rw [Catalog.addclassLogic] at added
  split at added
  next => cases added
  next found =>
    rcases not_not.mp found with ⟨isSection, _, inProgram⟩
    rcases bind_eq_ok.mp added with ⟨error, addError, added⟩
    split at added
    next => cases added
    next allowed =>
      have allowed : error = "" := by simpa using allowed
      rw [Catalog.addPriority, priorities, if_pos rfl] at added
      split at added
      next registered =>
        cases added
        refine ⟨isSection, inProgram, ?_, registered⟩
        rw [Catalog.addError, priorities] at addError
        rcases bind_eq_ok.mp addError with ⟨sectionError, sectionAdded, addError⟩
        rw [Bool.true_or, if_pos rfl] at addError
        rcases bind_eq_ok.mp addError with ⟨cobjError, _, addError⟩
        have noError : sectionError = "" := by
          have same := Except.ok.inj addError
          split at same
          next nonempty => exact absurd (same.trans allowed) nonempty
          next => exact same.trans allowed
        have notFull := isFull_eq_false_of_succeeds (congrArg Prod.fst registered) rfl rfl
        subst inProgram
        rw [noError] at sectionAdded
        exact cannotAdd_eq_empty notFull priorities sectionAdded
      next => cases added

/-! ## Levels -/

variable {moment : Moment} {selection : Selection}

def OfStudent (site : Site) (program user student classSection : ℕ) (_ : String) : Prop :=
  student = user ∧ site.parentProgram classSection = program

/-- The levels of the registrations without an end are right. -/
structure OpenRight (catalog : Catalog) (program user : ℕ) (db : Database) : Prop where
  different : (db.registrations.filter fun row => row.endDate = none).Pairwise fun row other =>
    ∀ timeslot level, ¬(catalog.Ranks program user row timeslot level ∧
      catalog.Ranks program user other timeslot level)
  within : ∀ row ∈ db.registrations, row.endDate = none → ∀ timeslot level,
    catalog.Ranks program user row timeslot level →
      1 ≤ level ∧ (level : ℤ) ≤ catalog.priorityLimit program

theorem Settled.levelsRight_iff
    (settled : Settled (OfStudent catalog.toSite program user) moment) :
    catalog.LevelsRight program user moment ↔ OpenRight catalog program user moment.db := by
  have valid {row : StudentRegistration} {timeslot level : ℕ} {now : DateTime}
      (isRow : row ∈ moment.db.registrations)
        (ranks : catalog.Ranks program user row timeslot level)
      (later : moment.last < now) : row.isValid now = true ↔ row.endDate = none :=
    settled.isValid_iff isRow ⟨ranks.ofUser, ranks.inProgram⟩ later
  constructor
  · intro right
    have later : moment.last < moment.last + 1 := Int.lt_succ _
    rcases right _ later with ⟨different, within⟩
    constructor
    · rw [List.pairwise_filter] at different ⊢
      refine different.imp_of_mem ?_
      intro row other isRow isOther apart rowOpen otherOpen timeslot level ranks
      exact apart ((valid isRow ranks.1 later).mpr (of_decide_eq_true rowOpen))
        ((valid isOther ranks.2 later).mpr (of_decide_eq_true otherOpen)) timeslot level ranks
    · intro row isRow isOpen timeslot level ranks
      exact within row isRow ((valid isRow ranks later).mpr isOpen) timeslot level ranks
  · intro right now later
    constructor
    · have different := right.different
      rw [List.pairwise_filter] at different ⊢
      refine different.imp_of_mem ?_
      intro row other isRow isOther apart rowValid otherValid timeslot level ranks
      exact apart (decide_eq_true ((valid isRow ranks.1 later).mp rowValid))
        (decide_eq_true ((valid isOther ranks.2 later).mp otherValid)) timeslot level ranks
    · intro row isRow isValid timeslot level ranks
      exact right.within row isRow ((valid isRow ranks later).mp isValid) timeslot level ranks

theorem expired_of_isOpen {condition : StudentRegistration → Bool} {row : StudentRegistration}
    (isOpen : (if condition row then { row with endDate := some now } else row).endDate = none) :
    (if condition row then { row with endDate := some now } else row) = row ∧
      row.endDate = none := by
  split at isOpen
  next => cases isOpen
  next unselected => exact ⟨if_neg unselected, isOpen⟩

theorem OpenRight.expire {condition : StudentRegistration → Bool}
    (right : OpenRight catalog program user db) :
    OpenRight catalog program user (db.expire now condition) := by
  constructor
  · have different := right.different
    rw [List.pairwise_filter] at different ⊢
    rw [Database.expire, List.pairwise_map]
    refine different.imp ?_
    intro row other apart rowOpen otherOpen
    rcases expired_of_isOpen (of_decide_eq_true rowOpen) with ⟨rowSame, rowOpen⟩
    rcases expired_of_isOpen (of_decide_eq_true otherOpen) with ⟨otherSame, otherOpen⟩
    rw [rowSame, otherSame]
    exact apart (decide_eq_true rowOpen) (decide_eq_true otherOpen)
  · intro row isRow isOpen
    rcases List.mem_map.mp isRow with ⟨old, isOld, rfl⟩
    rcases expired_of_isOpen isOpen with ⟨same, isOpen⟩
    rw [same]
    exact right.within old isOld isOpen

theorem OpenRight.append_iff {row : StudentRegistration} {added : List StudentRegistration}
    {after : Database} (right : OpenRight catalog program user db)
    (isAfter : after.registrations = db.registrations ++ row :: added)
    (noted : ∀ note ∈ added, note.relationship ∈ notes) (isOpen : row.endDate = none)
    (within : ∀ timeslot level, catalog.Ranks program user row timeslot level →
      1 ≤ level ∧ (level : ℤ) ≤ catalog.priorityLimit program) :
    OpenRight catalog program user after ↔
      ∀ other ∈ db.registrations, other.endDate = none → ∀ timeslot level,
        ¬(catalog.Ranks program user other timeslot level ∧
          catalog.Ranks program user row timeslot level) := by
  have unranked {note : StudentRegistration} (isNote : note ∈ added) {timeslot level : ℕ}
      (ranks : catalog.Ranks program user note timeslot level) : False :=
    priorityName_not_mem_notes (ranks.named ▸ noted note isNote)
  constructor
  · intro afterRight other isOther otherOpen
    have different := afterRight.different
    rw [isAfter, List.pairwise_filter, List.pairwise_append] at different
    exact different.2.2 other isOther row (List.mem_cons_self ..) (decide_eq_true otherOpen)
      (decide_eq_true isOpen)
  · intro apart
    constructor
    · have different := right.different
      rw [isAfter, List.pairwise_filter]
      rw [List.pairwise_filter] at different
      refine List.pairwise_append.mpr ⟨different, List.pairwise_cons.mpr ⟨?_, ?_⟩, ?_⟩
      · intro note isNote _ _ timeslot level ranks
        exact unranked isNote ranks.2
      · exact List.pairwise_of_forall_mem_list fun note isNote _ _ _ _ timeslot level ranks =>
          unranked isNote ranks.1
      · intro other isOther new isNew otherOpen _ timeslot level ranks
        rcases List.mem_cons.mp isNew with same | isNote
        · rw [same] at ranks
          exact apart other isOther (of_decide_eq_true otherOpen) timeslot level ranks
        · exact unranked isNote ranks.2
    · intro other isOther otherOpen timeslot level ranks
      rw [isAfter] at isOther
      rcases List.mem_append.mp isOther with isOld | isNew
      · exact right.within other isOld otherOpen timeslot level ranks
      · rcases List.mem_cons.mp isNew with same | isNote
        · exact within timeslot level (same ▸ ranks)
        · exact (unranked isNote ranks).elim

theorem openRight_congr {left right : Database} (same : left.registrations = right.registrations) :
    OpenRight catalog program user left ↔ OpenRight catalog program user right := by
  constructor
  · intro isRight
    exact ⟨same ▸ isRight.different, same ▸ isRight.within⟩
  · intro isRight
    exact ⟨same.symm ▸ isRight.different, same.symm ▸ isRight.within⟩

theorem meetingTimes_ne_nil {site : Site} {classSection : ℕ} {webapp : Bool}
    (notFull : site.isFull db classSection now false webapp = false) :
    site.meetingTimes classSection ≠ [] := by
  intro empty
  rw [Site.isFull, empty] at notFull
  cases notFull

theorem takenPriorities_ne_nil_of_ranks {row : StudentRegistration} {timeslot : ℕ}
    (isRow : row ∈ db.registrations) (valid : row.isValid now = true)
    (ranks : catalog.Ranks program user row timeslot level)
    (isTimeslot : timeslot ∈ timeslots.map Event.id) :
    catalog.takenPriorities db user program now timeslots ≠ [] :=
  takenPriorities_ne_nil_iff.mpr ⟨level, row,
    ⟨isRow, valid, ranks.ofUser, ranks.isSection, ranks.inProgram, timeslot, ranks.meets,
      isTimeslot⟩,
    .inl ranks.named⟩

theorem Catalog.LevelsRight.eq_of_ranks (right : catalog.LevelsRight program user moment)
    (later : moment.last < now) {row other : StudentRegistration} {timeslot : ℕ}
    (isRow : row ∈ moment.db.registrations) (isOther : other ∈ moment.db.registrations)
    (valid : row.isValid now = true) (otherValid : other.isValid now = true)
    (ranks : catalog.Ranks program user row timeslot level)
    (otherRanks : catalog.Ranks program user other timeslot level) : row = other := by
  have symmetric : Std.Symm fun row other : StudentRegistration =>
      ∀ timeslot level, ¬(catalog.Ranks program user row timeslot level ∧
        catalog.Ranks program user other timeslot level) :=
    ⟨fun row other apart timeslot level ranks => apart timeslot level ranks.symm⟩
  by_contra different
  exact (right now later).1.forall (List.mem_filter.mpr ⟨isRow, valid⟩)
    (List.mem_filter.mpr ⟨isOther, otherValid⟩) different timeslot level ⟨ranks, otherRanks⟩

theorem Settled.openRight_add_iff {classSection : ℕ} {webapp isMorphed : Bool} {after : Database}
    (settled : Settled (OfStudent catalog.toSite program user) moment)
    (right : catalog.LevelsRight program user moment) (later : moment.last < now)
    (priorities : catalog.usePriority program = true) (isSection : classSection ∈ catalog.sections)
    (inProgram : catalog.parentProgram classSection = program)
    (within : (catalog.getRegistrationPriority moment.db user program now
      (catalog.meetingTimes classSection) : ℤ) ≤ catalog.priorityLimit program)
    (registered : catalog.preregisterStudent moment.db classSection user now
      { priority := catalog.getRegistrationPriority moment.db user program now
          (catalog.meetingTimes classSection), webapp, isMorphed } = (true, after)) :
    OpenRight catalog program user after ↔
      (catalog.takenPriorities moment.db user program now (catalog.meetingTimes classSection) ≠ [] →
        ∀ row ∈ moment.db.registrations, row.isValid now = true →
          ∀ timeslot ∈ catalog.timeslotIds classSection,
            catalog.Ranks program user row timeslot 2 → row.classSection = classSection) := by
  have success := congrArg Prod.fst registered
  have rows := registrations_preregisterStudent success
  rw [registered] at rows
  have openBefore := settled.levelsRight_iff.mp right
  have nonempty := meetingTimes_ne_nil (isFull_eq_false_of_succeeds success rfl rfl)
  have given : catalog.getRegistrationPriority moment.db user program now
      (catalog.meetingTimes classSection) = if catalog.takenPriorities moment.db user program now
        (catalog.meetingTimes classSection) = [] then 1 else 2 :=
          getRegistrationPriority_eq nonempty
  generalize catalog.getRegistrationPriority moment.db user program now
    (catalog.meetingTimes classSection) = priority at *
  have named : ∀ options : Options, options.preregVerb = none → options.priority = priority →
      catalog.verb classSection options = priorityName priority := by
    intro options none same
    rw [Site.verb, none, inProgram, priorities, same, priorityName]
    rfl
  have second (some : catalog.takenPriorities moment.db user program now
      (catalog.meetingTimes classSection) ≠ []) : priority = 2 := given.trans (if_neg some)
  have unforced : ({ priority, webapp, isMorphed } : Options).fastForceCreate = false := rfl
  rcases registrations_addRegistrations catalog.toSite moment.db classSection user now unforced with
    ⟨⟨own, isOwn, ownNamed⟩, same⟩ | ⟨absent, added, noted, appended⟩
  · -- The student has the level for the section already; nothing is added.
    rw [same] at rows
    refine iff_of_true ((openRight_congr rows).mpr openBefore) ?_
    intro some row isRow valid timeslot isTimeslot ranks
    rcases Database.mem_getRegistrations.mp isOwn with ⟨isOwn, ownValid, ofSection, ofUser⟩
    rw [named _ rfl rfl, second some] at ownNamed
    have ownRanks : catalog.Ranks program user own timeslot 2 :=
      ⟨ofUser, ofSection.symm ▸ isSection, ofSection.symm ▸ inProgram, ofSection.symm ▸ isTimeslot,
        ownNamed⟩
    rw [right.eq_of_ranks later isRow isOwn valid ownValid ranks ownRanks]
    exact ofSection
  · rw [appended, named _ rfl rfl] at rows
    have ranks_iff {timeslot level : ℕ} : catalog.Ranks program user
        ⟨⟨some now, none⟩, user, classSection, priorityName priority⟩ timeslot level ↔
          timeslot ∈ catalog.timeslotIds classSection ∧ priority = level := by
      constructor
      · intro ranks
        exact ⟨ranks.meets, priorityName_inj.mp ranks.named⟩
      · intro ranks
        exact ⟨rfl, isSection, inProgram, ranks.1, priorityName_inj.mpr ranks.2⟩
    have bounds : 1 ≤ priority := by
      rw [given]
      split <;> omega
    rw [openBefore.append_iff rows noted rfl fun timeslot level ranks => by
      rw [← (ranks_iff.mp ranks).2]
      exact ⟨bounds, within⟩]
    constructor
    · intro apart some row isRow valid timeslot isTimeslot ranks
      have isOpen := (settled.isValid_iff isRow ⟨ranks.ofUser, ranks.inProgram⟩ later).mp valid
      exact absurd ⟨ranks, ranks_iff.mpr ⟨isTimeslot, second some⟩⟩
        (apart row isRow isOpen timeslot 2)
    · intro keeps other isOther otherOpen timeslot level ranks
      rcases ranks with ⟨ranks, newRanks⟩
      rcases ranks_iff.mp newRanks with ⟨isTimeslot, rfl⟩
      have valid := (settled.isValid_iff isOther ⟨ranks.ofUser, ranks.inProgram⟩ later).mpr
        otherOpen
      have some := takenPriorities_ne_nil_of_ranks isOther valid ranks isTimeslot
      have own : other.classSection = classSection := by
        rw [second some] at ranks
        exact keeps some other isOther valid timeslot isTimeslot ranks
      refine absent other (Database.mem_getRegistrations.mpr ⟨isOther, valid, own, ranks.ofUser⟩) ?_
      rw [named _ rfl rfl]
      exact ranks.named

theorem OpenRight.preregister_of_ne {who classSection : ℕ} {options : Options}
    (right : OpenRight catalog program user db) (different : who ≠ user)
    (unforced : options.fastForceCreate = false) :
    OpenRight catalog program user
      (catalog.preregisterStudent db classSection who now options).2 := by
  cases success : (catalog.preregisterStudent db classSection who now options).1 with
  | false =>
      rw [preregisterStudent_of_fails success]
      exact right
  | true =>
      have rows := registrations_preregisterStudent success
      rcases registrations_addRegistrations catalog.toSite db classSection who now unforced with
        ⟨_, same⟩ | ⟨_, added, noted, appended⟩
      · rw [same] at rows
        exact (openRight_congr rows).mpr right
      · rw [appended] at rows
        refine (right.append_iff rows noted rfl fun _ _ ranks =>
          absurd ranks.ofUser different).mpr ?_
        intro _ _ _ _ _ ranks
        exact different ranks.2.ofUser

theorem Settled.levelsRight_step_iff
    (settled : Settled (OfStudent catalog.toSite program user) moment)
    (right : catalog.LevelsRight program user moment)
    (priorities : catalog.usePriority program = true)
    (succeeds : selection.Succeeds catalog program moment) :
    Settled (OfStudent catalog.toSite program user) (selection.step catalog program moment) ∧
      (catalog.LevelsRight program user (selection.step catalog program moment) ↔
        selection.Keeps catalog program moment user) := by
  rcases selection with ⟨now, who, action⟩
  rcases succeeds with ⟨later, after, applied⟩
  have openBefore := settled.levelsRight_iff.mp right
  have step : Selection.step catalog program moment ⟨now, who, action⟩ = ⟨after, now⟩ := by
    rw [Selection.step, applied]
  rw [step]
  cases action with
  | add classSubject classSection webapp isMorphed =>
      rcases addclassLogic_eq_ok priorities applied with
        ⟨isSection, inProgram, within, registered⟩
      have follows : Follows now moment.db after := by
        have isAfter : _ = after := congrArg Prod.snd registered
        rw [← isAfter]
        exact follows_preregisterStudent
      have settledAfter := settled.of_follows follows later.le
      refine ⟨settledAfter, settledAfter.levelsRight_iff.trans ?_⟩
      by_cases same : who = user
      · subst same
        rw [Selection.Keeps, imp_iff_right rfl]
        exact settled.openRight_add_iff right later priorities isSection inProgram within registered
      · refine iff_of_true ?_ fun ofUser => absurd ofUser same
        have isAfter : _ = after := congrArg Prod.snd registered
        rw [← isAfter]
        exact openBefore.preregister_of_ne same rfl
  | remove classSection verbs =>
      cases applied
      have follows : Follows now moment.db
          (catalog.unpreregisterStudent moment.db classSection who now verbs) :=
        follows_unpreregisterStudent
      have settledAfter := settled.of_follows follows later.le
      refine ⟨settledAfter, settledAfter.levelsRight_iff.trans (iff_of_true ?_ fun _ => trivial)⟩
      exact (openRight_congr registrations_unpreregisterStudent).mpr openBefore.expire

/-- In a run of selections that raise nothing, from a moment at which they are right, the levels
of a student stay right exactly if each selection keeps them; and the priority for some
timeslots is the one that is due exactly if there are some, the student is not enrolled at them,
and no level or the first but not the second is taken at them. -/
theorem priorities_iff {selections : List Selection}
    (settled : Settled (OfStudent catalog.toSite program user) moment)
    (right : catalog.LevelsRight program user moment)
    (priorities : catalog.usePriority program = true)
    (succeed : AtEach (Selection.step catalog program) (Selection.Succeeds catalog program) moment
      selections) :
    (Throughout (Selection.step catalog program) (catalog.LevelsRight program user) moment
        selections ↔
      AtEach (Selection.step catalog program)
        (fun moment selection => selection.Keeps catalog program moment user) moment selections) ∧
    ∀ db now timeslots,
      catalog.IsDue db program user now (timeslots.map Event.id)
          (catalog.getRegistrationPriority db user program now timeslots) ↔
        timeslots ≠ [] ∧ ¬catalog.EnrolledAt db program user now (timeslots.map Event.id) ∧
          ((∃ level, catalog.TakenAt db program user now (timeslots.map Event.id) level) →
            catalog.TakenAt db program user now (timeslots.map Event.id) 1 ∧
              ¬catalog.TakenAt db program user now (timeslots.map Event.id) 2) := by
  constructor
  · refine throughout_iff ?_ settled right succeed
    intro moment selection settled right succeeds
    exact settled.levelsRight_step_iff right priorities succeeds
  · intro db now timeslots
    exact isDue_getRegistrationPriority_iff

end Levels

/-! ## A third choice -/

namespace Sample

/-- Three sections at the same time, in a program with priorities up to three. -/
def ranked : Catalog where
  parentClass := fun classSection => classSection
  classProgram := fun _ => 0
  meetingTimes := fun _ => [⟨0, 0⟩]
  capacity := fun _ _ => 10
  usePriority := fun _ => true
  switchTime := fun _ => none
  switchLag := fun _ => none
  sections := [0, 1, 2]
  nodup := Sample.sections_nodup
  title := toString
  status := fun _ => accepted
  registrationStatus := fun _ => opened
  assigned := fun _ => true
  classStatus := fun _ => accepted
  gradeMin := fun _ => 7
  gradeMax := fun _ => 12
  timeSlots := fun _ => [0]
  scheduleConstraints := fun _ => []
  priorityLimit := fun _ => 3
  enforceMax := fun _ => true
  temporarilyFullText := fun _ => "Class temporarily full; please check back later"
  isStudent := fun _ => true
  getGrade := fun _ _ => 9
  gradeOverride := fun _ _ => false
  userCanJoin := fun _ _ _ _ => true

def chooses (now : DateTime) (classSection : ℕ) : Selection :=
  ⟨now, 7, .add classSection classSection false false⟩

/-- Nothing is chosen yet. -/
def unranked : Moment := ⟨⟨[], ∅, ∅⟩, 0⟩

theorem levels_two_choices :
    (Throughout (Selection.step ranked 0) (ranked.LevelsRight 0 7) unranked
        [chooses 1 0, chooses 2 1] ↔
      AtEach (Selection.step ranked 0) (fun moment selection => selection.Keeps ranked 0 moment 7)
        unranked [chooses 1 0, chooses 2 1]) ∧
    ∀ db now timeslots,
      ranked.IsDue db 0 7 now (timeslots.map Event.id)
          (ranked.getRegistrationPriority db 7 0 now timeslots) ↔
        timeslots ≠ [] ∧ ¬ranked.EnrolledAt db 0 7 now (timeslots.map Event.id) ∧
          ((∃ level, ranked.TakenAt db 0 7 now (timeslots.map Event.id) level) →
            ranked.TakenAt db 0 7 now (timeslots.map Event.id) 1 ∧
              ¬ranked.TakenAt db 0 7 now (timeslots.map Event.id) 2) := by
  refine priorities_iff ?_ ?_ rfl ?_
  · intro row isRow
    cases isRow
  · intro now _
    exact ⟨List.Pairwise.nil, fun row isRow => by cases isRow⟩
  · exact atEach_cons.mpr ⟨⟨by decide, exists_of_isOk (by decide)⟩, atEach_cons.mpr
      ⟨⟨by decide, exists_of_isOk (by decide)⟩, atEach_nil⟩⟩

/-- The third section at one time gets the level of the second, since a level cannot be read
from a registration type. -/
theorem second_level_twice :
    AtEach (Selection.step ranked 0) (Selection.Succeeds ranked 0) unranked
        [chooses 1 0, chooses 2 1, chooses 3 2] ∧
      ¬ranked.LevelsRight 0 7
        (run (Selection.step ranked 0) unranked [chooses 1 0, chooses 2 1, chooses 3 2]) := by
  constructor
  · exact atEach_cons.mpr ⟨⟨by decide, exists_of_isOk (by decide)⟩, atEach_cons.mpr
      ⟨⟨by decide, exists_of_isOk (by decide)⟩, atEach_cons.mpr
        ⟨⟨by decide, exists_of_isOk (by decide)⟩, atEach_nil⟩⟩⟩
  · intro right
    have rows : (run (Selection.step ranked 0) unranked
        [chooses 1 0, chooses 2 1, chooses 3 2]).db.registrations =
          [⟨⟨some 1, none⟩, 7, 0, "Priority/1"⟩, ⟨⟨some 2, none⟩, 7, 1, "Priority/2"⟩,
            ⟨⟨some 3, none⟩, 7, 2, "Priority/2"⟩] := by decide
    have ranks (start : DateTime) (classSection : ℕ) (isSection : classSection ∈ ranked.sections) :
        ranked.Ranks 0 7 ⟨⟨some start, none⟩, 7, classSection, "Priority/2"⟩ 0 2 :=
      ⟨rfl, isSection, rfl, List.mem_singleton_self 0, rfl⟩
    have later : (run (Selection.step ranked 0) unranked
        [chooses 1 0, chooses 2 1, chooses 3 2]).last < 4 := by decide
    have same := right.eq_of_ranks later (by rw [rows]; decide) (by rw [rows]; decide) (by decide)
      (by decide) (ranks 2 1 (by decide)) (ranks 3 2 (by decide))
    revert same
    decide

end Sample

end EspWebsite.Registration
