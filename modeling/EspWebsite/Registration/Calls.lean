import EspWebsite.Registration.ClassSection

/-!
# Calls

Calls that register students for sections and take them out of them, and what they make of
the rows of registrations.
-/

namespace EspWebsite.Registration

/-- `preregister_student`, or `unpreregister_student` with no verbs given. -/
inductive Request where
  | preregister (options : Options)
  | unpreregister

structure Call where
  now : DateTime
  classSection : ℕ
  user : ℕ
  request : Request

/-- A database, and when the last call was. -/
structure Moment where
  db : Database
  last : DateTime

namespace Call

variable (site : Site) (moment : Moment) (call : Call)

/-- Whether the call succeeds, and the database after it. -/
def apply (db : Database) : Bool × Database :=
  match call.request with
  | .preregister options =>
      site.preregisterStudent db call.classSection call.user call.now options
  | .unpreregister => (true, site.unpreregisterStudent db call.classSection call.user call.now [])

def step : Moment := ⟨(call.apply site moment.db).2, call.now⟩

end Call

/-! ## What the calls do -/

/-- The types of the notes on how a student was registered. -/
def notes : List String := ["Onsite/Webapp", "OnSite/ChangedClasses"]

section Rows

variable {site : Site} {db : Database} {sec other user : ℕ} {now : DateTime}
  {options : Options}

namespace Database

theorem registrations_addListMembers {lists : List MailingList} :
    (lists.foldl (fun db list => db.addListMember user list) db).registrations =
      db.registrations := by
  induction lists generalizing db with
  | nil => rfl
  | cons first rest ih => exact ih

end Database

theorem preregisterStudent_of_succeeds
    (succeeds : (site.preregisterStudent db sec user now options).1 = true) :
    (site.preregisterStudent db sec user now options).2 =
      if options.fastForceCreate then site.addRegistrations db sec user now options
      else (site.mailingLists sec).foldl (fun db list => db.addListMember user list)
        (site.addRegistrations db sec user now options) := by
  rw [Site.preregisterStudent] at succeeds ⊢
  split at succeeds
  next tries =>
    rw [if_pos tries]
    dsimp only
    split <;> rfl
  next => cases succeeds

theorem isFull_eq_false_of_succeeds
    (succeeds : (site.preregisterStudent db sec user now options).1 = true)
    (noOverride : options.overridefull = false) (unforced : options.fastForceCreate = false) :
    site.isFull db sec now false options.webapp = false := by
  rw [Site.preregisterStudent, noOverride, unforced] at succeeds
  cases full : site.isFull db sec now false options.webapp with
  | false => rfl
  | true =>
      rw [full] at succeeds
      cases succeeds

theorem preregisterStudent_of_fails
    (fails : (site.preregisterStudent db sec user now options).1 = false) :
    (site.preregisterStudent db sec user now options).2 = db := by
  rw [Site.preregisterStudent] at fails ⊢
  split at fails
  next =>
    dsimp only at fails
    split at fails <;> cases fails
  next refused => rw [if_neg refused]

theorem registrations_preregisterStudent
    (succeeds : (site.preregisterStudent db sec user now options).1 = true) :
    (site.preregisterStudent db sec user now options).2.registrations =
      (site.addRegistrations db sec user now options).registrations := by
  rw [preregisterStudent_of_succeeds succeeds]
  split
  next => rfl
  next => exact Database.registrations_addListMembers

theorem registrations_unpreregisterStudent {verbs : List String} :
    (site.unpreregisterStudent db sec user now verbs).registrations =
      (db.expire now (Database.concerns sec user now verbs)).registrations := by
  rw [Site.unpreregisterStudent]
  split <;> rfl

/-- A registration of the student in the section that starts now. -/
def IsNew (sec user : ℕ) (now : DateTime) (row : StudentRegistration) : Prop :=
  row.user = user ∧ row.classSection = sec ∧ row.startDate = some now ∧ row.endDate = none

theorem exists_addRegistrations_append :
    ∃ added, (site.addRegistrations db sec user now options).registrations =
      db.registrations ++ added ∧ ∀ row ∈ added, IsNew sec user now row := by
  have registered (db : Database) (verb : String) :
      ∃ added, (db.register sec user now verb).registrations = db.registrations ++ added ∧
        ∀ row ∈ added, IsNew sec user now row := by
    refine ⟨_, rfl, fun row isNew => ?_⟩
    rw [List.mem_singleton.mp isNew]
    exact ⟨rfl, rfl, rfl, rfl⟩
  have annotated (db : Database) :
      ∃ added, (Site.annotate db sec user now options).registrations =
        db.registrations ++ added ∧ ∀ row ∈ added, IsNew sec user now row := by
    rw [Site.annotate]
    split
    next => exact registered db _
    next =>
      split
      next => exact registered db _
      next => exact ⟨[], by simp⟩
  rw [Site.addRegistrations]
  split
  next => exact registered db _
  next =>
    split
    next => exact ⟨[], by simp⟩
    next =>
      rcases registered db (site.verb sec options) with ⟨first, isFirst, newFirst⟩
      rcases annotated (db.register sec user now (site.verb sec options)) with
        ⟨second, isSecond, newSecond⟩
      refine ⟨first ++ second, by rw [isSecond, isFirst, List.append_assoc], fun row isAdded => ?_⟩
      exact (List.mem_append.mp isAdded).elim (newFirst row) (newSecond row)

theorem mem_addRegistrations {row : StudentRegistration}
    (isRow : row ∈ (site.addRegistrations db sec user now options).registrations) :
    row ∈ db.registrations ∨ row.user = user ∧ row.classSection = sec ∧
      row.startDate = some now ∧ row.endDate = none := by
  rcases @exists_addRegistrations_append site db sec user now options with
    ⟨added, appended, isNew⟩
  rw [appended] at isRow
  exact (List.mem_append.mp isRow).imp_right (isNew row)

theorem mem_addRegistrations_of_mem {row : StudentRegistration} (isRow : row ∈ db.registrations) :
    row ∈ (site.addRegistrations db sec user now options).registrations := by
  rcases @exists_addRegistrations_append site db sec user now options with ⟨added, appended, _⟩
  rw [appended]
  exact List.mem_append_left _ isRow

/-- Unless it is forced, a registration is only added where the student has none of its type,
and with at most a note. -/
theorem registrations_addRegistrations (site : Site) (db : Database) (sec user : ℕ)
    (now : DateTime) {options : Options} (unforced : options.fastForceCreate = false) :
    ((∃ row ∈ db.getRegistrations sec user now,
        row.relationship = site.verb sec options) ∧
      site.addRegistrations db sec user now options = db) ∨
    (∀ row ∈ db.getRegistrations sec user now,
        row.relationship ≠ site.verb sec options) ∧
      ∃ added : List StudentRegistration, (∀ note ∈ added, note.relationship ∈ notes) ∧
        (site.addRegistrations db sec user now options).registrations =
          db.registrations ++
            ⟨⟨some now, none⟩, user, sec, site.verb sec options⟩ :: added := by
  rw [Site.addRegistrations, unforced, if_neg Bool.false_ne_true]
  split
  next already =>
    rcases List.any_eq_true.mp already with ⟨row, isRow, verbed⟩
    exact .inl ⟨⟨row, isRow, of_decide_eq_true verbed⟩, rfl⟩
  next absent =>
    refine .inr ⟨fun row isRow verbed => absent (List.any_eq_true.mpr
      ⟨row, isRow, decide_eq_true verbed⟩), ?_⟩
    rw [Site.annotate]
    split
    next =>
      refine ⟨[⟨⟨some now, none⟩, user, sec, "Onsite/Webapp"⟩], ?_,
        List.append_assoc _ _ _⟩
      intro note isNote
      rw [List.mem_singleton.mp isNote]
      exact List.mem_cons_self
    next =>
      split
      next =>
        refine ⟨[⟨⟨some now, none⟩, user, sec, "OnSite/ChangedClasses"⟩], ?_,
          List.append_assoc _ _ _⟩
        intro note isNote
        rw [List.mem_singleton.mp isNote]
        exact List.mem_cons_of_mem _ List.mem_cons_self
      next => exact ⟨[], fun note isNote => absurd isNote List.not_mem_nil, rfl⟩

theorem students_unpreregisterStudent {when' : DateTime} {verb : String} {verbs : List String}
    (different : sec ≠ other) :
    (site.unpreregisterStudent db sec user now verbs).students other verb when' =
      db.students other verb when' := by
  have kept {row : StudentRegistration} (ofSection : row.classSection = other) :
      ¬Database.concerns sec user now verbs row = true := by
    intro concerned
    simp only [Database.concerns, Bool.and_eq_true, decide_eq_true_eq] at concerned
    exact different (concerned.1.1.2.symm.trans ofSection)
  ext student
  rw [Database.mem_students, Database.mem_students, registrations_unpreregisterStudent]
  constructor
  · intro isStudent
    rcases isStudent with ⟨row, isRow, valid, ofSection, rest⟩
    rcases List.mem_map.mp isRow with ⟨old, isOld, rfl⟩
    have ofOther : old.classSection = other := by
      split at ofSection <;> exact ofSection
    rw [if_neg (kept ofOther)] at valid rest
    exact ⟨old, isOld, valid, ofOther, rest⟩
  · intro isStudent
    rcases isStudent with ⟨row, isRow, valid, ofSection, rest⟩
    exact ⟨row, List.mem_map.mpr ⟨row, isRow, if_neg (kept ofSection)⟩, valid, ofSection, rest⟩

theorem students_preregisterStudent {when' : DateTime} {verb : String}
    (different : sec ≠ other) :
    (site.preregisterStudent db sec user now options).2.students other verb when' =
      db.students other verb when' := by
  cases success : (site.preregisterStudent db sec user now options).1 with
  | false => rw [preregisterStudent_of_fails success]
  | true =>
      ext student
      rw [Database.mem_students, Database.mem_students, registrations_preregisterStudent success]
      constructor
      · intro isStudent
        rcases isStudent with ⟨row, isRow, valid, ofSection, rest⟩
        rcases mem_addRegistrations isRow with isOld | ⟨_, isNew, _, _⟩
        · exact ⟨row, isOld, valid, ofSection, rest⟩
        · exact absurd (isNew.symm.trans ofSection) different
      · intro isStudent
        rcases isStudent with ⟨row, isRow, rest⟩
        exact ⟨row, mem_addRegistrations_of_mem isRow, rest⟩

theorem checkedIn_unpreregisterStudent {verbs : List String} :
    (site.unpreregisterStudent db sec user now verbs).checkedIn = db.checkedIn := by
  rw [Site.unpreregisterStudent]
  split <;> rfl

theorem checkedIn_preregisterStudent :
    (site.preregisterStudent db sec user now options).2.checkedIn = db.checkedIn := by
  have added {lists : List MailingList} {db : Database} :
      (lists.foldl (fun db list => db.addListMember user list) db).checkedIn = db.checkedIn := by
    induction lists generalizing db with
    | nil => rfl
    | cons first rest ih => exact ih
  have annotated {db : Database} : (Site.annotate db sec user now options).checkedIn =
      db.checkedIn := by
    rw [Site.annotate]
    split
    next => rfl
    next => split <;> rfl
  have registered : (site.addRegistrations db sec user now options).checkedIn =
    db.checkedIn := by
    rw [Site.addRegistrations]
    split
    next => rfl
    next =>
      split
      next => rfl
      next => exact annotated
  rw [Site.preregisterStudent]
  split
  next =>
    split
    next => exact registered
    next => exact added.trans registered
  next => rfl

theorem isFull_congr {left right : Database} {webapp : Bool}
    (students : ∀ verb, left.students other verb now = right.students other verb now)
    (checkedIn : left.checkedIn = right.checkedIn) :
    site.isFull left other now false webapp = site.isFull right other now false webapp := by
  have same : left.currentlyCheckedInStudents = right.currentlyCheckedInStudents := by
    funext program
    rw [Database.currentlyCheckedInStudents, checkedIn, Database.currentlyCheckedInStudents]
  have enrolled : left.numStudents other now = right.numStudents other now := by
    rw [Database.numStudents, Database.numStudents, students]
  have attending : left.countAttendingStudents other now =
      right.countAttendingStudents other now := by
    rw [Database.countAttendingStudents, Database.countAttendingStudents, students]
  have present : site.numStudentsCheckedIn left other now =
    site.numStudentsCheckedIn right other now := by
    rw [Site.numStudentsCheckedIn, Site.numStudentsCheckedIn, students, same]
  have byClass : site.byClassAttendance left other now =
      site.byClassAttendance right other now := by
    rw [Site.byClassAttendance, Site.byClassAttendance, attending]
  have byProgram : site.byProgramAttendance left other now =
      site.byProgramAttendance right other now := by
    rw [Site.byProgramAttendance, Site.byProgramAttendance, same]
  have counted : site.countedStudents left other now webapp =
      site.countedStudents right other now webapp := by
    rw [Site.countedStudents, Site.countedStudents, byClass, byProgram, attending, present,
      enrolled]
  rw [Site.isFull, Site.isFull, enrolled, counted]

/-! ## Rows that follow others -/

/-- The rows of a database after something was done now: old ones, some of which end now, and
new ones that start now. -/
def Follows (now : DateTime) (before after : Database) : Prop :=
  ∀ row ∈ after.registrations,
    row ∈ before.registrations ∨
      (∃ old ∈ before.registrations, row = { old with endDate := some now }) ∨
        row.startDate = some now ∧ row.endDate = none

theorem follows_preregisterStudent :
    Follows now db (site.preregisterStudent db sec user now options).2 := by
  intro row isRow
  cases success : (site.preregisterStudent db sec user now options).1 with
  | true =>
      rw [registrations_preregisterStudent success] at isRow
      exact (mem_addRegistrations isRow).imp_right fun isNew => .inr isNew.2.2
  | false =>
      rw [preregisterStudent_of_fails success] at isRow
      exact .inl isRow

theorem follows_unpreregisterStudent {verbs : List String} :
    Follows now db (site.unpreregisterStudent db sec user now verbs) := by
  intro row isRow
  rw [registrations_unpreregisterStudent] at isRow
  rcases List.mem_map.mp isRow with ⟨old, isOld, rfl⟩
  split
  next => exact .inr (.inl ⟨old, isOld, rfl⟩)
  next => exact .inl isOld

/-- Registrations of some students in some sections, of some types, have started by the last
call, and the ends of those that have one are past. -/
def Settled (concerns : ℕ → ℕ → String → Prop) (moment : Moment) : Prop :=
  ∀ row ∈ moment.db.registrations, concerns row.user row.classSection row.relationship →
    (∀ start ∈ row.startDate, start ≤ moment.last) ∧ ∀ finish ∈ row.endDate, finish ≤ moment.last

variable {concerns : ℕ → ℕ → String → Prop} {moment : Moment}

theorem Settled.isValid_iff (settled : Settled concerns moment) {row : StudentRegistration}
    (isRow : row ∈ moment.db.registrations)
    (isConcerned : concerns row.user row.classSection row.relationship)
    (later : moment.last < now) : row.isValid now = true ↔ row.endDate = none := by
  rcases settled row isRow isConcerned with ⟨started, ended⟩
  rw [ExpirableModel.isValid_iff]
  constructor
  · intro valid
    cases ends : row.endDate with
    | none => rfl
    | some finish =>
        have ahead := valid.2 finish ends
        exact absurd (ahead.trans (ended finish ends)) (not_le.mpr later)
  · intro endless
    refine ⟨fun start starts => (started start starts).trans later.le, fun finish ends => ?_⟩
    rw [endless] at ends
    cases ends

theorem Settled.of_follows (settled : Settled concerns moment) {after : Database}
    (follows : Follows now moment.db after) (later : moment.last ≤ now) :
    Settled concerns ⟨after, now⟩ := by
  intro row isRow isConcerned
  rcases follows row isRow with isOld | ⟨old, isOld, rfl⟩ | ⟨starts, endless⟩
  · rcases settled row isOld isConcerned with ⟨started, ended⟩
    exact ⟨fun start starts => (started start starts).trans later,
      fun finish ends => (ended finish ends).trans later⟩
  · rcases settled old isOld isConcerned with ⟨started, ended⟩
    refine ⟨fun start starts => (started start starts).trans later, fun finish ends => ?_⟩
    cases ends
    exact le_rfl
  · constructor
    · intro start isStart
      rw [starts] at isStart
      cases isStart
      exact le_rfl
    · intro finish ends
      rw [endless] at ends
      cases ends

theorem Settled.step {call : Call} (settled : Settled concerns moment)
    (later : moment.last ≤ call.now) : Settled concerns (call.step site moment) := by
  refine settled.of_follows ?_ later
  rw [Call.apply]
  split
  next => exact follows_preregisterStudent
  next => exact follows_unpreregisterStudent

end Rows

end EspWebsite.Registration
