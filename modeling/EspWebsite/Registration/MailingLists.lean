import EspWebsite.Library.Runs
import EspWebsite.Registration.OpenRegistrations

/-!
# Mailing lists of students

Students are put on mailing lists when they are registered and taken off them when they
unregister.  These are runs of such calls in a program, and what they make of its lists.
-/

namespace EspWebsite.Registration

open Runs

namespace Call

variable (site : Site) (program : ℕ) (moment : Moment) (call : Call)

/-- A call in a program, later than those before, that registers as enrolled if it registers,
and that succeeds. -/
structure Succeeds : Prop where
  later : moment.last < call.now
  inProgram : site.parentProgram call.classSection = program
  asEnrolled : ∀ options, call.request = .preregister options →
    site.verb call.classSection options = "Enrolled"
  succeeds : (call.apply site moment.db).1 = true

/-- Forced registrations are for sections in which the student is enrolled, and no student
leaves the only section of the program in which the student is enrolled. -/
def Keeps (user : ℕ) : Prop :=
  call.user = user →
    match call.request with
    | .preregister options =>
        options.fastForceCreate = true →
          user ∈ moment.db.students call.classSection "Enrolled" call.now
    | .unpreregister =>
        user ∈ moment.db.students call.classSection "Enrolled" call.now →
          ∃ other, other ≠ call.classSection ∧ site.parentProgram other = program ∧
            user ∈ moment.db.students other "Enrolled" call.now

end Call

/-- A student is on the mailing list of a program while enrolled in one of its sections, and
on that of a section while enrolled in it. -/
def OnLists (site : Site) (program user : ℕ) (moment : Moment) : Prop :=
  ∀ now, moment.last < now →
    ((.ofProgram program, user) ∈ moment.db.members ↔
      site.isEnrolled moment.db user now program = true) ∧
    ∀ sec, site.parentProgram sec = program →
      ((.ofSection sec, user) ∈ moment.db.members ↔
        user ∈ moment.db.students sec "Enrolled" now)

/-- Registrations of a student as enrolled in sections of a program. -/
def Enrolls (site : Site) (program user student sec : ℕ) (verb : String) : Prop :=
  student = user ∧ site.parentProgram sec = program ∧ verb = "Enrolled"

namespace Database

variable {db : Database} {user other sec : ℕ} {verb : String} {now : DateTime}
  {list : MailingList} {condition : StudentRegistration → Bool}

@[simp] theorem members_expire : (db.expire now condition).members = db.members := rfl

theorem mem_addListMembers {lists : List MailingList} :
    (list, other) ∈ (lists.foldl (fun db list => db.addListMember user list) db).members ↔
      (list, other) ∈ db.members ∨ list ∈ lists ∧ user = other := by
  induction lists generalizing db with
  | nil => simp
  | cons first rest ih =>
      rw [List.foldl_cons, ih, addListMember, Finset.mem_insert, Prod.mk.injEq, List.mem_cons,
        or_and_right, @eq_comm _ other user, or_assoc, or_left_comm]

end Database

section Rows

variable {site : Site} {program user other sec another : ℕ} {moment : Moment}
  {db : Database} {now : DateTime} {options : Options}

theorem isEnrolled_iff : site.isEnrolled db user now program = true ↔
    ∃ sec, site.parentProgram sec = program ∧
      user ∈ db.students sec "Enrolled" now := by
  simp only [Site.isEnrolled, List.any_eq_true, Bool.and_eq_true, decide_eq_true_eq,
    Database.mem_students]
  constructor
  · intro enrolled
    rcases enrolled with ⟨row, isRow, ⟨⟨valid, ofUser⟩, inProgram⟩, verb⟩
    exact ⟨row.classSection, inProgram, row, isRow, valid, rfl, verb, ofUser⟩
  · intro enrolled
    rcases enrolled with ⟨sec, inProgram, row, isRow, valid, rfl, verb, ofUser⟩
    exact ⟨row, isRow, ⟨⟨valid, ofUser⟩, inProgram⟩, verb⟩

theorem Settled.isEnrolled_iff (settled : Settled (Enrolls site program user) moment)
    (later : moment.last < now) : site.isEnrolled moment.db user now program = true ↔
      ∃ sec, site.parentProgram sec = program ∧
        moment.db.IsOpen user sec := by
  rw [Registration.isEnrolled_iff]
  refine exists_congr fun sec => and_congr_right fun inProgram => ?_
  exact settled.mem_students_iff ⟨rfl, inProgram, rfl⟩ later

/-- A student is on the lists of the program and of its sections exactly with an open
registration. -/
structure Agree (site : Site) (program user : ℕ) (db : Database) : Prop where
  onProgram : (.ofProgram program, user) ∈ db.members ↔
    ∃ sec, site.parentProgram sec = program ∧ db.IsOpen user sec
  onSection : ∀ sec, site.parentProgram sec = program →
    ((.ofSection sec, user) ∈ db.members ↔ db.IsOpen user sec)

theorem Settled.onLists_iff (settled : Settled (Enrolls site program user) moment) :
    OnLists site program user moment ↔ Agree site program user moment.db := by
  constructor
  · intro onLists
    have later : moment.last < moment.last + 1 := Int.lt_succ _
    rcases onLists _ later with ⟨onProgram, onSection⟩
    refine ⟨onProgram.trans (settled.isEnrolled_iff later), fun sec inProgram => ?_⟩
    exact (onSection sec inProgram).trans
      (settled.mem_students_iff ⟨rfl, inProgram, rfl⟩ later)
  · intro agree now later
    refine ⟨agree.onProgram.trans (settled.isEnrolled_iff later).symm,
      fun sec inProgram => ?_⟩
    exact (agree.onSection sec inProgram).trans
      (settled.mem_students_iff ⟨rfl, inProgram, rfl⟩ later).symm

/-! ## Registering -/

theorem members_addRegistrations :
    (site.addRegistrations db sec user now options).members = db.members := by
  simp only [Site.addRegistrations, Site.annotate]
  repeat' split
  all_goals rfl

theorem mem_preregisterStudent {list : MailingList}
    (succeeds : (site.preregisterStudent db sec user now options).1 = true) :
    (list, other) ∈ (site.preregisterStudent db sec user now options).2.members ↔
      (list, other) ∈ db.members ∨
        options.fastForceCreate = false ∧ list ∈ site.mailingLists sec ∧ user = other := by
  rw [preregisterStudent_of_succeeds succeeds]
  split
  next forced => simp [members_addRegistrations, forced]
  next plain =>
    rw [Database.mem_addListMembers, members_addRegistrations, eq_false_of_ne_true plain,
      eq_self_iff_true, true_and]

/-! ## Unregistering -/

/-- Registrations that end now are still valid now. -/
theorem isEnrolled_expire {condition : StudentRegistration → Bool}
    (valid : ∀ row, condition row = true → row.isValid now = true) :
    site.isEnrolled (db.expire now condition) user now program =
      site.isEnrolled db user now program := by
  rw [Site.isEnrolled, Site.isEnrolled, Database.expire, List.any_map]
  refine congrArg (List.any db.registrations) (funext fun row => ?_)
  rw [Function.comp]
  by_cases selected : condition row = true
  · have before := valid row selected
    have after : (ExpirableModel.expire row.toExpirableModel now).isValid now = true :=
      ExpirableModel.isValid_expire_iff.mpr ⟨(ExpirableModel.isValid_iff.mp before).1, le_rfl⟩
    rw [ExpirableModel.expire] at after
    rw [if_pos selected, before, after]
  · rw [if_neg selected]

theorem mem_unpreregisterStudent {list : MailingList} {verbs : List String} :
    (list, other) ∈ (site.unpreregisterStudent db sec user now verbs).members ↔
      (list, other) ∈ db.members ∧
        ¬(user = other ∧ (list = .ofSection sec ∨
          list = .ofClass (site.parentClass sec) ∨
            list = .ofProgram (site.parentProgram sec) ∧
              site.isEnrolled db user now (site.parentProgram sec) = false)) := by
  have valid : ∀ row, Database.concerns sec user now verbs row = true →
      row.isValid now = true := by
    intro row selected
    simp only [Database.concerns, Bool.and_eq_true] at selected
    exact selected.1.1.1
  have still : site.isEnrolled
      (((db.expire now (Database.concerns sec user now verbs)).removeListMember user
        (.ofSection sec)).removeListMember user
          (.ofClass (site.parentClass sec))) user now (site.parentProgram sec) =
      site.isEnrolled db user now (site.parentProgram sec) := isEnrolled_expire valid
  rw [Site.unpreregisterStudent, still]
  cases site.isEnrolled db user now (site.parentProgram sec) with
  | true =>
      simp only [if_true, Database.removeListMember, Finset.mem_erase, Database.members_expire,
        ne_eq, Prod.mk.injEq, Bool.true_eq_false, and_false, or_false]
      grind
  | false =>
      simp only [Bool.false_eq_true, if_false, Database.removeListMember, Finset.mem_erase,
        Database.members_expire, ne_eq, Prod.mk.injEq, and_true]
      grind

/-! ## Runs -/

theorem Agree.preregister_iff (agree : Agree site program user db)
    (inProgram : site.parentProgram sec = program)
    (asEnrolled : site.verb sec options = "Enrolled")
    (opens : user ∈ db.students sec "Enrolled" now → db.IsOpen user sec)
    (succeeds : (site.preregisterStudent db sec user now options).1 = true) :
    Agree site program user (site.preregisterStudent db sec user now options).2 ↔
      (options.fastForceCreate = true → db.IsOpen user sec) := by
  have isOpen (another : ℕ) :
      (site.preregisterStudent db sec user now options).2.IsOpen user another ↔
        db.IsOpen user another ∨ sec = another := by
    rw [Database.isOpen_congr (registrations_preregisterStudent succeeds),
      isOpen_addRegistrations fun _ _ => opens, eq_self_iff_true, true_and, asEnrolled,
      eq_self_iff_true, and_true]
  constructor
  · intro after forced
    have onSection := (after.onSection sec inProgram).mpr ((isOpen _).mpr (.inr rfl))
    rcases (mem_preregisterStudent succeeds).mp onSection with before | ⟨plain, _⟩
    · exact (agree.onSection sec inProgram).mp before
    · rw [forced] at plain
      cases plain
  · intro needed
    cases forced : options.fastForceCreate with
    | true =>
        have already (another : ℕ) :
            (site.preregisterStudent db sec user now options).2.IsOpen user another ↔
              db.IsOpen user another := by
          rw [isOpen]
          exact or_iff_left_of_imp fun same => same ▸ needed forced
        constructor
        · simp only [mem_preregisterStudent succeeds, forced, Bool.true_eq_false, false_and,
            or_false, already]
          exact agree.onProgram
        · intro another another_inProgram
          simp only [mem_preregisterStudent succeeds, forced, Bool.true_eq_false, false_and,
            or_false, already]
          exact agree.onSection another another_inProgram
    | false =>
        constructor
        · rw [mem_preregisterStudent succeeds]
          refine iff_of_true (.inr ⟨forced, ?_, rfl⟩) ⟨sec, inProgram, ?_⟩
          · rw [← inProgram]
            exact List.mem_cons_of_mem _ (List.mem_cons_of_mem _ (List.mem_singleton_self _))
          · exact (isOpen sec).mpr (.inr rfl)
        · intro another another_inProgram
          rw [mem_preregisterStudent succeeds, isOpen, agree.onSection another another_inProgram]
          simp [forced, Site.mailingLists, eq_comm]

theorem Agree.unpreregister_iff (agree : Agree site program user db)
    (inProgram : site.parentProgram sec = program)
    (enrolled : site.isEnrolled db user now program = true ↔
      ∃ another, site.parentProgram another = program ∧ db.IsOpen user another)
    (started : ∀ row ∈ db.registrations, row.user = user → row.classSection = sec →
      row.relationship = "Enrolled" → row.endDate = none → row.isValid now = true) :
    Agree site program user (site.unpreregisterStudent db sec user now []) ↔
      (db.IsOpen user sec →
        ∃ another, another ≠ sec ∧ site.parentProgram another = program ∧
          db.IsOpen user another) := by
  have isOpen (another : ℕ) :
      (site.unpreregisterStudent db sec user now []).IsOpen user another ↔
        db.IsOpen user another ∧ sec ≠ another := by
    rw [isOpen_unpreregisterStudent (.inl rfl) fun _ => started, eq_self_iff_true, true_and]
  have onProgram : (.ofProgram program, user) ∈
      (site.unpreregisterStudent db sec user now []).members ↔
        ∃ another, site.parentProgram another = program ∧ db.IsOpen user another := by
    rw [mem_unpreregisterStudent, inProgram, agree.onProgram, ← enrolled]
    simp
  constructor
  · intro after leaves
    rcases after.onProgram.mp (onProgram.mpr ⟨sec, inProgram, leaves⟩) with
      ⟨another, another_inProgram, stays⟩
    rcases (isOpen another).mp stays with ⟨stays, different⟩
    exact ⟨another, different.symm, another_inProgram, stays⟩
  · intro others
    constructor
    · rw [onProgram]
      constructor
      · intro any
        rcases any with ⟨another, another_inProgram, stays⟩
        by_cases same : sec = another
        · rcases others (same ▸ stays) with ⟨other, different, other_inProgram, otherStays⟩
          exact ⟨other, other_inProgram, (isOpen other).mpr ⟨otherStays, different.symm⟩⟩
        · exact ⟨another, another_inProgram, (isOpen another).mpr ⟨stays, same⟩⟩
      · intro any
        rcases any with ⟨another, another_inProgram, stays⟩
        exact ⟨another, another_inProgram, ((isOpen another).mp stays).1⟩
    · intro another another_inProgram
      rw [isOpen, mem_unpreregisterStudent, agree.onSection another another_inProgram]
      refine and_congr_right fun _ => not_congr ?_
      simp only [true_and, MailingList.ofSection.injEq, reduceCtorEq, false_and, or_false]
      exact eq_comm

/-- A call for another student does not concern the lists of a student. -/
theorem Agree.of_ne {call : Call} (agree : Agree site program user db)
    (different : call.user ≠ user) (success : (call.apply site db).1 = true) :
    Agree site program user (call.apply site db).2 := by
  rcases call with ⟨now, sec, who, request⟩
  cases request with
  | preregister options =>
      have same (another : ℕ) :
          (site.preregisterStudent db sec who now options).2.IsOpen user another ↔
            db.IsOpen user another := by
        rw [Database.isOpen_congr (registrations_preregisterStudent success),
          isOpen_addRegistrations fun same => absurd same different]
        exact or_iff_left fun enrolls => different enrolls.1
      constructor
      · simp only [Call.apply, same, mem_preregisterStudent success, different, and_false, or_false]
        exact agree.onProgram
      · intro another inProgram
        simp only [Call.apply, same, mem_preregisterStudent success, different, and_false, or_false]
        exact agree.onSection another inProgram
  | unpreregister =>
      have same (another : ℕ) :
          (site.unpreregisterStudent db sec who now []).IsOpen user another ↔
            db.IsOpen user another := by
        rw [isOpen_unpreregisterStudent (.inl rfl) fun same => absurd same different]
        exact and_iff_left fun leaves => different leaves.1
      constructor
      · simp only [Call.apply, same, mem_unpreregisterStudent, different, false_and,
          not_false_eq_true, and_true]
        exact agree.onProgram
      · intro another inProgram
        simp only [Call.apply, same, mem_unpreregisterStudent, different, false_and,
          not_false_eq_true, and_true]
        exact agree.onSection another inProgram

theorem Settled.onLists_step_iff {call : Call}
    (settled : Settled (Enrolls site program user) moment)
    (onLists : OnLists site program user moment) (succeeds : call.Succeeds site program moment) :
    OnLists site program user (call.step site moment) ↔ call.Keeps site program moment user := by
  rw [(settled.step succeeds.later.le).onLists_iff]
  have agree := settled.onLists_iff.mp onLists
  have enrolled {another : ℕ} (inProgram : site.parentProgram another = program) :=
    settled.mem_students_iff ⟨rfl, inProgram, rfl⟩ succeeds.later
  by_cases same : call.user = user
  · rcases call with ⟨now, sec, who, request⟩
    rcases succeeds with ⟨later, inProgram, asEnrolled, success⟩
    cases same
    rw [Call.Keeps, imp_iff_right rfl]
    cases request with
    | preregister options =>
        rw [enrolled inProgram]
        exact agree.preregister_iff inProgram (asEnrolled options rfl)
          (enrolled inProgram).mp success
    | unpreregister =>
        refine (agree.unpreregister_iff inProgram (settled.isEnrolled_iff later) ?_).trans ?_
        · intro row isRow ofUser ofSection verb endless
          rw [← ofSection] at inProgram
          exact (settled.isValid_iff isRow ⟨ofUser, inProgram, verb⟩ later).mpr endless
        · refine imp_congr (enrolled inProgram).symm (exists_congr fun another =>
            and_congr_right fun _ => and_congr_right fun another_inProgram => ?_)
          exact (enrolled another_inProgram).symm
  · exact iff_of_true (agree.of_ne same succeeds.succeeds) fun ofUser => absurd ofUser same

/-- In a run of successful calls, from a moment at which its registrations are settled and
its lists agree, a student stays on the right lists exactly if each call keeps them. -/
theorem onLists_throughout_iff {calls : List Call}
    (settled : Settled (Enrolls site program user) moment)
    (onLists : OnLists site program user moment)
    (succeed : AtEach (Call.step site) (Call.Succeeds site program) moment calls) :
    Throughout (Call.step site) (OnLists site program user) moment calls ↔
      AtEach (Call.step site) (fun moment call => call.Keeps site program moment user) moment
        calls := by
  refine throughout_iff ?_ settled onLists succeed
  intro moment call settled onLists succeeds
  exact ⟨settled.step succeeds.later.le, settled.onLists_step_iff onLists succeeds⟩

end Rows

/-! ## Leaving a program -/

namespace Sample

/-- Two sections of two classes in one program, for ten students each. -/
def site : Site where
  parentClass := fun sec => sec
  classProgram := fun _ => 0
  meetingTimes := fun sec => [⟨sec, 0⟩]
  capacity := fun _ _ => 10
  usePriority := fun _ => false
  switchTime := fun _ => none
  switchLag := fun _ => none

def nobody : Moment := ⟨⟨[], ∅, ∅⟩, 0⟩

def registers (now : DateTime) (sec : ℕ) : Call := ⟨now, sec, 7, .preregister {}⟩

/-- The student unregisters. -/
def leaves (now : DateTime) (sec : ℕ) : Call := ⟨now, sec, 7, .unpreregister⟩

theorem onLists_two_sections :
    Throughout (Call.step site) (OnLists site 0 7) nobody [registers 1 0, registers 2 1,
      leaves 3 0] ↔
      AtEach (Call.step site) (fun moment call => call.Keeps site 0 moment 7) nobody
        [registers 1 0, registers 2 1, leaves 3 0] := by
  refine onLists_throughout_iff ?_ ?_ ?_
  · intro row isRow
    cases isRow
  · intro now _
    exact ⟨by simp [nobody, Site.isEnrolled],
      fun sec _ => by simp [nobody, Database.students]⟩
  · refine atEach_cons.mpr ⟨⟨by decide, rfl, ?_, by decide⟩, atEach_cons.mpr
      ⟨⟨by decide, rfl, ?_, by decide⟩, atEach_cons.mpr ⟨⟨by decide, rfl, ?_, by decide⟩,
        atEach_nil⟩⟩⟩
    all_goals
      intro options same
      cases same
    all_goals rfl

/-- A student who leaves the only section is still on the mailing list of the program, since
the registration that has just ended is still valid at that time. -/
theorem stays_on_list :
    AtEach (Call.step site) (Call.Succeeds site 0) nobody [registers 1 0, leaves 2 0] ∧
      ¬ OnLists site 0 7 (run (Call.step site) nobody [registers 1 0, leaves 2 0]) := by
  constructor
  · refine atEach_cons.mpr ⟨⟨by decide, rfl, ?_, by decide⟩, atEach_cons.mpr
      ⟨⟨by decide, rfl, ?_, by decide⟩, atEach_nil⟩⟩
    all_goals
      intro options same
      cases same
    all_goals rfl
  · intro onLists
    have after := (onLists 3 (by decide)).1.mp (by decide)
    revert after
    decide

end Sample

end EspWebsite.Registration
