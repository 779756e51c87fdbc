import EspWebsite.Library.Runs
import EspWebsite.Registration.Calls

/-!
# Competing for a section

Students who register for sections at the same time take turns, since each call locks its
section.  This is what any order of their calls leaves.
-/

namespace EspWebsite.Registration

open Runs

namespace Call

/-- A call, no earlier than those before it, that registers a student and neither overrides
the capacity nor forces the registration. -/
structure Competes (moment : Moment) (call : Call) : Prop where
  ordered : moment.last ≤ call.now
  registers : ∃ options, call.request = .preregister options ∧
    options.overridefull = false ∧ options.fastForceCreate = false

/-- The call goes by attendance, of the class or of the program. -/
def byAttendance (site : Site) (moment : Moment) (call : Call) : Bool :=
  match call.request with
  | .preregister options =>
      options.webapp && (site.byClassAttendance moment.db call.classSection call.now ||
        site.byProgramAttendance moment.db call.classSection call.now)
  | .unpreregister => false

end Call

/-- The number of calls for a section in a run that go by attendance. -/
def attendanceCalls (site : Site) (sec : ℕ) : Moment → List Call → ℕ
  | _, [] => 0
  | moment, call :: rest =>
      (if call.classSection = sec ∧ call.byAttendance site moment = true then 1 else 0) +
        attendanceCalls site sec (call.step site moment) rest

/-- All registrations have started by the time of the last call. -/
def Started (moment : Moment) : Prop :=
  ∀ row ∈ moment.db.registrations, ∀ start ∈ row.startDate, start ≤ moment.last

/-- No two registrations that are valid are of the same student, in the same section and of
the same type, except for some types. -/
def Unique (except : List String) (db : Database) (now : DateTime) : Prop :=
  db.registrations.Pairwise fun row other =>
    ¬(row.isValid now = true ∧ other.isValid now = true ∧ row.user = other.user ∧
      row.classSection = other.classSection ∧ row.relationship = other.relationship ∧
      row.relationship ∉ except)

section Rows

variable {site : Site} {moment : Moment} {call : Call} {db : Database} {sec user : ℕ}
  {now : DateTime} {options : Options}

theorem Started.isValid (started : Started moment) {row : StudentRegistration}
    (isRow : row ∈ moment.db.registrations) (later : moment.last ≤ now)
    (valid : row.isValid now = true) : row.isValid moment.last = true := by
  rw [ExpirableModel.isValid_iff] at valid ⊢
  exact ⟨started row isRow, fun finish ends => later.trans (valid.2 finish ends)⟩

theorem Started.students_subset (started : Started moment) (later : moment.last ≤ now)
    {verb : String} :
    moment.db.students sec verb now ⊆ moment.db.students sec verb
      moment.last := by
  intro user isStudent
  rw [Database.mem_students] at isStudent ⊢
  rcases isStudent with ⟨row, isRow, valid, rest⟩
  exact ⟨row, isRow, started.isValid isRow later valid, rest⟩

theorem Started.unique (started : Started moment) {except : List String}
    (unique : Unique except moment.db moment.last) (later : moment.last ≤ now) :
    Unique except moment.db now := by
  refine List.Pairwise.imp_of_mem ?_ unique
  intro row other isRow isOther different same
  exact different ⟨started.isValid isRow later same.1, started.isValid isOther later same.2.1,
    same.2.2⟩

theorem Call.Competes.cases (site : Site) (competes : call.Competes moment) :
    (call.step site moment).db.registrations = moment.db.registrations ∨
      ∃ options, call.request = .preregister options ∧ options.fastForceCreate = false ∧
        site.isFull moment.db call.classSection call.now false options.webapp = false ∧
        (call.step site moment).db.registrations =
          (site.addRegistrations moment.db call.classSection call.user call.now
            options).registrations := by
  rcases competes.registers with ⟨options, request, noOverride, unforced⟩
  rw [Call.step, Call.apply, request]
  cases success :
      (site.preregisterStudent moment.db call.classSection call.user call.now options).1 with
  | false => exact .inl (congrArg Database.registrations (preregisterStudent_of_fails success))
  | true =>
      exact .inr ⟨options, rfl, unforced, isFull_eq_false_of_succeeds success noOverride unforced,
        registrations_preregisterStudent success⟩

theorem Started.step (started : Started moment) (competes : call.Competes moment) :
    Started (call.step site moment) := by
  have old : ∀ row ∈ moment.db.registrations, ∀ start ∈ row.startDate, start ≤ call.now :=
    fun row isRow start starts => (started row isRow start starts).trans competes.ordered
  intro row isRow start starts
  rcases competes.cases site with same | ⟨options, _, _, _, same⟩
  · rw [same] at isRow
    exact old row isRow start starts
  · rw [same] at isRow
    rcases mem_addRegistrations isRow with isOld | ⟨_, _, startsNow, _⟩
    · exact old row isOld start starts
    · rw [startsNow] at starts
      cases starts
      exact le_rfl

theorem Started.run {calls : List Call} (started : Started moment)
    (compete : AtEach (Call.step site) Call.Competes moment calls) :
    Started (Runs.run (Call.step site) moment calls) :=
  throughout_of_steps (fun _ _ started competes => started.step competes) started compete calls
    (List.prefix_refl calls)

/-! ## Capacity -/

/-- A section that is not full, not going by attendance, has a place left. -/
theorem numStudents_lt_capacity {webapp : Bool} (positive : 1 ≤ site.capacity sec false)
    (notFull : site.isFull db sec now false webapp = false)
    (enrollment : (webapp && (site.byClassAttendance db sec now ||
      site.byProgramAttendance db sec now)) = false) :
    (db.numStudents sec now : ℤ) < site.capacity sec false := by
  rw [Bool.and_or_distrib_left, Bool.or_eq_false_iff] at enrollment
  rw [Site.isFull] at notFull
  split at notFull
  next => cases notFull
  next =>
    rw [if_neg fun empty => absurd empty.2 (by omega), Site.countedStudents, enrollment.1,
      enrollment.2] at notFull
    exact not_le.mp (of_decide_eq_false notFull)

theorem students_addRegistrations_subset :
    (site.addRegistrations db call.classSection call.user now options).students sec
        "Enrolled" now ⊆
      if call.classSection = sec then
        insert call.user (db.students sec "Enrolled" now)
      else db.students sec "Enrolled" now := by
  intro student isStudent
  rcases Database.mem_students.mp isStudent with ⟨row, isRow, valid, ofSection, verb, ofUser⟩
  rcases mem_addRegistrations isRow with isOld | ⟨isUser, isSection, _, _⟩
  · have before : student ∈ db.students sec "Enrolled" now :=
      Database.mem_students.mpr ⟨row, isOld, valid, ofSection, verb, ofUser⟩
    split
    next => exact Finset.mem_insert_of_mem before
    next => exact before
  · rw [if_pos (isSection.symm.trans ofSection), ← ofUser, isUser]
    exact Finset.mem_insert_self _ _

theorem Started.numStudents_step_le (started : Started moment) (competes : call.Competes moment)
    {bound : ℤ} (positive : 1 ≤ site.capacity sec false)
    (capacity : site.capacity sec false ≤ bound)
    (within : (moment.db.numStudents sec moment.last : ℤ) ≤ bound) :
    ((call.step site moment).db.numStudents sec call.now : ℤ) ≤
      bound + if call.classSection = sec ∧ call.byAttendance site moment = true then 1
        else 0 := by
  have before : (moment.db.numStudents sec call.now : ℤ) ≤ bound :=
    (Nat.cast_le.mpr (Finset.card_le_card (started.students_subset competes.ordered))).trans within
  have unchanged : (moment.db.numStudents sec call.now : ℤ) ≤
      bound + if call.classSection = sec ∧ call.byAttendance site moment = true then 1
        else 0 := by
    split <;> omega
  rcases competes.cases site with same | ⟨options, request, _, notFull, same⟩
  · rw [Database.numStudents, Database.students, same]
    exact unchanged
  · have subset := @students_addRegistrations_subset site call moment.db sec
      call.now options
    rw [Database.students, ← same] at subset
    have counted := Finset.card_le_card subset
    by_cases concerns : call.classSection = sec
    · rw [if_pos concerns] at counted
      have added := counted.trans (Finset.card_insert_le _ _)
      have counted : ((call.step site moment).db.numStudents sec call.now : ℤ) ≤
          moment.db.numStudents sec call.now + 1 := by exact_mod_cast added
      cases attended : call.byAttendance site moment with
      | true =>
          rw [if_pos ⟨concerns, rfl⟩]
          omega
      | false =>
          rw [Call.byAttendance, request, concerns] at attended
          rw [concerns] at notFull
          have room := numStudents_lt_capacity positive notFull attended
          rw [if_neg (by simp)]
          omega
    · rw [if_neg concerns] at counted
      exact (Nat.cast_le.mpr counted).trans unchanged

/-- In a run of competing calls, a section has at most as many students as a bound that is no
smaller than its capacity, and one more for each call that went by attendance. -/
theorem Started.numStudents_run_le {calls : List Call} (started : Started moment)
    (compete : AtEach (Call.step site) Call.Competes moment calls) {bound : ℤ}
    (positive : 1 ≤ site.capacity sec false)
    (capacity : site.capacity sec false ≤ bound)
    (within : (moment.db.numStudents sec moment.last : ℤ) ≤ bound) :
    ((Runs.run (Call.step site) moment calls).db.numStudents sec
        (Runs.run (Call.step site) moment calls).last : ℤ) ≤
      bound + attendanceCalls site sec moment calls := by
  induction calls generalizing moment bound with
  | nil => simpa [Runs.run, attendanceCalls] using within
  | cons call rest ih =>
      rw [atEach_cons] at compete
      have step := started.numStudents_step_le compete.1 positive capacity within
      have larger : bound ≤ bound + if call.classSection = sec ∧
          call.byAttendance site moment = true then 1 else 0 := by split <;> omega
      have after := ih (started.step compete.1) compete.2 (capacity.trans larger) step
      refine after.trans (le_of_eq ?_)
      rw [attendanceCalls]
      push_cast
      ring

/-! ## Uniqueness -/

/-- A new registration that starts now is not the second of its type. -/
theorem Unique.register {except : List String} (unique : Unique except db now) {verb : String}
    (first : ∀ row ∈ db.registrations, row.isValid now = true → row.user = user →
      row.classSection = sec → row.relationship = verb → verb ∈ except) :
    Unique except (db.register sec user now verb) now := by
  refine List.pairwise_append.mpr ⟨unique, List.pairwise_singleton _ _, ?_⟩
  intro row isRow new isNew same
  rw [List.mem_singleton.mp isNew] at same
  rcases same with ⟨valid, _, ofUser, ofSection, verbed, proper⟩
  have allowed := first row isRow valid ofUser ofSection verbed
  dsimp only at verbed
  rw [verbed] at proper
  exact proper allowed

theorem Unique.annotate (unique : Unique notes db now) :
    Unique notes (Site.annotate db sec user now options) now := by
  rw [Site.annotate]
  split
  next => exact unique.register fun _ _ _ _ _ _ => by decide
  next =>
    split
    next => exact unique.register fun _ _ _ _ _ _ => by decide
    next => exact unique

theorem Started.unique_step (started : Started moment) (competes : call.Competes moment)
    (unique : Unique notes moment.db moment.last) :
    Unique notes (call.step site moment).db call.now := by
  have before := started.unique unique competes.ordered
  rcases competes.cases site with same | ⟨options, _, unforced, _, same⟩
  · rw [Unique, same]
    exact before
  · rw [Unique, same, ← Unique, Site.addRegistrations, unforced, if_neg Bool.false_ne_true]
    split
    next => exact before
    next absent =>
      refine (before.register fun row isRow valid ofUser ofSection verbed => ?_).annotate
      refine absurd (List.any_eq_true.mpr ⟨row, ?_, decide_eq_true verbed⟩) absent
      exact Database.mem_getRegistrations.mpr ⟨isRow, valid, ofSection, ofUser⟩

theorem Started.unique_run {calls : List Call} (started : Started moment)
    (unique : Unique notes moment.db moment.last)
    (compete : AtEach (Call.step site) Call.Competes moment calls) :
    Unique notes (Runs.run (Call.step site) moment calls).db
      (Runs.run (Call.step site) moment calls).last := by
  have holds : Throughout (Call.step site)
      (fun moment => Started moment ∧ Unique notes moment.db moment.last) moment calls :=
    throughout_of_steps (fun moment call sound competes =>
      ⟨sound.1.step competes, sound.1.unique_step competes sound.2⟩) ⟨started, unique⟩ compete
  exact (holds calls (List.prefix_refl calls)).2

/-- After any competing calls, a section has at most as many students as it has places or had
students at the start, and one more for each call that went by attendance, and no student
has two valid registrations of one type in a section, except for notes. -/
theorem competing_calls {calls : List Call} (started : Started moment)
    (unique : Unique notes moment.db moment.last)
    (compete : AtEach (Call.step site) Call.Competes moment calls)
    (later : (run (Call.step site) moment calls).last ≤ now) :
    (∀ sec, 1 ≤ site.capacity sec false →
      ((run (Call.step site) moment calls).db.numStudents sec now : ℤ) ≤
        max (site.capacity sec false) (moment.db.numStudents sec moment.last) +
          attendanceCalls site sec moment calls) ∧
      Unique notes (run (Call.step site) moment calls).db now := by
  have startedAfter := started.run compete
  constructor
  · intro sec positive
    have bounded := started.numStudents_run_le compete positive (le_max_left _ _)
      (le_max_right _ (moment.db.numStudents sec moment.last : ℤ))
    have fewer : (run (Call.step site) moment calls).db.numStudents sec now ≤
        (run (Call.step site) moment calls).db.numStudents sec
          (run (Call.step site) moment calls).last :=
      Finset.card_le_card (startedAfter.students_subset later)
    exact (Nat.cast_le.mpr fewer).trans bounded
  · exact startedAfter.unique (started.unique_run unique compete) later

end Rows

/-! ## Attendance and notes -/

namespace Sample

/-- A section for two students, which goes by its attendance from ten minutes after its start
on. -/
def lagging : Site where
  parentClass := fun sec => sec
  classProgram := fun _ => 0
  meetingTimes := fun sec => [⟨sec, 0⟩]
  capacity := fun _ _ => 2
  usePriority := fun _ => false
  switchTime := fun _ => none
  switchLag := fun _ => some 10

def oneAttends : Moment where
  db :=
    { registrations :=
        [⟨⟨some 0, none⟩, 1, 0, "Enrolled"⟩, ⟨⟨some 0, none⟩, 2, 0, "Enrolled"⟩,
          ⟨⟨some 1, none⟩, 1, 0, "Attended"⟩]
      members := ∅
      checkedIn := ∅ }
  last := 10 * minute

def tries (options : Options) : Call := ⟨11 * minute, 0, 3, .preregister options⟩

/-- Enrolling by the web application, and competing for a place without it. -/
theorem competing_calls_lagging :
    (∀ sec, 1 ≤ lagging.capacity sec false →
      ((run (Call.step lagging) oneAttends
          [tries { preregVerb := some "Enrolled" }, tries { webapp := true }]).db.numStudents
            sec (12 * minute) : ℤ) ≤
        max (lagging.capacity sec false)
            (oneAttends.db.numStudents sec oneAttends.last) +
          attendanceCalls lagging sec oneAttends
            [tries { preregVerb := some "Enrolled" }, tries { webapp := true }]) ∧
      Unique notes (run (Call.step lagging) oneAttends
        [tries { preregVerb := some "Enrolled" }, tries { webapp := true }]).db (12 * minute) := by
  refine competing_calls ?_ ?_ ?_ ?_
  · unfold Started
    decide
  · unfold Unique
    decide
  · exact atEach_cons.mpr ⟨⟨by decide, _, rfl, rfl, rfl⟩, atEach_cons.mpr
      ⟨⟨by decide, _, rfl, rfl, rfl⟩, atEach_nil⟩⟩
  · decide

/-- With one of two students absent, a third is enrolled, and two registrations by the web
application leave two notes. -/
theorem enrolled_by_attendance :
    (AtEach (Call.step lagging) Call.Competes oneAttends [tries { webapp := true }] ∧
      ¬((run (Call.step lagging) oneAttends [tries { webapp := true }]).db.numStudents 0
          (11 * minute) : ℤ) ≤
        max (lagging.capacity 0 false) (oneAttends.db.numStudents 0 oneAttends.last)) ∧
    (Unique [] oneAttends.db oneAttends.last ∧ AtEach (Call.step lagging) Call.Competes oneAttends
        [tries { webapp := true }, tries { webapp := true, preregVerb := some "Priority/1" }] ∧
      ¬Unique [] (run (Call.step lagging) oneAttends
        [tries { webapp := true }, tries { webapp := true, preregVerb := some "Priority/1" }]).db
          (11 * minute)) := by
  have first : (tries { webapp := true }).Competes oneAttends := ⟨by decide, _, rfl, rfl, rfl⟩
  have second : (tries { webapp := true, preregVerb := some "Priority/1" }).Competes
      ((tries { webapp := true }).step lagging oneAttends) := ⟨by decide, _, rfl, rfl, rfl⟩
  refine ⟨⟨atEach_cons.mpr ⟨first, atEach_nil⟩, by decide⟩, ?_,
    atEach_cons.mpr ⟨first, atEach_cons.mpr ⟨second, atEach_nil⟩⟩, ?_⟩
  all_goals
    unfold Unique
    decide

end Sample

end EspWebsite.Registration
