import EspWebsite.ClassReg.Controller
import EspWebsite.Library.Runs

/-!
# The time teachers teach stays within the program

Before a class is written the controller compares the hours that the form asks for with those
the class seems to have.  What a teacher teaches afterwards is another sum: it has the sections
that could not be deleted, and leaves out the cancelled ones.
-/

namespace EspWebsite.ClassReg

open Python Loops Tables Runs

/-! ## Hours as sums -/

def ClassSubject.countedFor (cls : ClassSubject) (program user : ℕ) : List ClassSection :=
  if user ∈ cls.teachers ∧ cls.parent_program = program ∧ 0 ≤ cls.status then
    cls.sections.filter fun sec => 0 ≤ sec.status
  else []

def counted (db : Database) (program user : ℕ) : List ClassSection :=
  db.rows.flatMap fun cls => cls.countedFor program user

def hoursOf (secs : List ClassSection) : ℚ := (secs.map fun sec => sec.duration.getD 0).sum

/-- Some sections all have a duration. -/
def Timed (secs : List ClassSection) : Prop := ∀ sec ∈ secs, sec.duration.isSome

variable {site : Site} {db after : Database} {program user : ℕ} {cls edited : ClassSubject}
  {form : RegForm} {hours : ℚ} {secs others : List ClassSection}

theorem hoursOf_append : hoursOf (secs ++ others) = hoursOf secs + hoursOf others := by
  simp [hoursOf]

theorem hoursOf_cons {sec : ClassSection} :
    hoursOf (sec :: secs) = sec.duration.getD 0 + hoursOf secs := by
  simp [hoursOf]

theorem timed_nil : Timed [] := fun _ absent => nomatch absent

theorem timed_cons {sec : ClassSection} :
    Timed (sec :: secs) ↔ sec.duration.isSome ∧ Timed secs := by
  simp [Timed]

theorem timed_append : Timed (secs ++ others) ↔ Timed secs ∧ Timed others := by
  simp [Timed, or_imp, forall_and]

theorem hoursOf_eq_length_mul (same : ∀ sec ∈ secs, sec.duration = some hours) :
    hoursOf secs = secs.length * hours := by
  induction secs with
  | nil => simp [hoursOf]
  | cons sec secs ih =>
      have first := same sec List.mem_cons_self
      have rest := ih fun other isOther => same other (List.mem_cons_of_mem _ isOther)
      calc hoursOf (sec :: secs) = sec.duration.getD 0 + hoursOf secs := hoursOf_cons
        _ = hours + secs.length * hours := by rw [first, rest, Option.getD_some]
        _ = (sec :: secs).length * hours := by
            rw [List.length_cons]
            push_cast
            ring

theorem sumTime_eq_ok {entries : List (ClassSubject × ClassSection)} {total_time : ℚ} :
    forLoop addTime entries total_time = .ok hours ↔
      Timed ((entries.filter counts).map Prod.snd) ∧
        hours = total_time + hoursOf ((entries.filter counts).map Prod.snd) := by
  induction entries generalizing total_time with
  | nil => simp [hoursOf, timed_nil, eq_comm]
  | cons entry entries ih =>
      rw [forLoop_cons_eq_ok]
      by_cases isCounted : counts entry = true
      · rw [List.filter_cons_of_pos isCounted, List.map_cons, timed_cons, hoursOf_cons, addTime,
          if_pos isCounted]
        cases duration : entry.2.duration with
        | none => simp [floatOf]
        | some length => simp [floatOf, ih, add_assoc]
      · rw [List.filter_cons_of_neg isCounted, addTime, if_neg isCounted]
        simp [ih]

theorem map_snd_filter_counts : (((cls.sections.filter fun sec =>
    sec.status ≠ ClassStatus.REJECTED ∧ sec.status ≠ ClassStatus.DRAFT).map
      (Prod.mk cls)).filter counts).map Prod.snd =
    if 0 ≤ cls.status then cls.sections.filter fun sec => 0 ≤ sec.status else [] := by
  rw [List.filter_map, List.map_map, List.filter_filter]
  split
  next active =>
    have second : Prod.snd ∘ Prod.mk cls = (id : ClassSection → ClassSection) := rfl
    rw [second, List.map_id]
    apply List.filter_congr
    intro sec isSec
    simp only [Function.comp, counts, active, ClassStatus.REJECTED, ClassStatus.DRAFT]
    by_cases open' : 0 ≤ sec.status
    · have : sec.status ≠ -10 := by omega
      have : sec.status ≠ -5 := by omega
      simp [*]
    · simp [open']
  next inactive =>
    rw [List.filter_eq_nil_iff.mpr, List.map_nil]
    intro sec isSec
    simp [counts, inactive]

theorem map_snd_getTaughtSections :
    ((getTaughtSections db program user).filter counts).map Prod.snd =
      counted db program user := by
  rw [getTaughtSections, getTaughtClasses, counted, List.filter_flatMap, List.map_flatMap]
  induction db.rows with
  | nil => rfl
  | cons cls rows ih =>
      rw [List.flatMap_cons, ← ih, ClassSubject.countedFor]
      by_cases taught : user ∈ cls.teachers ∧ cls.parent_program = program ∧
          cls.status ≠ ClassStatus.REJECTED ∧ cls.status ≠ ClassStatus.DRAFT
      · rw [List.filter_cons_of_pos (by simpa using taught), List.flatMap_cons,
          map_snd_filter_counts]
        simp [taught.1, taught.2.1]
      · rw [List.filter_cons_of_neg (by simpa using taught), if_neg, List.nil_append]
        intro both
        refine taught ⟨both.1, both.2.1, ?_, ?_⟩
        · intro rejected
          rw [rejected] at both
          exact absurd both.2.2 (by decide)
        · intro draft
          rw [draft] at both
          exact absurd both.2.2 (by decide)

theorem getTaughtTime_eq_ok : getTaughtTime db program user = .ok hours ↔
    Timed (counted db program user) ∧ hours = hoursOf (counted db program user) := by
  rw [getTaughtTime, sumTime_eq_ok, map_snd_getTaughtSections, zero_add]

/-! ## What writing a class changes -/

theorem exists_counted_save (isRow : cls ∈ db.rows) (same : edited.id = cls.id) :
    ∃ before later, counted db program user = before ++ cls.countedFor program user ++ later ∧
      counted (db.save edited) program user =
        before ++ edited.countedFor program user ++ later := by
  rcases List.append_of_mem isRow with ⟨before, later, rows⟩
  have distinct := db.nodup_keys
  rw [rows, List.map_append, List.map_cons, List.nodup_append, List.nodup_cons] at distinct
  have unchanged : ∀ kept : List ClassSubject, (∀ old ∈ kept, old.id ≠ cls.id) →
      (kept.map fun old => if Keyed.key old = Keyed.key edited then edited else old) = kept := by
    intro kept different
    refine (List.map_congr_left fun old isOld => ?_).trans (List.map_id' kept)
    exact if_neg fun equal => different old isOld (equal.trans same)
  have beforeUnchanged := unchanged before fun old isOld equal =>
    distinct.2.2 _ (List.mem_map_of_mem isOld) _ List.mem_cons_self equal
  have laterUnchanged := unchanged later fun old isOld equal =>
    distinct.2.1.1 (List.mem_map.mpr ⟨old, isOld, equal⟩)
  have isEdited : Keyed.key cls = Keyed.key edited := same.symm
  refine ⟨before.flatMap fun cls => cls.countedFor program user,
    later.flatMap fun cls => cls.countedFor program user, ?_, ?_⟩
  · simp [counted, rows]
  · rw [counted, Table.rows_save, rows, List.map_append, List.map_cons, beforeUnchanged,
      laterUnchanged, if_pos isEdited]
    simp

theorem counted_create {make : ℕ → ClassSubject} {keyed : ∀ id, Keyed.key (make id) = id} :
    counted (db.create make keyed) program user =
      counted db program user ++ (make db.next).countedFor program user := by
  simp [counted]

/-- Every teacher's time taught is at most the duration of the program. -/
def Within (site : Site) (db : Database) : Prop :=
  ∀ user, ∃ taught, getTaughtTime db site.program user = .ok taught ∧
    taught ≤ site.total_duration

theorem within_iff : Within site db ↔ ∀ user, Timed (counted db site.program user) ∧
    hoursOf (counted db site.program user) ≤ site.total_duration := by
  apply forall_congr'
  intro user
  constructor
  · intro within
    rcases within with ⟨taught, isTaught, bounded⟩
    have sum := getTaughtTime_eq_ok.mp isTaught
    rw [sum.2] at bounded
    exact ⟨sum.1, bounded⟩
  · intro sum
    exact ⟨_, getTaughtTime_eq_ok.mpr ⟨sum.1, rfl⟩, sum.2⟩

theorem within_save_iff (within : Within site db) (isRow : cls ∈ db.rows)
    (same : edited.id = cls.id)
    (timed : ∀ user, Timed (edited.countedFor site.program user)) :
    Within site (db.save edited) ↔ ∀ user, hoursOf (counted db site.program user) +
      (hoursOf (edited.countedFor site.program user) -
        hoursOf (cls.countedFor site.program user)) ≤ site.total_duration := by
  rw [within_iff] at within ⊢
  apply forall_congr'
  intro user
  rcases @exists_counted_save db site.program user cls edited isRow same with
    ⟨before, later, old, new⟩
  have timedOld := (within user).1
  rw [old, timed_append, timed_append] at timedOld
  have timedNew : Timed (counted (db.save edited) site.program user) := by
    rw [new, timed_append, timed_append]
    exact ⟨⟨timedOld.1.1, timed user⟩, timedOld.2⟩
  have difference : hoursOf (counted (db.save edited) site.program user) =
      hoursOf (counted db site.program user) + (hoursOf (edited.countedFor site.program user) -
        hoursOf (cls.countedFor site.program user)) := by
    rw [new, old]
    simp only [hoursOf_append]
    ring
  rw [difference]
  exact and_iff_right timedNew

theorem require_eq_ok {current_user : ℕ} {result : Unit} :
    require_teacher_has_time site db user current_user hours = .ok result ↔
      ∃ taught, getTaughtTime db site.program user = .ok taught ∧
        taught + hours ≤ site.total_duration := by
  rw [require_teacher_has_time, teacher_has_time]
  cases getTaughtTime db site.program user with
  | error raised => simp
  | ok taught => by_cases fits : taught + hours ≤ site.total_duration <;> simp [fits]

/-! ## The sections a call leaves -/

namespace ClassSubject

/-- The sections of before that are left for a number of them. -/
def keptSections (cls : ClassSubject) (num_sections : ℕ) : List ClassSection :=
  cls.sections.take num_sections ++
    (cls.sections.drop num_sections).filter fun sec => 0 < sec.enrolled_students

/-- The class as `editclass` saves it. -/
def editedBy (cls : ClassSubject) (form : RegForm) : ClassSubject :=
  (cls.setClassData form).updateClassSections form.num_sections

/-- The class as `submit_draft` saves it. -/
def submittedBy (cls : ClassSubject) (form : RegForm) : ClassSubject :=
  { cls.editedBy form with
    status := ClassStatus.UNREVIEWED
    sections := (cls.editedBy form).sections.map fun sec =>
      { sec with status := ClassStatus.UNREVIEWED } }

theorem perm_remainingSections (cls : ClassSubject) (num_sections : ℕ) :
    (cls.remainingSections num_sections).Perm (cls.keptSections num_sections ++
      List.replicate (num_sections - cls.sections.length) cls.newSection) := by
  rw [remainingSections, keptSections]
  cases Nat.le_total num_sections cls.sections.length with
  | inl few => simp [Nat.sub_eq_zero_of_le few]
  | inr many =>
      have whole : (cls.sections ++ List.replicate (num_sections - cls.sections.length)
          cls.newSection).length ≤ num_sections := by
        rw [List.length_append, List.length_replicate]
        omega
      simp [List.take_of_length_le whole, List.drop_of_length_le whole,
        List.take_of_length_le many, List.drop_of_length_le many]

theorem length_remainingSections (cls : ClassSubject) (num_sections : ℕ) :
    (cls.remainingSections num_sections).length = num_sections +
      (cls.sections.drop num_sections).countP fun sec => 0 < sec.enrolled_students := by
  rw [(cls.perm_remainingSections num_sections).length_eq, keptSections, List.length_append,
    List.length_append, List.length_replicate, List.length_take, List.countP_eq_length_filter]
  omega

theorem countP_remainingSections (cls : ClassSubject) (num_sections : ℕ)
    (active : 0 ≤ cls.status) :
    ((cls.remainingSections num_sections).countP fun sec => 0 ≤ sec.status) =
      ((cls.keptSections num_sections).countP fun sec => 0 ≤ sec.status) +
        (num_sections - cls.sections.length) := by
  rw [(cls.perm_remainingSections num_sections).countP_eq, List.countP_append,
    List.countP_replicate, newSection, if_pos (by simpa using active)]

theorem duration_of_mem_editedBy {sec : ClassSection}
    (isSec : sec ∈ (cls.editedBy form).sections) : sec.duration = some form.duration := by
  rcases List.mem_map.mp isSec with ⟨old, isOld, rfl⟩
  rfl

theorem duration_of_mem_submittedBy {sec : ClassSection}
    (isSec : sec ∈ (cls.submittedBy form).sections) : sec.duration = some form.duration := by
  rcases List.mem_map.mp isSec with ⟨old, isOld, rfl⟩
  have duration : old.duration = some form.duration := duration_of_mem_editedBy isOld
  exact duration

theorem mem_of_mem_countedFor {sec : ClassSection}
    (isSec : sec ∈ cls.countedFor program user) : sec ∈ cls.sections := by
  rw [countedFor] at isSec
  split at isSec
  next => exact List.mem_of_mem_filter isSec
  next => cases isSec

theorem countedFor_of_active (taught : user ∈ cls.teachers)
    (ofProgram : cls.parent_program = program) (active : 0 ≤ cls.status) :
    cls.countedFor program user = cls.sections.filter fun sec => 0 ≤ sec.status :=
  if_pos ⟨taught, ofProgram, active⟩

theorem hoursOf_editedBy (taught : user ∈ cls.teachers) (ofProgram : cls.parent_program = program)
    (active : 0 ≤ cls.status) :
    hoursOf ((cls.editedBy form).countedFor program user) =
      (((cls.keptSections form.num_sections).countP fun sec => 0 ≤ sec.status) +
        (form.num_sections - cls.sections.length : ℕ)) * form.duration := by
  have counted : (cls.editedBy form).countedFor program user =
      (cls.editedBy form).sections.filter fun sec => 0 ≤ sec.status :=
    countedFor_of_active taught ofProgram active
  rw [counted, hoursOf_eq_length_mul fun sec isSec =>
    duration_of_mem_editedBy (List.mem_of_mem_filter isSec)]
  congr 1
  rw [← List.countP_eq_length_filter, editedBy, updateClassSections, List.countP_map]
  have same := (cls.setClassData form).countP_remainingSections form.num_sections active
  exact_mod_cast same

theorem hoursOf_submittedBy (taught : user ∈ cls.teachers)
    (ofProgram : cls.parent_program = program) :
    hoursOf ((cls.submittedBy form).countedFor program user) =
      (form.num_sections + ((cls.sections.drop form.num_sections).countP fun sec =>
        0 < sec.enrolled_students : ℕ)) * form.duration := by
  have counted : (cls.submittedBy form).countedFor program user =
      (cls.submittedBy form).sections.filter fun sec => 0 ≤ sec.status :=
    countedFor_of_active taught ofProgram (Int.le_refl 0)
  have all : ((cls.submittedBy form).sections.filter fun sec => 0 ≤ sec.status) =
      (cls.submittedBy form).sections := by
    apply List.filter_eq_self.mpr
    intro sec isSec
    rcases List.mem_map.mp isSec with ⟨old, isOld, rfl⟩
    rfl
  rw [counted, all, hoursOf_eq_length_mul fun sec => duration_of_mem_submittedBy]
  congr 1
  have same := (cls.setClassData form).length_remainingSections form.num_sections
  rw [submittedBy, editedBy, updateClassSections, List.length_map, List.length_map]
  exact_mod_cast same

theorem propose_eq_ok (proposed : cls.propose = .ok edited) :
    edited = { cls with
      status := ClassStatus.UNREVIEWED
      sections := cls.sections.map fun sec => { sec with status := ClassStatus.UNREVIEWED } } := by
  have unreviewed : ∀ secs result : List ClassSection, secs.mapM unreviewSection = .ok result →
      result = secs.map fun sec => { sec with status := ClassStatus.UNREVIEWED } := by
    intro secs
    induction secs with
    | nil =>
        intro result isResult
        cases isResult
        rfl
    | cons sec secs ih =>
        intro result isResult
        rw [List.mapM_cons, bind_eq_ok] at isResult
        rcases isResult with ⟨first, isFirst, isResult⟩
        rw [bind_eq_ok] at isResult
        rcases isResult with ⟨rest, isRest, isResult⟩
        cases isResult
        rw [unreviewSection] at isFirst
        split at isFirst
        next => cases isFirst
        next =>
          cases isFirst
          rw [ih rest isRest, List.map_cons]
  rw [propose, bind_eq_ok] at proposed
  rcases proposed with ⟨result, isResult, isEdited⟩
  cases isEdited
  rw [unreviewed _ _ isResult]

end ClassSubject

/-! ## What a call that returns has done -/

theorem getClass_eq_ok {verb : String} {clsid : ℕ} (found : getClass db verb clsid = .ok cls) :
    cls ∈ db.rows ∧ cls.id = clsid := by
  rw [getClass] at found
  cases row : db.get? clsid with
  | none =>
      rw [row] at found
      cases found
  | some other =>
      rw [row] at found
      cases found
      exact Table.get?_eq_some.mp row

theorem make_class_happen_eq_ok
    (made : cls.make_class_happen (some user) form false = .ok edited) :
    ((cls.editedBy form).makeTeacher user).propose = .ok edited := by
  have teaches : user ∈ ((cls.editedBy form).makeTeacher user).teachers := by
    rw [ClassSubject.makeTeacher]
    split
    next already => exact already
    next => simp
  have proposed : cls.make_class_happen (some user) form false =
      if user ∈ ((cls.editedBy form).makeTeacher user).teachers then
        ((cls.editedBy form).makeTeacher user).propose
      else .ok ((cls.editedBy form).makeTeacher user) := rfl
  rw [proposed, if_pos teaches] at made
  exact made

theorem makeaclass_eq_ok (made : makeaclass site db user form = .ok after) :
    after = db.create (fun id => { ({ newClass site.program db.next with
      teachers := [user] } : ClassSubject).submittedBy form with id := id }) (fun _ => rfl) ∧
    ∃ taught, getTaughtTime db site.program user = .ok taught ∧
      taught + form.totalTimeRequested ≤ site.total_duration := by
  rw [makeaclass, andThen_eq_ok] at made
  rcases bind_eq_ok.mp made.2 with ⟨cls, isCls, isAfter⟩
  have proposed := ClassSubject.propose_eq_ok (make_class_happen_eq_ok isCls)
  cases isAfter
  rw [proposed]
  exact ⟨rfl, require_eq_ok.mp made.1⟩

theorem editclass_eq_ok {current_user clsid : ℕ}
    (made : editclass site db current_user form clsid = .ok after) :
    ∃ cls ∈ db.rows, cls.id = clsid ∧ after = db.save (cls.editedBy form) := by
  rcases bind_eq_ok.mp made with ⟨cls, isCls, made⟩
  rcases bind_eq_ok.mp made with ⟨duration, isDuration, made⟩
  rcases bind_eq_ok.mp made with ⟨checked, isChecked, made⟩
  rcases bind_eq_ok.mp made with ⟨edited, isEdited, isAfter⟩
  have found := getClass_eq_ok isCls
  cases isEdited
  cases isAfter
  exact ⟨cls, found.1, found.2, rfl⟩

theorem submit_draft_eq_ok {clsid : ℕ}
    (made : submit_draft site db user form clsid = .ok after) :
    ∃ cls ∈ db.rows, cls.id = clsid ∧ cls.status = ClassStatus.DRAFT ∧
      after = db.save (cls.submittedBy form) := by
  rcases bind_eq_ok.mp made with ⟨cls, isCls, made⟩
  have found := getClass_eq_ok isCls
  refine ⟨cls, found.1, found.2, ?_⟩
  split at made
  next => cases made
  next isDraft =>
    rcases bind_eq_ok.mp made with ⟨checked, isChecked, made⟩
    refine ⟨not_not.mp isDraft, ?_⟩
    split at made
    next teaches =>
      rcases bind_eq_ok.mp made with ⟨edited, isEdited, isAfter⟩
      have already : (cls.editedBy form).makeTeacher user = cls.editedBy form := if_pos teaches
      have proposed := make_class_happen_eq_ok isEdited
      rw [already] at proposed
      cases isAfter
      rw [ClassSubject.propose_eq_ok proposed]
      rfl
    next =>
      rcases bind_eq_ok.mp made with ⟨edited, isEdited, made⟩
      rcases bind_eq_ok.mp made with ⟨submitted, isSubmitted, isAfter⟩
      cases isEdited
      cases isAfter
      rw [ClassSubject.propose_eq_ok isSubmitted]
      rfl

/-! ## When the bound is kept -/

/-- The hours that a call really adds fit.  An edited class has the kept sections that are not
cancelled or rejected, and the new ones, at the new duration; a submitted one has as many sections
as asked for, and those further ones with students. -/
def Fits (site : Site) (db : Database) : Call → Prop
  | .makeaclass _ _ => True
  | .editclass _ form clsid => ∀ cls ∈ db.rows, cls.id = clsid →
      cls.parent_program = site.program → 0 ≤ cls.status → ∀ teacher ∈ cls.teachers,
        ∀ taught, getTaughtTime db site.program teacher = .ok taught →
          taught + ((((cls.keptSections form.num_sections).countP fun sec => 0 ≤ sec.status) +
            (form.num_sections - cls.sections.length : ℕ)) * form.duration -
              hoursOf (cls.sections.filter fun sec => 0 ≤ sec.status)) ≤ site.total_duration
  | .submit_draft _ form clsid => ∀ cls ∈ db.rows, cls.id = clsid →
      cls.parent_program = site.program → ∀ teacher ∈ cls.teachers,
        ∀ taught, getTaughtTime db site.program teacher = .ok taught →
          taught + (form.num_sections + ((cls.sections.drop form.num_sections).countP fun sec =>
            0 < sec.enrolled_students : ℕ)) * form.duration ≤ site.total_duration

theorem countedFor_of_not_taught (notTaught : ¬ (user ∈ cls.teachers ∧
    cls.parent_program = program ∧ 0 ≤ cls.status)) : cls.countedFor program user = [] :=
  if_neg notTaught

theorem timed_countedFor (timed : ∀ sec ∈ cls.sections, sec.duration = some hours) :
    Timed (cls.countedFor program user) := by
  intro sec isSec
  rw [timed sec (ClassSubject.mem_of_mem_countedFor isSec)]
  rfl

theorem within_makeaclass (within : Within site db)
    (made : makeaclass site db user form = .ok after) : Within site after := by
  rcases makeaclass_eq_ok made with ⟨isAfter, taught, isTaught, fits⟩
  rw [within_iff] at within ⊢
  intro other
  rw [isAfter, counted_create, timed_append, hoursOf_append]
  have bounded := within other
  have timed : ∀ sec ∈ (({ newClass site.program db.next with
      teachers := [user] } : ClassSubject).submittedBy form).sections,
      sec.duration = some form.duration :=
    fun sec => ClassSubject.duration_of_mem_submittedBy
  refine ⟨⟨bounded.1, timed_countedFor timed⟩, ?_⟩
  · cases Decidable.em (other = user) with
    | inl same =>
        have hours := @ClassSubject.hoursOf_submittedBy site.program user
          { newClass site.program db.next with teachers := [user] } form List.mem_cons_self rfl
        have sum := getTaughtTime_eq_ok.mp isTaught
        rw [same]
        calc hoursOf (counted db site.program user) + _
            = taught + form.totalTimeRequested := by
              rw [sum.2, RegForm.totalTimeRequested]
              have added := hours
              simp only [newClass, List.drop_nil, List.countP_nil, Nat.cast_zero, add_zero]
                at added
              rw [mul_comm form.duration]
              exact congrArg _ added
          _ ≤ site.total_duration := fits
    | inr different =>
        rw [countedFor_of_not_taught]
        · simpa [hoursOf] using bounded.2
        · intro taught
          exact different (List.mem_singleton.mp taught.1)

theorem within_editclass_iff {current_user clsid : ℕ} (within : Within site db)
    (made : editclass site db current_user form clsid = .ok after) :
    Within site after ↔ Fits site db (.editclass current_user form clsid) := by
  rcases editclass_eq_ok made with ⟨cls, isRow, hasId, isAfter⟩
  have saved := @within_save_iff site db cls (cls.editedBy form) within isRow rfl fun user =>
    timed_countedFor fun sec isSec => ClassSubject.duration_of_mem_editedBy isSec
  rw [isAfter, saved]
  constructor
  · intro bounded other isOther sameId ofProgram active teacher isTeacher taught isTaught
    have same : other = cls := Table.eq_of_key_eq isOther isRow (sameId.trans hasId.symm)
    rw [same] at ofProgram active isTeacher ⊢
    have hours := bounded teacher
    rw [ClassSubject.hoursOf_editedBy isTeacher ofProgram active,
      ClassSubject.countedFor_of_active isTeacher ofProgram active] at hours
    rw [(getTaughtTime_eq_ok.mp isTaught).2]
    exact hours
  · intro fits user
    have bounded := (within_iff.mp within user)
    cases Decidable.em (user ∈ cls.teachers ∧ cls.parent_program = site.program ∧
        0 ≤ cls.status) with
    | inl taught =>
        rw [ClassSubject.hoursOf_editedBy taught.1 taught.2.1 taught.2.2,
          ClassSubject.countedFor_of_active taught.1 taught.2.1 taught.2.2]
        exact fits cls isRow hasId taught.2.1 taught.2.2 user taught.1 _
          (getTaughtTime_eq_ok.mpr ⟨bounded.1, rfl⟩)
    | inr notTaught =>
        have unchanged : (cls.editedBy form).countedFor site.program user = [] :=
          countedFor_of_not_taught notTaught
        rw [unchanged, countedFor_of_not_taught notTaught, sub_self, add_zero]
        exact bounded.2

theorem within_submit_draft_iff {clsid : ℕ} (within : Within site db)
    (made : submit_draft site db user form clsid = .ok after) :
    Within site after ↔ Fits site db (.submit_draft user form clsid) := by
  rcases submit_draft_eq_ok made with ⟨cls, isRow, hasId, isDraft, isAfter⟩
  have saved := @within_save_iff site db cls (cls.submittedBy form) within isRow rfl fun user =>
    timed_countedFor fun sec isSec => ClassSubject.duration_of_mem_submittedBy isSec
  have none (teacher : ℕ) : cls.countedFor site.program teacher = [] := by
    apply countedFor_of_not_taught
    intro taught
    rw [isDraft] at taught
    exact absurd taught.2.2 (by decide)
  rw [isAfter, saved]
  constructor
  · intro bounded other isOther sameId ofProgram teacher isTeacher taught isTaught
    have same : other = cls := Table.eq_of_key_eq isOther isRow (sameId.trans hasId.symm)
    rw [same] at ofProgram isTeacher ⊢
    have hours := bounded teacher
    rw [ClassSubject.hoursOf_submittedBy isTeacher ofProgram, none] at hours
    rw [(getTaughtTime_eq_ok.mp isTaught).2]
    simpa [hoursOf] using hours
  · intro fits teacher
    have bounded := (within_iff.mp within teacher)
    cases Decidable.em (teacher ∈ cls.teachers ∧ cls.parent_program = site.program) with
    | inl taught =>
        have enough := fits cls isRow hasId taught.2 teacher taught.1 _
          (getTaughtTime_eq_ok.mpr ⟨bounded.1, rfl⟩)
        rw [ClassSubject.hoursOf_submittedBy taught.1 taught.2, none]
        simpa [hoursOf] using enough
    | inr notTaught =>
        have unchanged : (cls.submittedBy form).countedFor site.program teacher = [] :=
          countedFor_of_not_taught fun taught => notTaught ⟨taught.1, taught.2.1⟩
        rw [unchanged, none, sub_self, add_zero]
        exact bounded.2

/-- In a run of calls that return, every teacher's time stays within the program exactly if what
each of them adds fits. -/
theorem within_throughout_iff (site : Site) (db : Database) (calls : List Call)
    (within : Within site db)
    (succeed : AtEach (step site) (fun db action => (call site db action).isOk = true) db calls) :
    Throughout (step site) (Within site) db calls ↔ AtEach (step site) (Fits site) db calls := by
  have steps : ∀ db action, True → Within site db → (call site db action).isOk = true →
      True ∧ (Within site (step site db action) ↔ Fits site db action) := by
    intro db action _ within succeeds
    rcases exists_of_isOk succeeds with ⟨after, made⟩
    have isStep : step site db action = after := by
      rw [step, made]
    rw [isStep]
    refine ⟨trivial, ?_⟩
    cases action with
    | makeaclass user form => exact iff_of_true (within_makeaclass within made) trivial
    | editclass current_user form clsid => exact within_editclass_iff within made
    | submit_draft user form clsid => exact within_submit_draft_iff within made
  exact throughout_iff steps trivial within succeed

/-! ## A class with enrolled students -/

def shortProgram : Site := ⟨1, 2, fun _ => "", fun _ => ""⟩

/-- A class of two sections of one hour, of which the second has students. -/
def popularClass : Database where
  rows := [⟨0, 1, 10, some 1, [7], [⟨10, some 1, 0⟩, ⟨10, some 1, 5⟩]⟩]
  next := 1
  ordered := List.pairwise_singleton _ _
  below := by decide

theorem within_popularClass : Within shortProgram popularClass := by
  rw [within_iff]
  intro user
  cases Decidable.em (user = 7) with
  | inl same =>
      rw [same]
      have timed : Timed (counted popularClass shortProgram.program 7) := by
        rw [Timed]
        decide
      exact ⟨timed, by decide +kernel⟩
  | inr other =>
      have none : counted popularClass shortProgram.program user = [] := by
        simp [counted, popularClass, ClassSubject.countedFor, other]
      rw [none]
      exact ⟨timed_nil, by decide⟩

/-- Editing and adding classes that fit. -/
theorem within_throughout_popularClass :
    Throughout (step shortProgram) (Within shortProgram) popularClass
      [.editclass 7 ⟨1, 2⟩ 0, .makeaclass 8 ⟨2, 1⟩] ↔
    AtEach (step shortProgram) (Fits shortProgram) popularClass
      [.editclass 7 ⟨1, 2⟩ 0, .makeaclass 8 ⟨2, 1⟩] :=
  within_throughout_iff shortProgram popularClass _ within_popularClass (by decide +kernel)

/-- Asking for one section of two hours instead passes the check, but the section with students
stays, and both sections get two hours. -/
theorem popularClass_exceeds : Within shortProgram popularClass ∧
    (call shortProgram popularClass (.editclass 7 ⟨2, 1⟩ 0)).isOk = true ∧
      ¬ Within shortProgram (step shortProgram popularClass (.editclass 7 ⟨2, 1⟩ 0)) := by
  refine ⟨within_popularClass, by decide +kernel, ?_⟩
  intro within
  have bounded := (within_iff.mp within 7).2
  exact absurd bounded (by decide +kernel)

end EspWebsite.ClassReg
