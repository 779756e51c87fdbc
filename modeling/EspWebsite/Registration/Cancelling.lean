import EspWebsite.ClassReg.Statuses
import EspWebsite.Registration.DataModel

/-!
# Cancelling a section

`cancel` and `clearStudents` of `ClassSection`: who loses a registration, and who an interest in
the class.
-/

namespace EspWebsite.Registration

open ClassReg (ClassStatus.CANCELLED Statuses)

/-- `StudentSubjectInterest`. -/
structure StudentSubjectInterest extends ExpirableModel where
  user : ℕ
  subject : ℕ
  deriving DecidableEq

/-- `ClassSection`. -/
structure ClassSection where
  id : ℕ
  status : ℤ
  cancellationReason : Option String
  meetingTimes : List Event
  deriving DecidableEq

/-- `ClassSubject`, with its sections in the order of their ids. -/
structure ClassSubject where
  id : ℕ
  title : String
  status : ℤ
  sections : List ClassSection
  deriving DecidableEq

/-- What is recorded of the students of classes and sections. -/
structure StudentRows where
  registrations : List StudentRegistration
  interests : List StudentSubjectInterest
  deriving DecidableEq

/-- The start of `firstBlockEvent`. -/
def ClassSection.firstBlockEvent (sec : ClassSection) : Option DateTime :=
  (sec.meetingTimes.map Event.start).min?

namespace StudentRows

variable (rows : StudentRows) (now : DateTime)

def expireRegistrations (classSection : ℕ) : List StudentRegistration :=
  rows.registrations.map fun row =>
    if row.isValid now && decide (row.classSection = classSection) then
      { row with endDate := some now }
    else row

def expireInterests (subject : ℕ) : List StudentSubjectInterest :=
  rows.interests.map fun row =>
    if row.isValid now && decide (row.subject = subject) then { row with endDate := some now }
    else row

end StudentRows

namespace ClassSubject

variable (cls : ClassSubject)

/-- `__cmp__` of two sections of the class, which both have its title. -/
def cmp (one other : ClassSection) : Ordering :=
  match one.firstBlockEvent, other.firstBlockEvent with
  | some _, none => .gt
  | none, some _ => .lt
  | some start, some otherStart => (compare start otherStart).then (compare cls.title cls.title)
  | none, none => compare cls.title cls.title

/-- The statuses of the sections that `get_sections` returns: a class object reads its sections
once and keeps them. -/
def getSections (cached : Option (Fin cls.sections.length → ℤ)) : Fin cls.sections.length → ℤ :=
  cached.getD fun sec => cls.sections[sec].status

/-- The test of `clearStudents` on the sections that are not equal to the section. -/
def othersCancelled (cached : Option (Fin cls.sections.length → ℤ))
    (sec : Fin cls.sections.length) : Bool :=
  ((List.finRange cls.sections.length).filter fun other =>
    cls.cmp cls.sections[other] cls.sections[sec] ≠ .eq).all fun other =>
      cls.getSections cached other = ClassStatus.CANCELLED

def clearStudents (cached : Option (Fin cls.sections.length → ℤ)) (sec : Fin cls.sections.length)
    (rows : StudentRows) (now : DateTime) : StudentRows where
  registrations := rows.expireRegistrations now cls.sections[sec].id
  interests :=
    if cls.othersCancelled cached sec then rows.expireInterests now cls.id else rows.interests

/-- `save` of a section. -/
def saveSection (sec : Fin cls.sections.length) (saved : ClassSection) : ClassSubject :=
  let sections := cls.sections.set sec saved
  if ∀ other ∈ sections, other.status = saved.status then
    { cls with status := saved.status, sections := sections }
  else { cls with sections := sections }

/-- `cancel`, after the messages. -/
def cancel (cached : Option (Fin cls.sections.length → ℤ)) (sec : Fin cls.sections.length)
    (rows : StudentRows) (now : DateTime) (explanation : Option String) (unschedule : Bool) :
    ClassSubject × StudentRows :=
  (cls.saveSection sec { cls.sections[sec] with
      status := ClassStatus.CANCELLED
      cancellationReason := explanation
      meetingTimes := if unschedule then [] else cls.sections[sec].meetingTimes },
    cls.clearStudents cached sec rows now)

/-- What is done with a section. -/
inductive Operation where
  | clearStudents
  | cancel (explanation : Option String) (unschedule : Bool)
  deriving DecidableEq

def perform (cached : Option (Fin cls.sections.length → ℤ)) (sec : Fin cls.sections.length)
    (rows : StudentRows) (now : DateTime) : Operation → ClassSubject × StudentRows
  | .clearStudents => (cls, cls.clearStudents cached sec rows now)
  | .cancel explanation unschedule => cls.cancel cached sec rows now explanation unschedule

/-- Another section of the class is not cancelled. -/
def OtherOpen (sec : Fin cls.sections.length) : Prop :=
  ∃ other, other ≠ sec ∧ cls.sections[other].status ≠ ClassStatus.CANCELLED

instance OtherOpen.decidable (sec : Fin cls.sections.length) : Decidable (cls.OtherOpen sec) :=
  inferInstanceAs (Decidable (∃ _, _ ∧ _))

/-- The class object has a section that is not cancelled and does not begin when the section
does. -/
def OtherSeen (cached : Option (Fin cls.sections.length → ℤ)) (sec : Fin cls.sections.length) :
    Prop :=
  ∃ other, cls.sections[other].firstBlockEvent ≠ cls.sections[sec].firstBlockEvent ∧
    cls.getSections cached other ≠ ClassStatus.CANCELLED

def interestsAfter (sec : Fin cls.sections.length) (rows : StudentRows) (now : DateTime) :
    List StudentSubjectInterest :=
  if cls.OtherOpen sec then rows.interests else rows.expireInterests now cls.id

variable {cls} {cached : Option (Fin cls.sections.length → ℤ)} {sec : Fin cls.sections.length}
  {rows : StudentRows} {now : DateTime}

theorem cmp_eq_iff {one other : ClassSection} :
    cls.cmp one other = .eq ↔ one.firstBlockEvent = other.firstBlockEvent := by
  rw [cmp]
  cases one.firstBlockEvent with
  | none =>
      cases other.firstBlockEvent with
      | none => simp
      | some otherStart => simp
  | some start =>
      cases other.firstBlockEvent with
      | none => simp
      | some otherStart => simp

theorem othersCancelled_iff : cls.othersCancelled cached sec = true ↔ ¬cls.OtherSeen cached sec := by
  rw [othersCancelled, OtherSeen, List.all_eq_true]
  simp only [List.mem_filter, List.mem_finRange, true_and, decide_eq_true_eq, ne_eq, cmp_eq_iff,
    not_exists, not_and, not_not]

theorem expireInterests_eq_self_iff {subject : ℕ} :
    rows.expireInterests now subject = rows.interests ↔
      ∀ row ∈ rows.interests, row.isValid now = true → row.subject = subject →
        row.endDate = some now := by
  have self : rows.interests.map (fun row => row) = rows.interests := List.map_id' _
  nth_rewrite 1 [← self]
  rw [StudentRows.expireInterests, List.map_inj_left]
  refine forall₂_congr fun row _ => ?_
  constructor
  · intro same valid ofSubject
    rw [if_pos (by simp [valid, ofSubject])] at same
    exact (congrArg (fun row => row.endDate) same).symm
  · intro ended
    split
    next expires =>
      rw [Bool.and_eq_true, decide_eq_true_eq] at expires
      rw [← ended expires.1 expires.2]
    next => rfl

theorem interests_perform (operation : Operation) :
    (cls.perform cached sec rows now operation).2.interests =
      if cls.othersCancelled cached sec then rows.expireInterests now cls.id
      else rows.interests := by
  cases operation with
  | clearStudents => rfl
  | cancel explanation unschedule => rfl

/-- The valid interests in a class end, exactly when its other sections are cancelled, if none is
left to end, or if some other section is not cancelled just when the class object has such a
section that begins at another time. -/
theorem interests_perform_iff (cls : ClassSubject)
    (cached : Option (Fin cls.sections.length → ℤ)) (sec : Fin cls.sections.length)
    (rows : StudentRows) (now : DateTime) (operation : Operation) :
    (cls.perform cached sec rows now operation).2.interests = cls.interestsAfter sec rows now ↔
      (∀ row ∈ rows.interests, row.isValid now = true → row.subject = cls.id →
        row.endDate = some now) ∨ (cls.OtherOpen sec ↔ cls.OtherSeen cached sec) := by
  rw [interests_perform, interestsAfter, ← expireInterests_eq_self_iff]
  by_cases seen : cls.OtherSeen cached sec
  · rw [if_neg fun cancelled => othersCancelled_iff.mp cancelled seen]
    by_cases isOpen : cls.OtherOpen sec
    · simp [isOpen, seen]
    · simp [isOpen, seen, eq_comm]
  · rw [if_pos (othersCancelled_iff.mpr seen)]
    by_cases isOpen : cls.OtherOpen sec
    · simp [isOpen, seen]
    · simp [isOpen, seen]

theorem otherSeen_none_iff : (cls.OtherOpen sec ↔ cls.OtherSeen none sec) ↔
    (cls.OtherOpen sec → ∃ other : Fin cls.sections.length,
      cls.sections[other].firstBlockEvent ≠ cls.sections[sec].firstBlockEvent ∧
        cls.sections[other].status ≠ ClassStatus.CANCELLED) := by
  constructor
  · intro same isOpen
    exact same.mp isOpen
  · intro seen
    refine ⟨seen, fun other => ?_⟩
    rcases other with ⟨other, different, uncancelled⟩
    exact ⟨other, fun same => different (by rw [same]), uncancelled⟩

namespace Sample

/-- A class with two sections that are not scheduled, and a student who is interested in it. -/
def unscheduled : ClassSubject := ⟨1, "Knots", 10, [⟨1, 10, none, []⟩, ⟨2, 10, none, []⟩]⟩

def interested : StudentRows := ⟨[], [⟨⟨some 0, none⟩, 5, 1⟩]⟩

/-- The first of the two is cancelled: the student loses the interest in the second. -/
theorem unscheduled_cancelled :
    (unscheduled.perform none ⟨0, by decide⟩ interested 100 (.cancel none false)).2.interests ≠
      unscheduled.interestsAfter ⟨0, by decide⟩ interested 100 := by
  decide

end Sample

end ClassSubject

end EspWebsite.Registration
