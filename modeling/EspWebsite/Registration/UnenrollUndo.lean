import EspWebsite.Library.Dicts
import EspWebsite.Registration.Unenroll

/-!
# Undoing an unenrollment

`unenroll_status` of `UnenrollModule` offers registrations; those that are selected are ended, and
an undo takes their ends away.
-/

namespace EspWebsite.Registration.Unenroll

open Python Dicts

/-! ## What is offered -/

/-- A site with the states of sections and classes, the classes that are lunches, and the users who
have attended the program. -/
structure Offer extends Site where
  status : ℕ → ℤ
  classStatus : ℕ → ℤ
  isLunch : ℕ → Bool
  attended : ℕ → Bool

/-- `unenroll_status`. -/
structure Status where
  sectionTimeslots : Dict ℕ ℕ := []
  studentTimeslots : Dict ℕ ℕ := []
  enrollments : Dict ℕ (ℕ × ℕ) := []

/-- A registration with one of the times of its section. -/
structure Relevant where
  id : ℕ
  student : ℕ
  classSection : ℕ
  time : Option Event

/-- `if key not in dict: dict[key] = value`. -/
def setDefault (dict : Dict ℕ ℕ) (key value : ℕ) : Dict ℕ ℕ :=
  if (get? dict key).isSome then dict else setItem dict key value

namespace Offer

variable (offer : Offer) (program : ℕ)

/-- The sections of a program whose registrations are offered. -/
def isOffered (sec : ℕ) : Bool :=
  offer.parentProgram sec = program && decide (0 < offer.status sec) &&
    decide (0 < offer.classStatus (offer.parentClass sec)) &&
    !offer.isLunch (offer.parentClass sec)

/-- The registrations that are offered, of students who have not attended the program. -/
def offered (registrations : List Enrollment) (now : DateTime) : List Enrollment :=
  registrations.filter fun row =>
    row.isValid now && row.relationship = "Enrolled" &&
      offer.isOffered program row.classSection && !offer.attended row.user

/-- The registrations with the times of their sections, in the order of these. -/
def relevant (registrations : List Enrollment) (now : DateTime) : List Relevant :=
  let joined := (offer.offered program registrations now).flatMap fun row =>
    match offer.meetingTimes row.classSection with
    | [] => [⟨row.id, row.user, row.classSection, none⟩]
    | times => times.map fun time => ⟨row.id, row.user, row.classSection, some time⟩
  joined.mergeSort fun left right =>
    match left.time, right.time with
    | some left, some right => left.start ≤ right.start
    | some _, none => true
    | none, some _ => false
    | none, none => true

/-- A registration is looked at with a time. -/
def addRelevant (status : Status) (row : Relevant) : Status :=
  match row.time with
  | none => status
  | some time =>
      { sectionTimeslots := setDefault status.sectionTimeslots row.classSection time.id
        studentTimeslots := setDefault status.studentTimeslots row.student time.id
        enrollments := setItem status.enrollments row.id (row.student, row.classSection) }

def unenrollStatus (registrations : List Enrollment) (now : DateTime) : Status :=
  (offer.relevant program registrations now).foldl addRelevant {}

variable {offer program} {registrations : List Enrollment} {now : DateTime} {id : ℕ}

theorem isSome_addRelevant {status : Status} {row : Relevant} :
    (get? (addRelevant status row).enrollments id).isSome ↔
      (get? status.enrollments id).isSome ∨ row.id = id ∧ row.time ≠ none := by
  rw [addRelevant]
  split
  next none => simp [none]
  next time some =>
    by_cases same : row.id = id
    · simp [same, some]
    · simp [get?_setItem_of_ne same, same]

theorem isSome_foldl_addRelevant {status : Status} {rows : List Relevant} :
    (get? (rows.foldl addRelevant status).enrollments id).isSome ↔
      (get? status.enrollments id).isSome ∨ ∃ row ∈ rows, row.id = id ∧ row.time ≠ none := by
  induction rows generalizing status with
  | nil => simp
  | cons row rows ih => simp [ih, isSome_addRelevant, or_assoc]

theorem isSome_unenrollStatus :
    (get? (offer.unenrollStatus program registrations now).enrollments id).isSome ↔
      ∃ row ∈ offer.offered program registrations now, row.id = id ∧
        offer.meetingTimes row.classSection ≠ [] := by
  simp only [unenrollStatus, isSome_foldl_addRelevant, relevant, List.mem_mergeSort,
    List.mem_flatMap, get?_nil, Option.isSome_none, Bool.false_eq_true, false_or]
  constructor
  · rintro ⟨relevant, ⟨row, isRow, isRelevant⟩, rfl, some⟩
    refine ⟨row, isRow, ?_⟩
    split at isRelevant
    next => simp_all
    next times notNone =>
      obtain ⟨time, -, rfl⟩ := List.mem_map.mp isRelevant
      exact ⟨rfl, notNone⟩
  · rintro ⟨row, isRow, rfl, some⟩
    obtain ⟨time, isTime⟩ := List.exists_mem_of_ne_nil _ some
    refine ⟨⟨row.id, row.user, row.classSection, .some time⟩, ⟨row, isRow, ?_⟩, rfl, by simp⟩
    split
    next none => simp_all
    next => exact List.mem_map.mpr ⟨time, isTime, rfl⟩

end Offer

/-! ## What others do -/

/-- A change between the time at which the page was loaded and a request. -/
inductive Change where
  | register (row : Enrollment)
  | expire (id : ℕ) (now : DateTime)

def Change.apply (state : State) : Change → State
  | .register row => { state with registrations := state.registrations ++ [row] }
  | .expire id now => { state with registrations := updateEndDate [id] state (some now) }

/-- A registration with its time of validity. -/
def Enrollment.interval (row : Enrollment) : ℕ × ExpirableModel := (row.id, row.toExpirableModel)

/-- The listed registrations have the times of validity that they had before. -/
def Restored (selected : List Char) (before after : State) : Prop :=
  ∀ ids, selectedIds (strip selected) = .ok ids →
    (regList ids after).map Enrollment.interval = (regList ids before).map Enrollment.interval

section Undo

variable {site : Site} {email : ℕ → String} {program : ℕ} {ids : List ℤ} {state after : State}
  {selected : List Char} {now later : DateTime}

theorem Updated.regList_eq {endDate : Option DateTime} (updated : Updated ids state after endDate) :
    regList ids after = (regList ids state).map fun row => { row with endDate := endDate } := by
  rw [regList, updated, updateEndDate, List.filter_map, regList]
  have sameIds : ((fun row : Enrollment => decide ((row.id : ℤ) ∈ ids)) ∘ fun row : Enrollment =>
      if (row.id : ℤ) ∈ ids then { row with endDate := endDate } else row) =
      fun row => decide ((row.id : ℤ) ∈ ids) := by
    funext row
    rw [Function.comp]
    split <;> rfl
  rw [sameIds]
  refine List.map_congr_left fun row isListed => ?_
  rw [if_pos (of_decide_eq_true (List.mem_filter.mp isListed).2)]

theorem strip_ne_nil_of_selectedIds (listing : selectedIds (strip selected) = .ok ids) :
    strip selected ≠ [] := by
  intro none
  rw [none] at listing
  cases listing

/-- After a request and its undo the listed registrations are as they were exactly if none of them
had an end when the request was sent. -/
theorem restored_iff (site : Site) (email : ℕ → String) (program : ℕ) (loaded : State)
    (changes : List Change) (selected : List Char) (now later : DateTime) :
    Restored selected (changes.foldl Change.apply loaded)
        (unenrollStudents site email program selected true later
          (unenrollStudents site email program selected false now
            (changes.foldl Change.apply loaded)).2).2 ↔
      ∀ ids, selectedIds (strip selected) = .ok ids →
        ∀ row ∈ (changes.foldl Change.apply loaded).registrations, (row.id : ℤ) ∈ ids →
          row.endDate = none := by
  refine forall_congr' fun ids => forall_congr' fun listing => ?_
  have nonempty := strip_ne_nil_of_selectedIds listing
  rw [unenrollStudents_of nonempty listing, unenrollStudents_of nonempty listing, if_pos rfl,
    if_neg Bool.false_ne_true, updated_undo.regList_eq, List.map_map, List.map_inj_left]
  simp only [mem_regList, Listed, and_imp]
  refine forall_congr' fun row => forall_congr' fun _ => forall_congr' fun _ => ?_
  rcases row with ⟨⟨⟨start, finish⟩, _⟩, _⟩
  simp [Enrollment.interval, eq_comm]

end Undo

namespace Sample

/-- One program of sections that have a time each. -/
def offer : Offer where
  toSite := { oneProgram with meetingTimes := fun _ => [⟨1, 100⟩] }
  status _ := 10
  classStatus _ := 10
  isLunch _ := false
  attended _ := false

def loaded : State := student [inSection 1 0]

/-- A registration is offered, the student leaves the section, and then the registration is ended
and the end taken away: it is valid again. -/
theorem not_restored :
    (get? (offer.unenrollStatus 0 loaded.registrations 0).enrollments 1).isSome ∧
      ¬Restored ['1'] ([Change.expire 1 5].foldl Change.apply loaded)
        (unenrollStudents offer.toSite (fun _ => "student@example.org") 0 ['1'] true 11
          (unenrollStudents offer.toSite (fun _ => "student@example.org") 0 ['1'] false 10
            ([Change.expire 1 5].foldl Change.apply loaded)).2).2 := by
  constructor
  · exact Offer.isSome_unenrollStatus.mpr ⟨inSection 1 0, by decide, rfl, by decide⟩
  · intro restored
    exact absurd (restored [1] (by decide)) (by decide)

end Sample

end EspWebsite.Registration.Unenroll
