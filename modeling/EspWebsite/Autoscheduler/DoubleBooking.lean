import EspWebsite.Autoscheduler.Conversion

/-!
# Rooms that are assigned twice

What `convert_classroom_resources` makes of the assignments of a room at an event.
-/

namespace EspWebsite.Autoscheduler.DbInterface.Rows

open Calendar Python Resources

section Assignments

variable (rows : Rows) (filters : Filters)

def targetsAt (name : List Char) (event : ℕ) : List (Option ℕ) :=
  ((rows.allAssignments rows.getClassrooms).filter fun row => row.1 = (name, event)).map Prod.snd

/-- A target is a section that is loaded. -/
def IsKnown (target : Option ℕ) : Prop := ∃ sec ∈ rows.sections filters, target = some sec.id

def IsScheduled (target : Option ℕ) : Prop :=
  ∃ sec ∈ rows.sections filters, target = some sec.id ∧
    rows.satisfiesConstraints filters sec = .ok true

/-- A room has two assignments at an event, one of them to a section that is loaded. -/
def DoubleBooked : Prop :=
  ∃ classroom ∈ rows.getClassrooms,
    2 ≤ (rows.targetsAt classroom.name classroom.event.id).length ∧
      ∃ target ∈ rows.targetsAt classroom.name classroom.event.id, rows.IsKnown filters target

/-- The error for a room with two assignments, one of them to a section that is loaded. -/
def doubleBooking (name : List Char) (target : ℕ) : PyError :=
  let room := String.ofList name
  let number := toString target
  schedulingError s!"Room {room} is double-booked and has known section num {number}"

/-- The conversion raises when a section that is loaded shares a room, else it marks a room as
available exactly where every assignment is to a section that is scheduled, and it looks at every
assignment. -/
structure NoticesAssignments (timeslots : List AS_Timeslot) : Prop where
  raises : rows.DoubleBooked filters → ∃ classroom ∈ rows.getClassrooms, ∃ target,
    rows.convertClassroomResources filters timeslots =
      .error (doubleBooking classroom.name target)
  marks : ¬rows.DoubleBooked filters → ∀ rooms,
    rows.convertClassroomResources filters timeslots = .ok rooms → ∀ name slot,
      (∃ room ∈ rooms, room.name = String.ofList name ∧ slot ∈ room.timeslots) ↔
        ∃ classroom ∈ rows.getClassrooms, classroom.name = name ∧
          timeslotDict timeslots (timesOf classroom.event) = some slot ∧
          ∀ target ∈ rows.targetsAt name classroom.event.id, rows.IsScheduled filters target
  keepsAll : ∀ name event,
    assignmentsDict (rows.allAssignments rows.getClassrooms) (name, event) =
      rows.targetsAt name event

end Assignments

variable {rows : Rows} {filters : Filters} {timeslots : List AS_Timeslot} {name : List Char}
  {event : ℕ} {target : Option ℕ} {classroom : Resource}

theorem assignmentsDict_getLast? :
    assignmentsDict (rows.allAssignments rows.getClassrooms) (name, event) =
      (rows.targetsAt name event).getLast?.toList := by
  rw [assignmentsDict_eq, targetsAt, List.getLast?_map, List.getLast?_eq_head?_reverse,
    ← List.filter_reverse, List.head?_filter]

theorem keepsAll_iff : assignmentsDict (rows.allAssignments rows.getClassrooms) (name, event) =
    rows.targetsAt name event ↔ (rows.targetsAt name event).length ≤ 1 := by
  rw [assignmentsDict_getLast?]
  match rows.targetsAt name event with
  | [] => exact iff_of_true rfl (Nat.zero_le 1)
  | [target] => exact iff_of_true rfl le_rfl
  | first :: second :: rest =>
      refine iff_of_false (fun same => ?_) (by simp)
      have length := congrArg List.length same
      rw [List.length_cons, List.length_cons] at length
      have short : (first :: second :: rest).getLast?.toList.length ≤ 1 :=
        Option.length_toList_le
      omega

theorem IsScheduled.isKnown (scheduled : rows.IsScheduled filters target) :
    rows.IsKnown filters target := by
  rcases scheduled with ⟨sec, isSection, same, _⟩
  exact ⟨sec, isSection, same⟩

theorem knownSection_of_isKnown (known : rows.IsKnown filters target) :
    ∃ sec ∈ rows.sections filters, target = some sec.id ∧
      target.bind (rows.knownSection filters) = some sec := by
  rcases known with ⟨sec, isSection, rfl⟩
  exact ⟨sec, isSection, rfl, knownSection_eq_some.mpr ⟨isSection, rfl⟩⟩

/-- One assignment leaves the room available if its section is scheduled. -/
theorem unavailable_singleton :
    rows.unavailable filters classroom [target] = .ok false ↔ rows.IsScheduled filters target := by
  rw [unavailable]
  cases isKnown : target.bind (rows.knownSection filters) with
  | none =>
      refine iff_of_false (by simp) fun scheduled => ?_
      rcases knownSection_of_isKnown scheduled.isKnown with ⟨sec, _, _, found⟩
      rw [isKnown] at found
      cases found
  | some sec =>
      rcases Option.bind_eq_some_iff.mp isKnown with ⟨id, rfl, found⟩
      rcases knownSection_eq_some.mp found with ⟨isSection, rfl⟩
      rw [map_eq_ok]
      constructor
      · rintro ⟨satisfied, checked, holds⟩
        rw [Bool.not_eq_false'] at holds
        rw [holds] at checked
        exact ⟨sec, isSection, rfl, checked⟩
      · rintro ⟨other, isOther, same, checked⟩
        rw [mem_sections_ids isOther isSection (Option.some.inj same).symm] at checked
        exact ⟨true, checked, rfl⟩

theorem unavailable_iff (alone : 2 ≤ (rows.targetsAt name event).length →
      ∀ target ∈ rows.targetsAt name event, ¬rows.IsKnown filters target) :
    rows.unavailable filters classroom (assignmentsDict (rows.allAssignments rows.getClassrooms)
        (name, event)) = .ok false ↔
      ∀ target ∈ rows.targetsAt name event, rows.IsScheduled filters target := by
  rw [assignmentsDict_getLast?]
  match isTargets : rows.targetsAt name event with
  | [] => exact iff_of_true rfl (List.forall_mem_nil _)
  | [target] =>
      rw [List.getLast?_singleton, Option.toList_some, unavailable_singleton]
      exact List.forall_mem_singleton.symm
  | first :: second :: rest =>
      rw [isTargets] at alone
      have noneKnown := alone (by simp)
      rw [List.getLast?_cons_cons, List.getLast?_eq_some_getLast (List.cons_ne_nil _ _),
        Option.toList_some, unavailable_singleton]
      refine iff_of_false (fun scheduled => ?_) fun all => ?_
      · exact noneKnown _ (List.mem_cons_of_mem _ (List.getLast_mem _)) scheduled.isKnown
      · exact noneKnown first List.mem_cons_self (all first List.mem_cons_self).isKnown

theorem mem_timeslots_iff {rooms : List AS_Classroom}
    (returns : rows.convertClassroomResources filters timeslots = .ok rooms)
    (name : List Char) (slot : AS_Timeslot) :
    (∃ room ∈ rooms, room.name = String.ofList name ∧ slot ∈ room.timeslots) ↔
      ∃ classroom ∈ rows.getClassrooms, classroom.name = name ∧
        rows.unavailable filters classroom (assignmentsDict
          (rows.allAssignments rows.getClassrooms) (classroom.name, classroom.event.id)) =
            .ok false ∧
        timeslotDict timeslots (timesOf classroom.event) = some slot := by
  rcases bind_eq_ok.mp returns with ⟨infos, loop, converted⟩
  have each := mapM_eq_ok.mp converted
  have has := (classroomInfos_eq_ok loop).2.2 name slot
  have none : ¬HasTimeslot [] name slot := by
    rintro ⟨info, isInfo, _⟩
    cases isInfo
  rw [or_iff_right none] at has
  rw [← has]
  constructor
  · rintro ⟨room, isRoom, named, isSlot⟩
    rcases exists_of_forall₂ each isRoom with ⟨info, isInfo, isAsRoom⟩
    rcases asClassroom_eq_ok isAsRoom with ⟨infoName, slots⟩
    exact ⟨info, isInfo, String.ofList_injective (infoName.symm.trans named), (slots slot).mp isSlot⟩
  · rintro ⟨info, isInfo, named, isSlot⟩
    rcases exists_of_forall₂ each.flip isInfo with ⟨room, isRoom, isAsRoom⟩
    rcases asClassroom_eq_ok isAsRoom with ⟨infoName, slots⟩
    exact ⟨room, isRoom, by rw [infoName, named], (slots slot).mpr isSlot⟩

theorem marks_of_not_doubleBooked (alone : ¬rows.DoubleBooked filters)
    {rooms : List AS_Classroom}
    (returns : rows.convertClassroomResources filters timeslots = .ok rooms)
    (name : List Char) (slot : AS_Timeslot) :
    (∃ room ∈ rooms, room.name = String.ofList name ∧ slot ∈ room.timeslots) ↔
      ∃ classroom ∈ rows.getClassrooms, classroom.name = name ∧
        timeslotDict timeslots (timesOf classroom.event) = some slot ∧
        ∀ target ∈ rows.targetsAt name classroom.event.id, rows.IsScheduled filters target := by
  rw [mem_timeslots_iff returns]
  refine exists_congr fun classroom => and_congr_right fun isClassroom => ?_
  have available := @unavailable_iff rows filters classroom.name classroom.event.id classroom
    fun double target isTarget known =>
      alone ⟨classroom, isClassroom, double, target, isTarget, known⟩
  rw [available]
  constructor
  · rintro ⟨rfl, scheduled, isSlot⟩
    exact ⟨rfl, isSlot, scheduled⟩
  · rintro ⟨rfl, isSlot, scheduled⟩
    exact ⟨rfl, scheduled, isSlot⟩

theorem sectionSatisfiesConstraints_eq_error {duration : Option ℚ} {rooms : List Resource}
    {times : List Event} {raised : PyError}
    (raises : sectionSatisfiesConstraints duration rooms times = .error raised) :
    raised = .typeError := by
  rw [sectionSatisfiesConstraints] at raises
  split at raises
  next => cases raises
  next =>
    split at raises
    next => cases raises
    next =>
      rw [satisfiesDuration.eq_def] at raises
      split at raises
      next => cases raises
      next =>
        split at raises
        next => exact (Except.error.inj raises).symm
        next => cases raises

theorem unavailable_eq_error {raised : PyError}
    (raises : rows.unavailable filters classroom (assignmentsDict
      (rows.allAssignments rows.getClassrooms) (name, event)) = .error raised) :
    raised = .typeError := by
  rw [assignmentsDict_getLast?] at raises
  generalize (rows.targetsAt name event).getLast? = last at raises
  cases last with
  | none => cases raises
  | some target =>
      rw [Option.toList_some, unavailable] at raises
      split at raises
      next => cases raises
      next sec _ =>
        cases checked : rows.satisfiesConstraints filters sec with
        | ok satisfied =>
            rw [checked] at raises
            cases raises
        | error other =>
            rw [checked] at raises
            cases raises
            exact sectionSatisfiesConstraints_eq_error checked

theorem classroomInfos_eq_error {classrooms : List Resource} {infos : List ClassroomInfo}
    {raised : PyError}
    (raises : rows.classroomInfos filters timeslots (assignmentsDict
      (rows.allAssignments rows.getClassrooms)) classrooms infos = .error raised) :
    raised = .typeError ∨ raised = .keyError := by
  induction classrooms generalizing infos with
  | nil => cases raises
  | cons classroom rest ih =>
      rw [classroomInfos] at raises
      rcases bind_eq_error.mp raises with early | ⟨isUnavailable, _, late⟩
      · exact Or.inl (unavailable_eq_error early)
      · split at late
        next => exact ih late
        next =>
          split at late
          next => exact Or.inr (Except.error.inj late).symm
          next => exact ih late

theorem asClassroom_ne_doubleBooking {info : ClassroomInfo} {name : List Char} {target : ℕ} :
    asClassroom info ≠ .error (doubleBooking name target) := by
  rw [asClassroom]
  split
  next => exact fun same => by cases same
  next =>
    intro same
    have texts := (PyError.raised.inj (Except.error.inj same)).2
    have ends := congrArg (fun text => text.toList.getLast?) texts
    have isLast : (toString " has duplicate resources").toList.getLast? = some 's' := rfl
    have digits : (toString (toString target)).toList = Nat.toDigits 10 target := by
      rw [toString, instToStringString, Nat.toString_eq_ofList_toDigits, String.toList_ofList]
    simp only [String.toList_append, List.getLast?_append, isLast, Option.some_or, digits,
      List.getLast?_eq_some_getLast (Nat.toDigits_ne_nil : Nat.toDigits 10 target ≠ []),
      Option.some.injEq] at ends
    have isDigit : 's' ∈ Nat.toDigits 10 target := ends ▸ List.getLast_mem _
    exact absurd (Nat.isDigit_of_mem_toDigits (by decide) (by decide) isDigit) (by decide)

theorem exists_of_mapM_eq_error {γ δ : Type} {values : List γ} {f : γ → Raises δ}
    {raised : PyError} (raises : values.mapM f = .error raised) :
    ∃ value ∈ values, f value = .error raised := by
  induction values with
  | nil => cases raises
  | cons value rest ih =>
      rw [List.mapM_cons] at raises
      rcases bind_eq_error.mp raises with early | ⟨result, _, late⟩
      · exact ⟨value, List.mem_cons_self, early⟩
      · rcases bind_eq_error.mp late with early | ⟨_, _, impossible⟩
        · rcases ih early with ⟨value, isValue, found⟩
          exact ⟨value, List.mem_cons_of_mem _ isValue, found⟩
        · cases impossible

theorem convertClassroomResources_ne_doubleBooking (name : List Char) (target : ℕ) :
    rows.convertClassroomResources filters timeslots ≠ .error (doubleBooking name target) := by
  intro raises
  rcases bind_eq_error.mp raises with early | ⟨infos, _, late⟩
  · rcases classroomInfos_eq_error early with same | same <;> cases same
  · rcases exists_of_mapM_eq_error late with ⟨info, _, found⟩
    exact asClassroom_ne_doubleBooking found

/-- The conversion notices all assignments exactly if no room and event has two of them. -/
theorem noticesAssignments_iff (rows : Rows) (filters : Filters) (timeslots : List AS_Timeslot) :
    rows.NoticesAssignments filters timeslots ↔
      ∀ name event, (rows.targetsAt name event).length ≤ 1 := by
  constructor
  · intro notices name event
    exact keepsAll_iff.mp (notices.keepsAll name event)
  · intro single
    have alone : ¬rows.DoubleBooked filters := by
      rintro ⟨classroom, _, double, _⟩
      exact absurd (double.trans (single _ _)) (by decide)
    exact {
      raises := fun double => absurd double alone
      marks := fun _ rooms returns => marks_of_not_doubleBooked alone returns
      keepsAll := fun name event => keepsAll_iff.mpr (single name event) }

/-! ## One room with two sections -/

/-- The room is assigned to a section that is not loaded and then to one that is. -/
def sharedRows : Rows :=
  { morningRows false with resourceAssignments := [⟨6, some 9, 0⟩, ⟨6, some 5, 0⟩] }

/-- The room is converted although another section is in it. -/
theorem not_noticesAssignments_shared :
    ∃ timeslots, sharedRows.timeslots = .ok timeslots ∧
      ¬sharedRows.NoticesAssignments loadAll timeslots := by
  have isOk : (sharedRows.timeslots >>= fun timeslots =>
      sharedRows.convertClassroomResources loadAll timeslots).isOk = true := by
    decide +kernel
  rcases exists_of_isOk isOk with ⟨rooms, returns⟩
  rcases bind_eq_ok.mp returns with ⟨timeslots, loaded, converted⟩
  refine ⟨timeslots, loaded, fun notices => ?_⟩
  rcases notices.raises ⟨⟨6, ['r'], true, none, hourAt 1 9 (by decide)⟩, by decide, by decide,
    some 5, by decide, morningSection,
    by simp [sections, loadAll, sharedRows, morningRows, morningSection], rfl⟩ with ⟨_, _, _, raises⟩
  rw [converted] at raises
  cases raises

end EspWebsite.Autoscheduler.DbInterface.Rows
