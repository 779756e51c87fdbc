import EspWebsite.ArgCache.Functions
import EspWebsite.Library.RowsOverTime

/-!
# When cached answers are right

Each write voids some answers.  What it must not do to the others is told here in terms of the rows
that are written.
-/

namespace EspWebsite.ArgCache

open Accounting CachedReads Tables Python

namespace Database

variable {db : Database} {user : ℕ} {program : Program}

theorem hasFinancialAid_eq : db.hasFinancialAid user program =
    (match (db.amountFinaid user program).1 with
      | .ok amount => some (decide (0 < amount))
      | .error _ => none,
    { db with accounting := (db.amountFinaid user program).2 }) := by
  rw [hasFinancialAid]
  cases db.amountFinaid user program with
  | mk result accounting =>
      cases result with
      | error raised => rfl
      | ok amount => rfl

theorem hasFinancialAid_again {holds : Bool}
    (computed : (db.hasFinancialAid user program).1 = some holds) :
    ((db.hasFinancialAid user program).2.hasFinancialAid user program).1 = some holds := by
  rw [hasFinancialAid_eq] at computed ⊢
  rw [hasFinancialAid_eq]
  dsimp only at computed ⊢
  cases run : db.amountFinaid user program with
  | mk result accounting =>
      rw [run] at computed
      cases result with
      | error raised => cases computed
      | ok amount =>
          have same : (amountFinaid { db with accounting := accounting } user program).1 =
              .ok amount :=
            IndividualAccountingController.amountFinaid_again run
          rw [same]
          exact computed

end Database

def functions : Functions Database Key Answer Write where
  compute := compute
  write := Database.after
  voids := voids
  Alive := Alive
  again := by
    intro key db value computed
    cases key with
    | isAvailable resource timeslot => exact computed
    | sufficientLength sec => exact computed
    | currentlyCheckedInStudents program => exact computed
    | hasFinancialAid user program =>
        rcases Option.map_eq_some_iff.mp computed with ⟨holds, isAnswer, same⟩
        rw [← same]
        exact congrArg (Option.map Answer.truth) (Database.hasFinancialAid_again isAnswer)

abbrev State := CachedReads.State Database Key Answer

abbrev Step := CachedReads.Step Key Write

/-- Two amounts are both positive or both not, or there is none. -/
def SameSign : Raises ℤ → Raises ℤ → Prop
  | .ok amount, .ok other => 0 < amount ↔ 0 < other
  | .error _, .error _ => True
  | _, _ => False

section Conditions

variable (state : State)

/-- The tested rooms of the answers that are kept are taken exactly if they were. -/
def KeepsRooms (isVoid : ℕ → Prop) (isTaken : ℕ → Prop) : Prop :=
  ∀ resource timeslot tested, state.stored (.isAvailable resource timeslot) ≠ none →
    ¬ isVoid resource → state.db.testResource resource timeslot = some tested →
    (state.db.isTaken tested = true ↔ isTaken tested)

/-- The sections of the answers that are kept are too short exactly if they were. -/
def KeepsLengths (after : Database) (change : ClassSection → ClassSection) : Prop :=
  ∀ sec ∈ state.db.sections.rows, state.stored (.sufficientLength sec.id) ≠ none →
    state.db.isShort sec = after.isShort (change sec)

/-- The students of the lists that are kept are those who attended and were not checked out last. -/
def KeepsStudents (after : Database) (isVoid : ℕ → Prop) : Prop :=
  ∀ program, state.stored (.currentlyCheckedInStudents program) ≠ none → ¬ isVoid program →
    ∀ user,
      (state.db.hasAttended program user = true ∧ state.db.isCheckedOut program user = false) ↔
        (after.hasAttended program user = true ∧ after.isCheckedOut program user = false)

/-- The amounts of aid of the answers that are kept have the same sign. -/
def KeepsAid (after : Database) (isVoid : ℕ → Prop) : Prop :=
  ∀ user program, state.stored (.hasFinancialAid user program) ≠ none → ¬ isVoid user →
    SameSign (state.db.amountFinaid user program).1 (after.amountFinaid user program).1

/-- What a step must not do to answers that it does not void. -/
def SparesOthers : Step → Prop
  | .read (.hasFinancialAid user program) =>
      state.stored (.hasFinancialAid user program) = none →
        KeepsAid state (state.db.hasFinancialAid user program).2 fun _ => False
  | .read _ => True
  | .write (.saveAssignment row) =>
      -- the first assignment of another resource, or a resource that loses its last one
      KeepsRooms state (· = row.resource) fun tested => tested = row.resource ∨
        ∃ other ∈ state.db.assignments.rows, other.id ≠ row.id ∧ other.resource = tested
  | .write (.deleteAssignment id) =>
      KeepsRooms state
        (fun resource => ∃ row ∈ state.db.assignments.rows, row.id = id ∧ row.resource = resource)
        fun tested =>
          ∃ other ∈ state.db.assignments.rows, other.id ≠ id ∧ other.resource = tested
  | .write (.saveEvent row) => KeepsLengths state (state.db.after (.saveEvent row)) id
  | .write (.deleteEvent event) =>
      KeepsLengths state (state.db.after (.deleteEvent event)) fun sec =>
        { sec with meetingTimes := sec.meetingTimes.filter (· ≠ event) }
  | .write (.createSection _) => True
  | .write (.saveSection sec duration) =>
      KeepsLengths state state.db fun row =>
        { row with duration := if row.id = sec then duration else row.duration }
  | .write (.deleteSection sec) =>
      KeepsRooms state
        (fun resource => ∃ row ∈ state.db.assignments.rows,
          row.target = some sec ∧ row.resource = resource)
        fun tested => ∃ other ∈ state.db.assignments.rows,
          other.target ≠ some sec ∧ other.resource = tested
  | .write (.setMeetingTimes _ _) => True
  | .write (.saveRequest row) =>
      KeepsAid state (state.db.after (.saveRequest row)) (· = row.user)
  | .write (.deleteRequest id) =>
      KeepsAid state (state.db.after (.deleteRequest id)) fun user =>
        ∃ row ∈ state.db.requests.rows, row.id = id ∧ row.user = user
  | .write (.saveGrant row) => KeepsAid state (state.db.after (.saveGrant row)) fun _ => False
  | .write (.deleteGrant request) =>
      KeepsAid state (state.db.after (.deleteGrant request)) fun _ => False
  | .write (.saveTransfer row) =>
      KeepsAid state (state.db.after (.saveTransfer row)) fun _ => False
  | .write (.deleteTransfer id) =>
      KeepsAid state (state.db.after (.deleteTransfer id)) fun _ => False
  | .write (.saveRecord row) =>
      KeepsStudents state (state.db.after (.saveRecord row)) fun program =>
        row.event = some "attended" ∧ row.program = some program
  | .write (.deleteRecord id) =>
      KeepsStudents state (state.db.after (.deleteRecord id)) fun program =>
        ∃ row ∈ state.db.records.rows, row.id = id ∧
          row.event = some "attended" ∧ row.program = some program
  | .write (.tick time) =>
      KeepsStudents state (state.db.after (.tick time)) fun _ => False

end Conditions

/-! ## Answers before and after -/

section Answers

variable {db after : Database} {resource timeslot sec program user : ℕ}

theorem compute_isAvailable_iff (resources : after.resources = db.resources) :
    (compute (.isAvailable resource timeslot) after).1 =
        (compute (.isAvailable resource timeslot) db).1 ↔
      ∀ tested, db.testResource resource timeslot = some tested →
        (db.isTaken tested = true ↔ after.isTaken tested = true) := by
  have same : after.testResource resource timeslot = db.testResource resource timeslot := by
    rw [Database.testResource, Database.testResource, resources]
  simp only [compute, Database.isAvailable, same]
  cases db.testResource resource timeslot with
  | none => simp
  | some tested =>
      simp only [Option.map_some, Option.some.injEq, Answer.truth.injEq, forall_eq']
      cases db.isTaken tested <;> cases after.isTaken tested <;> simp

theorem compute_isAvailable_congr (resources : after.resources = db.resources)
    (assignments : after.assignments = db.assignments) :
    (compute (.isAvailable resource timeslot) after).1 =
      (compute (.isAvailable resource timeslot) db).1 := by
  refine (compute_isAvailable_iff resources).mpr fun tested _ => ?_
  rw [Database.isTaken, Database.isTaken, assignments]

theorem compute_sufficientLength_iff {row changed : ClassSection}
    (found : db.sections.get? sec = some row)
      (foundAfter : after.sections.get? sec = some changed) :
    (compute (.sufficientLength sec) after).1 = (compute (.sufficientLength sec) db).1 ↔
      db.isShort row = after.isShort changed := by
  simp only [compute, Database.sufficientLength, found, foundAfter, Option.map_some,
    Option.some.injEq, Answer.truth.injEq, Bool.not_inj_iff]
  exact eq_comm

theorem compute_sufficientLength_congr (sections : after.sections = db.sections)
    (events : after.events = db.events) :
    (compute (.sufficientLength sec) after).1 = (compute (.sufficientLength sec) db).1 := by
  have isShort (row : ClassSection) : after.isShort row = db.isShort row := by
    rw [Database.isShort, Database.isShort, Database.eventsOf, Database.eventsOf, events]
  simp only [compute, Database.sufficientLength, isShort, sections]

theorem mem_currentlyCheckedInStudents : user ∈ db.currentlyCheckedInStudents program ↔
    db.hasAttended program user = true ∧ db.isCheckedOut program user = false := by
  rw [Database.currentlyCheckedInStudents, Finset.mem_filter, List.mem_toFinset,
    List.mem_filterMap]
  refine and_iff_right_of_imp fun both => ?_
  have attended := both.1
  rw [Database.hasAttended, List.any_eq_true] at attended
  rcases attended with ⟨row, isRow, holds⟩
  simp only [Bool.and_eq_true, decide_eq_true_eq] at holds
  exact ⟨row, isRow, holds.1.2⟩

theorem compute_students_iff :
    (compute (.currentlyCheckedInStudents program) after).1 =
        (compute (.currentlyCheckedInStudents program) db).1 ↔
      ∀ user, (db.hasAttended program user = true ∧ db.isCheckedOut program user = false) ↔
        (after.hasAttended program user = true ∧ after.isCheckedOut program user = false) := by
  simp only [compute, Option.some.injEq, Answer.students.injEq, Finset.ext_iff,
    mem_currentlyCheckedInStudents]
  exact forall_congr' fun user => Iff.comm

theorem compute_students_congr (records : after.records = db.records) (now : after.now = db.now) :
    (compute (.currentlyCheckedInStudents program) after).1 =
      (compute (.currentlyCheckedInStudents program) db).1 := by
  refine compute_students_iff.mpr fun user => ?_
  rw [Database.hasAttended, Database.hasAttended, Database.isCheckedOut, Database.isCheckedOut,
    Database.lastRecord, Database.lastRecord, records, now]

theorem compute_aid {aided : Program} :
    (compute (.hasFinancialAid user aided) db).1 =
      match (db.amountFinaid user aided).1 with
      | .ok amount => some (.truth (decide (0 < amount)))
      | .error _ => none := by
  rw [compute, Database.hasFinancialAid_eq]
  cases (db.amountFinaid user aided).1 with
  | error raised => rfl
  | ok amount => rfl

theorem compute_aid_iff {aided : Program} :
    (compute (.hasFinancialAid user aided) after).1 = (compute (.hasFinancialAid user aided) db).1 ↔
      SameSign (db.amountFinaid user aided).1 (after.amountFinaid user aided).1 := by
  rw [compute_aid, compute_aid]
  cases (db.amountFinaid user aided).1 with
  | error raised =>
      cases (after.amountFinaid user aided).1 with
      | error other => simp [SameSign]
      | ok other => simp [SameSign]
  | ok amount =>
      cases (after.amountFinaid user aided).1 with
      | error other => simp [SameSign]
      | ok other => simp [SameSign, eq_comm]

theorem compute_aid_congr {aided : Program} (accounting : after.accounting = db.accounting) :
    (compute (.hasFinancialAid user aided) after).1 =
      (compute (.hasFinancialAid user aided) db).1 := by
  rw [compute_aid, compute_aid, Database.amountFinaid, Database.amountFinaid, accounting]

end Answers

/-! ## Writes of one kind of rows -/

section Kinds

variable {state : State} {write : Write}

theorem functions_spares_write : functions.Spares state (.write write) ↔
    ∀ key, state.stored key ≠ none → voids state.db write key = false →
      Alive (state.db.after write) key →
      (compute key (state.db.after write)).1 = (compute key state.db).1 :=
  Iff.rfl

theorem alive_of_testResource {db : Database} {resource timeslot tested : ℕ}
    (tests : db.testResource resource timeslot = some tested) :
    Alive db (.isAvailable resource timeslot) := by
  rw [Database.testResource] at tests
  cases found : db.resources.find? fun row => row.id = resource with
  | none =>
      rw [found] at tests
      cases tests
  | some row =>
      have isResource := List.find?_some found
      exact ⟨row, List.mem_of_find?_eq_some found, of_decide_eq_true isResource⟩

theorem spares_rooms_iff {isVoid isTaken : ℕ → Prop}
    (voided : ∀ resource timeslot,
      voids state.db write (.isAvailable resource timeslot) = false ↔ ¬ isVoid resource)
    (taken : ∀ resource, (state.db.after write).isTaken resource = true ↔ isTaken resource)
    (resources : (state.db.after write).resources = state.db.resources)
    (lengths : ∀ sec, Alive (state.db.after write) (.sufficientLength sec) →
      (compute (.sufficientLength sec) (state.db.after write)).1 =
        (compute (.sufficientLength sec) state.db).1)
    (records : (state.db.after write).records = state.db.records)
    (now : (state.db.after write).now = state.db.now)
    (accounting : (state.db.after write).accounting = state.db.accounting) :
    functions.Spares state (.write write) ↔ KeepsRooms state isVoid isTaken := by
  rw [functions_spares_write]
  constructor
  · intro spares resource timeslot tested isStored kept tests
    have alive : Alive (state.db.after write) (.isAvailable resource timeslot) := by
      have before := alive_of_testResource tests
      rw [Alive] at before ⊢
      rw [resources]
      exact before
    have same := spares _ isStored ((voided resource timeslot).mpr kept) alive
    rw [← taken]
    exact (compute_isAvailable_iff resources).mp same tested tests
  · intro keeps key isStored kept alive
    cases key with
    | isAvailable resource timeslot =>
        refine (compute_isAvailable_iff resources).mpr fun tested tests => ?_
        rw [taken]
        exact keeps resource timeslot tested isStored ((voided resource timeslot).mp kept) tests
    | sufficientLength sec => exact lengths sec alive
    | currentlyCheckedInStudents program => exact compute_students_congr records now
    | hasFinancialAid user program => exact compute_aid_congr accounting

theorem spares_lengths_iff {after : Database} {change : ClassSection → ClassSection}
    (voided : ∀ sec, voids state.db write (.sufficientLength sec) = false)
    (found : ∀ sec,
      (state.db.after write).sections.get? sec = (state.db.sections.get? sec).map change)
    (isShort : ∀ row, (state.db.after write).isShort row = after.isShort row)
    (rooms : ∀ resource timeslot,
      voids state.db write (.isAvailable resource timeslot) = false →
      (compute (.isAvailable resource timeslot) (state.db.after write)).1 =
        (compute (.isAvailable resource timeslot) state.db).1)
    (records : (state.db.after write).records = state.db.records)
    (now : (state.db.after write).now = state.db.now)
    (accounting : (state.db.after write).accounting = state.db.accounting) :
    functions.Spares state (.write write) ↔ KeepsLengths state after change := by
  rw [functions_spares_write]
  have changed {sec : ℕ} {row : ClassSection} (isRow : state.db.sections.get? sec = some row) :
      (state.db.after write).sections.get? sec = some (change row) := by
    rw [found, isRow, Option.map_some]
  constructor
  · intro spares row isRow isStored
    have isFound := Table.get?_key isRow
    have isChanged := Table.get?_eq_some.mp (changed isFound)
    have same := spares _ isStored (voided _) ⟨_, isChanged.1, isChanged.2⟩
    rw [← isShort]
    exact (compute_sufficientLength_iff isFound (changed isFound)).mp same
  · intro keeps key isStored kept alive
    cases key with
    | isAvailable resource timeslot => exact rooms resource timeslot kept
    | sufficientLength sec =>
        cases isFound : state.db.sections.get? sec with
        | none =>
            have isGone : (state.db.after write).sections.get? sec = none := by
              rw [found, isFound, Option.map_none]
            simp only [compute, Database.sufficientLength, isFound, isGone]
            rfl
        | some row =>
            refine (compute_sufficientLength_iff isFound (changed isFound)).mpr ?_
            have isRow := Table.get?_eq_some.mp isFound
            rw [isShort]
            have isKey : row.id = sec := isRow.2
            rw [← isKey] at isStored
            exact keeps row isRow.1 isStored
    | currentlyCheckedInStudents program => exact compute_students_congr records now
    | hasFinancialAid user program => exact compute_aid_congr accounting

theorem spares_students_iff {isVoid : ℕ → Prop}
    (voided : ∀ program,
      voids state.db write (.currentlyCheckedInStudents program) = false ↔ ¬ isVoid program)
    (resources : (state.db.after write).resources = state.db.resources)
    (assignments : (state.db.after write).assignments = state.db.assignments)
    (sections : (state.db.after write).sections = state.db.sections)
    (events : (state.db.after write).events = state.db.events)
    (accounting : (state.db.after write).accounting = state.db.accounting) :
    functions.Spares state (.write write) ↔ KeepsStudents state (state.db.after write) isVoid := by
  rw [functions_spares_write]
  constructor
  · intro spares program isStored kept
    exact compute_students_iff.mp (spares _ isStored ((voided program).mpr kept) trivial)
  · intro keeps key isStored kept _
    cases key with
    | isAvailable resource timeslot => exact compute_isAvailable_congr resources assignments
    | sufficientLength sec => exact compute_sufficientLength_congr sections events
    | currentlyCheckedInStudents program =>
        exact compute_students_iff.mpr (keeps program isStored ((voided program).mp kept))
    | hasFinancialAid user program => exact compute_aid_congr accounting

theorem spares_aid_iff {isVoid : ℕ → Prop}
    (voided : ∀ user program,
      voids state.db write (.hasFinancialAid user program) = false ↔ ¬ isVoid user)
    (resources : (state.db.after write).resources = state.db.resources)
    (assignments : (state.db.after write).assignments = state.db.assignments)
    (sections : (state.db.after write).sections = state.db.sections)
    (events : (state.db.after write).events = state.db.events)
    (records : (state.db.after write).records = state.db.records)
    (now : (state.db.after write).now = state.db.now) :
    functions.Spares state (.write write) ↔ KeepsAid state (state.db.after write) isVoid := by
  rw [functions_spares_write]
  constructor
  · intro spares user program isStored kept
    exact compute_aid_iff.mp (spares _ isStored ((voided user program).mpr kept) trivial)
  · intro keeps key isStored kept _
    cases key with
    | isAvailable resource timeslot => exact compute_isAvailable_congr resources assignments
    | sufficientLength sec => exact compute_sufficientLength_congr sections events
    | currentlyCheckedInStudents program => exact compute_students_congr records now
    | hasFinancialAid user program =>
        exact compute_aid_iff.mpr (keeps user program isStored ((voided user program).mp kept))

end Kinds

/-! ## Steps -/

/-- An answer is stored for a section only if there was one with this key. -/
def Sound (state : State) : Prop :=
  ∀ sec, state.stored (.sufficientLength sec) ≠ none → sec < state.db.sections.next

section Steps

variable {state : State} {id : ℕ}

theorem isTaken_saveAssignment {row : ResourceAssignment} {resource : ℕ} :
    (state.db.after (.saveAssignment row)).isTaken resource = true ↔
      resource = row.resource ∨
        ∃ other ∈ state.db.assignments.rows, other.id ≠ row.id ∧ other.resource = resource := by
  rw [Database.isTaken, List.any_eq_true]
  constructor
  · intro taken
    rcases taken with ⟨other, isRow, same⟩
    have isResource : other.resource = resource := of_decide_eq_true same
    rcases List.mem_append.mp isRow with isEarlier | isRow
    · have member := List.mem_filter.mp isEarlier
      have before : other.id < row.id := of_decide_eq_true member.2
      exact .inr ⟨other, member.1, before.ne, isResource⟩
    · rcases List.mem_cons.mp isRow with isSaved | isLater
      · rw [isSaved] at isResource
        exact .inl isResource.symm
      · have member := List.mem_filter.mp isLater
        have later : row.id < other.id := of_decide_eq_true member.2
        exact .inr ⟨other, member.1, later.ne', isResource⟩
  · intro taken
    cases taken with
    | inl same =>
        exact ⟨row, List.mem_append_right _ (List.mem_cons_self ..), decide_eq_true same.symm⟩
    | inr kept =>
        rcases kept with ⟨other, isRow, different, same⟩
        refine ⟨other, ?_, decide_eq_true same⟩
        rcases lt_or_gt_of_ne different with before | later
        · exact List.mem_append_left _ (List.mem_filter.mpr ⟨isRow, decide_eq_true before⟩)
        · refine List.mem_append_right _ (List.mem_cons_of_mem _ ?_)
          exact List.mem_filter.mpr ⟨isRow, decide_eq_true later⟩

theorem isTaken_delete {db : Database} {condition : ResourceAssignment → Bool} {resource : ℕ} :
    Database.isTaken { db with assignments := db.assignments.delete condition } resource = true ↔
      ∃ other ∈ db.assignments.rows, condition other = false ∧ other.resource = resource := by
  simp only [Database.isTaken, Table.rows_delete, List.any_eq_true, List.mem_filter,
    Bool.not_eq_true', decide_eq_true_eq, and_assoc]

theorem any_voidsAssignment {rows : List ResourceAssignment}
    {condition : ResourceAssignment → Bool} {resource timeslot : ℕ} :
    (rows.any fun row =>
      condition row && voidsAssignment row (.isAvailable resource timeslot)) = false ↔
      ¬ ∃ row ∈ rows, condition row = true ∧ row.resource = resource := by
  simp only [← Bool.not_eq_true, List.any_eq_true, Bool.and_eq_true, voidsAssignment,
    decide_eq_true_eq]

theorem spares_saveAssignment {row : ResourceAssignment} :
    functions.Spares state (.write (.saveAssignment row)) ↔
      SparesOthers state (.write (.saveAssignment row)) := by
  refine spares_rooms_iff ?_ (fun _ => isTaken_saveAssignment) rfl
    (fun _ _ => compute_sufficientLength_congr rfl rfl) rfl rfl rfl
  intro resource timeslot
  rw [voids, voidsAssignment, decide_eq_false_iff_not, eq_comm]

theorem spares_deleteAssignment : functions.Spares state (.write (.deleteAssignment id)) ↔
    SparesOthers state (.write (.deleteAssignment id)) := by
  refine spares_rooms_iff ?_ ?_ rfl (fun _ _ => compute_sufficientLength_congr rfl rfl) rfl rfl rfl
  · intro resource timeslot
    rw [voids, any_voidsAssignment]
    simp only [decide_eq_true_eq]
  · intro resource
    rw [Database.after, isTaken_delete]
    simp only [decide_eq_false_iff_not]

theorem spares_deleteSection : functions.Spares state (.write (.deleteSection id)) ↔
    SparesOthers state (.write (.deleteSection id)) := by
  refine spares_rooms_iff ?_ ?_ rfl ?_ rfl rfl rfl
  · intro resource timeslot
    rw [voids, any_voidsAssignment]
    simp only [decide_eq_true_eq]
  · intro resource
    have same : (state.db.after (.deleteSection id)).isTaken resource =
        Database.isTaken { state.db with
          assignments := state.db.assignments.delete fun row => row.target = some id } resource :=
      rfl
    rw [same, isTaken_delete]
    simp only [decide_eq_false_iff_not]
  · intro sec alive
    rcases alive with ⟨row, isRow, same⟩
    have isFound : (state.db.after (.deleteSection id)).sections.get? sec = some row :=
      Table.get?_eq_some.mpr ⟨isRow, same⟩
    have isOld : state.db.sections.get? sec = some row :=
      Table.get?_eq_some.mpr ⟨List.mem_of_mem_filter isRow, same⟩
    exact (compute_sufficientLength_iff isOld isFound).mpr rfl

theorem spares_saveEvent {row : Event} : functions.Spares state (.write (.saveEvent row)) ↔
    SparesOthers state (.write (.saveEvent row)) :=
  spares_lengths_iff (fun _ => rfl) (fun _ => Option.map_id'.symm) (fun _ => rfl)
    (fun _ _ _ => compute_isAvailable_congr rfl rfl) rfl rfl rfl

theorem spares_deleteEvent : functions.Spares state (.write (.deleteEvent id)) ↔
    SparesOthers state (.write (.deleteEvent id)) := by
  refine spares_lengths_iff ?_ ?_ (fun _ => rfl) ?_ rfl rfl rfl
  · intro sec
    simp [voids, voidsEvent, voidsAssignment]
  · intro sec
    simp only [Database.after, Table.get?_mapRows]
  · intro resource timeslot kept
    simp [voids, voidsEvent] at kept

theorem spares_saveSection {duration : Option ℚ} :
    functions.Spares state (.write (.saveSection id duration)) ↔
      SparesOthers state (.write (.saveSection id duration)) := by
  refine spares_lengths_iff (fun _ => rfl) ?_ (fun _ => rfl)
    (fun _ _ _ => compute_isAvailable_congr rfl rfl) rfl rfl rfl
  intro sec
  simp only [Database.after, Table.get?_mapRows]

theorem spares_saveRecord {row : Record} : functions.Spares state (.write (.saveRecord row)) ↔
    SparesOthers state (.write (.saveRecord row)) := by
  refine spares_students_iff ?_ rfl rfl rfl rfl rfl
  intro program
  simp only [voids, voidsRecord, ← Bool.not_eq_true, Bool.and_eq_true, decide_eq_true_eq]

theorem spares_deleteRecord : functions.Spares state (.write (.deleteRecord id)) ↔
    SparesOthers state (.write (.deleteRecord id)) := by
  refine spares_students_iff ?_ rfl rfl rfl rfl rfl
  intro program
  simp only [voids, voidsRecord, ← Bool.not_eq_true, List.any_eq_true, Bool.and_eq_true,
    decide_eq_true_eq]

theorem spares_tick {time : ℕ} : functions.Spares state (.write (.tick time)) ↔
    SparesOthers state (.write (.tick time)) :=
  spares_students_iff (fun _ => by simp [voids]) rfl rfl rfl rfl rfl

theorem spares_saveRequest {row : FinancialAidRequest} :
    functions.Spares state (.write (.saveRequest row)) ↔
      SparesOthers state (.write (.saveRequest row)) := by
  refine spares_aid_iff ?_ rfl rfl rfl rfl rfl rfl
  intro user program
  rw [voids, voidsRequest, decide_eq_false_iff_not, eq_comm]

theorem spares_deleteRequest : functions.Spares state (.write (.deleteRequest id)) ↔
    SparesOthers state (.write (.deleteRequest id)) := by
  refine spares_aid_iff ?_ rfl rfl rfl rfl rfl rfl
  intro user program
  simp only [voids, voidsRequest, ← Bool.not_eq_true, List.any_eq_true, Bool.and_eq_true,
    decide_eq_true_eq]

theorem spares_accounting {write : Write} {accounting : Accounting.Database}
    (after : state.db.after write = { state.db with accounting })
    (voided : ∀ key, voids state.db write key = false) :
    functions.Spares state (.write write) ↔
      KeepsAid state (state.db.after write) fun _ => False :=
  spares_aid_iff (fun _ _ => by simp [voided]) (by rw [after]) (by rw [after]) (by rw [after])
    (by rw [after]) (by rw [after]) (by rw [after])

theorem spares_deleteTransfer : functions.Spares state (.write (.deleteTransfer id)) ↔
    SparesOthers state (.write (.deleteTransfer id)) := by
  by_cases isPaidIn : (state.db.accounting.transfers.rows.any fun row =>
      row.paidIn = some id && row.id != id) = true
  · have after : state.db.after (.deleteTransfer id) =
        { state.db with accounting := state.db.accounting } := by
      rw [Database.after, if_pos isPaidIn]
    exact spares_accounting after fun _ => rfl
  · have after : state.db.after (.deleteTransfer id) =
        { state.db with
          accounting.transfers := state.db.accounting.transfers.delete fun row =>
            row.id = id } := by
      rw [Database.after, if_neg isPaidIn]
    exact spares_accounting after fun _ => rfl

theorem spares_setMeetingTimes {meetingTimes : List ℕ} :
    functions.Spares state (.write (.setMeetingTimes id meetingTimes)) := by
  intro key _ kept _
  cases key with
  | isAvailable resource timeslot => exact compute_isAvailable_congr rfl rfl
  | sufficientLength sec =>
      have different : id ≠ sec := of_decide_eq_false kept
      simp only [functions, compute, Database.sufficientLength, Database.after, Table.get?_mapRows]
      cases isFound : state.db.sections.get? sec with
      | none => rfl
      | some row =>
          have isKey : row.id = sec := Table.key_of_get? isFound
          have other : row.id ≠ id := fun same => different (same.symm.trans isKey)
          rw [Option.map_some, if_neg other]
          rfl
  | currentlyCheckedInStudents program => exact compute_students_congr rfl rfl
  | hasFinancialAid user program => exact compute_aid_congr rfl

theorem spares_createSection {duration : Option ℚ} (sound : Sound state) :
    functions.Spares state (.write (.createSection duration)) := by
  intro key isStored _ _
  cases key with
  | isAvailable resource timeslot => exact compute_isAvailable_congr rfl rfl
  | sufficientLength sec =>
      simp only [functions, compute, Database.sufficientLength, Database.after,
        Table.get?_create (sound sec isStored)]
      rfl
  | currentlyCheckedInStudents program => exact compute_students_congr rfl rfl
  | hasFinancialAid user program => exact compute_aid_congr rfl

theorem spares_read {read : Key} :
    functions.Spares state (.read read) ↔ SparesOthers state (.read read) := by
  cases read with
  | hasFinancialAid user program =>
      have after : (compute (.hasFinancialAid user program) state.db).2 =
          { state.db with accounting := (state.db.amountFinaid user program).2 } := by
        rw [compute, Database.hasFinancialAid_eq]
      refine imp_congr_right fun _ => ?_
      have sameDb : (functions.compute (.hasFinancialAid user program) state.db).2 =
          (state.db.hasFinancialAid user program).2 := rfl
      rw [sameDb, Database.hasFinancialAid_eq]
      constructor
      · intro spares other aided isStored _
        exact compute_aid_iff.mp (spares _ isStored trivial)
      · intro keeps key isStored _
        cases key with
        | isAvailable resource timeslot => exact compute_isAvailable_congr rfl rfl
        | sufficientLength sec => exact compute_sufficientLength_congr rfl rfl
        | currentlyCheckedInStudents program => exact compute_students_congr rfl rfl
        | hasFinancialAid other aided =>
            exact compute_aid_iff.mpr (keeps other aided isStored not_false)
  | isAvailable resource timeslot => exact iff_of_true (fun _ _ _ _ => rfl) trivial
  | sufficientLength sec => exact iff_of_true (fun _ _ _ _ => rfl) trivial
  | currentlyCheckedInStudents program => exact iff_of_true (fun _ _ _ _ => rfl) trivial

theorem spares_iff {step : Step} (sound : Sound state) :
    functions.Spares state step ↔ SparesOthers state step := by
  cases step with
  | read key => exact spares_read
  | write write =>
      cases write with
      | saveAssignment row => exact spares_saveAssignment
      | deleteAssignment id => exact spares_deleteAssignment
      | saveEvent row => exact spares_saveEvent
      | deleteEvent id => exact spares_deleteEvent
      | createSection duration => exact iff_of_true (spares_createSection sound) trivial
      | saveSection id duration => exact spares_saveSection
      | deleteSection id => exact spares_deleteSection
      | setMeetingTimes id meetingTimes => exact iff_of_true spares_setMeetingTimes trivial
      | saveRequest row => exact spares_saveRequest
      | deleteRequest id => exact spares_deleteRequest
      | saveGrant row => exact spares_accounting rfl fun _ => rfl
      | deleteGrant request => exact spares_accounting rfl fun _ => rfl
      | saveTransfer row => exact spares_accounting rfl fun _ => rfl
      | deleteTransfer id => exact spares_deleteTransfer
      | saveRecord row => exact spares_saveRecord
      | deleteRecord id => exact spares_deleteRecord
      | tick time => exact spares_tick

theorem resources_compute {db : Database} {key : Key} :
    (compute key db).2.resources = db.resources := by
  cases key with
  | hasFinancialAid user program => rw [compute, Database.hasFinancialAid_eq]
  | isAvailable resource timeslot => rfl
  | sufficientLength sec => rfl
  | currentlyCheckedInStudents program => rfl

theorem sections_compute {db : Database} {key : Key} :
    (compute key db).2.sections = db.sections := by
  cases key with
  | hasFinancialAid user program => rw [compute, Database.hasFinancialAid_eq]
  | isAvailable resource timeslot => rfl
  | sufficientLength sec => rfl
  | currentlyCheckedInStudents program => rfl

theorem next_le_after {db : Database} {write : Write} :
    db.sections.next ≤ (db.after write).sections.next := by
  cases write with
  | createSection duration => exact Nat.le_succ _
  | deleteTransfer id =>
      rw [Database.after]
      split <;> exact le_rfl
  | _ => exact le_rfl

theorem Sound.next {step : Step} (sound : Sound state) : Sound (functions.next state step) := by
  intro sec isStored
  cases step with
  | write write =>
      rw [Functions.next] at isStored
      dsimp only at isStored
      split at isStored
      next => exact absurd rfl isStored
      next => exact (sound sec isStored).trans_le next_le_after
  | read read =>
      cases isRead : state.stored read with
      | some value =>
          simp only [Functions.next, isRead] at isStored ⊢
          exact sound sec isStored
      | none =>
          simp only [Functions.next, isRead] at isStored ⊢
          have sameNext : (functions.compute read state.db).2.sections = state.db.sections :=
            sections_compute
          rw [sameNext]
          by_cases isKey : .sufficientLength sec = read
          · rw [← isKey, Function.update_self] at isStored
            cases found : state.db.sections.get? sec with
            | none =>
                simp only [functions, compute, Database.sufficientLength, found] at isStored
                exact absurd rfl isStored
            | some row => exact Table.lt_next found
          · rw [Function.update_of_ne isKey] at isStored
            exact sound sec isStored

theorem alive_of_after {write : Write} {key : Key} (sound : Sound state)
    (isStored : state.stored key ≠ none) (alive : Alive (state.db.after write) key) :
    Alive state.db key := by
  cases key with
  | currentlyCheckedInStudents program => trivial
  | hasFinancialAid user program => trivial
  | isAvailable resource timeslot =>
      have subset : ∀ row ∈ (state.db.after write).resources, row ∈ state.db.resources := by
        intro row isRow
        cases write with
        | deleteEvent id => exact List.mem_of_mem_filter isRow
        | deleteTransfer id =>
            rw [Database.after] at isRow
            split at isRow <;> exact isRow
        | _ => exact isRow
      rcases alive with ⟨row, isRow, same⟩
      exact ⟨row, subset row isRow, same⟩
  | sufficientLength sec =>
      have mapped {change : ClassSection → ClassSection}
          (alive : ∃ row ∈ state.db.sections.rows.map change, row.id = sec)
          (keyed : ∀ row, (change row).id = row.id) :
          ∃ row ∈ state.db.sections.rows, row.id = sec := by
        rcases alive with ⟨row, isRow, same⟩
        rcases List.mem_map.mp isRow with ⟨old, isOld, rfl⟩
        exact ⟨old, isOld, (keyed old).symm.trans same⟩
      cases write with
      | deleteEvent id => exact mapped alive fun _ => rfl
      | saveSection id duration => exact mapped alive fun _ => rfl
      | setMeetingTimes id meetingTimes => exact mapped alive fun _ => rfl
      | createSection duration =>
          rcases alive with ⟨row, isRow, same⟩
          rcases List.mem_append.mp isRow with isOld | isNew
          · exact ⟨row, isOld, same⟩
          · rw [List.mem_singleton.mp isNew] at same
            exact absurd same (sound sec isStored).ne'
      | deleteSection id =>
          rcases alive with ⟨row, isRow, same⟩
          exact ⟨row, List.mem_of_mem_filter isRow, same⟩
      | deleteTransfer id =>
          rw [Alive, Database.after] at alive
          split at alive <;> exact alive
      | _ => exact alive

theorem Sound.persists {step : Step} (sound : Sound state) : functions.Persists state step := by
  intro key isStored alive
  cases step with
  | write write => exact alive_of_after sound isStored alive
  | read read =>
      cases isRead : state.stored read with
      | some value =>
          simp only [Functions.next, isRead] at alive
          exact alive
      | none =>
          simp only [Functions.next, isRead] at alive
          have sameRows : (functions.compute read state.db).2.resources = state.db.resources ∧
              (functions.compute read state.db).2.sections = state.db.sections :=
            ⟨resources_compute, sections_compute⟩
          cases key with
          | currentlyCheckedInStudents program => trivial
          | hasFinancialAid user program => trivial
          | isAvailable resource timeslot =>
              have rows : ∃ row ∈ (functions.compute read state.db).2.resources,
                row.id = resource := alive
              rw [sameRows.1] at rows
              exact rows
          | sufficientLength sec =>
              have rows : ∃ row ∈ (functions.compute read state.db).2.sections.rows,
                row.id = sec := alive
              rw [sameRows.2] at rows
              exact rows

end Steps

section Run

/-- In a run from an empty cache, reads answer at every moment what the bodies of the functions
would compute, exactly if no step changes an answer that it does not void. -/
theorem throughout_correct_iff {db : Database} {steps : List Step} :
    Runs.Throughout functions.next functions.Correct ⟨db, fun _ => none⟩ steps ↔
      Runs.AtEach functions.next SparesOthers ⟨db, fun _ => none⟩ steps := by
  refine Functions.correct_throughout_iff (fun _ _ sound => sound.next)
    (fun _ _ sound => sound.persists) (fun _ _ sound => spares_iff sound) ?_
  exact fun sec isStored => absurd rfl isStored

def classroom : Database where
  resources := [⟨1, "10-250", 1⟩, ⟨2, "10-250", 2⟩]
  assignments := ⟨[], 1, .nil, by simp⟩
  events := ⟨[⟨1, 0, 3000000000⟩, ⟨2, 3600000000, 6600000000⟩], 3, by decide, by decide⟩
  sections := ⟨[⟨1, some 1, [2]⟩], 2, by decide, by decide⟩
  requests := ⟨[], 1, .nil, by simp⟩
  accounting :=
    { programs := ⟨[], 1, .nil, by simp⟩
      users := []
      lineItemTypes := ⟨[], 1, .nil, by simp⟩
      accounts := { toTable := ⟨[], 1, .nil, by simp⟩, receivableGlobal := by simp }
      transfers := ⟨[], 1, .nil, by simp⟩
      grants := []
      splashInfos := ⟨[], 1, .nil, by simp⟩ }
  records := ⟨[], 1, .nil, by simp⟩
  now := 0

/-- The room of the first timeslot is asked whether it is free at the second one, and is then given
away there: the answer that is stored under the room of the first timeslot stays. -/
theorem not_throughout_correct_classroom : ¬ Runs.Throughout functions.next functions.Correct
    ⟨classroom, fun _ => none⟩
    [.read (.isAvailable 1 2), .write (.saveAssignment ⟨1, 2, some 1⟩)] := by
  intro correct
  have alive : Alive (classroom.after (.saveAssignment ⟨1, 2, some 1⟩)) (.isAvailable 1 2) :=
    ⟨⟨1, "10-250", 1⟩, List.mem_cons_self .., rfl⟩
  have last := correct _ (List.prefix_refl _) (.isAvailable 1 2) alive
  revert last
  decide

end Run

end EspWebsite.ArgCache
