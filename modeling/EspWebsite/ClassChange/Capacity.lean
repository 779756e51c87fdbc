import EspWebsite.ClassChange.Conflicts

/-!
# Capacities of the sections

A fill uses up the spaces it gives away, and a push into a full section is paid for by one
kick, provided that the kick queue has each newcomer of the section exactly once.
-/

namespace EspWebsite.ClassChange.ClassChangeController

open Python Loops Draws

variable {c : ClassChangeController} {state after : c.State} {sec : c.Section}
  {student : c.Student}

/-- The enrollment of a section in a state, with the students who made no requests. -/
def enrollment (state : c.State) (sec : c.Section) : ℕ :=
  c.otherStudents sec + countNonzero fun student => anyOf (state.enrollFinal student sec)

/-- The students that an assignment has in a section. -/
def occupants (state : c.State) (sec : c.Section) : Finset c.Student :=
  Finset.univ.filter fun student => state.isIn student sec = true

@[simp] theorem mem_occupants : student ∈ occupants state sec ↔
    state.isIn student sec = true := by
  simp [occupants]

/-- Enrollments are at times of their sections. -/
def Scheduled (state : c.State) : Prop :=
  ∀ student sec ts, state.enrollFinal student sec ts = true → c.sectionSchedules sec ts = true

theorem enrollment_eq (scheduled : Scheduled state) :
    enrollment state sec = c.otherStudents sec + (occupants state sec).card := by
  rw [enrollment, countNonzero_eq_card]
  congr 2
  ext student
  rw [Finset.mem_filter, mem_occupants, State.isIn, anyIn_eq_true, anyOf_eq_true]
  constructor
  · intro enrolled
    rcases enrolled.2 with ⟨ts, enrolled⟩
    exact ⟨ts, scheduled student sec ts enrolled, enrolled⟩
  · intro enrolled
    rcases enrolled with ⟨ts, -, enrolled⟩
    exact ⟨Finset.mem_univ _, ts, enrolled⟩

theorem Scheduled.enroll {students : List c.Student} {value : Bool}
    (scheduled : Scheduled state) : Scheduled (state.enroll students sec value) := by
  intro student other ts enrolled
  rw [enroll_apply] at enrolled
  split at enrolled
  · rename_i inside
    rw [inside.2.1]
    exact inside.2.2
  · exact scheduled student other ts enrolled

/-! ## Who is in a section after enrolling and leaving -/

theorem occupants_enroll {students : List c.Student}
    (meets : ∀ student ∈ students, ∃ ts, c.sectionSchedules sec ts = true) :
    occupants (state.enroll students sec true) sec =
      occupants state sec ∪ students.toFinset := by
  ext student
  rw [Finset.mem_union, mem_occupants, mem_occupants, List.mem_toFinset]
  by_cases member : student ∈ students
  · rw [isIn_enroll_self member (meets student member)]
    simp [member]
  · rw [isIn_enroll_of_ne (by simp [member])]
    simp [member]

theorem occupants_leave (meets : ∃ ts, c.sectionSchedules sec ts = true) :
    occupants (state.enroll [student] sec false) sec = (occupants state sec).erase student := by
  ext other
  rw [Finset.mem_erase, mem_occupants, mem_occupants]
  by_cases same : other = student
  · rw [isIn_enroll_self (by simp [same]) meets]
    simp [same]
  · rw [isIn_enroll_of_ne (by simp [same])]
    simp [same]

theorem occupants_enroll_of_ne {students : List c.Student} {value : Bool} {other : c.Section}
    (apart : other ≠ sec) :
    occupants (state.enroll students sec value) other = occupants state other := by
  ext student
  rw [mem_occupants, mem_occupants, isIn_enroll_of_ne (by simp [apart])]

/-! ## Kick queues -/

/-- The shuffle of the students to kick repeats none of them, and none of them was enrolled
at two of the section's timeslots, whenever a push is about to build a kick queue. -/
def FairQueue (sec : c.Section) (student : c.Student) (state : c.State) : Prop :=
  state.sectionCapacities sec ≤ 0 → state.studentsToKick sec = none →
    let kickables := nonzero (kickable (state.enroll [student] sec true) sec)
    (shuffleRows kickables state.source).1.Nodup ∧
      ∀ other ∈ kickables, (c.oldSections other sec).length ≤ 1

instance : Decidable (FairQueue sec student state) :=
  inferInstanceAs (Decidable (_ → _ → _ ∧ _))

theorem putStudent_eq_ok {queue built : List (Entry c.numStudents) × Source}
    (single : (c.oldSections student sec).length ≤ 1)
    (returns : c.putStudent sec student queue = .ok built) :
    built.1.map entryStudent = queue.1.map entryStudent ++ [student] := by
  rw [putStudent] at returns
  cases indices : c.oldSections student sec with
  | nil =>
      rw [indices] at returns
      cases returns
      simp [put, entryStudent]
  | cons index rest =>
      rw [indices] at returns single
      cases rest with
      | cons other rest => simp at single
      | nil =>
          rcases forLoop_cons_eq_ok.mp returns with ⟨between, step, last⟩
          rcases map_eq_ok.mp step with ⟨score, -, rfl⟩
          cases last
          simp [put, entryStudent]

theorem buildQueue_perm {queue : List (Entry c.numStudents)} {source : Source}
    (distinct : (shuffleRows (nonzero (kickable state sec)) state.source).1.Nodup)
    (single : ∀ other ∈ nonzero (kickable state sec), (c.oldSections other sec).length ≤ 1)
    (returns : buildQueue sec state = .ok (queue, source)) :
    (queue.map entryStudent).Perm (nonzero (kickable state sec)) := by
  have listed := forLoop_variant
    (fun rest (built : List (Entry c.numStudents) × Source) =>
      (∀ student ∈ rest, student ∈ nonzero (kickable state sec)) ∧
      built.1.map entryStudent ++ rest =
        (shuffleRows (nonzero (kickable state sec)) state.source).1)
    ?_ ⟨fun _ member => mem_shuffleRows member, by simp⟩ returns
  · rw [← List.append_nil (queue.map entryStudent), listed.2]
    have subset : (shuffleRows (nonzero (kickable state sec)) state.source).1.Subperm
        (nonzero (kickable state sec)) :=
      List.subperm_of_subset distinct fun _ member => mem_shuffleRows member
    exact subset.perm_of_length_le (by rw [shuffleRows_length])
  · intro student rest between after kept step
    rw [putStudent_eq_ok (single student (kept.1 student List.mem_cons_self)) step]
    refine ⟨fun other member => kept.1 other (List.mem_cons_of_mem _ member), ?_⟩
    rw [← kept.2]
    simp

/-- Who is in a section without having been there before has requested it. -/
def NewcomersRequested (state : c.State) : Prop :=
  ∀ student sec, state.isIn student sec = true →
    c.enrolled student sec = true ∨ c.requested student sec = true

theorem kickable_iff (sec : c.Section) (student : c.Student) :
    kickable state sec student = true ↔
      state.isIn student sec = true ∧ c.requested student sec = true := by
  rw [kickable, anyIn_eq_true, State.isIn, anyIn_eq_true]
  constructor
  · intro found
    rcases found with ⟨ts, meets, both⟩
    rw [Bool.and_eq_true, request, Bool.and_eq_true] at both
    exact ⟨⟨ts, meets, both.1⟩, both.2.1⟩
  · intro found
    rcases found with ⟨⟨ts, meets, enrolled⟩, requested⟩
    exact ⟨ts, meets, by simp [request, meets, enrolled, requested]⟩

/-! ## The balance of a section -/

/-- How many students an enrollment that went beyond the capacity may have. -/
def limit (c : ClassChangeController) (sec : c.Section) : ℤ :=
  max (c.capacity sec) (c.numStudentsIn sec)

/-- A kick queue has each newcomer of a section, and each of its students once. -/
structure Queued (state : c.State) (sec : c.Section) (queue : List (Entry c.numStudents)) :
    Prop where
  distinct : (queue.map entryStudent).Nodup
  present : ∀ student ∈ queue.map entryStudent, state.isIn student sec = true
  covers : ∀ student, state.isIn student sec = true →
    c.enrolled student sec = true ∨ student ∈ queue.map entryStudent

/-- The enrollment of a section against its spaces, before a kick queue is built for it and
after. -/
structure Balanced (state : c.State) (sec : c.Section) : Prop where
  unbuilt : state.studentsToKick sec = none →
    (c.otherStudents sec + (occupants state sec).card : ℤ) + state.sectionCapacities sec ≤
      c.capacity sec ∧
    (state.sectionCapacities sec < 0 →
      c.otherStudents sec + (occupants state sec).card ≤ c.numStudentsIn sec)
  built : ∀ queue, state.studentsToKick sec = some queue →
    state.sectionCapacities sec ≤ 0 ∧
    (c.otherStudents sec + (occupants state sec).card : ℤ) ≤ c.limit sec ∧
    Queued state sec queue

theorem Balanced.card_le (balanced : Balanced state sec) :
    (c.otherStudents sec + (occupants state sec).card : ℤ) ≤ c.limit sec := by
  cases queued : state.studentsToKick sec with
  | some queue => exact (balanced.built queue queued).2.1
  | none =>
      rcases balanced.unbuilt queued with ⟨spaces, overfull⟩
      rw [limit]
      by_cases room : state.sectionCapacities sec < 0
      · have few := overfull room
        have bound := le_max_right (c.capacity sec) (c.numStudentsIn sec : ℤ)
        omega
      · have bound := le_max_left (c.capacity sec) (c.numStudentsIn sec : ℤ)
        omega

/-- Only the section's own occupants, spaces and queue matter to its balance. -/
theorem Balanced.congr (balanced : Balanced state sec)
    (sameOccupants : occupants after sec = occupants state sec)
    (sameCapacity : after.sectionCapacities sec = state.sectionCapacities sec)
    (sameQueue : after.studentsToKick sec = state.studentsToKick sec) :
    Balanced after sec := by
  have sameIn : ∀ student, after.isIn student sec = true ↔ state.isIn student sec = true := by
    intro student
    rw [← mem_occupants, sameOccupants, mem_occupants]
  constructor
  · rw [sameQueue, sameOccupants, sameCapacity]
    exact balanced.unbuilt
  · intro queue queued
    rw [sameQueue] at queued
    rcases balanced.built queue queued with ⟨full, few, fair⟩
    rw [sameCapacity, sameOccupants]
    refine ⟨full, few, fair.distinct, ?_, ?_⟩
    · intro student member
      exact (sameIn student).mpr (fair.present student member)
    · intro student enrolled
      exact fair.covers student ((sameIn student).mp enrolled)

theorem card_le_of_enrolled
    (original : ∀ student ∈ occupants state sec, c.enrolled student sec = true) :
    c.otherStudents sec + (occupants state sec).card ≤ c.numStudentsIn sec := by
  rw [numStudentsIn, countNonzero_eq_card]
  apply Nat.add_le_add_left
  apply Finset.card_le_card
  intro student member
  simpa using original student member

/-- At first a section has room for those who want to leave it. -/
theorem balanced_clearAssignments (source : Source) (sec : c.Section) :
    Balanced (c.clearAssignments source) sec := by
  have isOriginal : ∀ student, student ∈ occupants (c.clearAssignments source) sec →
      c.enrolled student sec = true ∧
        (c.anyIn c.enrollOrig student sec && c.anyDuring c.request student sec) = false := by
    intro student member
    rcases anyIn_eq_true.mp (mem_occupants.mp member) with ⟨ts, -, enrolled⟩
    change c.enrollFinalOrig student sec ts = true at enrolled
    rw [enrollFinalOrig, Bool.and_eq_true, Bool.and_eq_true, Bool.not_eq_true'] at enrolled
    exact ⟨(anyIn_enrollOrig.mp enrolled.2.1).1, by rw [enrolled.2.2, Bool.and_false]⟩
  have apart : (occupants (c.clearAssignments source) sec).card +
      countNonzero (fun student =>
        c.anyIn c.enrollOrig student sec && c.anyDuring c.request student sec) ≤
      countNonzero (fun student => c.enrolled student sec) := by
    rw [countNonzero_eq_card, countNonzero_eq_card, ← Finset.card_union_of_disjoint]
    · apply Finset.card_le_card
      intro student member
      rw [Finset.mem_filter]
      refine ⟨Finset.mem_univ _, ?_⟩
      rcases Finset.mem_union.mp member with stays | leaves
      · exact (isOriginal student stays).1
      · rw [Finset.mem_filter, Bool.and_eq_true] at leaves
        exact (anyIn_enrollOrig.mp leaves.2.1).1
    · rw [Finset.disjoint_left]
      intro student stays leaves
      rw [Finset.mem_filter, (isOriginal student stays).2] at leaves
      cases leaves.2
  constructor
  · intro _
    constructor
    · change _ + c.sectionCapacitiesOrig sec ≤ _
      rw [sectionCapacitiesOrig, numStudentsIn]
      push_cast
      omega
    · intro _
      exact card_le_of_enrolled fun student member => (isOriginal student member).1
  · intro queue queued
    cases queued

theorem Balanced.fillSection {si : c.Section} {priority : ℕ} {filled : Bool}
    (balanced : Balanced state sec) (unqueued : state.studentsToKick sec = none)
    (returns : fillSection si priority state = .ok (filled, after)) : Balanced after sec := by
  rcases fillSection_eq_ok returns with rfl | ⟨students, source, selected, rfl⟩
  · exact balanced
  · by_cases same : sec = si
    · subst same
      have meets : ∀ student ∈ students, ∃ ts, c.sectionSchedules sec ts = true := by
        intro student member
        rcases requested_of_possible (selected.possible student member) with ⟨ts, requested⟩
        rw [request, Bool.and_eq_true] at requested
        exact ⟨ts, requested.2⟩
      have counted : (occupants (state.enroll students sec true) sec).card ≤
          (occupants state sec).card + students.length := by
        rw [occupants_enroll meets]
        apply (Finset.card_union_le _ _).trans
        exact Nat.add_le_add_left (List.toFinset_card_le _) _
      rcases balanced.unbuilt unqueued with ⟨spaces, overfull⟩
      have room := selected.room
      have moved : (c.otherStudents sec +
            (occupants (state.enroll students sec true) sec).card : ℤ) +
          (state.sectionCapacities sec - students.length) ≤ c.capacity sec := by
        omega
      constructor
      · intro _
        refine ⟨?_, ?_⟩
        · change (c.otherStudents sec +
              (occupants (state.enroll students sec true) sec).card : ℤ) +
            Function.update state.sectionCapacities sec _ sec ≤ _
          rwa [Function.update_self]
        · intro negative
          change Function.update state.sectionCapacities sec _ sec < 0 at negative
          rw [Function.update_self, enroll_sectionCapacities] at negative
          change c.otherStudents sec +
            (occupants (state.enroll students sec true) sec).card ≤ _
          have few := overfull (by omega)
          have nobody : students.length = 0 := by omega
          omega
      · intro queue queued
        change state.studentsToKick sec = some queue at queued
        rw [unqueued] at queued
        cases queued
    · apply balanced.congr
      · exact occupants_enroll_of_ne same
      · exact Function.update_of_ne same _ _
      · rfl

theorem occupants_push (pushed : toPush state sec student = true) :
    occupants (state.enroll [student] sec true) sec = insert student (occupants state sec) ∧
      (occupants (state.enroll [student] sec true) sec).card =
        (occupants state sec).card + 1 := by
  rcases of_toPush pushed with ⟨-, absent, meets⟩
  have grown : occupants (state.enroll [student] sec true) sec =
      insert student (occupants state sec) := by
    rw [occupants_enroll (fun _ _ => meets), Finset.union_comm]
    rfl
  refine ⟨grown, ?_⟩
  rw [grown, Finset.card_insert_of_notMem]
  rw [mem_occupants, absent]
  exact Bool.false_ne_true

theorem queued_of_queueOf {queue : List (Entry c.numStudents)} {source : Source}
    (balanced : Balanced state sec) (newcomers : NewcomersRequested state)
    (fair : FairQueue sec student state) (full : state.sectionCapacities sec ≤ 0)
    (pushed : toPush state sec student = true)
    (queueOf : QueueOf (state.enroll [student] sec true) sec queue source) :
    Queued (state.enroll [student] sec true) sec queue := by
  have original : c.enrolled student sec = true :=
    (anyIn_enrollOrig.mp (of_toPush pushed).1).1
  have occupant : ∀ other, (state.enroll [student] sec true).isIn other sec = true ↔
      other = student ∨ state.isIn other sec = true := by
    intro other
    rw [← mem_occupants, (occupants_push pushed).1, Finset.mem_insert, mem_occupants]
  rcases queueOf with ⟨queued, -⟩ | ⟨unqueued, building⟩
  · have kept := (balanced.built queue queued).2.2
    refine ⟨kept.distinct, ?_, ?_⟩
    · intro other member
      exact (occupant other).mpr (.inr (kept.present other member))
    · intro other enrolled
      rcases (occupant other).mp enrolled with rfl | before
      · exact .inl original
      · exact kept.covers other before
  · rcases fair full unqueued with ⟨distinct, single⟩
    have listed := buildQueue_perm distinct single building
    refine ⟨listed.nodup_iff.mpr (nonzero_nodup _), ?_, ?_⟩
    · intro other member
      exact ((kickable_iff sec other).mp (mem_nonzero.mp (listed.mem_iff.mp member))).1
    · intro other enrolled
      rcases (occupant other).mp enrolled with rfl | before
      · exact .inl original
      · rcases newcomers other sec before with originally | requested
        · exact .inl originally
        · exact .inr (listed.mem_iff.mpr
            (mem_nonzero.mpr ((kickable_iff sec other).mpr ⟨enrolled, requested⟩)))

theorem Queued.balanced {queue : List (Entry c.numStudents)} (queued : Queued state sec queue)
    (full : state.sectionCapacities sec ≤ 0)
    (within : (c.otherStudents sec + (occupants state sec).card : ℤ) ≤ c.limit sec)
    (source : Source) : Balanced (state.setQueue sec queue source) sec := by
  have set : (state.setQueue sec queue source).studentsToKick sec = some queue := by
    simp [State.setQueue]
  constructor
  · intro unqueued
    rw [set] at unqueued
    cases unqueued
  · intro other equal
    rw [set, Option.some.injEq] at equal
    subst equal
    exact ⟨full, within, queued.distinct, queued.present, queued.covers⟩

theorem Queued.kick {queue rest : List (Entry c.numStudents)} {entry : Entry c.numStudents}
    (queued : Queued state sec queue) (popped : popLeast queue = some (entry, rest)) :
    Queued (state.enroll [entryStudent entry] sec false) sec rest ∧
      (occupants (state.enroll [entryStudent entry] sec false) sec).card + 1 =
        (occupants state sec).card := by
  have listed : (queue.map entryStudent).Perm (entryStudent entry :: rest.map entryStudent) :=
    (perm_of_popLeast popped).map entryStudent
  rcases List.nodup_cons.mp (listed.nodup_iff.mp queued.distinct) with ⟨fresh, distinct⟩
  have present := queued.present (entryStudent entry) (listed.mem_iff.mpr List.mem_cons_self)
  have meets : ∃ ts, c.sectionSchedules sec ts = true := by
    rcases anyIn_eq_true.mp present with ⟨ts, meets, -⟩
    exact ⟨ts, meets⟩
  have left : occupants (state.enroll [entryStudent entry] sec false) sec =
      (occupants state sec).erase (entryStudent entry) := occupants_leave meets
  have remains : ∀ student,
      (state.enroll [entryStudent entry] sec false).isIn student sec = true ↔
        student ≠ entryStudent entry ∧ state.isIn student sec = true := by
    intro student
    rw [← mem_occupants, left, Finset.mem_erase, mem_occupants]
  refine ⟨⟨distinct, ?_, ?_⟩, ?_⟩
  · intro student member
    refine (remains student).mpr ⟨?_, ?_⟩
    · intro same
      exact fresh (same ▸ member)
    · exact queued.present student (listed.mem_iff.mpr (List.mem_cons_of_mem _ member))
  · intro student enrolled
    rcases (remains student).mp enrolled with ⟨apart, before⟩
    rcases queued.covers student before with original | member
    · exact .inl original
    · rcases List.mem_cons.mp (listed.mem_iff.mp member) with same | member
      · exact absurd same apart
      · exact .inr member
  · rw [left, Finset.card_erase_add_one (mem_occupants.mpr present)]

theorem Balanced.pushStudent {other : c.Section} (balanced : Balanced state other)
    (newcomers : NewcomersRequested state) (fair : FairQueue sec student state)
    (pushed : toPush state sec student = true)
    (returns : pushStudent sec student state = .ok after) : Balanced after other := by
  by_cases same : other = sec
  · subst same
    have grown := (occupants_push pushed).2
    have meets := (of_toPush pushed).2.2
    rcases pushStudent_eq_ok.mp returns with
      ⟨space, rfl⟩ | ⟨full, queue, source, queueOf, outcome⟩
    · have unqueued : state.studentsToKick other = none := by
        cases queued : state.studentsToKick other with
        | none => rfl
        | some queue =>
            have full := (balanced.built queue queued).1
            omega
      rcases balanced.unbuilt unqueued with ⟨spaces, overfull⟩
      constructor
      · intro _
        change (c.otherStudents other +
            (occupants (state.enroll [student] other true) other).card : ℤ) +
          Function.update state.sectionCapacities other _ other ≤ _ ∧
            (Function.update state.sectionCapacities other _ other < 0 → _)
        rw [Function.update_self, enroll_sectionCapacities, grown]
        push_cast
        omega
      · intro queue queued
        rw [fill_studentsToKick, enroll_studentsToKick, unqueued] at queued
        cases queued
    · have queued := queued_of_queueOf balanced newcomers fair full pushed queueOf
      have within := balanced.card_le
      rcases outcome with ⟨rfl, rfl⟩ | ⟨entry, rest, popped, rfl⟩
      · have originals : c.otherStudents other +
            (occupants (state.enroll [student] other true) other).card ≤
            c.numStudentsIn other := by
          apply card_le_of_enrolled
          intro occupant member
          rcases queued.covers occupant (mem_occupants.mp member) with original | listed
          · exact original
          · cases listed
        apply queued.balanced full
        have bound := le_max_right (c.capacity other) (c.numStudentsIn other : ℤ)
        rw [limit]
        omega
      · rcases queued.kick popped with ⟨kept, fewer⟩
        apply kept.balanced full
        rw [grown] at fewer
        omega
  · have others : ∀ between : c.State, occupants between other = occupants state other →
        between.sectionCapacities other = state.sectionCapacities other →
        between.studentsToKick other = state.studentsToKick other → Balanced between other :=
      fun between => balanced.congr
    rcases pushStudent_eq_ok.mp returns with
      ⟨-, rfl⟩ | ⟨-, queue, source, -, ⟨-, rfl⟩ | ⟨entry, rest, -, rfl⟩⟩
    · exact others _ (occupants_enroll_of_ne same) (Function.update_of_ne same _ _) rfl
    · exact others _ (occupants_enroll_of_ne same) rfl (Function.update_of_ne same _ _)
    · exact others _ ((occupants_enroll_of_ne same).trans (occupants_enroll_of_ne same)) rfl
        (Function.update_of_ne same _ _)

/-! ## Runs within the limits -/

/-- What an assignment keeps of the enrollments and capacities. -/
structure WithinLimits (state : c.State) : Prop where
  scheduled : Scheduled state
  newcomers : NewcomersRequested state
  balanced : ∀ sec, Balanced state sec

theorem of_isIn_enroll {students : List c.Student} {value : Bool} {other : c.Section}
    (enrolled : (state.enroll students sec value).isIn student other = true) :
    state.isIn student other = true ∨ student ∈ students ∧ other = sec ∧ value = true := by
  rcases anyIn_eq_true.mp enrolled with ⟨ts, meets, held⟩
  rw [enroll_apply] at held
  split at held
  · rename_i inside
    exact .inr ⟨inside.1, inside.2.1, held⟩
  · exact .inl (anyIn_eq_true.mpr ⟨ts, meets, held⟩)

theorem NewcomersRequested.enroll {students : List c.Student} {value : Bool}
    (newcomers : NewcomersRequested state)
    (entitled : ∀ student ∈ students, value = true →
      c.enrolled student sec = true ∨ c.requested student sec = true) :
    NewcomersRequested (state.enroll students sec value) := by
  intro student other enrolled
  rcases of_isIn_enroll enrolled with before | ⟨member, rfl, isTrue⟩
  · exact newcomers student other before
  · exact entitled student member isTrue

theorem WithinLimits.fillSection {si : c.Section} {priority : ℕ} {filled : Bool}
    (within : WithinLimits state) (unqueued : ∀ sec, state.studentsToKick sec = none)
    (returns : fillSection si priority state = .ok (filled, after)) :
    WithinLimits after ∧ ∀ sec, after.studentsToKick sec = none := by
  have balanced : ∀ sec, Balanced after sec := fun sec =>
    (within.balanced sec).fillSection (unqueued sec) returns
  rcases fillSection_eq_ok returns with rfl | ⟨students, source, selected, rfl⟩
  · exact ⟨within, unqueued⟩
  · have requested : ∀ student ∈ students, true = true →
        c.enrolled student si = true ∨ c.requested student si = true := by
      intro student member _
      rcases requested_of_possible (selected.possible student member) with ⟨ts, asked⟩
      rw [request, Bool.and_eq_true] at asked
      exact .inr asked.1
    exact ⟨⟨within.scheduled.enroll, within.newcomers.enroll requested, balanced⟩, unqueued⟩

theorem WithinLimits.pushStudent (within : WithinLimits state)
    (fair : FairQueue sec student state) (pushed : toPush state sec student = true)
    (returns : pushStudent sec student state = .ok after) : WithinLimits after := by
  have balanced : ∀ other, Balanced after other := fun other =>
    (within.balanced other).pushStudent within.newcomers fair pushed returns
  have original : ∀ other ∈ [student], true = true →
      c.enrolled other sec = true ∨ c.requested other sec = true := by
    intro other member _
    rw [List.mem_singleton.mp member]
    exact .inl (anyIn_enrollOrig.mp (of_toPush pushed).1).1
  have scheduled : Scheduled (state.enroll [student] sec true) := within.scheduled.enroll
  have newcomers := within.newcomers.enroll original
  rcases pushStudent_eq_ok.mp returns with
    ⟨-, rfl⟩ | ⟨-, queue, source, -, ⟨-, rfl⟩ | ⟨entry, rest, -, rfl⟩⟩
  · exact ⟨scheduled, newcomers, balanced⟩
  · exact ⟨scheduled, newcomers, balanced⟩
  · exact ⟨scheduled.enroll, newcomers.enroll (by simp), balanced⟩

theorem WithinLimits.congr (within : WithinLimits state)
    (sameEnrollment : after.enrollFinal = state.enrollFinal)
    (sameCapacities : after.sectionCapacities = state.sectionCapacities)
    (sameQueues : after.studentsToKick = state.studentsToKick) : WithinLimits after := by
  have same : ∀ student sec, after.isIn student sec = state.isIn student sec := by
    intro student sec
    rw [State.isIn, sameEnrollment, State.isIn]
  constructor
  · rw [Scheduled, sameEnrollment]
    exact within.scheduled
  · intro student sec enrolled
    rw [same] at enrolled
    exact within.newcomers student sec enrolled
  · intro sec
    apply (within.balanced sec).congr
    · ext student
      rw [mem_occupants, mem_occupants, same]
    · rw [sameCapacities]
    · rw [sameQueues]

theorem withinLimits_clearAssignments (source : Source) :
    WithinLimits (c.clearAssignments source) := by
  refine ⟨?_, ?_, balanced_clearAssignments source⟩
  · intro student sec ts enrolled
    change c.enrollFinalOrig student sec ts = true at enrolled
    rw [enrollFinalOrig, Bool.and_eq_true] at enrolled
    exact enrolled.1
  · intro student sec enrolled
    rcases anyIn_eq_true.mp enrolled with ⟨ts, -, held⟩
    change c.enrollFinalOrig student sec ts = true at held
    rw [enrollFinalOrig, Bool.and_eq_true, Bool.and_eq_true, anyIn_enrollOrig] at held
    exact .inl held.2.1.1

/-- Every kick queue that an assignment builds is fair. -/
def FairRun (c : ClassChangeController) (rounds : ℕ) (source : Source) : Prop :=
  match c.fillAll source with
  | .error _ => True
  | .ok filled => BeforePushes FairQueue rounds filled

instance (c : ClassChangeController) (rounds : ℕ) (source : Source) :
    Decidable (c.FairRun rounds source) := by
  unfold FairRun BeforePushes
  cases c.fillAll source with
  | error raised => exact instDecidableTrue
  | ok filled => infer_instance

/-- When an assignment ends whose kick queues are all fair, no section is beyond the larger
of its capacity and its original enrollment. -/
theorem computeAssignments_withinLimits (c : ClassChangeController) (rounds : ℕ)
    (source : Source) (final : c.State) (fair : c.FairRun rounds source)
    (ends : c.computeAssignments rounds source = some (.ok final)) (sec : c.Section) :
    (enrollment final sec : ℤ) ≤ max (c.capacity sec) (c.numStudentsIn sec) := by
  rw [computeAssignments] at ends
  rw [FairRun] at fair
  cases filling : c.fillAll source with
  | error raised =>
      rw [filling] at ends
      cases ends
  | ok filled =>
      rw [filling] at ends fair
      have filledWell : WithinLimits filled ∧ ∀ sec, filled.studentsToKick sec = none := by
        apply fillAll_preserves
          (fun state => WithinLimits state ∧ ∀ sec, state.studentsToKick sec = none) _ _ _ filling
        · intro state key kept
          exact ⟨kept.1.congr rfl rfl rfl, kept.2⟩
        · intro state after si priority flag kept fill
          exact kept.1.fillSection kept.2 fill
        · exact ⟨(withinLimits_clearAssignments source).congr rfl rfl rfl, fun _ => rfl⟩
      have unqueued : (fun _ => none) = filled.studentsToKick :=
        funext fun sec => (filledWell.2 sec).symm
      have pushes := pushBackStudents_preserves FairQueue WithinLimits fair
        (fun state key kept => kept.congr rfl rfl rfl)
        (fun state after sec student fair pushed kept step => kept.pushStudent fair pushed step)
        (filledWell.1.congr rfl rfl unqueued) ends
      have few := (pushes.1.balanced sec).card_le
      rw [enrollment_eq pushes.1.scheduled]
      exact_mod_cast few

theorem computeAssignments_withinLimits_crowded :
    ∃ final, crowded.computeAssignments 2 (fun _ => 1) = some (.ok final) ∧
      (enrollment final (0 : Fin 2) : ℤ) ≤
        max (crowded.capacity (0 : Fin 2)) (crowded.numStudentsIn (0 : Fin 2)) := by
  have ended : (endState (crowded.computeAssignments 2 fun _ => 1)).isSome = true := by
    decide
  have fair : crowded.FairRun 2 fun _ => 1 := by decide
  rcases Option.isSome_iff_exists.mp ended with ⟨final, ended⟩
  have ends := eq_of_endState ended
  exact ⟨final, ends, computeAssignments_withinLimits crowded 2 _ final fair ends (0 : Fin 2)⟩

/-- A shuffle that repeats a student loses another one.  The second kick removes nobody, and
the section ends up with three students in two places. -/
theorem crowded_beyond_limit :
    ∃ final, crowded.computeAssignments 2 (fun _ => 0) = some (.ok final) ∧
      ¬ (enrollment final (0 : Fin 2) : ℤ) ≤
        max (crowded.capacity (0 : Fin 2)) (crowded.numStudentsIn (0 : Fin 2)) := by
  have counted : (endState (crowded.computeAssignments 2 fun _ => 0)).map
      (fun final => enrollment final (0 : Fin 2)) = some 3 := by
    decide
  rcases Option.map_eq_some_iff.mp counted with ⟨final, ended, three⟩
  refine ⟨final, eq_of_endState ended, ?_⟩
  rw [three]
  decide

end EspWebsite.ClassChange.ClassChangeController
