import EspWebsite.ClassChange.Controller

/-!
# What one push does

Enrolling a student back either uses up a space of the section or takes the first entry
off its kick queue.  Every kick shortens a queue and frees one student, and every push
places one, so that pushing back comes to an end.
-/

namespace EspWebsite.ClassChange.ClassChangeController

open Python Loops Draws

variable {c : ClassChangeController} {state after : c.State} {sec : c.Section}
  {student : c.Student}

/-! ## Enrollment -/

theorem anyIn_eq_true {array : c.Matrix} :
    c.anyIn array student sec = true ↔
      ∃ ts, c.sectionSchedules sec ts = true ∧ array student sec ts = true := by
  simp [anyIn]

theorem anyDuring_eq_true {array : c.Matrix} :
    c.anyDuring array student sec = true ↔
      ∃ other ts, c.sectionSchedules sec ts = true ∧ array student other ts = true := by
  simp [anyDuring]

theorem anyIn_of_anyDuring_eq_false {array : c.Matrix}
    (free : c.anyDuring array student sec = false) : c.anyIn array student sec = false := by
  rw [Bool.eq_false_iff] at free ⊢
  intro enrolled
  rcases anyIn_eq_true.mp enrolled with ⟨ts, meets, holds⟩
  exact free (anyDuring_eq_true.mpr ⟨sec, ts, meets, holds⟩)

theorem anyIn_enrollOrig : c.anyIn c.enrollOrig student sec = true ↔
    c.enrolled student sec = true ∧ ∃ ts, c.sectionSchedules sec ts = true := by
  rw [anyIn_eq_true]
  constructor
  · intro original
    rcases original with ⟨ts, meets, enrolled⟩
    rw [enrollOrig, Bool.and_eq_true] at enrolled
    exact ⟨enrolled.1, ts, meets⟩
  · intro original
    rcases original with ⟨enrolled, ts, meets⟩
    exact ⟨ts, meets, by simp [enrollOrig, enrolled, meets]⟩

theorem enroll_apply {students : List c.Student} {value : Bool} {other : c.Section}
    {ts : c.Timeslot} :
    (state.enroll students sec value).enrollFinal student other ts =
      if student ∈ students ∧ other = sec ∧ c.sectionSchedules sec ts = true then value
      else state.enrollFinal student other ts := by
  simp [State.enroll, and_assoc]

@[simp] theorem enroll_sectionCapacities {students : List c.Student} {value : Bool} :
    (state.enroll students sec value).sectionCapacities = state.sectionCapacities := rfl

@[simp] theorem enroll_studentsToKick {students : List c.Student} {value : Bool} :
    (state.enroll students sec value).studentsToKick = state.studentsToKick := rfl

@[simp] theorem enroll_source {students : List c.Student} {value : Bool} :
    (state.enroll students sec value).source = state.source := rfl

@[simp] theorem fill_enrollFinal {count : ℕ} :
    (state.fill sec count).enrollFinal = state.enrollFinal := rfl

@[simp] theorem fill_studentsToKick {count : ℕ} :
    (state.fill sec count).studentsToKick = state.studentsToKick := rfl

/-! ## The cases of a push -/

/-- The kick queue of a section, taken from the state or built from it, with the draws
that are left. -/
def QueueOf (state : c.State) (sec : c.Section) (queue : List (Entry c.numStudents))
    (source : Source) : Prop :=
  state.studentsToKick sec = some queue ∧ source = state.source ∨
    state.studentsToKick sec = none ∧ buildQueue sec state = .ok (queue, source)

def entryStudent (entry : Entry c.numStudents) : c.Student := (ofLex (ofLex entry).2).2

/-- The state with a queue for a section, and the draws that are left. -/
def State.setQueue (state : c.State) (sec : c.Section) (queue : List (Entry c.numStudents))
    (source : Source) : c.State :=
  { state with
    studentsToKick := Function.update state.studentsToKick sec (some queue), source }

theorem withQueue_eq_ok : withQueue sec state = .ok after ↔
    ∃ queue source, QueueOf state sec queue source ∧ after = state.setQueue sec queue source := by
  rw [withQueue]
  cases queued : state.studentsToKick sec with
  | some queue =>
      constructor
      · intro returns
        cases returns
        refine ⟨queue, state.source, .inl ⟨queued, rfl⟩, ?_⟩
        rw [State.setQueue, ← queued, Function.update_eq_self]
      · intro found
        rcases found with ⟨other, source, (⟨same, rfl⟩ | ⟨unbuilt, -⟩), rfl⟩
        · rw [State.setQueue, ← same, Function.update_eq_self]
        · rw [queued] at unbuilt
          cases unbuilt
  | none =>
      cases building : buildQueue sec state with
      | error raised => simp [Except.map, QueueOf, queued, building]
      | ok built =>
          constructor
          · intro returns
            cases returns
            exact ⟨built.1, built.2, .inr ⟨queued, building⟩, rfl⟩
          · intro found
            rcases found with ⟨other, source, (⟨same, -⟩ | ⟨-, same⟩), rfl⟩
            · rw [queued] at same
              cases same
            · rw [building] at same
              cases same
              rfl

theorem pushStudent_eq_ok : pushStudent sec student state = .ok after ↔
    0 < state.sectionCapacities sec ∧ after = (state.enroll [student] sec true).fill sec 1 ∨
    state.sectionCapacities sec ≤ 0 ∧
      ∃ queue source, QueueOf (state.enroll [student] sec true) sec queue source ∧
        (queue = [] ∧ after = (state.enroll [student] sec true).setQueue sec [] source ∨
          ∃ entry rest, popLeast queue = some (entry, rest) ∧
            after = ((state.enroll [student] sec true).enroll [entryStudent entry] sec
              false).setQueue sec rest source) := by
  rw [pushStudent]
  have stays (queue) (source) (pushed : c.State) (popped : popLeast queue = none) :
      kick sec (pushed.setQueue sec queue source) = pushed.setQueue sec queue source := by
    rw [kick]
    simp only [State.setQueue, Function.update_self, Option.bind_some, popped]
  have kicks (queue) (source) (pushed : c.State) (entry) (rest)
      (popped : popLeast queue = some (entry, rest)) :
      kick sec (pushed.setQueue sec queue source) =
        (pushed.enroll [entryStudent entry] sec false).setQueue sec rest source := by
    rw [kick]
    simp [State.setQueue, popped, State.enroll, entryStudent]
  by_cases space : 0 < state.sectionCapacities sec
  · simp [space, not_le.mpr space, eq_comm]
  · simp only [enroll_sectionCapacities, space, if_false, false_and, false_or, not_lt.mp space,
      true_and]
    rw [map_eq_ok]
    constructor
    · intro returns
      rcases returns with ⟨queued, found, rfl⟩
      rcases withQueue_eq_ok.mp found with ⟨queue, source, queueOf, rfl⟩
      refine ⟨queue, source, queueOf, ?_⟩
      cases popped : popLeast queue with
      | none =>
          rw [stays _ _ _ popped, popLeast_eq_none.mp popped]
          exact .inl ⟨rfl, rfl⟩
      | some entry => exact .inr ⟨entry.1, entry.2, rfl, kicks _ _ _ _ _ popped⟩
    · intro cases'
      rcases cases' with ⟨queue, source, queueOf, outcome⟩
      refine ⟨_, withQueue_eq_ok.mpr ⟨queue, source, queueOf, rfl⟩, ?_⟩
      rcases outcome with ⟨rfl, rfl⟩ | ⟨entry, rest, popped, rfl⟩
      · exact stays _ _ _ rfl
      · exact kicks _ _ _ _ _ popped

/-! ## Who is in a section -/

/-- Whether a student is enrolled in a section at one of its times. -/
def State.isIn (state : c.State) (student : c.Student) (sec : c.Section) : Bool :=
  c.anyIn state.enrollFinal student sec

theorem isIn_enroll_self {students : List c.Student} {value : Bool}
    (member : student ∈ students) (meets : ∃ ts, c.sectionSchedules sec ts = true) :
    (state.enroll students sec value).isIn student sec = value := by
  rcases meets with ⟨ts, meets⟩
  rw [State.isIn, Bool.eq_iff_iff, anyIn_eq_true]
  constructor
  · intro found
    rcases found with ⟨other, meetsThen, enrolled⟩
    rwa [enroll_apply, if_pos ⟨member, rfl, meetsThen⟩] at enrolled
  · intro isTrue
    exact ⟨ts, meets, by rw [enroll_apply, if_pos ⟨member, rfl, meets⟩, isTrue]⟩

theorem isIn_enroll_of_ne {students : List c.Student} {value : Bool} {other : c.Section}
    (apart : ¬ (student ∈ students ∧ other = sec)) :
    (state.enroll students sec value).isIn student other = state.isIn student other := by
  have same : ∀ ts, (state.enroll students sec value).enrollFinal student other ts =
      state.enrollFinal student other ts := by
    intro ts
    rw [enroll_apply, if_neg]
    intro inside
    exact apart ⟨inside.1, inside.2.1⟩
  simp only [State.isIn, anyIn, same]

theorem of_toPush (pushed : toPush state sec student = true) :
    c.anyIn c.enrollOrig student sec = true ∧ state.isIn student sec = false ∧
      ∃ ts, c.sectionSchedules sec ts = true := by
  rw [toPush, Bool.and_eq_true, Bool.not_eq_true'] at pushed
  exact ⟨pushed.1, anyIn_of_anyDuring_eq_false pushed.2, (anyIn_enrollOrig.mp pushed.1).2⟩

theorem toPush_enroll {other : c.Student} (value : Bool) (apart : student ≠ other) :
    toPush (state.enroll [other] sec value) sec student = toPush state sec student := by
  have same : ∀ held ts, (state.enroll [other] sec value).enrollFinal student held ts =
      state.enrollFinal student held ts := by
    intro held ts
    rw [enroll_apply, if_neg (by simp [apart])]
  simp only [toPush, anyDuring, same]

theorem toPush_enroll_false {other : c.Student} (pushed : toPush state sec student = true) :
    toPush (state.enroll [other] sec false) sec student = true := by
  rw [toPush, Bool.and_eq_true, Bool.not_eq_true', Bool.eq_false_iff] at pushed ⊢
  refine ⟨pushed.1, ?_⟩
  intro busy
  rcases anyDuring_eq_true.mp busy with ⟨held, ts, meets, enrolled⟩
  rw [enroll_apply] at enrolled
  split at enrolled
  · cases enrolled
  · exact pushed.2 (anyDuring_eq_true.mpr ⟨held, ts, meets, enrolled⟩)

theorem toPush_pushStudent {other : c.Student} (apart : student ≠ other)
    (pushed : toPush state sec student = true)
    (returns : pushStudent sec other state = .ok after) :
    toPush after sec student = true := by
  rw [← toPush_enroll true apart] at pushed
  rcases pushStudent_eq_ok.mp returns with
    ⟨-, rfl⟩ | ⟨-, queue, source, -, ⟨-, rfl⟩ | ⟨entry, rest, -, rfl⟩⟩
  · exact pushed
  · exact pushed
  · exact toPush_enroll_false pushed

/-! ## The measure of pushing back -/

/-- The original enrollments that are lost at present. -/
def missing (state : c.State) : Finset (c.Student × c.Section) :=
  Finset.univ.filter fun pair =>
    c.anyIn c.enrollOrig pair.1 pair.2 = true ∧ state.isIn pair.1 pair.2 = false

variable (c) in
/-- How many kicks the queue of a section can still make, built or not. -/
def kicksLeft : Option (List (Entry c.numStudents)) → ℕ
  | some queue => queue.length
  | none => c.numStudents * (c.numTimeslots + 1)

/-- The pushes that can still follow. -/
def pushesLeft (state : c.State) : ℕ :=
  (missing state).card + ∑ sec, c.kicksLeft (state.studentsToKick sec)

theorem mem_missing {pair : c.Student × c.Section} : pair ∈ missing state ↔
    c.anyIn c.enrollOrig pair.1 pair.2 = true ∧ state.isIn pair.1 pair.2 = false := by
  simp [missing]

theorem card_missing_enroll (pushed : toPush state sec student = true) :
    (missing (state.enroll [student] sec true)).card + 1 ≤ (missing state).card := by
  rcases of_toPush pushed with ⟨original, absent, meets⟩
  have lost : (student, sec) ∈ missing state := mem_missing.mpr ⟨original, absent⟩
  rw [← Finset.card_erase_add_one lost]
  apply Nat.add_le_add_right
  apply Finset.card_le_card
  intro pair member
  rcases mem_missing.mp member with ⟨enrolled, gone⟩
  have other : ¬ (pair.1 = student ∧ pair.2 = sec) := by
    intro same
    rcases same with ⟨rfl, rfl⟩
    rw [isIn_enroll_self (by simp) meets] at gone
    cases gone
  rw [isIn_enroll_of_ne (by simpa using other)] at gone
  rw [Finset.mem_erase, mem_missing]
  exact ⟨fun same => other (by simp [same]), enrolled, gone⟩

theorem card_missing_kick (state : c.State) (sec : c.Section) (student : c.Student) :
    (missing (state.enroll [student] sec false)).card ≤ (missing state).card + 1 := by
  apply (Finset.card_le_card (_ : _ ⊆ insert (student, sec) (missing state))).trans
    (Finset.card_insert_le _ _)
  intro pair member
  rcases mem_missing.mp member with ⟨enrolled, gone⟩
  rw [Finset.mem_insert, mem_missing]
  by_cases same : pair.1 = student ∧ pair.2 = sec
  · exact .inl (Prod.ext same.1 same.2)
  · rw [isIn_enroll_of_ne (by simpa using same)] at gone
    exact .inr ⟨enrolled, gone⟩

theorem sum_kicksLeft_setQueue (state : c.State) (sec : c.Section)
    (queue : List (Entry c.numStudents)) (source : Source) :
    (∑ other, c.kicksLeft ((state.setQueue sec queue source).studentsToKick other)) +
        c.kicksLeft (state.studentsToKick sec) =
      (∑ other, c.kicksLeft (state.studentsToKick other)) + queue.length := by
  rw [← Finset.add_sum_erase _ _ (Finset.mem_univ sec),
    ← Finset.add_sum_erase _ (fun other => c.kicksLeft (state.studentsToKick other))
      (Finset.mem_univ sec)]
  have others : ∑ other ∈ Finset.univ.erase sec,
      c.kicksLeft ((state.setQueue sec queue source).studentsToKick other) =
      ∑ other ∈ Finset.univ.erase sec, c.kicksLeft (state.studentsToKick other) := by
    apply Finset.sum_congr rfl
    intro other member
    simp only [State.setQueue, Function.update_of_ne (Finset.ne_of_mem_erase member)]
  rw [others]
  simp only [State.setQueue, Function.update_self, kicksLeft]
  omega

theorem oldSections_length : (c.oldSections student sec).length ≤ c.numTimeslots := by
  rw [oldSections, List.length_map]
  apply (List.length_filter_le _ _).trans
  rw [List.length_zipIdx]
  exact countNonzero_le _

/-- A student takes at most one entry of a queue for each timeslot, and one if he was
enrolled nowhere. -/
theorem putStudent_length {queue built : List (Entry c.numStudents) × Source}
    (returns : c.putStudent sec student queue = .ok built) :
    built.1.length ≤ queue.1.length + (c.numTimeslots + 1) := by
  rw [putStudent] at returns
  split at returns
  · cases returns
    simp [put]
  · rename_i indices nonempty
    have short : (c.oldSections student sec).length ≤ c.numTimeslots := oldSections_length
    have counted := forLoop_variant
      (fun rest (built : List (Entry c.numStudents) × Source) =>
        built.1.length + rest.length = queue.1.length + (c.oldSections student sec).length)
      (fun index rest between after kept step => by
        rcases map_eq_ok.mp step with ⟨score, -, rfl⟩
        simp [put] at kept ⊢
        omega) rfl returns
    simp at counted
    omega

theorem length_le_of_queueOf {queue : List (Entry c.numStudents)} {source : Source}
    (queueOf : QueueOf state sec queue source) :
    queue.length ≤ c.kicksLeft (state.studentsToKick sec) := by
  rcases queueOf with ⟨built, -⟩ | ⟨unbuilt, building⟩
  · simp [built, kicksLeft]
  · rw [unbuilt, kicksLeft]
    have counted := forLoop_variant
      (fun rest (built : List (Entry c.numStudents) × Source) =>
        built.1.length + rest.length * (c.numTimeslots + 1) ≤
          c.numStudents * (c.numTimeslots + 1))
      (fun student rest between after kept step => by
        have longer := putStudent_length step
        rw [List.length_cons, Nat.succ_mul] at kept
        omega) ?_ building
    · simpa using counted
    · rw [shuffleRows_length]
      have few := countNonzero_le (kickable state sec)
      rw [countNonzero] at few
      simpa using Nat.mul_le_mul_right (c.numTimeslots + 1) few

theorem pushesLeft_pushStudent (pushed : toPush state sec student = true)
    (returns : pushStudent sec student state = .ok after) :
    pushesLeft after + 1 ≤ pushesLeft state := by
  have placed := card_missing_enroll pushed
  rcases pushStudent_eq_ok.mp returns with
    ⟨-, rfl⟩ | ⟨-, queue, source, queueOf, ⟨rfl, rfl⟩ | ⟨entry, rest, popped, rfl⟩⟩
  · change (missing (state.enroll [student] sec true)).card + _ + 1 ≤ _
    simp only [pushesLeft, fill_studentsToKick, enroll_studentsToKick]
    omega
  · change (missing (state.enroll [student] sec true)).card + _ + 1 ≤ _
    have replaced := sum_kicksLeft_setQueue (state.enroll [student] sec true) sec [] source
    simp only [pushesLeft, enroll_studentsToKick, List.length_nil] at replaced ⊢
    omega
  · have kicked := card_missing_kick (state.enroll [student] sec true) sec (entryStudent entry)
    have replaced := sum_kicksLeft_setQueue
      ((state.enroll [student] sec true).enroll [entryStudent entry] sec false) sec rest source
    have shorter := (perm_of_popLeast popped).length_eq
    have bounded := length_le_of_queueOf queueOf
    change (missing ((state.enroll [student] sec true).enroll [entryStudent entry] sec
      false)).card + _ + 1 ≤ _
    simp only [enroll_studentsToKick] at replaced bounded
    simp only [List.length_cons] at shorter
    simp only [pushesLeft]
    omega

end EspWebsite.ClassChange.ClassChangeController
