import EspWebsite.ClassChange.Capacity

/-!
# Whom the pushes kick

A section's kick queue is emptied in the order of its entries.  The entries are those of
the newcomers, once each and with the scores of their old sections, unless the shuffle
repeats a student, a student was enrolled at several of the section's timeslots, or the
position of such a timeslot is not the index of a section with the right score.
-/

namespace EspWebsite.ClassChange.ClassChangeController

open Python Loops Draws

variable {c : ClassChangeController} {state after : c.State} {sec : c.Section}
  {student : c.Student}

/-! ## The kicks of a run -/

def kickedStudent (sec : c.Section) (student : c.Student) (state : c.State) : Option c.Student :=
  let state := state.enroll [student] sec true
  if 0 < state.sectionCapacities sec then none
  else
    match withQueue sec state with
    | .ok queued =>
        ((queued.studentsToKick sec).bind popLeast).map fun popped => entryStudent popped.1
    | .error _ => none

def pushKicks (sec : c.Section) (student : c.Student) (state : c.State) :
    List (c.Section × c.Student) :=
  (kickedStudent sec student state).toList.map fun kicked => (sec, kicked)

/-- The kicks that enrolling the students of a section back leads to. -/
def sectionKicks (sec : c.Section) (state : c.State × Bool) : List (c.Section × c.Student) :=
  forTrace (pushStudent sec) (pushKicks sec) (nonzero (toPush state.1 sec)) state.1

def roundKicks (state : c.State) : List (c.Section × c.Student) :=
  let state := state.sortSections fun sec => -state.sectionCapacities sec
  forTrace pushSection sectionKicks state.sortedSectionIndices (state, false)

/-- The kicks of `push_back_students`. -/
def kicks (rounds : ℕ) (state : c.State) : List (c.Section × c.Student) :=
  whileTrace pushRound roundKicks rounds { state with studentsToKick := fun _ => none }

def kicksFrom (events : List (c.Section × c.Student)) (sec : c.Section) : List c.Student :=
  (events.filter fun event => event.1 == sec).map Prod.snd

/-! ## The order they should have -/

variable (c) in
/-- Whether a student was originally enrolled in a section at a time of another one. -/
def heldDuring (student : c.Student) (sec old : c.Section) : Bool :=
  anyOf fun ts => c.sectionSchedules sec ts && c.enrollOrig student old ts

variable (c) in
/-- The score of a section that a student was enrolled in at a time of this one, 0 if there
is none. -/
def OldScore (sec : c.Section) (student : c.Student) (score : ℤ) : Prop :=
  (∃ old, c.heldDuring student sec old = true ∧ score = c.sectionScores old) ∨
    (∀ old, c.heldDuring student sec old = false) ∧ score = 0

variable (c) in
/-- Students are kicked from a section at most once each, in the order of the scores of old
sections. -/
def KickedInOrder (sec : c.Section) (students : List c.Student) : Prop :=
  students.Nodup ∧ ∃ scores : List ℤ, List.Forall₂ (c.OldScore sec) students scores ∧
    scores.Pairwise (· ≤ ·)

/-- When a push is about to build a kick queue, the positions of the timeslots at which its
students were enrolled are indices of sections with the scores of their old ones. -/
def RankedQueue (sec : c.Section) (student : c.Student) (state : c.State) : Prop :=
  state.sectionCapacities sec ≤ 0 → state.studentsToKick sec = none →
    ∀ other ∈ nonzero (kickable (state.enroll [student] sec true) sec),
      ∀ index ∈ c.oldSections other sec, ∃ old, c.heldDuring other sec old = true ∧
        c.scoreAt index = .ok (c.sectionScores old)

/-! ## Building a queue -/

def entryScore (entry : Entry c.numStudents) : ℤ := (ofLex entry).1

theorem entryScore_mono {first second : Entry c.numStudents} (ordered : first ≤ second) :
    entryScore first ≤ entryScore second := Prod.Lex.monotone_fst _ _ ordered

theorem heldDuring_eq_false (nowhere : c.oldSections student sec = []) (old : c.Section) :
    c.heldDuring student sec old = false := by
  rw [heldDuring, anyOf_eq_false]
  intro ts
  rw [Bool.and_eq_false_iff, or_iff_not_imp_left, Bool.not_eq_false]
  intro meets
  rw [oldSections, List.map_eq_nil_iff, List.filter_eq_nil_iff] at nowhere
  rcases List.mem_iff_getElem.mp (mem_nonzero.mpr meets) with ⟨position, bound, at'⟩
  have listed : (ts, position) ∈ (nonzero (c.sectionSchedules sec)).zipIdx :=
    List.mem_zipIdx_iff_getElem?.mpr (List.getElem?_eq_some_iff.mpr ⟨bound, at'⟩)
  have unheld := nowhere _ listed
  rw [anyOf_eq_true] at unheld
  rw [Bool.eq_false_iff]
  exact fun held => unheld ⟨old, held⟩

def Scored (sec : c.Section) (queue : List (Entry c.numStudents) × Source) : Prop :=
  ∀ entry ∈ queue.1, c.OldScore sec (entryStudent entry) (entryScore entry)

theorem Scored.put {queue : List (Entry c.numStudents) × Source} {score : ℤ}
    (scored : Scored sec queue) (old : c.OldScore sec student score) :
    Scored sec (c.put student score queue) := by
  intro entry member
  rcases List.mem_append.mp member with before | new
  · exact scored entry before
  · rw [List.mem_singleton.mp new]
    exact old

theorem Scored.putStudent {queue : List (Entry c.numStudents) × Source}
    (scored : Scored sec queue)
    (ranked : ∀ index ∈ c.oldSections student sec, ∃ old,
      c.heldDuring student sec old = true ∧ c.scoreAt index = .ok (c.sectionScores old)) :
    Ends ∅ (Scored sec) (c.putStudent sec student queue) := by
  rw [ClassChangeController.putStudent]
  cases held : c.oldSections student sec with
  | nil => exact ends_ok (scored.put (.inr ⟨heldDuring_eq_false held, rfl⟩))
  | cons first rest =>
      rw [held] at ranked
      apply ends_forLoop (Scored sec) _ scored
      intro index member queue scored
      rcases ranked index member with ⟨old, heldOld, score⟩
      rw [score]
      exact ends_ok (scored.put (.inl ⟨old, heldOld, rfl⟩))

theorem scored_buildQueue (ranked : ∀ other ∈ nonzero (kickable state sec),
    ∀ index ∈ c.oldSections other sec, ∃ old, c.heldDuring other sec old = true ∧
      c.scoreAt index = .ok (c.sectionScores old)) :
    ∃ built, buildQueue sec state = .ok built ∧ Scored sec built := by
  have ends : Ends ∅ (Scored sec) (buildQueue sec state) := by
    apply ends_forLoop (Scored sec)
    · intro student member queue scored
      exact scored.putStudent (ranked student (mem_shuffleRows member))
    · intro entry member
      cases member
  exact ends.exists_ok

/-! ## Emptying a queue -/

/-- The entries that have been kicked from a section and those that are left. -/
structure Ranked (sec : c.Section) (kicked rest : List (Entry c.numStudents)) : Prop where
  distinct : ((kicked ++ rest).map entryStudent).Nodup
  sorted : kicked.Pairwise (· ≤ ·)
  before : ∀ entry ∈ kicked, ∀ later ∈ rest, entry ≤ later
  scores : ∀ entry ∈ kicked ++ rest, c.OldScore sec (entryStudent entry) (entryScore entry)

theorem Ranked.kickedInOrder {kicked rest : List (Entry c.numStudents)}
    (ranked : Ranked sec kicked rest) : c.KickedInOrder sec (kicked.map entryStudent) := by
  constructor
  · have distinct := ranked.distinct
    rw [List.map_append] at distinct
    exact distinct.of_append_left
  · refine ⟨kicked.map entryScore, ?_, ?_⟩
    · rw [List.forall₂_map_left_iff, List.forall₂_map_right_iff, List.forall₂_same]
      intro entry member
      exact ranked.scores entry (List.mem_append_left _ member)
    · exact ranked.sorted.map entryScore fun _ _ => entryScore_mono

theorem Ranked.kick {kicked queue rest : List (Entry c.numStudents)}
    {entry : Entry c.numStudents} (ranked : Ranked sec kicked queue)
    (popped : popLeast queue = some (entry, rest)) : Ranked sec (kicked ++ [entry]) rest := by
  have perm := perm_of_popLeast popped
  have whole : (kicked ++ queue).Perm (kicked ++ [entry] ++ rest) := by
    rw [List.append_assoc]
    exact perm.append_left kicked
  have inQueue : entry ∈ queue := perm.mem_iff.mpr List.mem_cons_self
  refine ⟨?_, ?_, ?_, ?_⟩
  · exact (whole.map entryStudent).nodup_iff.mp ranked.distinct
  · rw [List.pairwise_append]
    refine ⟨ranked.sorted, List.pairwise_singleton _ _, ?_⟩
    intro earlier member last inLast
    rw [List.mem_singleton.mp inLast]
    exact ranked.before earlier member entry inQueue
  · intro earlier member later remains
    have inQueue' : later ∈ queue := perm.mem_iff.mpr (List.mem_cons_of_mem _ remains)
    rcases List.mem_append.mp member with old | new
    · exact ranked.before earlier old later inQueue'
    · rw [List.mem_singleton.mp new]
      exact le_of_popLeast popped inQueue'
  · intro other member
    exact ranked.scores other (whole.mem_iff.mpr member)

/-! ## A push -/

/-- What has been kicked from each section, against its queue. -/
def KickedSoFar (state : c.State) (events : List (c.Section × c.Student)) : Prop :=
  ∀ sec, (state.studentsToKick sec = none → kicksFrom events sec = []) ∧
    ∀ rest, state.studentsToKick sec = some rest → ∃ kicked,
      kicksFrom events sec = kicked.map entryStudent ∧ Ranked sec kicked rest

theorem kicksFrom_append (events later : List (c.Section × c.Student)) (sec : c.Section) :
    kicksFrom (events ++ later) sec = kicksFrom events sec ++ kicksFrom later sec := by
  simp [kicksFrom]

theorem kicksFrom_pushKicks (sec : c.Section) (student : c.Student) (state : c.State)
    (other : c.Section) : kicksFrom (pushKicks sec student state) other =
      if sec = other then (kickedStudent sec student state).toList else [] := by
  rw [pushKicks]
  cases kickedStudent sec student state with
  | none => simp [kicksFrom]
  | some kicked =>
      by_cases same : sec = other
      · simp [kicksFrom, same]
      · simp [kicksFrom, same]

theorem kickedStudent_of_queueOf {queue : List (Entry c.numStudents)} {source : Source}
    (full : state.sectionCapacities sec ≤ 0)
    (queueOf : QueueOf (state.enroll [student] sec true) sec queue source) :
    kickedStudent sec student state =
      (popLeast queue).map fun popped => entryStudent popped.1 := by
  have queued : withQueue sec (state.enroll [student] sec true) =
      .ok ((state.enroll [student] sec true).setQueue sec queue source) :=
    withQueue_eq_ok.mpr ⟨queue, source, queueOf, rfl⟩
  rw [kickedStudent]
  simp only [enroll_sectionCapacities, not_lt.mpr full, if_false, queued]
  simp [State.setQueue]

theorem ranked_of_push {events : List (c.Section × c.Student)}
    (kept : KickedSoFar state events) (fair : FairQueue sec student state)
    (ranked : RankedQueue sec student state) (full : state.sectionCapacities sec ≤ 0) :
    ∃ queue source kicked, QueueOf (state.enroll [student] sec true) sec queue source ∧
      kicksFrom events sec = kicked.map entryStudent ∧ Ranked sec kicked queue := by
  cases queued : state.studentsToKick sec with
  | some queue =>
      rcases (kept sec).2 queue queued with ⟨kicked, listed, order⟩
      exact ⟨queue, state.source, kicked, .inl ⟨queued, rfl⟩, listed, order⟩
  | none =>
      rcases fair full queued with ⟨distinct, single⟩
      rcases scored_buildQueue (ranked full queued) with ⟨built, building, scored⟩
      have students := buildQueue_perm distinct single building
      refine ⟨built.1, built.2, [], .inr ⟨queued, building⟩, (kept sec).1 queued, ?_⟩
      refine ⟨?_, .nil, by simp, scored⟩
      exact students.nodup_iff.mpr (nonzero_nodup _)

theorem KickedSoFar.pushStudent {events : List (c.Section × c.Student)}
    (kept : KickedSoFar state events) (fair : FairQueue sec student state)
    (ranked : RankedQueue sec student state) :
    ∃ after, pushStudent sec student state = .ok after ∧
      KickedSoFar after (events ++ pushKicks sec student state) := by
  by_cases space : 0 < state.sectionCapacities sec
  · refine ⟨_, pushStudent_eq_ok.mpr (.inl ⟨space, rfl⟩), ?_⟩
    have nobody : pushKicks sec student state = [] := by
      simp [pushKicks, kickedStudent, space]
    rw [nobody, List.append_nil]
    exact kept
  · rw [not_lt] at space
    rcases ranked_of_push kept fair ranked space with ⟨queue, source, kicked, queueOf, listed, order⟩
    have events' : ∀ other, kicksFrom (events ++ pushKicks sec student state) other =
        kicksFrom events other ++ if sec = other then
          ((popLeast queue).map fun popped => entryStudent popped.1).toList else [] := by
      intro other
      rw [kicksFrom_append, kicksFrom_pushKicks, kickedStudent_of_queueOf space queueOf]
    have others : ∀ (left : List (Entry c.numStudents)) (between : c.State) (source : Source),
        between.studentsToKick = state.studentsToKick →
        (∃ kicked, kicksFrom (events ++ pushKicks sec student state) sec =
          kicked.map entryStudent ∧ Ranked sec kicked left) →
        KickedSoFar (between.setQueue sec left source)
          (events ++ pushKicks sec student state) := by
      intro left between source same here other
      by_cases apart : other = sec
      · subst apart
        simp only [State.setQueue, Function.update_self]
        refine ⟨by simp, ?_⟩
        intro rest equal
        cases equal
        exact here
      · simp only [State.setQueue, Function.update_of_ne apart, same]
        rw [events', if_neg (Ne.symm apart), List.append_nil]
        exact kept other
    cases popped : popLeast queue with
    | none =>
        have empty := popLeast_eq_none.mp popped
        subst empty
        refine ⟨_, pushStudent_eq_ok.mpr (.inr ⟨space, _, _, queueOf, .inl ⟨rfl, rfl⟩⟩), ?_⟩
        apply others [] (state.enroll [student] sec true) source rfl
        refine ⟨kicked, ?_, order⟩
        rw [events', popped, listed]
        simp
    | some first =>
        rcases first with ⟨entry, rest⟩
        refine ⟨_, pushStudent_eq_ok.mpr
          (.inr ⟨space, _, _, queueOf, .inr ⟨entry, rest, popped, rfl⟩⟩), ?_⟩
        apply others rest
          ((state.enroll [student] sec true).enroll [entryStudent entry] sec false) source rfl
        refine ⟨kicked ++ [entry], ?_, order.kick popped⟩
        rw [events', popped, listed]
        simp

/-! ## Runs -/

/-- Kick queues are built from distinct students who were enrolled at one of the timeslots
at most, with the scores of their old sections. -/
def FairlyRanked (sec : c.Section) (student : c.Student) (state : c.State) : Prop :=
  FairQueue sec student state ∧ RankedQueue sec student state

theorem KickedSoFar.pushSection {events : List (c.Section × c.Student)}
    {between : c.State × Bool} (kept : KickedSoFar between.1 events)
    (conditions : BeforeEach (ClassChangeController.pushStudent sec) (FairlyRanked sec)
      (nonzero (toPush between.1 sec)) between.1) :
    ∃ after, pushSection sec between = .ok after ∧
      KickedSoFar after.1 (events ++ sectionKicks sec between) := by
  rcases forTrace_invariant KickedSoFar conditions
    (fun student state events fair kept => kept.pushStudent fair.1 fair.2) kept with
    ⟨pushed, loop, kept⟩
  exact ⟨_, map_eq_ok.mpr ⟨pushed, loop, rfl⟩, kept⟩

theorem KickedSoFar.pushRound {events : List (c.Section × c.Student)}
    (kept : KickedSoFar state events)
    (conditions : let state := state.sortSections fun sec => -state.sectionCapacities sec
      BeforeEach ClassChangeController.pushSection
        (fun sec state => BeforeEach (ClassChangeController.pushStudent sec) (FairlyRanked sec)
          (nonzero (toPush state.1 sec)) state.1)
        state.sortedSectionIndices (state, false)) :
    ∃ after again, pushRound state = .ok (after, again) ∧
      KickedSoFar after (events ++ roundKicks state) := by
  rcases forTrace_invariant (fun (between : c.State × Bool) events =>
    KickedSoFar between.1 events) conditions
    (fun sec between events before kept => kept.pushSection before) kept with
    ⟨after, round, kept⟩
  exact ⟨after.1, after.2, round, kept⟩

/-- When every kick queue is built from distinct students who were enrolled at one timeslot
at most, and with the scores of their old sections, each section kicks its newcomers at
most once and in the order of these scores, and no push raises. -/
theorem kicks_inOrder (c : ClassChangeController) (rounds : ℕ) (state : c.State)
    (conditions : BeforePushes FairlyRanked rounds state) :
    (∀ raised, pushBackStudents rounds state ≠ some (.error raised)) ∧
      ∀ sec, c.KickedInOrder sec (kicksFrom (kicks rounds state) sec) := by
  have initially : KickedSoFar { state with studentsToKick := fun _ => none } [] := by
    intro sec
    exact ⟨fun _ => rfl, by simp⟩
  rcases whileTrace_invariant KickedSoFar conditions
    (fun state events before kept => kept.pushRound before) initially with
    ⟨returns, after, kept⟩
  refine ⟨returns, ?_⟩
  intro sec
  rw [List.nil_append] at kept
  cases queued : after.studentsToKick sec with
  | none =>
      have nobody : kicksFrom (kicks rounds state) sec = [] := (kept sec).1 queued
      rw [nobody]
      exact ⟨List.nodup_nil, [], .nil, .nil⟩
  | some rest =>
      rcases (kept sec).2 rest queued with ⟨kicked, listed, order⟩
      have same : kicksFrom (kicks rounds state) sec = kicked.map entryStudent := listed
      rw [same]
      exact order.kickedInOrder

instance : Decidable (FairlyRanked sec student state) :=
  inferInstanceAs (Decidable (_ ∧ (_ → _ → ∀ _ ∈ _, ∀ _ ∈ _, ∃ _, _)))

instance (rounds : ℕ) (state : c.State) : Decidable (BeforePushes FairlyRanked rounds state) := by
  unfold BeforePushes
  infer_instance

/-- The two newcomers of the crowded section are kicked, who had nothing before. -/
theorem kicks_inOrder_crowded : ∃ filled, crowded.fillAll (fun _ => 1) = .ok filled ∧
    (∀ raised, pushBackStudents 2 filled ≠ some (.error raised)) ∧
      ∀ sec, crowded.KickedInOrder sec (kicksFrom (kicks 2 filled) sec) := by
  have filling : ((crowded.fillAll fun _ => 1).map fun filled =>
      decide (BeforePushes FairlyRanked 2 filled)) = .ok true := by
    decide
  rcases map_eq_ok.mp filling with ⟨filled, returns, fair⟩
  exact ⟨filled, returns, kicks_inOrder crowded 2 filled (of_decide_eq_true fair)⟩

/-! ## A newcomer with a section in demand -/

/-- Two students of section 1 want to go to section 2, which is full; one student of that
section and one without any come to section 1.  Nobody asks for section 0. -/
def demanded : ClassChangeController where
  numStudents := 4
  numSections := 3
  numTimeslots := 1
  enrolled := fun student sec =>
    (student.val < 2 && sec == 1) || (student == 2 && sec == 2)
  requested := fun student sec => if student.val < 2 then sec == 2 else sec == 1
  prioritized := fun _ _ _ => false
  priorityLimit := 0
  sectionSchedules := fun _ _ => true
  parentClasses := fun sec => sec
  capacity := fun sec => if sec = 0 then 5 else if sec = 1 then 2 else 0
  otherStudents := fun _ => 0
  sectionGradeMin := fun _ => 7
  sectionGradeMax := fun _ => 12
  studentGrades := fun _ => 9
  checkGrade := false
  lunchByDay := []

/-- The student who comes from section 2, with the score 2, is kicked before the one who
comes from nowhere, by the score of section 0. -/
theorem demanded_outOfOrder : ∃ filled, demanded.fillAll (fun _ => 1) = .ok filled ∧
    ¬ ∀ sec, demanded.KickedInOrder sec (kicksFrom (kicks 3 filled) sec) := by
  have kicked : ((demanded.fillAll fun _ => 1).map fun filled =>
      kicksFrom (kicks 3 filled) (1 : Fin 3)) = .ok [(2 : Fin 4), (3 : Fin 4)] := by
    decide
  rcases map_eq_ok.mp kicked with ⟨filled, returns, listed⟩
  refine ⟨filled, returns, ?_⟩
  intro inOrder
  rcases (inOrder (1 : Fin 3)).2 with ⟨scores, old, sorted⟩
  rw [listed] at old
  cases old with
  | @cons _ firstScore _ others first rest =>
      cases rest with
      | @cons _ secondScore _ _ second rest =>
          have ordered : firstScore ≤ secondScore :=
            (List.pairwise_cons.mp sorted).1 secondScore List.mem_cons_self
          have two : firstScore = 2 := by
            have score : ∀ old, demanded.heldDuring (2 : Fin 4) (1 : Fin 3) old = true →
                demanded.sectionScores old = 2 := by
              decide
            rcases first with ⟨old, held, rfl⟩ | ⟨nowhere, -⟩
            · exact score old held
            · exact absurd (nowhere (2 : Fin 3)) (by decide)
          have zero : secondScore = 0 := by
            have nowhere : ∀ old,
                demanded.heldDuring (3 : Fin 4) (1 : Fin 3) old = false := by
              decide
            rcases second with ⟨old, held, -⟩ | ⟨-, none⟩
            · rw [nowhere old] at held
              cases held
            · exact none
          omega

end EspWebsite.ClassChange.ClassChangeController
