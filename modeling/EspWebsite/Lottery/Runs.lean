import EspWebsite.Lottery.Assignments

/-!
# Runs of the main lottery

The main lottery fills one section after the other.  What every fill keeps, or keeps
exactly under a condition, a run keeps as well, under the condition before each of its
fills.
-/

namespace EspWebsite.Lottery.LotteryAssignmentController

open Python Loops Draws

variable {Weight : Type} {c : LotteryAssignmentController Weight}

/-! ## A condition before each fill -/

section BeforeFills

variable (condition : c.Section → ℕ → ℤ → c.State → Prop)

/-- The condition holds before each fill of the listed sections. -/
def BeforeSections (priority : ℕ) (rank : ℤ) (sections : List c.Section)
    (state : c.State) : Prop :=
  BeforeEach (fun si state => (fillSection si priority rank state).map Prod.snd)
    (fun si state => condition si priority rank state) sections state

/-- It holds before each fill of `fillShuffled`. -/
def BeforeShuffled (priority : ℕ) (rank : ℤ) (sections : List c.Section)
    (state : c.State) : Prop :=
  let shuffled := shuffle sections state.source
  BeforeSections condition priority rank shuffled.1 { state with source := shuffled.2 }

/-- It holds before each fill of `fillPriorityLevel`. -/
def BeforePriorityLevel (rank : ℤ) (priority : ℕ) (state : c.State) : Prop :=
  BeforeEach (fun length => c.fillShuffled priority rank (c.sectionsOfLength length))
    (fun length => BeforeShuffled condition priority rank (c.sectionsOfLength length))
    ((List.range c.numTimeslots).reverse.map (· + 1)) state

/-- It holds before each fill of `fillInterested`. -/
def BeforeInterested (rank : ℤ) (state : c.State) : Prop :=
  let shuffled := shuffle (List.finRange c.numSections) state.source
  BeforeSections condition 0 rank
    (shuffled.1.insertionSort fun left right => c.interestOrder left right)
    { state with source := shuffled.2 }

/-- It holds before each fill of `fillRank`. -/
def BeforeRank (rank : ℤ) (state : c.State) : Prop :=
  BeforeEach (c.fillPriorityLevel rank) (BeforePriorityLevel condition rank)
      ((List.range c.effectivePriorityLimit).map (· + 1)) state ∧
    ∀ filled, forLoop (c.fillPriorityLevel rank)
        ((List.range c.effectivePriorityLimit).map (· + 1)) state = .ok filled →
      BeforeInterested condition rank filled

def BeforeFills (source : Source) : Prop :=
  ∀ priorities, c.priorities source = .ok priorities →
    BeforeEach c.fillRank (BeforeRank condition)
      (if c.options.useStudentApps then [10, 5] else [10]) (c.clearAssignments priorities)

end BeforeFills

/-! ## What fills keep -/

/-- Every fill keeps an invariant, and a property exactly under a condition, and neither
looks at the random draws. -/
structure FillRule (invariant property : c.State → Prop)
    (condition : c.Section → ℕ → ℤ → c.State → Prop) : Prop where
  fills : ∀ {si priority rank state filled after}, priority ≤ c.effectivePriorityLimit →
    invariant state → fillSection si priority rank state = .ok (filled, after) →
    invariant after ∧ (property after ↔ property state ∧ condition si priority rank state)
  redraws : ∀ {state : c.State} {source : Source}, invariant state →
    invariant { state with source := source } ∧
      (property { state with source := source } ↔ property state)

namespace FillRule

variable {invariant property : c.State → Prop}
  {condition : c.Section → ℕ → ℤ → c.State → Prop} {priority : ℕ} {rank : ℤ}
  {sections : List c.Section} {state after : c.State} {source : Source}

theorem fillSections (rule : FillRule invariant property condition)
    (level : priority ≤ c.effectivePriorityLimit) (initially : invariant state)
    (returns : c.fillSections priority rank sections state = .ok after) :
    invariant after ∧
      (property after ↔ property state ∧
        BeforeSections condition priority rank sections state) := by
  apply forLoop_iff invariant property _ initially returns
  intro si _ state after kept step
  rcases map_eq_ok.mp step with ⟨result, filled, rfl⟩
  exact rule.fills level kept filled

theorem fillShuffled (rule : FillRule invariant property condition)
    (level : priority ≤ c.effectivePriorityLimit) (initially : invariant state)
    (returns : c.fillShuffled priority rank sections state = .ok after) :
    invariant after ∧
      (property after ↔ property state ∧
        BeforeShuffled condition priority rank sections state) := by
  rcases rule.redraws initially with ⟨redrawn, same⟩
  rcases rule.fillSections level redrawn returns with ⟨kept, exactly⟩
  refine ⟨kept, ?_⟩
  rw [exactly, same]
  rfl

theorem fillPriorityLevel (rule : FillRule invariant property condition)
    (level : priority ≤ c.effectivePriorityLimit) (initially : invariant state)
    (returns : c.fillPriorityLevel rank priority state = .ok after) :
    invariant after ∧
      (property after ↔ property state ∧
        BeforePriorityLevel condition rank priority state) := by
  apply forLoop_iff invariant property _ initially returns
  intro length _ state after kept step
  exact rule.fillShuffled level kept step

theorem fillInterested (rule : FillRule invariant property condition)
    (initially : invariant state) (returns : c.fillInterested rank state = .ok after) :
    invariant after ∧
      (property after ↔ property state ∧ BeforeInterested condition rank state) := by
  rcases rule.redraws initially with ⟨redrawn, same⟩
  rcases rule.fillSections (Nat.zero_le _) redrawn returns with ⟨kept, exactly⟩
  refine ⟨kept, ?_⟩
  rw [exactly, same]
  rfl

theorem fillRank (rule : FillRule invariant property condition) (initially : invariant state)
    (returns : c.fillRank rank state = .ok after) :
    invariant after ∧
      (property after ↔ property state ∧ BeforeRank condition rank state) := by
  rcases bind_eq_ok.mp returns with ⟨filled, levels, interested⟩
  have prioritized : invariant filled ∧
      (property filled ↔ property state ∧ BeforeEach (c.fillPriorityLevel rank)
        (BeforePriorityLevel condition rank)
        ((List.range c.effectivePriorityLimit).map (· + 1)) state) := by
    apply forLoop_iff invariant property _ initially levels
    intro priority member state after kept step
    rw [List.mem_map] at member
    rcases member with ⟨i, inRange, rfl⟩
    rw [List.mem_range] at inRange
    exact rule.fillPriorityLevel (by omega) kept step
  rcases rule.fillInterested prioritized.1 interested with ⟨kept, exactly⟩
  refine ⟨kept, ?_⟩
  rw [exactly, prioritized.2, and_assoc, BeforeRank]
  simp only [levels, Except.ok.injEq, forall_eq']

/-- A run of the main lottery keeps the invariant, and the property exactly if the
condition holds before each of its fills. -/
theorem mainLottery (rule : FillRule invariant property condition)
    (initially : ∀ priorities : c.Priorities, c.Registered priorities.1 →
      invariant (c.clearAssignments priorities) ∧ property (c.clearAssignments priorities))
    (returns : c.mainLottery source = .ok after) :
    invariant after ∧ (property after ↔ BeforeFills condition source) := by
  rcases bind_eq_ok.mp returns with ⟨priorities, prioritized, ranked⟩
  rcases initially priorities ((registered_priorities source).1 priorities prioritized) with
    ⟨holds, starts⟩
  rcases forLoop_iff invariant property
    (fun rank _ before between kept step => rule.fillRank kept step) holds ranked with
    ⟨kept, exactly⟩
  refine ⟨kept, ?_⟩
  rw [exactly, BeforeFills]
  simp only [starts, true_and, prioritized, Except.ok.injEq, forall_eq']

end FillRule

theorem mainLottery_invariant {invariant : c.State → Prop} {source : Source} {after : c.State}
    (fills : ∀ {si priority rank students state after}, Lawful state → invariant state →
      Taken state after si priority rank students → invariant after)
    (redraws : ∀ {state : c.State} {source : Source}, invariant state →
      invariant { state with source := source })
    (initially : ∀ priorities : c.Priorities, invariant (c.clearAssignments priorities))
    (returns : c.mainLottery source = .ok after) : Lawful after ∧ invariant after := by
  have rule : FillRule (fun state : c.State => Lawful state ∧ invariant state)
      (fun _ => True) (fun _ _ _ _ => True) := by
    constructor
    · intro si priority rank state filled after level kept step
      have lawful := (kept.1.fillSection level).1 _ step
      refine ⟨⟨lawful, ?_⟩, by simp⟩
      rcases fillSection_cases si priority rank (kept.1.capacity si) kept.1.program with
        refused | ⟨_, other, filling, outcome⟩
      · rw [refused] at step
        cases step
      · rw [filling] at step
        cases step
        rcases outcome with same | ⟨students, taken, -⟩
        · exact same ▸ kept.2
        · exact fills kept.1 kept.2 taken
    · intro state source kept
      exact ⟨⟨kept.1.congr rfl rfl rfl, redraws kept.2⟩, by simp⟩
  apply (rule.mainLottery _ returns).1
  intro priorities registered
  exact ⟨⟨lawful_clearAssignments registered, initially priorities⟩, trivial⟩

/-! ## Lunches -/

section BeforeLunches

variable (condition : List c.Timeslot → c.Student → c.LunchState → Prop)

def BeforeDay (attending : List c.Student) (day : List c.Timeslot) (lunch : c.LunchState) :
    Prop :=
  match lunchPeriods day with
  | [] => True
  | periods =>
      let order := lunchOrder lunch.1 periods attending
      BeforeEach (assignLunch periods) (condition periods) order.1
        ({ lunch.1 with source := order.2 }, lunch.2)

/-- It holds before each lunch that `assign_lunches` gives out. -/
def BeforeLunches (state : c.State) : Prop :=
  BeforeEach (assignDay (attendingStudents state))
    (BeforeDay condition (attendingStudents state)) c.lunchTimeslotIndices
    (state, enrollment state)

end BeforeLunches

theorem beforeLunches_iff (invariant property : c.LunchState → Prop)
    {condition : List c.Timeslot → c.Student → c.LunchState → Prop} {state : c.State}
    {after : c.LunchState}
    (lunches : ∀ {periods student lunch after}, invariant lunch →
      assignLunch periods student lunch = .ok after →
      invariant after ∧ (property after ↔ property lunch ∧ condition periods student lunch))
    (redraws : ∀ {lunch : c.LunchState} {source : Source}, invariant lunch →
      invariant ({ lunch.1 with source := source }, lunch.2) ∧
        (property ({ lunch.1 with source := source }, lunch.2) ↔ property lunch))
    (initially : invariant (state, enrollment state))
    (returns : forLoop (assignDay (attendingStudents state)) c.lunchTimeslotIndices
      (state, enrollment state) = .ok after) :
    invariant after ∧
      (property after ↔ property (state, enrollment state) ∧ BeforeLunches condition state) := by
  apply forLoop_iff invariant property _ initially returns
  intro day _ lunch after kept step
  rw [assignDay] at step
  rw [BeforeDay]
  cases found : lunchPeriods day with
  | nil =>
      rw [found] at step
      cases step
      exact ⟨kept, by simp⟩
  | cons ts periods =>
      rw [found] at step
      rcases redraws kept with ⟨redrawn, same⟩
      rw [← same]
      exact forLoop_iff invariant property
        (fun student _ before between kept step => lunches kept step) redrawn step

theorem mainLottery_of_computeAssignments {checkResult : Bool} {source : Source}
    {final : c.State} (computed : c.computeAssignments checkResult source = .ok final) :
    ∃ state, c.mainLottery source = .ok state ∧
      (if c.options.assignLunches then assignLunches state else .ok state) = .ok final := by
  rw [computeAssignments] at computed
  rcases bind_eq_ok.mp computed with ⟨state, assigned, remaining⟩
  refine ⟨state, assigned, ?_⟩
  have checks : ∀ lunched : c.State, (if checkResult = true then
      checkAssignments lunched >>= fun _ => .ok lunched else .ok lunched) = Except.ok final →
      lunched = final := by
    intro lunched checked
    split at checked
    · rcases andThen_eq_ok.mp checked with ⟨-, equal⟩
      cases equal
      rfl
    · cases checked
      rfl
  dsimp only [pure_eq_ok] at remaining
  cases lunching : c.options.assignLunches with
  | true =>
      rw [lunching, if_pos rfl] at remaining
      rcases bind_eq_ok.mp remaining with ⟨lunched, lunches, checked⟩
      rw [if_pos rfl, lunches, checks lunched checked]
  | false =>
      rw [lunching, if_neg Bool.false_ne_true] at remaining
      rw [if_neg Bool.false_ne_true, checks state remaining]

end EspWebsite.Lottery.LotteryAssignmentController
