import EspWebsite.Library.Python

/-!
# Loops that change a state

A `for` loop over a list and a `while` loop, whose body changes a state and may raise.
The rules carry an invariant through a run of such a loop, if need be under a condition
that the state meets before each of its rounds.
-/

namespace Loops

open Python

variable {Item State : Type}

/-- A `for` loop. -/
def forLoop (body : Item → State → Raises State) : List Item → State → Raises State
  | [], state => .ok state
  | item :: rest, state =>
      match body item state with
      | .error raised => .error raised
      | .ok state => forLoop body rest state

/-- A condition holds before each round that a run of a `for` loop reaches. -/
def BeforeEach (body : Item → State → Raises State) (condition : Item → State → Prop) :
    List Item → State → Prop
  | [], _ => True
  | item :: rest, state =>
      condition item state ∧
        ∀ after, body item state = .ok after → BeforeEach body condition rest after

/-- A `while` loop that does at most the given number of rounds.  Its body also tells
whether another round follows; nothing is returned if that number is too small. -/
def whileLoop (body : State → Raises (State × Bool)) : ℕ → State → Option (Raises State)
  | 0, _ => none
  | rounds + 1, state =>
      match body state with
      | .error raised => some (.error raised)
      | .ok (after, again) => if again then whileLoop body rounds after else some (.ok after)

/-- A condition holds before each round that a run of a `while` loop reaches. -/
def BeforeRounds (body : State → Raises (State × Bool)) (condition : State → Prop) :
    ℕ → State → Prop
  | 0, _ => True
  | rounds + 1, state =>
      condition state ∧
        ∀ after, body state = .ok (after, true) → BeforeRounds body condition rounds after

instance BeforeEach.decidable (body : Item → State → Raises State)
    (condition : Item → State → Prop) [∀ item state, Decidable (condition item state)] :
    ∀ items state, Decidable (BeforeEach body condition items state)
  | [], _ => isTrue trivial
  | item :: rest, state =>
      match first : body item state with
      | .error _ =>
          decidable_of_iff (condition item state) (by simp [BeforeEach, first])
      | .ok after =>
          have : Decidable (BeforeEach body condition rest after) :=
            BeforeEach.decidable body condition rest after
          decidable_of_iff (condition item state ∧ BeforeEach body condition rest after)
            (by simp [BeforeEach, first])

instance BeforeRounds.decidable (body : State → Raises (State × Bool))
    (condition : State → Prop) [∀ state, Decidable (condition state)] :
    ∀ rounds state, Decidable (BeforeRounds body condition rounds state)
  | 0, _ => isTrue trivial
  | rounds + 1, state =>
      match first : body state with
      | .ok (after, true) =>
          have : Decidable (BeforeRounds body condition rounds after) :=
            BeforeRounds.decidable body condition rounds after
          decidable_of_iff (condition state ∧ BeforeRounds body condition rounds after)
            (by simp [BeforeRounds, first])
      | .ok (_, false) => decidable_of_iff (condition state) (by simp [BeforeRounds, first])
      | .error _ => decidable_of_iff (condition state) (by simp [BeforeRounds, first])

/-! ## For loops -/

section ForLoop

variable {body : Item → State → Raises State} {condition : Item → State → Prop}
  {item : Item} {items : List Item} {state after : State}

@[simp] theorem forLoop_nil : forLoop body [] state = .ok state := rfl

theorem forLoop_cons_eq_ok : forLoop body (item :: items) state = .ok after ↔
    ∃ between, body item state = .ok between ∧ forLoop body items between = .ok after := by
  rw [forLoop]
  cases body item state with
  | error raised => simp
  | ok between => simp

theorem beforeEach_of_forall (holds : ∀ item ∈ items, ∀ state, condition item state) :
    BeforeEach body condition items state := by
  induction items generalizing state with
  | nil => trivial
  | cons item rest ih =>
      refine ⟨holds item List.mem_cons_self state, fun between _ => ih ?_⟩
      intro item member
      exact holds item (List.mem_cons_of_mem _ member)

theorem forLoop_returns_iff : (∃ after, forLoop body items state = .ok after) ↔
    BeforeEach body (fun item state => ∃ after, body item state = .ok after) items state := by
  induction items generalizing state with
  | nil => simp [BeforeEach]
  | cons item rest ih =>
      rw [BeforeEach]
      constructor
      · intro returns
        rcases returns with ⟨after, loop⟩
        rcases forLoop_cons_eq_ok.mp loop with ⟨between, step, others⟩
        refine ⟨⟨between, step⟩, ?_⟩
        intro other same
        rw [step] at same
        cases same
        exact ih.mp ⟨after, others⟩
      · intro returns
        rcases returns with ⟨⟨between, step⟩, others⟩
        rcases ih.mpr (others between step) with ⟨after, loop⟩
        exact ⟨after, forLoop_cons_eq_ok.mpr ⟨between, step, loop⟩⟩

theorem forLoop_returns_iff_forall {returns : Item → Prop}
    (rounds : ∀ item state, (∃ after, body item state = .ok after) ↔ returns item) :
    (∃ after, forLoop body items state = .ok after) ↔ ∀ item ∈ items, returns item := by
  rw [forLoop_returns_iff]
  simp only [rounds]
  induction items generalizing state with
  | nil => simp [BeforeEach]
  | cons item rest ih =>
      rw [BeforeEach, List.forall_mem_cons]
      apply and_congr_right
      intro first
      rcases (rounds item state).mpr first with ⟨between, step⟩
      simp only [step, Except.ok.injEq, forall_eq', ih]

/-- What every round makes of the items that are left and the state, a run of the loop
makes of all items. -/
theorem forLoop_consumes (invariant : List Item → State → Prop)
    (conditions : BeforeEach body condition items state)
    (consumes : ∀ item rest state after, condition item state → invariant (item :: rest) state →
      body item state = .ok after → invariant rest after)
    (initially : invariant items state) (returns : forLoop body items state = .ok after) :
    invariant [] after := by
  induction items generalizing state with
  | nil =>
      cases returns
      exact initially
  | cons item rest ih =>
      rcases forLoop_cons_eq_ok.mp returns with ⟨between, first, others⟩
      exact ih (conditions.2 between first)
        (consumes item rest state between conditions.1 initially first) others

theorem forLoop_preserves (invariant : State → Prop)
    (conditions : BeforeEach body condition items state)
    (preserves : ∀ item ∈ items, ∀ state after, condition item state → invariant state →
      body item state = .ok after → invariant after)
    (initially : invariant state) (returns : forLoop body items state = .ok after) :
    invariant after := by
  have left := forLoop_consumes
    (fun rest state => (∀ item ∈ rest, item ∈ items) ∧ invariant state) conditions
    (fun item rest state after holds kept first =>
      ⟨fun other member => kept.1 other (List.mem_cons_of_mem _ member),
        preserves item (kept.1 item List.mem_cons_self) state after holds kept.2 first⟩)
    ⟨fun _ member => member, initially⟩ returns
  exact left.2

/-- An invariant of the items that are left and the state, without a condition. -/
theorem forLoop_variant (invariant : List Item → State → Prop)
    (consumes : ∀ item rest state after, invariant (item :: rest) state →
      body item state = .ok after → invariant rest after)
    (initially : invariant items state) (returns : forLoop body items state = .ok after) :
    invariant [] after := by
  have conditions : BeforeEach body (fun _ _ => True) items state :=
    beforeEach_of_forall fun _ _ _ => trivial
  apply forLoop_consumes invariant conditions _ initially returns
  intro item rest state after _
  exact consumes item rest state after

theorem forLoop_invariant (invariant : State → Prop)
    (preserves : ∀ item ∈ items, ∀ state after, invariant state →
      body item state = .ok after → invariant after)
    (initially : invariant state) (returns : forLoop body items state = .ok after) :
    invariant after := by
  have conditions : BeforeEach body (fun _ _ => True) items state :=
    beforeEach_of_forall fun _ _ _ => trivial
  apply forLoop_preserves invariant conditions _ initially returns
  intro item member state after _
  exact preserves item member state after

theorem forLoop_establishes (invariant : State → Prop) (settled : Item → State → Prop)
    (rounds : ∀ item ∈ items, ∀ state after, invariant state → body item state = .ok after →
      invariant after ∧ settled item after ∧ ∀ other, settled other state → settled other after)
    (initially : invariant state) (returns : forLoop body items state = .ok after) :
    invariant after ∧ ∀ item ∈ items, settled item after := by
  have kept : ∀ rest : List Item, (∀ item ∈ rest, item ∈ items) → ∀ state : State,
      invariant state → forLoop body rest state = .ok after →
      invariant after ∧ (∀ item ∈ rest, settled item after) ∧
        ∀ other, settled other state → settled other after := by
    intro rest
    induction rest with
    | nil =>
        intro _ state holds returns
        cases returns
        exact ⟨holds, by simp, fun _ settles => settles⟩
    | cons item rest ih =>
        intro listed state holds returns
        rcases forLoop_cons_eq_ok.mp returns with ⟨between, first, others⟩
        rcases rounds item (listed item List.mem_cons_self) state between holds first with
          ⟨holds, settles, keeps⟩
        rcases ih (fun other member => listed other (List.mem_cons_of_mem _ member)) between
          holds others with ⟨holds, later, keepsLater⟩
        refine ⟨holds, ?_, fun other before => keepsLater other (keeps other before)⟩
        intro other member
        rcases List.mem_cons.mp member with rfl | inRest
        · exact keepsLater other settles
        · exact later other inRest
  have all := kept items (fun _ member => member) state initially returns
  exact ⟨all.1, all.2.1⟩

theorem forLoop_iff (invariant property : State → Prop)
    (rounds : ∀ item ∈ items, ∀ state after, invariant state → body item state = .ok after →
      invariant after ∧ (property after ↔ property state ∧ condition item state))
    (initially : invariant state) (returns : forLoop body items state = .ok after) :
    invariant after ∧
      (property after ↔ property state ∧ BeforeEach body condition items state) := by
  induction items generalizing state with
  | nil =>
      cases returns
      exact ⟨initially, by simp [BeforeEach]⟩
  | cons item rest ih =>
      rcases forLoop_cons_eq_ok.mp returns with ⟨between, first, others⟩
      rcases rounds item List.mem_cons_self state between initially first with ⟨kept, exactly⟩
      rcases ih (fun other member => rounds other (List.mem_cons_of_mem _ member)) kept others
        with ⟨keptAfter, exactlyAfter⟩
      refine ⟨keptAfter, ?_⟩
      rw [exactlyAfter, exactly, BeforeEach, and_assoc]
      constructor
      · intro holds
        refine ⟨holds.1, holds.2.1, ?_⟩
        intro after step
        rw [first] at step
        cases step
        exact holds.2.2
      · intro holds
        exact ⟨holds.1, holds.2.1, holds.2.2 between first⟩

end ForLoop

/-! ## Outcomes -/

/-- What a computation returns meets a condition, and what it raises is among some
exceptions. -/
def Ends {α : Type} (raises : Set PyError) (holds : α → Prop) (computation : Raises α) : Prop :=
  (∀ value, computation = .ok value → holds value) ∧
    ∀ raised, computation = .error raised → raised ∈ raises

section Ends

variable {α β : Type} {raises : Set PyError} {holds : α → Prop}

theorem ends_ok {value : α} (meets : holds value) : Ends raises holds (.ok value) := by
  constructor
  · intro other equal
    cases equal
    exact meets
  · intro raised equal
    cases equal

theorem ends_error {raised : PyError} (member : raised ∈ raises) :
    Ends raises holds (.error raised) := by
  constructor
  · intro other equal
    cases equal
  · intro other equal
    cases equal
    exact member

theorem Ends.exists_ok {computation : Raises α} (ends : Ends ∅ holds computation) :
    ∃ value, computation = .ok value ∧ holds value := by
  cases computed : computation with
  | error raised => exact absurd (ends.2 raised computed) id
  | ok value => exact ⟨value, rfl, ends.1 value computed⟩

theorem Ends.map {computation : Raises α} (ends : Ends raises holds computation) {f : α → β}
    {after : β → Prop} (implies : ∀ value, holds value → after (f value)) :
    Ends raises after (computation.map f) := by
  cases computed : computation with
  | error raised => exact ends_error (ends.2 raised computed)
  | ok value => exact ends_ok (implies value (ends.1 value computed))

theorem Ends.bind {computation : Raises α} (ends : Ends raises holds computation)
    {rest : α → Raises β} {after : β → Prop}
    (continues : ∀ value, holds value → Ends raises after (rest value)) :
    Ends raises after (computation >>= rest) := by
  cases computed : computation with
  | error raised => exact ends_error (ends.2 raised computed)
  | ok value => exact continues value (ends.1 value computed)

theorem ends_forLoop (invariant : State → Prop) {body : Item → State → Raises State}
    {items : List Item} {state : State}
    (rounds : ∀ item ∈ items, ∀ state, invariant state →
      Ends raises invariant (body item state))
    (initially : invariant state) : Ends raises invariant (forLoop body items state) := by
  induction items generalizing state with
  | nil => exact ends_ok initially
  | cons item rest ih =>
      have first := rounds item List.mem_cons_self state initially
      rw [forLoop]
      cases step : body item state with
      | error raised => exact ends_error (first.2 raised step)
      | ok between =>
          exact ih (fun other member => rounds other (List.mem_cons_of_mem _ member))
            (first.1 between step)

end Ends

/-! ## While loops -/

section WhileLoop

variable {body : State → Raises (State × Bool)} {condition : State → Prop}
  {rounds : ℕ} {state after : State}

theorem beforeRounds_of_forall (holds : ∀ state, condition state) :
    BeforeRounds body condition rounds state := by
  induction rounds generalizing state with
  | zero => trivial
  | succ rounds ih => exact ⟨holds state, fun between _ => ih⟩

/-- A loop that returns ends with a round, from a state that keeps what the rounds
preserve, which tells that no other round follows. -/
theorem whileLoop_exit (invariant : State → Prop)
    (conditions : BeforeRounds body condition rounds state)
    (preserves : ∀ state after, condition state → invariant state →
      body state = .ok (after, true) → invariant after)
    (initially : invariant state)
    (returns : whileLoop body rounds state = some (.ok after)) :
    ∃ last, condition last ∧ invariant last ∧ body last = .ok (after, false) := by
  induction rounds generalizing state with
  | zero => cases returns
  | succ rounds ih =>
      rw [whileLoop] at returns
      cases first : body state with
      | error raised =>
          rw [first] at returns
          cases returns
      | ok outcome =>
          rcases outcome with ⟨between, again⟩
          rw [first] at returns
          cases again with
          | true =>
              exact ih (conditions.2 between first)
                (preserves state between conditions.1 initially first) returns
          | false =>
              cases returns
              exact ⟨state, conditions.1, initially, first⟩

theorem whileLoop_returns_iff (ends : (whileLoop body rounds state).isSome) :
    (∃ after, whileLoop body rounds state = some (.ok after)) ↔
      BeforeRounds body (fun state => ∃ outcome, body state = .ok outcome) rounds state := by
  induction rounds generalizing state with
  | zero => cases ends
  | succ rounds ih =>
      rw [whileLoop] at ends ⊢
      rw [BeforeRounds]
      cases first : body state with
      | error raised => simp
      | ok outcome =>
          rcases outcome with ⟨between, again⟩
          rw [first] at ends
          cases again with
          | true => simpa using ih ends
          | false => simp

theorem whileLoop_isSome (measure : State → ℕ)
    (decreases : ∀ state after, body state = .ok (after, true) →
      measure after < measure state)
    (enough : measure state < rounds) : (whileLoop body rounds state).isSome := by
  induction rounds generalizing state with
  | zero => cases enough
  | succ rounds ih =>
      rw [whileLoop]
      cases first : body state with
      | error raised => rfl
      | ok outcome =>
          rcases outcome with ⟨between, again⟩
          cases again with
          | true =>
              have smaller := decreases state between first
              exact ih (by omega)
          | false => rfl

end WhileLoop

/-! ## Searches -/

/-- A search for the first number that is right, from a number on, which ends when it has found
it. -/
def searchFrom (right : ℕ → Prop) [DecidablePred right] : ℕ → ℕ → Option ℕ
  | 0, _ => none
  | rounds + 1, i => if right i then some i else searchFrom right rounds (i + 1)

section Search

variable {right : ℕ → Prop} [DecidablePred right] {rounds start found : ℕ}

theorem searchFrom_eq_some : searchFrom right rounds start = some found ↔
    start ≤ found ∧ found < start + rounds ∧ right found ∧
      ∀ earlier, start ≤ earlier → earlier < found → ¬right earlier := by
  induction rounds generalizing start with
  | zero =>
      refine iff_of_false (fun impossible => nomatch impossible) fun conditions => ?_
      omega
  | succ rounds ih =>
      rw [searchFrom]
      split
      next isRight =>
        constructor
        · intro same
          cases same
          exact ⟨le_rfl, by omega, isRight, fun earlier after before => by omega⟩
        · rintro ⟨after, _, _, none⟩
          rcases Nat.lt_or_eq_of_le after with later | same
          · exact absurd isRight (none start le_rfl later)
          · rw [same]
      next isWrong =>
        rw [ih]
        constructor
        · rintro ⟨after, near, isRight, none⟩
          refine ⟨by omega, by omega, isRight, fun earlier notBefore before => ?_⟩
          rcases Nat.lt_or_eq_of_le notBefore with later | same
          · exact none earlier later before
          · rw [← same]
            exact isWrong
        · rintro ⟨after, near, isRight, none⟩
          have later : start ≠ found := fun same => isWrong (same ▸ isRight)
          exact ⟨by omega, by omega, isRight, fun earlier notBefore => none earlier (by omega)⟩

theorem exists_searchFrom {last : ℕ} (after : start ≤ last) (isRight : right last) :
    ∃ rounds found, searchFrom right rounds start = some found := by
  have some : ∃ number, start ≤ number ∧ right number := ⟨last, after, isRight⟩
  have least := Nat.find_spec some
  refine ⟨Nat.find some - start + 1, Nat.find some, searchFrom_eq_some.mpr
    ⟨least.1, by omega, least.2, fun earlier notBefore before isRight => ?_⟩⟩
  exact Nat.find_min some before ⟨notBefore, isRight⟩

end Search

/-! ## Traces -/

/-- What the rounds of a `for` loop emit, up to the one that raises. -/
def forTrace {Event : Type} (body : Item → State → Raises State)
    (emit : Item → State → List Event) : List Item → State → List Event
  | [], _ => []
  | item :: rest, state =>
      emit item state ++
        match body item state with
        | .error _ => []
        | .ok after => forTrace body emit rest after

/-- What the rounds of a `while` loop emit. -/
def whileTrace {Event : Type} (body : State → Raises (State × Bool))
    (emit : State → List Event) : ℕ → State → List Event
  | 0, _ => []
  | rounds + 1, state =>
      emit state ++
        match body state with
        | .ok (after, true) => whileTrace body emit rounds after
        | _ => []

section Trace

variable {Event : Type} {condition : Item → State → Prop}

/-- Rounds that return, and keep an invariant of the state and of what has been emitted,
make a loop that does. -/
theorem forTrace_invariant (invariant : State → List Event → Prop)
    {body : Item → State → Raises State} {emit : Item → State → List Event}
    {items : List Item} {state : State} {events : List Event}
    (conditions : BeforeEach body condition items state)
    (rounds : ∀ item state events, condition item state → invariant state events →
      ∃ after, body item state = .ok after ∧ invariant after (events ++ emit item state))
    (initially : invariant state events) :
    ∃ after, forLoop body items state = .ok after ∧
      invariant after (events ++ forTrace body emit items state) := by
  induction items generalizing state events with
  | nil => exact ⟨state, rfl, by simpa [forTrace] using initially⟩
  | cons item rest ih =>
      rcases rounds item state events conditions.1 initially with ⟨between, step, kept⟩
      rcases ih (conditions.2 between step) kept with ⟨after, loop, holds⟩
      refine ⟨after, forLoop_cons_eq_ok.mpr ⟨between, step, loop⟩, ?_⟩
      rw [forTrace, step, ← List.append_assoc]
      exact holds

theorem whileTrace_invariant (invariant : State → List Event → Prop)
    {body : State → Raises (State × Bool)} {emit : State → List Event}
    {starts : State → Prop} {rounds : ℕ} {state : State} {events : List Event}
    (conditions : BeforeRounds body starts rounds state)
    (round : ∀ state events, starts state → invariant state events →
      ∃ after again, body state = .ok (after, again) ∧ invariant after (events ++ emit state))
    (initially : invariant state events) :
    (∀ raised, whileLoop body rounds state ≠ some (.error raised)) ∧
      ∃ after, invariant after (events ++ whileTrace body emit rounds state) := by
  induction rounds generalizing state events with
  | zero => exact ⟨by simp [whileLoop], state, by simpa [whileTrace] using initially⟩
  | succ rounds ih =>
      rcases round state events conditions.1 initially with ⟨after, again, step, kept⟩
      rw [whileLoop, whileTrace, step, ← List.append_assoc]
      cases again with
      | true => exact ih (conditions.2 after step) kept
      | false => exact ⟨by simp, after, by simpa using kept⟩

end Trace

end Loops
