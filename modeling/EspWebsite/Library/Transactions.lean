import EspWebsite.Library.Python

/-!
# Computations on a database

A computation on a state that may raise.  What it has changed before it raises stays
changed, unless it runs in a transaction, which puts the state back.
-/

namespace Transactions

open Python

universe u

/-- A computation that changes a state and returns or raises. -/
def Action (State α : Type u) := State → Raises α × State

namespace Action

variable {State α β : Type u}

def return' (value : α) : Action State α := fun state => (.ok value, state)

/-- Goes on with the value that a computation returns. -/
def andThen (action : Action State α) (rest : α → Action State β) : Action State β :=
  fun state =>
    match action state with
    | (.ok value, state) => rest value state
    | (.error raised, state) => (.error raised, state)

instance : Monad (Action State) where
  pure := return'
  bind := andThen

theorem id_map_action (action : Action State α) : id <$> action = action := by
  funext state
  change andThen action return' state = _
  rw [andThen]
  rcases action state with ⟨outcome, between⟩
  cases outcome <;> rfl

theorem bind_assoc_action {γ : Type u} (action : Action State α) (rest : α → Action State β)
    (last : β → Action State γ) :
    action >>= rest >>= last = action >>= fun value => rest value >>= last := by
  funext state
  change andThen (andThen action rest) last state =
    andThen action (fun value => andThen (rest value) last) state
  simp only [andThen]
  rcases action state with ⟨outcome, between⟩
  cases outcome <;> rfl

instance : LawfulMonad (Action State) :=
  LawfulMonad.mk' (Action State) id_map_action (fun _ _ => rfl) bind_assoc_action

def read : Action State State := fun state => (.ok state, state)

/-- Changes the state. -/
def change (update : State → State) : Action State PUnit := fun state => (.ok ⟨⟩, update state)

/-- What does not depend on the state. -/
def lift (computation : Raises α) : Action State α := fun state => (computation, state)

/-- Raises an exception. -/
def raise (raised : PyError) : Action State α := fun state => (.error raised, state)

/-- A statement under a condition. -/
def onlyIf (condition : Prop) [Decidable condition] (action : Action State PUnit) :
    Action State PUnit :=
  if condition then action else return' ⟨⟩

/-- A transaction: the state is put back if the computation raises. -/
def atomic (action : Action State α) : Action State α := fun state =>
  match action state with
  | (.ok value, after) => (.ok value, after)
  | (.error raised, _) => (.error raised, state)

def onPart {Part : Type u} (part : State → Part) (put : State → Part → State)
    (action : Action Part α) : Action State α := fun state =>
  ((action (part state)).1, put state (action (part state)).2)

def times (action : Action State α) : ℕ → Action State (List α)
  | 0 => return' []
  | count + 1 => andThen action fun value =>
      andThen (times action count) fun rest => return' (value :: rest)

/-- A loop over a list that carries a value along. -/
def forEach {Item : Type u} (body : Item → α → Action State α) :
    List Item → α → Action State α
  | [], value => return' value
  | item :: rest, value => andThen (body item value) (forEach body rest)

section Rules

variable {action : Action State α} {rest : α → Action State β} {state after : State}
  {value : α} {result : β} {raised : PyError}

@[simp] theorem pure_apply : (pure value : Action State α) state = (.ok value, state) := rfl

@[simp] theorem read_apply : (read : Action State State) state = (.ok state, state) := rfl

@[simp] theorem change_apply {update : State → State} :
    change update state = (.ok ⟨⟩, update state) := rfl

@[simp] theorem lift_apply {computation : Raises α} :
    (lift computation : Action State α) state = (computation, state) := rfl

@[simp] theorem raise_apply :
    (raise raised : Action State α) state = (.error raised, state) := rfl

@[simp] theorem return'_eq_pure : (return' value : Action State α) = pure value := rfl

@[simp] theorem read_bind {rest : State → Action State β} :
    (read >>= rest) state = rest state state := rfl

@[simp] theorem change_bind {update : State → State} {rest : PUnit → Action State β} :
    (change update >>= rest) state = rest ⟨⟩ (update state) := rfl

@[simp] theorem raise_bind :
    ((raise raised : Action State α) >>= rest) state = (.error raised, state) := rfl

theorem lift_bind_eq_ok {computation : Raises α} :
    ((lift computation : Action State α) >>= rest) state = (.ok result, after) ↔
      ∃ value, computation = .ok value ∧ rest value state = (.ok result, after) := by
  change andThen (lift computation) rest state = _ ↔ _
  rw [andThen, lift_apply]
  cases computation with
  | error raised => simp
  | ok value => simp

theorem lift_ok_bind : ((lift (.ok value) : Action State α) >>= rest) state = rest value state :=
  rfl

theorem lift_error_bind :
    ((lift (.error raised) : Action State α) >>= rest) state = (.error raised, state) := rfl

theorem bind_eq_ok : (action >>= rest) state = (.ok result, after) ↔
    ∃ value between, action state = (.ok value, between) ∧
      rest value between = (.ok result, after) := by
  change andThen action rest state = _ ↔ _
  rw [andThen]
  rcases action state with ⟨outcome, between⟩
  cases outcome with
  | error raised => simp
  | ok value =>
      constructor
      · intro later
        exact ⟨value, between, rfl, later⟩
      · rintro ⟨_, _, same, later⟩
        cases same
        exact later

theorem bind_of_ok {between : State} (first : action state = (.ok value, between)) :
    (action >>= rest) state = rest value between := by
  change andThen action rest state = _
  rw [andThen, first]

theorem bind_of_error (first : action state = (.error raised, after)) :
    (action >>= rest) state = (.error raised, after) := by
  change andThen action rest state = _
  rw [andThen, first]

theorem bind_eq_error : (action >>= rest) state = (.error raised, after) ↔
    action state = (.error raised, after) ∨
      ∃ value between, action state = (.ok value, between) ∧
        rest value between = (.error raised, after) := by
  change andThen action rest state = _ ↔ _
  rw [andThen]
  rcases action state with ⟨outcome, between⟩
  cases outcome with
  | error other => simp
  | ok value =>
      constructor
      · intro later
        exact Or.inr ⟨value, between, rfl, later⟩
      · rintro (early | ⟨_, _, same, later⟩)
        · cases early
        · cases same
          exact later

theorem onPart_eq_ok {Part : Type u} {part : State → Part} {put : State → Part → State}
    {action : Action Part α} : onPart part put action state = (.ok value, after) ↔
      ∃ changed, action (part state) = (.ok value, changed) ∧ after = put state changed := by
  rw [onPart]
  constructor
  · intro run
    cases run' : action (part state) with
    | mk outcome changed =>
        rw [run', Prod.mk.injEq] at run
        exact ⟨changed, Prod.ext run.1 rfl, run.2.symm⟩
  · rintro ⟨changed, run, rfl⟩
    rw [run]

theorem times_succ_eq_ok {count : ℕ} {values : List α} :
    times action (count + 1) state = (.ok values, after) ↔
      ∃ first between rest, action state = (.ok first, between) ∧
        times action count between = (.ok rest, after) ∧ values = first :: rest := by
  change (action >>= fun value => times action count >>= fun rest => pure (value :: rest))
    state = _ ↔ _
  rw [bind_eq_ok]
  constructor
  · rintro ⟨first, between, isFirst, last⟩
    rcases bind_eq_ok.mp last with ⟨rest, final, isRest, returned⟩
    cases returned
    exact ⟨first, between, rest, isFirst, isRest, rfl⟩
  · rintro ⟨first, between, rest, isFirst, isRest, rfl⟩
    exact ⟨first, between, isFirst, bind_eq_ok.mpr ⟨rest, after, isRest, rfl⟩⟩

theorem atomic_eq_ok : atomic action state = (.ok value, after) ↔
    action state = (.ok value, after) := by
  rw [atomic]
  rcases action state with ⟨outcome, between⟩
  cases outcome <;> simp

theorem atomic_eq_error : atomic action state = (.error raised, after) ↔
    (∃ between, action state = (.error raised, between)) ∧ after = state := by
  rw [atomic]
  rcases action state with ⟨outcome, between⟩
  cases outcome with
  | error other =>
      simp only [Prod.mk.injEq, Except.error.injEq]
      constructor
      · rintro ⟨same, unchanged⟩
        exact ⟨⟨between, same, rfl⟩, unchanged.symm⟩
      · rintro ⟨⟨_, same, _⟩, unchanged⟩
        exact ⟨same, unchanged.symm⟩
  | ok value => simp

theorem forEach_cons_eq_ok {Item : Type u} {body : Item → α → Action State α} {item : Item}
    {items : List Item} {final : α} :
    forEach body (item :: items) value state = (.ok final, after) ↔
      ∃ next between, body item value state = (.ok next, between) ∧
        forEach body items next between = (.ok final, after) :=
  bind_eq_ok

end Rules

/-! ## Invariants -/

/-- A computation that returns keeps an invariant of the state. -/
def Keeps (invariant : State → Prop) (action : Action State α) : Prop :=
  ∀ state value after, invariant state → action state = (.ok value, after) → invariant after

section Keeps

variable {invariant : State → Prop} {action : Action State α}

theorem keeps_pure (value : α) : Keeps invariant (pure value : Action State α) := by
  intro state result after holds run
  cases run
  exact holds

theorem keeps_lift (computation : Raises α) :
    Keeps invariant (lift computation : Action State α) := by
  intro state value after holds run
  cases congrArg Prod.snd run
  exact holds

theorem keeps_raise (raised : PyError) : Keeps invariant (raise raised : Action State α) := by
  intro state value after holds run
  cases congrArg Prod.fst run

theorem keeps_change {update : State → State}
    (updates : ∀ state, invariant state → invariant (update state)) :
    Keeps invariant (change update) := by
  intro state value after holds run
  cases run
  exact updates state holds

theorem Keeps.bind {rest : α → Action State β} (first : Keeps invariant action)
    (second : ∀ value, Keeps invariant (rest value)) : Keeps invariant (action >>= rest) := by
  intro state result after holds run
  rcases bind_eq_ok.mp run with ⟨value, between, step, last⟩
  exact second value between result after (first state value between holds step) last

theorem keeps_read_bind {rest : State → Action State β}
    (continues : ∀ state, invariant state → Keeps invariant (rest state)) :
    Keeps invariant (read >>= rest) := by
  intro state result after holds run
  exact continues state holds state result after holds run

theorem Keeps.atomic (keeps : Keeps invariant action) :
    Keeps invariant (Action.atomic action) := by
  intro state value after holds run
  exact keeps state value after holds (atomic_eq_ok.mp run)

theorem keeps_forEach {Item : Type u} {body : Item → α → Action State α} {items : List Item}
    (keeps : ∀ item ∈ items, ∀ value, Keeps invariant (body item value)) (value : α) :
    Keeps invariant (forEach body items value) := by
  induction items generalizing value with
  | nil => exact keeps_pure value
  | cons item rest ih =>
      exact (keeps item List.mem_cons_self value).bind
        (ih fun other member => keeps other (List.mem_cons_of_mem _ member))

end Keeps

/-- An action keeps an invariant even where it raises. -/
def Maintains (invariant : State → Prop) (action : Action State α) : Prop :=
  ∀ state, invariant state → invariant (action state).2

section Maintains

variable {invariant : State → Prop} {action : Action State α}

theorem maintains_pure (value : α) : Maintains invariant (pure value : Action State α) :=
  fun _ holds => holds

theorem maintains_lift (computation : Raises α) :
    Maintains invariant (lift computation : Action State α) := fun _ holds => holds

theorem maintains_change {update : State → State}
    (updates : ∀ state, invariant state → invariant (update state)) :
    Maintains invariant (change update) := updates

theorem Maintains.bind {rest : α → Action State β} (first : Maintains invariant action)
    (second : ∀ value, Maintains invariant (rest value)) :
    Maintains invariant (action >>= rest) := by
  intro state holds
  have between := first state holds
  cases run : action state with
  | mk outcome after =>
      rw [run] at between
      cases outcome with
      | ok value =>
          rw [bind_of_ok run]
          exact second value after between
      | error raised =>
          rw [bind_of_error run]
          exact between

theorem maintains_read_bind {rest : State → Action State β}
    (continues : ∀ state, invariant state → Maintains invariant (rest state)) :
    Maintains invariant (read >>= rest) :=
  fun state holds => continues state holds state holds

theorem Maintains.onlyIf {condition : Prop} [Decidable condition]
    {action : Action State PUnit} (maintains : Maintains invariant action) :
    Maintains invariant (Action.onlyIf condition action) := by
  rw [Action.onlyIf]
  split
  next => exact maintains
  next => exact maintains_pure _

theorem Maintains.atomic (maintains : Maintains invariant action) :
    Maintains invariant (Action.atomic action) := by
  intro state holds
  have after := maintains state holds
  rw [Action.atomic]
  split
  next value _ run =>
    rw [run] at after
    exact after
  next => exact holds

end Maintains

/-! ## Independence -/

/-- A computation that neither looks at what `forget` removes from the state nor changes it. -/
def Independent (forget : State → State) (action : Action State α) : Prop :=
  ∀ state, action (forget state) = ((action state).1, forget (action state).2)

section Independent

variable {forget : State → State} {action : Action State α}

theorem independent_pure (value : α) : Independent forget (pure value : Action State α) :=
  fun _ => rfl

theorem independent_lift (computation : Raises α) :
    Independent forget (lift computation : Action State α) :=
  fun _ => rfl

theorem independent_raise (raised : PyError) :
    Independent forget (raise raised : Action State α) :=
  fun _ => rfl

theorem independent_change {update : State → State}
    (commutes : ∀ state, update (forget state) = forget (update state)) :
    Independent forget (change update) := by
  intro state
  rw [change_apply, change_apply, commutes]

theorem Independent.bind {rest : α → Action State β} (first : Independent forget action)
    (second : ∀ value, Independent forget (rest value)) :
    Independent forget (action >>= rest) := by
  intro state
  change andThen action rest _ =
    ((andThen action rest state).1, forget (andThen action rest state).2)
  simp only [andThen, first state]
  rcases action state with ⟨outcome, between⟩
  cases outcome with
  | error raised => rfl
  | ok value => exact second value between

theorem independent_read_bind {rest : State → Action State β}
    (same : ∀ state, rest (forget state) = rest state)
    (continues : ∀ state, Independent forget (rest state)) :
    Independent forget (read >>= rest) := by
  intro state
  rw [read_bind, read_bind, same]
  exact continues state state

theorem Independent.atomic (independent : Independent forget action) :
    Independent forget (Action.atomic action) := by
  intro state
  simp only [Action.atomic, independent state]
  rcases action state with ⟨outcome, after⟩
  cases outcome <;> rfl

theorem independent_forEach {Item : Type u} {body : Item → α → Action State α}
    (independent : ∀ item value, Independent forget (body item value)) (items : List Item)
    (value : α) : Independent forget (forEach body items value) := by
  induction items generalizing value with
  | nil => exact independent_pure value
  | cons item rest ih => exact (independent item value).bind ih

end Independent

end Action

end Transactions
