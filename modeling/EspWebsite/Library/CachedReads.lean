import EspWebsite.Library.Runs

/-!
# Cached reads

Functions of a database whose answers are stored until a write voids them.  Answers stay right
exactly if each write voids the answers that it changes.
-/

namespace CachedReads

universe u v w x

/-- Functions whose answers are stored.  Computing one can raise, and can write; a write tells which
stored answers it voids; a key is asked about only while it is alive. -/
structure Functions (Db : Type u) (Key : Type v) (Value : Type w) (Write : Type x) where
  compute : Key → Db → Option Value × Db
  write : Db → Write → Db
  voids : Db → Write → Key → Bool
  Alive : Db → Key → Prop
  /-- What computing writes does not change the answer. -/
  again : ∀ key db value, (compute key db).1 = some value →
    (compute key (compute key db).2).1 = some value

/-- A step: an answer is read, or something is written. -/
inductive Step (Key : Type v) (Write : Type x) where
  | read (key : Key)
  | write (write : Write)

/-- A database, and the answers that are stored. -/
structure State (Db : Type u) (Key : Type v) (Value : Type w) where
  db : Db
  stored : Key → Option Value

variable {Db : Type u} {Key : Type v} {Value : Type w} {Write : Type x}

namespace Functions

variable (functions : Functions Db Key Value Write)

/-- The answer that a read gives: the stored one, or else the one that is computed. -/
def answer (state : State Db Key Value) (key : Key) : Option Value :=
  match state.stored key with
  | some value => some value
  | none => (functions.compute key state.db).1

/-- The state after a step.  An answer that was computed is stored. -/
def next [DecidableEq Key] (state : State Db Key Value) : Step Key Write → State Db Key Value
  | .read key =>
      match state.stored key with
      | some _ => state
      | none =>
          { db := (functions.compute key state.db).2
            stored := Function.update state.stored key (functions.compute key state.db).1 }
  | .write write =>
      { db := functions.write state.db write
        stored := fun key =>
          if functions.voids state.db write key then none else state.stored key }

/-- Each read answers what computing would answer. -/
def Correct (state : State Db Key Value) : Prop :=
  ∀ key, functions.Alive state.db key →
    functions.answer state key = (functions.compute key state.db).1

/-- The answers that a step neither voids nor stores, and that are alive afterwards, are computed
as before. -/
def Spares (state : State Db Key Value) : Step Key Write → Prop
  | .read read => state.stored read = none → ∀ key, state.stored key ≠ none →
      functions.Alive (functions.compute read state.db).2 key →
      (functions.compute key (functions.compute read state.db).2).1 =
        (functions.compute key state.db).1
  | .write write => ∀ key, state.stored key ≠ none → functions.voids state.db write key = false →
      functions.Alive (functions.write state.db write) key →
      (functions.compute key (functions.write state.db write)).1 =
        (functions.compute key state.db).1

/-- What is stored and alive after a step was alive before. -/
def Persists [DecidableEq Key] (state : State Db Key Value) (step : Step Key Write) : Prop :=
  ∀ key, state.stored key ≠ none → functions.Alive (functions.next state step).db key →
    functions.Alive state.db key

variable [DecidableEq Key] {functions} {state : State Db Key Value} {step : Step Key Write}

theorem correct_iff : functions.Correct state ↔ ∀ key value, state.stored key = some value →
    functions.Alive state.db key → (functions.compute key state.db).1 = some value := by
  constructor
  · intro correct key value isStored alive
    have same := correct key alive
    rw [answer, isStored] at same
    exact same.symm
  · intro correct key alive
    rw [answer]
    cases isStored : state.stored key with
    | none => rfl
    | some value => exact (correct key value isStored alive).symm

/-- A step keeps answers right exactly if it spares the others. -/
theorem correct_next (correct : functions.Correct state)
    (persists : functions.Persists state step) :
    functions.Correct (functions.next state step) ↔ functions.Spares state step := by
  rw [correct_iff] at correct ⊢
  cases step with
  | read read =>
      rw [Spares]
      cases isRead : state.stored read with
      | some value =>
          have same : functions.next state (.read read) = state := by rw [next, isRead]
          rw [same]
          exact iff_of_true correct fun impossible => by cases impossible
      | none =>
          have same : functions.next state (.read read) =
              { db := (functions.compute read state.db).2
                stored := Function.update state.stored read
                  (functions.compute read state.db).1 } := by
            rw [next, isRead]
          rw [Persists, same] at persists
          rw [same]
          dsimp only at persists ⊢
          constructor
          · intro after _ key isStored alive
            rcases Option.ne_none_iff_exists'.mp isStored with ⟨value, isValue⟩
            have different : key ≠ read := by
              intro sameKey
              rw [sameKey, isRead] at isValue
              cases isValue
            have now := after key value (by rw [Function.update_of_ne different, isValue]) alive
            exact now.trans (correct key value isValue (persists key isStored alive)).symm
          · intro spares key value isStored alive
            by_cases sameKey : key = read
            · rw [sameKey, Function.update_self] at isStored
              rw [sameKey]
              exact functions.again read state.db value isStored
            · rw [Function.update_of_ne sameKey] at isStored
              have known : state.stored key ≠ none := by
                rw [isStored]
                exact Option.some_ne_none value
              rw [spares rfl key known alive]
              exact correct key value isStored (persists key known alive)
  | write write =>
      rw [Spares]
      constructor
      · intro after key isStored kept alive
        rcases Option.ne_none_iff_exists'.mp isStored with ⟨value, isValue⟩
        have now := after key value (by rw [next]; simp [kept, isValue]) alive
        exact now.trans (correct key value isValue (persists key isStored alive)).symm
      · intro spares key value isStored alive
        rw [next] at isStored
        dsimp only at isStored
        cases voided : functions.voids state.db write key with
        | true =>
            rw [voided, if_pos rfl] at isStored
            cases isStored
        | false =>
            rw [voided, if_neg Bool.false_ne_true] at isStored
            have known : state.stored key ≠ none := by
              rw [isStored]
              exact Option.some_ne_none value
            rw [next, spares key known voided alive]
            exact correct key value isStored (persists key known alive)

theorem correct_throughout_iff {sound : State Db Key Value → Prop}
    {condition : State Db Key Value → Step Key Write → Prop} {db : Db}
    {steps : List (Step Key Write)}
    (stays : ∀ state step, sound state → sound (functions.next state step))
    (persists : ∀ state step, sound state → functions.Persists state step)
    (exactly : ∀ state step, sound state → (functions.Spares state step ↔ condition state step))
    (initially : sound ⟨db, fun _ => none⟩) :
    Runs.Throughout functions.next functions.Correct ⟨db, fun _ => none⟩ steps ↔
      Runs.AtEach functions.next condition ⟨db, fun _ => none⟩ steps := by
  have keeps (state : State Db Key Value) (step : Step Key Write) (isSound : sound state)
      (correct : functions.Correct state) (_ : True) : sound (functions.next state step) ∧
        (functions.Correct (functions.next state step) ↔ condition state step) := by
    refine ⟨stays state step isSound, ?_⟩
    rw [correct_next correct (persists state step isSound)]
    exact exactly state step isSound
  refine Runs.throughout_iff keeps initially ?_ fun _ _ _ => trivial
  exact fun _ _ => rfl

end Functions

end CachedReads
