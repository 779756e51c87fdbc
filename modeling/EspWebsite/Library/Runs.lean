import Mathlib

/-!
# Runs

A run of a system takes one action after another.  The rules carry what one step preserves
to whole runs.
-/

namespace Runs

universe u v

variable {State : Type u} {Action : Type v} (step : State → Action → State)

/-- The state after some actions. -/
def run (state : State) (actions : List Action) : State := actions.foldl step state

/-- A condition on each action of a run, in the state in which it is taken. -/
def AtEach (condition : State → Action → Prop) (state : State) (actions : List Action) : Prop :=
  ∀ before action, before ++ [action] <+: actions → condition (run step state before) action

/-- A property of each state of a run. -/
def Throughout (property : State → Prop) (state : State) (actions : List Action) : Prop :=
  ∀ before, before <+: actions → property (run step state before)

variable {step} {state : State} {action : Action} {actions : List Action}
  {condition exactly allowed : State → Action → Prop} {property sound : State → Prop}

theorem atEach_nil : AtEach step condition state [] := by
  intro before action isPrefix
  exact absurd (List.prefix_nil.mp isPrefix) (List.append_ne_nil_of_right_ne_nil _ (by simp))

theorem atEach_cons : AtEach step condition state (action :: actions) ↔
    condition state action ∧ AtEach step condition (step state action) actions := by
  constructor
  · intro each
    refine ⟨each [] action ⟨actions, rfl⟩, fun before later isPrefix => ?_⟩
    exact each (action :: before) later (List.cons_prefix_cons.mpr ⟨rfl, isPrefix⟩)
  · intro each before later isPrefix
    cases before with
    | nil =>
        rw [← (List.cons_prefix_cons.mp isPrefix).1] at each
        exact each.1
    | cons head before =>
        rcases List.cons_prefix_cons.mp isPrefix with ⟨same, isPrefix⟩
        rw [same]
        exact each.2 before later isPrefix

theorem throughout_nil : Throughout step property state [] ↔ property state := by
  constructor
  · intro holds
    exact holds [] (List.prefix_refl [])
  · intro holds before isPrefix
    rw [List.prefix_nil.mp isPrefix]
    exact holds

theorem throughout_cons : Throughout step property state (action :: actions) ↔
    property state ∧ Throughout step property (step state action) actions := by
  constructor
  · intro holds
    refine ⟨holds [] (List.nil_prefix), fun before isPrefix => ?_⟩
    exact holds (action :: before) (List.cons_prefix_cons.mpr ⟨rfl, isPrefix⟩)
  · intro holds before isPrefix
    cases before with
    | nil => exact holds.1
    | cons head before =>
        rcases List.cons_prefix_cons.mp isPrefix with ⟨same, isPrefix⟩
        rw [same]
        exact holds.2 before isPrefix

theorem Throughout.start (holds : Throughout step property state actions) : property state :=
  holds [] List.nil_prefix

instance AtEach.decidable (condition : State → Action → Prop)
    [∀ state action, Decidable (condition state action)] :
    ∀ state actions, Decidable (AtEach step condition state actions)
  | _, [] => isTrue atEach_nil
  | state, action :: actions =>
      have : Decidable (AtEach step condition (step state action) actions) :=
        AtEach.decidable condition (step state action) actions
      decidable_of_iff _ atEach_cons.symm

theorem throughout_of_steps
    (steps : ∀ state action, property state → allowed state action → property (step state action))
    (initially : property state) (allows : AtEach step allowed state actions) :
    Throughout step property state actions := by
  induction actions generalizing state with
  | nil => exact throughout_nil.mpr initially
  | cons action actions ih =>
      rw [atEach_cons] at allows
      exact throughout_cons.mpr ⟨initially, ih (steps state action initially allows.1) allows.2⟩

theorem atEach_of_steps
    (steps : ∀ state action, property state → allowed state action →
      property (step state action) ∧ condition state action)
    (initially : property state) (allows : AtEach step allowed state actions) :
    AtEach step condition state actions := by
  induction actions generalizing state with
  | nil => exact atEach_nil
  | cons action actions ih =>
      rw [atEach_cons] at allows
      rcases steps state action initially allows.1 with ⟨still, meets⟩
      exact atEach_cons.mpr ⟨meets, ih still allows.2⟩

theorem atEach_iff
    (steps : ∀ state action, sound state → allowed state action → sound (step state action) ∧
      (condition state action ↔ exactly state action))
    (initially : sound state) (allows : AtEach step allowed state actions) :
    AtEach step condition state actions ↔ AtEach step exactly state actions := by
  induction actions generalizing state with
  | nil => exact iff_of_true atEach_nil atEach_nil
  | cons action actions ih =>
      rw [atEach_cons] at allows ⊢
      rcases steps state action initially allows.1 with ⟨still, same⟩
      rw [same, ih still allows.2, atEach_cons]

theorem throughout_iff
    (steps : ∀ state action, sound state → property state → allowed state action →
      sound (step state action) ∧ (property (step state action) ↔ condition state action))
    (initially : sound state) (holds : property state)
    (allows : AtEach step allowed state actions) :
    Throughout step property state actions ↔ AtEach step condition state actions := by
  induction actions generalizing state with
  | nil => exact iff_of_true (throughout_nil.mpr holds) atEach_nil
  | cons action actions ih =>
      rw [atEach_cons] at allows
      rcases steps state action initially holds allows.1 with ⟨still, exactly⟩
      rw [throughout_cons, atEach_cons, ← exactly]
      constructor
      · intro further
        have next := further.2.start
        exact ⟨next, (ih still next allows.2).mp further.2⟩
      · intro meets
        exact ⟨holds, (ih still meets.1 allows.2).mpr meets.2⟩

end Runs
