import Mathlib

/-!
# Queries

A query is a tree of lookups.  Those that are not below a negation look at one row, which is joined
from the rows that are related to an object; below a negation each one looks at a row of its own.
-/

namespace Queries

universe u v w

inductive Connector where
  | and
  | or
  deriving DecidableEq

/-- A condition on objects: a lookup, that another query selects the object, or conditions that are
connected. -/
inductive Clause (Lookup : Type u) where
  | lookup (test : Lookup)
  | pkIn (subquery : Clause Lookup)
  | node (connector : Connector) (negated : Bool) (children : List (Clause Lookup))

/-- The rows that can be joined to an object, and the lookups that hold at such a row. -/
structure Model (Lookup : Type u) (Object : Type v) (Row : Type w) where
  rows : Object → List Row
  holds : Lookup → Object → Row → Bool

/-- A query object. -/
structure Q (Lookup : Type u) where
  connector : Connector := .and
  negated : Bool := false
  children : List (Clause Lookup) := []

variable {Lookup : Type u} {Object : Type v} {Row : Type w}

/-! ## The meaning of a query -/

namespace Clause

mutual

/-- Whether there is no lookup in a condition; such a condition is left out of the query. -/
def isVacuous : Clause Lookup → Bool
  | .lookup _ => false
  | .pkIn _ => false
  | .node _ _ children => areVacuous children

def areVacuous : List (Clause Lookup) → Bool
  | [] => true
  | clause :: clauses => clause.isVacuous && areVacuous clauses

end

mutual

/-- Whether a condition holds of an object at a row, or below a negation. -/
def Holds (model : Model Lookup Object Row) (object : Object) :
    Clause Lookup → Row → Bool → Prop
  | .lookup test, row, false => model.holds test object row = true
  | .lookup test, _, true => ∃ own ∈ model.rows object, model.holds test object own = true
  | .pkIn subquery, _, _ => ∃ own ∈ model.rows object, subquery.Holds model object own false
  | .node .and false children, row, below => AllHold model object children row below
  | .node .and true children, row, _ =>
      areVacuous children = true ∨ ¬ AllHold model object children row true
  | .node .or false children, row, below =>
      areVacuous children = true ∨ SomeHolds model object children row below
  | .node .or true children, row, _ =>
      areVacuous children = true ∨ ¬ SomeHolds model object children row true

def AllHold (model : Model Lookup Object Row) (object : Object) :
    List (Clause Lookup) → Row → Bool → Prop
  | [], _, _ => True
  | clause :: clauses, row, below =>
      clause.Holds model object row below ∧ AllHold model object clauses row below

def SomeHolds (model : Model Lookup Object Row) (object : Object) :
    List (Clause Lookup) → Row → Bool → Prop
  | [], _, _ => False
  | clause :: clauses, row, below =>
      (clause.isVacuous = false ∧ clause.Holds model object row below) ∨
        SomeHolds model object clauses row below

end

mutual

instance decidableHolds (model : Model Lookup Object Row) (object : Object) :
    ∀ (clause : Clause Lookup) (row : Row) (below : Bool),
      Decidable (clause.Holds model object row below)
  | .lookup test, row, false => inferInstanceAs (Decidable (model.holds test object row = true))
  | .lookup test, _, true =>
      inferInstanceAs (Decidable (∃ own ∈ model.rows object, model.holds test object own = true))
  | .pkIn subquery, _, _ =>
      have := fun own => decidableHolds model object subquery own false
      inferInstanceAs (Decidable (∃ own ∈ model.rows object, subquery.Holds model object own false))
  | .node .and false children, row, below => decidableAllHold model object children row below
  | .node .and true children, row, _ =>
      have := decidableAllHold model object children row true
      inferInstanceAs (Decidable (areVacuous children = true ∨
        ¬ AllHold model object children row true))
  | .node .or false children, row, below =>
      have := decidableSomeHolds model object children row below
      inferInstanceAs (Decidable (areVacuous children = true ∨
        SomeHolds model object children row below))
  | .node .or true children, row, _ =>
      have := decidableSomeHolds model object children row true
      inferInstanceAs (Decidable (areVacuous children = true ∨
        ¬ SomeHolds model object children row true))

instance decidableAllHold (model : Model Lookup Object Row) (object : Object) :
    ∀ (clauses : List (Clause Lookup)) (row : Row) (below : Bool),
      Decidable (AllHold model object clauses row below)
  | [], _, _ => inferInstanceAs (Decidable True)
  | clause :: clauses, row, below =>
      have := decidableHolds model object clause row below
      have := decidableAllHold model object clauses row below
      inferInstanceAs (Decidable (clause.Holds model object row below ∧
        AllHold model object clauses row below))

instance decidableSomeHolds (model : Model Lookup Object Row) (object : Object) :
    ∀ (clauses : List (Clause Lookup)) (row : Row) (below : Bool),
      Decidable (SomeHolds model object clauses row below)
  | [], _, _ => inferInstanceAs (Decidable False)
  | clause :: clauses, row, below =>
      have := decidableHolds model object clause row below
      have := decidableSomeHolds model object clauses row below
      inferInstanceAs (Decidable ((clause.isVacuous = false ∧ clause.Holds model object row below) ∨
        SomeHolds model object clauses row below))

end

variable {model : Model Lookup Object Row} {object : Object} {row : Row} {below : Bool}
  {clause : Clause Lookup} {clauses others : List (Clause Lookup)}

theorem areVacuous_iff :
    areVacuous clauses = true ↔ ∀ clause ∈ clauses, clause.isVacuous = true := by
  induction clauses with
  | nil => simp [areVacuous]
  | cons first rest ih => simp [areVacuous, ih]

theorem allHold_iff : AllHold model object clauses row below ↔
    ∀ clause ∈ clauses, clause.Holds model object row below := by
  induction clauses with
  | nil => simp [AllHold]
  | cons first rest ih => simp [AllHold, ih]

theorem someHolds_iff : SomeHolds model object clauses row below ↔
    ∃ clause ∈ clauses, clause.isVacuous = false ∧ clause.Holds model object row below := by
  induction clauses with
  | nil => simp [SomeHolds]
  | cons first rest ih => simp [SomeHolds, ih]

mutual

theorem holds_of_isVacuous {below : Bool} :
    ∀ {clause : Clause Lookup}, clause.isVacuous = true → clause.Holds model object row below
  | .node .and false _, vacuous => allHold_of_areVacuous vacuous
  | .node .and true _, vacuous => .inl vacuous
  | .node .or false _, vacuous => .inl vacuous
  | .node .or true _, vacuous => .inl vacuous

theorem allHold_of_areVacuous {below : Bool} :
    ∀ {clauses : List (Clause Lookup)}, areVacuous clauses = true →
      AllHold model object clauses row below
  | [], _ => trivial
  | _ :: _, vacuous =>
      have both := Bool.and_eq_true_iff.mp vacuous
      ⟨holds_of_isVacuous both.1, allHold_of_areVacuous both.2⟩

end

theorem areVacuous_append :
    areVacuous (clauses ++ others) = (areVacuous clauses && areVacuous others) := by
  rw [Bool.eq_iff_iff, Bool.and_eq_true]
  simp only [areVacuous_iff, List.forall_mem_append]

theorem allHold_append : AllHold model object (clauses ++ others) row below ↔
    AllHold model object clauses row below ∧ AllHold model object others row below := by
  simp only [allHold_iff, List.forall_mem_append]

theorem someHolds_append : SomeHolds model object (clauses ++ others) row below ↔
    SomeHolds model object clauses row below ∨ SomeHolds model object others row below := by
  simp only [someHolds_iff, List.mem_append, or_and_right, exists_or]

theorem holds_pkIn {subquery : Clause Lookup} :
    (Clause.pkIn subquery).Holds model object row below ↔
      ∃ own ∈ model.rows object, subquery.Holds model object own false := by
  cases below with
  | false => exact Iff.rfl
  | true => exact Iff.rfl

/-- The order of conditions and their repetitions do not matter. -/
theorem holds_node_congr {negated : Bool} {connector : Connector}
    (same : ∀ clause, clause ∈ others ↔ clause ∈ clauses) :
    (node connector negated others).Holds model object row below ↔
      (node connector negated clauses).Holds model object row below := by
  have vacuous : areVacuous others = true ↔ areVacuous clauses = true := by
    simp only [areVacuous_iff, same]
  have all (inner : Bool) :
      AllHold model object others row inner ↔ AllHold model object clauses row inner := by
    simp only [allHold_iff, same]
  have some (inner : Bool) :
      SomeHolds model object others row inner ↔ SomeHolds model object clauses row inner := by
    simp only [someHolds_iff, same]
  cases connector with
  | and =>
      cases negated with
      | false => exact all below
      | true => exact or_congr vacuous (not_congr (all true))
  | or =>
      cases negated with
      | false => exact or_congr vacuous (some below)
      | true => exact or_congr vacuous (not_congr (some true))

end Clause

namespace Q

/-! ## Query objects -/

/-- `Q(a=.., b=..)`. -/
def of (tests : List Lookup) : Q Lookup := { children := tests.map .lookup }

/-- A query as a condition of another one. -/
def clause (q : Q Lookup) : Clause Lookup := .node q.connector q.negated q.children

/-- `Q(pk__in=..)` with the objects that a query selects. -/
def pkIn (subquery : Q Lookup) : Q Lookup := { children := [.pkIn subquery.clause] }

/-- `~q`. -/
def invert (q : Q Lookup) : Q Lookup := { q with negated := !q.negated }

/-- What `add` appends to the children of a query: a query that is connected alike, or that has
one child, gives its children. -/
def added (connector : Connector) (q : Q Lookup) : List (Clause Lookup) :=
  if q.negated = false ∧ (q.connector = connector ∨ q.children.length = 1) then q.children
  else [q.clause]

def combine (q other : Q Lookup) (connector : Connector) : Q Lookup :=
  match q.children, other.children with
  | [], _ => other
  | _ :: _, [] => q
  | _ :: _, _ :: _ => { connector, children := q.added connector ++ other.added connector }

/-- `q & other`. -/
def and (q other : Q Lookup) : Q Lookup := q.combine other .and

/-- `q | other`. -/
def or (q other : Q Lookup) : Q Lookup := q.combine other .or

/-- Whether a query holds of an object at a row, or below a negation. -/
def Holds (model : Model Lookup Object Row) (q : Q Lookup) (object : Object) (row : Row)
    (below : Bool) : Prop :=
  q.clause.Holds model object row below

def Selects (model : Model Lookup Object Row) (q : Q Lookup) (object : Object) : Prop :=
  ∃ row ∈ model.rows object, q.Holds model object row false

instance (model : Model Lookup Object Row) (q : Q Lookup) (object : Object) (row : Row)
    (below : Bool) : Decidable (q.Holds model object row below) :=
  Clause.decidableHolds model object q.clause row below

instance (model : Model Lookup Object Row) (q : Q Lookup) (object : Object) :
    Decidable (q.Selects model object) :=
  inferInstanceAs (Decidable (∃ row ∈ model.rows object, q.Holds model object row false))

def isVacuous (q : Q Lookup) : Bool := q.clause.isVacuous

variable {model : Model Lookup Object Row} {object : Object} {row : Row} {below : Bool}
  {q other : Q Lookup} {connector : Connector}

theorem holds_of_isVacuous (vacuous : q.isVacuous = true) : q.Holds model object row below :=
  Clause.holds_of_isVacuous vacuous

theorem isVacuous_of_children (none : q.children = []) : q.isVacuous = true := by
  rw [isVacuous, clause, Clause.isVacuous, none]
  rfl

theorem allHold_added :
    Clause.AllHold model object (q.added .and) row below ↔ q.Holds model object row below := by
  rw [added]
  split
  next joined =>
    rcases q with ⟨connector, negated, children⟩
    dsimp only at joined
    rw [joined.1]
    cases connector with
    | and => exact Iff.rfl
    | or =>
        rcases List.length_eq_one_iff.mp (joined.2.resolve_left (by decide)) with ⟨child, rfl⟩
        rw [Holds, clause, Clause.Holds]
        simp only [Clause.AllHold, Clause.areVacuous, Clause.SomeHolds, Bool.and_true, and_true,
          or_false]
        constructor
        · intro holds
          cases vacuous : child.isVacuous with
          | true => exact .inl rfl
          | false => exact .inr ⟨rfl, holds⟩
        · intro either
          cases either with
          | inl vacuous => exact Clause.holds_of_isVacuous vacuous
          | inr holds => exact holds.2
  next => exact and_iff_left trivial

theorem someHolds_added :
    Clause.SomeHolds model object (q.added .or) row below ↔
      q.isVacuous = false ∧ q.Holds model object row below := by
  rw [added]
  split
  next joined =>
    rcases q with ⟨connector, negated, children⟩
    dsimp only at joined
    rw [joined.1]
    cases connector with
    | and =>
        rcases List.length_eq_one_iff.mp (joined.2.resolve_left (by decide)) with ⟨child, rfl⟩
        rw [Holds, clause, Clause.Holds, isVacuous, clause, Clause.isVacuous]
        simp only [Clause.AllHold, Clause.areVacuous, Clause.SomeHolds, Bool.and_true, and_true,
          or_false]
    | or =>
        rw [Holds, clause, Clause.Holds, isVacuous, clause, Clause.isVacuous]
        constructor
        · intro some
          refine ⟨?_, .inr some⟩
          rcases Clause.someHolds_iff.mp some with ⟨child, isChild, notVacuous, _⟩
          rw [← Bool.not_eq_true]
          intro vacuous
          rw [Clause.areVacuous_iff.mp vacuous child isChild] at notVacuous
          cases notVacuous
        · intro holds
          refine holds.2.resolve_left ?_
          rw [holds.1]
          exact Bool.false_ne_true
  next => exact or_iff_left not_false

theorem areVacuous_added : Clause.areVacuous (q.added connector) = q.isVacuous := by
  rw [added]
  split
  next => rfl
  next => exact Bool.and_true _

theorem isVacuous_combine :
    (q.combine other connector).isVacuous = (q.isVacuous && other.isVacuous) := by
  rw [combine]
  split
  next none => rw [isVacuous_of_children none, Bool.true_and]
  next none => rw [isVacuous_of_children none, Bool.and_true]
  next =>
    rw [← areVacuous_added (q := q), ← areVacuous_added (q := other), ← Clause.areVacuous_append]
    rfl

@[simp] theorem isVacuous_and : (q.and other).isVacuous = (q.isVacuous && other.isVacuous) :=
  isVacuous_combine

@[simp] theorem isVacuous_or : (q.or other).isVacuous = (q.isVacuous && other.isVacuous) :=
  isVacuous_combine

@[simp] theorem isVacuous_invert : q.invert.isVacuous = q.isVacuous := rfl

@[simp] theorem isVacuous_pkIn : (pkIn q).isVacuous = false := rfl

theorem holds_and : (q.and other).Holds model object row below ↔
    q.Holds model object row below ∧ other.Holds model object row below := by
  rw [and, combine]
  split
  next none => exact (and_iff_right (holds_of_isVacuous (isVacuous_of_children none))).symm
  next none => exact (and_iff_left (holds_of_isVacuous (isVacuous_of_children none))).symm
  next => exact Clause.allHold_append.trans (and_congr allHold_added allHold_added)

theorem holds_or : (q.or other).Holds model object row below ↔
    (q.isVacuous = false ∧ q.Holds model object row below) ∨
      (other.isVacuous = false ∧ other.Holds model object row below) ∨
      (q.isVacuous = true ∧ other.isVacuous = true) := by
  rw [or, combine]
  split
  next none =>
    have vacuous := isVacuous_of_children none
    cases rest : other.isVacuous with
    | true => simp [vacuous, holds_of_isVacuous rest]
    | false => simp [vacuous]
  next none =>
    have vacuous := isVacuous_of_children none
    cases rest : q.isVacuous with
    | true => simp [vacuous, holds_of_isVacuous rest]
    | false => simp [vacuous]
  next =>
    rw [Holds, clause, Clause.Holds, Clause.someHolds_append, someHolds_added, someHolds_added,
      Clause.areVacuous_append, areVacuous_added, areVacuous_added, Bool.and_eq_true]
    tauto

@[simp] theorem holds_pkIn :
    (pkIn q).Holds model object row below ↔ q.Selects model object := by
  refine (and_iff_left trivial).trans ?_
  exact Clause.holds_pkIn

/-- Below a negation a query is tested with rows of its own. -/
theorem holds_invert (notNegated : q.negated = false) : q.invert.Holds model object row below ↔
    q.isVacuous = true ∨ ¬ q.Holds model object row true := by
  rcases q with ⟨connector, negated, children⟩
  cases notNegated
  cases connector with
  | and => exact Iff.rfl
  | or =>
      have either : (invert ⟨.or, false, children⟩).Holds model object row below ↔
          Clause.areVacuous children = true ∨
            ¬ Clause.SomeHolds model object children row true := Iff.rfl
      have holds : Holds model ⟨.or, false, children⟩ object row true ↔
          Clause.areVacuous children = true ∨ Clause.SomeHolds model object children row true :=
        Iff.rfl
      have vacuous : isVacuous ⟨.or, false, children⟩ = Clause.areVacuous children := rfl
      rw [either, holds, vacuous]
      tauto

theorem holds_invert_pkIn :
    (pkIn q).invert.Holds model object row below ↔ ¬ q.Selects model object := by
  rw [holds_invert rfl, isVacuous_pkIn, holds_pkIn]
  exact or_iff_right Bool.false_ne_true

theorem holds_of {tests : List Lookup} :
    (of tests).Holds model object row false ↔
      ∀ test ∈ tests, model.holds test object row = true := by
  rw [Holds, clause, of, Clause.Holds, Clause.allHold_iff, List.forall_mem_map]
  rfl

end Q

end Queries
