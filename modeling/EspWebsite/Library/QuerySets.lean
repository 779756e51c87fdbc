import EspWebsite.Library.Queries

/-!
# Sets of objects that a database selects

A query set joins some rows to each object and keeps the objects of which a condition holds for one
choice of these rows.  A conjunction joins the rows of both sides separately; a disjunction lets
them look at the same rows.
-/

namespace Queries

universe u v w

variable {Lookup : Type u} {Object : Type v} {Row : Type w}

/-- The ways to choose a number of rows. -/
def choices (rows : List Row) : ℕ → List (List Row)
  | 0 => [[]]
  | joins + 1 => rows.flatMap fun row => (choices rows joins).map (row :: ·)

theorem mem_choices {rows choice : List Row} {joins : ℕ} :
    choice ∈ choices rows joins ↔ choice.length = joins ∧ choice ⊆ rows := by
  induction joins generalizing choice with
  | zero =>
      simp only [choices, List.mem_singleton, List.length_eq_zero_iff]
      exact ⟨fun none => ⟨none, by simp [none]⟩, fun none => none.1⟩
  | succ joins ih =>
      cases choice with
      | nil => simp [choices]
      | cons row choice =>
          simp only [choices, List.mem_flatMap, List.mem_map, List.cons.injEq, ih,
            List.length_cons, Nat.add_right_cancel_iff, List.cons_subset]
          constructor
          · rintro ⟨first, isRow, rest, ⟨length, within⟩, rfl, rfl⟩
            exact ⟨length, isRow, within⟩
          · rintro ⟨length, isRow, within⟩
            exact ⟨row, isRow, choice, ⟨length, within⟩, rfl, rfl⟩

/-- The rows of a left join: those that are related to the object, or nulls. -/
def leftJoin (related : Object → List Row) (object : Object) : List (Option Row) :=
  if related object = [] then [none] else (related object).map some

theorem leftJoin_ne_nil (related : Object → List Row) (object : Object) :
    leftJoin related object ≠ [] := by
  unfold leftJoin
  split
  · exact List.cons_ne_nil _ _
  next some => simpa using some

/-- How many rows are joined, and the condition on an object and its rows. -/
structure QuerySet (Object : Type v) (Row : Type w) where
  joins : ℕ
  condition : Object → List Row → Bool

namespace QuerySet

variable (model : Model Lookup Object Row)

/-- Whether an object is in a query set. -/
def Selects (querySet : QuerySet Object Row) (object : Object) : Prop :=
  ∃ rows ∈ choices (model.rows object) querySet.joins, querySet.condition object rows = true

instance (querySet : QuerySet Object Row) (object : Object) :
    Decidable (querySet.Selects model object) :=
  inferInstanceAs (Decidable (∃ rows ∈ choices (model.rows object) querySet.joins,
    querySet.condition object rows = true))

/-- `base.filter(q)`, which joins a row of its own. -/
def filter (base : QuerySet Object Row) (q : Q Lookup) : QuerySet Object Row where
  joins := base.joins + 1
  condition object rows :=
    base.condition object (rows.take base.joins) &&
      (rows[base.joins]?).any fun row => decide (q.Holds model object row false)

/-- `base.exclude(pk__in=subquery)`. -/
def excludePk (base subquery : QuerySet Object Row) : QuerySet Object Row where
  joins := base.joins
  condition object rows := base.condition object rows && !decide (subquery.Selects model object)

/-- `left & right`. -/
def and (left right : QuerySet Object Row) : QuerySet Object Row where
  joins := left.joins + right.joins
  condition object rows :=
    left.condition object (rows.take left.joins) && right.condition object (rows.drop left.joins)

/-- `left | right`. -/
def or (left right : QuerySet Object Row) : QuerySet Object Row where
  joins := max left.joins right.joins
  condition object rows :=
    left.condition object (rows.take left.joins) || right.condition object (rows.take right.joins)

variable {model} {base left right subquery : QuerySet Object Row} {object : Object} {q : Q Lookup}

theorem selects_filter :
    (base.filter model q).Selects model object ↔
      base.Selects model object ∧ q.Selects model object := by
  simp only [Selects, Q.Selects, mem_choices]
  constructor
  · rintro ⟨rows, ⟨length, within⟩, holds⟩
    simp only [filter, Bool.and_eq_true] at length holds
    obtain ⟨row, isRow, meets⟩ := (Option.any_eq_true _ _).mp holds.2
    have isJoined : row ∈ rows := List.mem_of_getElem? isRow
    exact ⟨⟨rows.take base.joins, ⟨by simp [length], fun other isOther =>
        within (List.mem_of_mem_take isOther)⟩, holds.1⟩, row, within isJoined,
      of_decide_eq_true meets⟩
  · rintro ⟨⟨rows, ⟨length, within⟩, holds⟩, row, isRow, meets⟩
    refine ⟨rows ++ [row], ⟨by simp [filter, length], ?_⟩, ?_⟩
    · exact List.append_subset.mpr ⟨within, by simpa using isRow⟩
    · simp [filter, ← length, holds, meets]

theorem selects_excludePk :
    (base.excludePk model subquery).Selects model object ↔
      base.Selects model object ∧ ¬subquery.Selects model object := by
  constructor
  · rintro ⟨rows, isChoice, holds⟩
    simp only [excludePk, Bool.and_eq_true, Bool.not_eq_true', decide_eq_false_iff_not] at holds
    exact ⟨⟨rows, isChoice, holds.1⟩, holds.2⟩
  · rintro ⟨⟨rows, isChoice, holds⟩, excluded⟩
    exact ⟨rows, isChoice, by simp [excludePk, holds, excluded]⟩

theorem selects_and :
    (left.and right).Selects model object ↔
      left.Selects model object ∧ right.Selects model object := by
  simp only [Selects, mem_choices]
  constructor
  · rintro ⟨rows, ⟨length, within⟩, holds⟩
    simp only [and, Bool.and_eq_true] at length holds
    exact ⟨⟨rows.take left.joins, ⟨by simp [length], fun row isRow =>
        within (List.mem_of_mem_take isRow)⟩, holds.1⟩,
      ⟨rows.drop left.joins, ⟨by simp [length], fun row isRow =>
        within (List.mem_of_mem_drop isRow)⟩, holds.2⟩⟩
  · rintro ⟨⟨rows, ⟨length, within⟩, holds⟩, others, ⟨alsoLength, alsoWithin⟩, alsoHolds⟩
    refine ⟨rows ++ others, ⟨by simp [and, length, alsoLength],
      List.append_subset.mpr ⟨within, alsoWithin⟩⟩, ?_⟩
    simp [and, ← length, holds, alsoHolds]

theorem exists_choice_take {rows : List Row} (some : model.rows object ≠ []) {joins more : ℕ}
    (length : rows.length = joins) (within : rows ⊆ model.rows object) (isMore : joins ≤ more) :
    ∃ longer, (longer.length = more ∧ longer ⊆ model.rows object) ∧ longer.take joins = rows := by
  obtain ⟨row, isRow⟩ := List.exists_mem_of_ne_nil _ some
  refine ⟨rows ++ List.replicate (more - joins) row, ⟨by simp [length, isMore], ?_⟩,
    by simp [← length]⟩
  refine List.append_subset.mpr ⟨within, fun other isOther => ?_⟩
  rwa [List.eq_of_mem_replicate isOther]

theorem selects_or (some : model.rows object ≠ []) :
    (left.or right).Selects model object ↔
      left.Selects model object ∨ right.Selects model object := by
  simp only [Selects, mem_choices]
  constructor
  · rintro ⟨rows, ⟨length, within⟩, holds⟩
    simp only [or, Bool.or_eq_true] at length holds
    rcases holds with holds | holds
    · exact .inl ⟨rows.take left.joins, ⟨by simp [length], fun row isRow =>
        within (List.mem_of_mem_take isRow)⟩, holds⟩
    · exact .inr ⟨rows.take right.joins, ⟨by simp [length], fun row isRow =>
        within (List.mem_of_mem_take isRow)⟩, holds⟩
  · rintro (⟨rows, ⟨length, within⟩, holds⟩ | ⟨rows, ⟨length, within⟩, holds⟩)
    · obtain ⟨longer, isChoice, same⟩ :=
        exists_choice_take some length within (Nat.le_max_left left.joins right.joins)
      exact ⟨longer, isChoice, by simp [or, same, holds]⟩
    · obtain ⟨longer, isChoice, same⟩ :=
        exists_choice_take some length within (Nat.le_max_right left.joins right.joins)
      exact ⟨longer, isChoice, by simp [or, same, holds]⟩

end QuerySet

end Queries
