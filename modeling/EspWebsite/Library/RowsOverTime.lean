import EspWebsite.Library.Tables

/-!
# Rows over time

A later table follows an earlier one when a function says what has become of each row: another
row with its key, or nothing.  New rows do not count, since their keys are new.
-/

namespace Tables

universe u

open Keyed

namespace Table

variable {Row : Type u} [Keyed Row] {table later last : Table Row} {row : Row} {id : ℕ}

theorem get?_key (isRow : row ∈ table.rows) : table.get? (key row) = some row :=
  get?_eq_some.mpr ⟨isRow, rfl⟩

theorem get?_mapRows {change : Row → Row} {keyed : ∀ row, key (change row) = key row} :
    (table.mapRows change keyed).get? id = (table.get? id).map change := by
  rw [get?, get?, rows_mapRows, List.find?_map]
  congr 2
  funext row
  simp only [Function.comp, keyed]

theorem get?_save : (table.save row).get? id =
    (table.get? id).map fun old => if key old = key row then row else old :=
  get?_mapRows

theorem get?_create {make : ℕ → Row} {keyed : ∀ id, key (make id) = id} (old : id < table.next) :
    (table.create make keyed).get? id = table.get? id := by
  have different : key (make table.next) ≠ id := by
    rw [keyed]
    exact Nat.ne_of_gt old
  rw [get?, get?, rows_create, List.find?_append, List.find?_singleton,
    if_neg (by simpa using different), Option.or_none]

theorem get?_delete {condition : Row → Bool} :
    (table.delete condition).get? id = (table.get? id).filter fun row => !condition row := by
  cases found : table.get? id with
  | none =>
      rw [get?, List.find?_eq_none] at found
      rw [Option.filter_none, get?, List.find?_eq_none]
      intro row isRow
      exact found row (List.mem_of_mem_filter isRow)
  | some row =>
      have isRow := get?_eq_some.mp found
      by_cases kept : condition row = false
      · rw [Option.filter_some_pos (by simp [kept])]
        exact get?_eq_some.mpr ⟨List.mem_filter.mpr ⟨isRow.1, by simp [kept]⟩, isRow.2⟩
      · rw [Option.filter_some_neg (by simpa using kept), get?, List.find?_eq_none]
        intro other isOther
        have member := List.mem_filter.mp isOther
        intro same
        have equal := table.eq_of_key_eq member.1 isRow.1
          ((of_decide_eq_true same).trans isRow.2.symm)
        rw [equal] at member
        simp [kept] at member

theorem key_of_get? (found : table.get? id = some row) : key row = id :=
  (get?_eq_some.mp found).2

theorem lt_next (found : table.get? id = some row) : id < table.next := by
  have isRow := get?_eq_some.mp found
  rw [← isRow.2]
  exact table.below row isRow.1

/-- What has become of each row of a table in a later one. -/
structure Follows (table later : Table Row) (become : Row → Option Row) : Prop where
  next_le : table.next ≤ later.next
  get? : ∀ id, id < table.next → later.get? id = (table.get? id).bind become

namespace Follows

variable {become further : Row → Option Row}

theorem refl (table : Table Row) : table.Follows table some where
  next_le := Nat.le_refl _
  get? id _ := (Option.bind_fun_some _).symm

theorem trans (first : table.Follows later become) (second : later.Follows last further) :
    table.Follows last fun row => (become row).bind further where
  next_le := Nat.le_trans first.next_le second.next_le
  get? id old := by
    rw [second.get? id (Nat.lt_of_lt_of_le old first.next_le), first.get? id old,
      Option.bind_assoc]

/-- What becomes of rows matters for the rows that there are. -/
theorem congr (follows : table.Follows later become)
    (same : ∀ row ∈ table.rows, become row = further row) : table.Follows later further where
  next_le := follows.next_le
  get? id old := by
    rw [follows.get? id old]
    cases found : table.get? id with
    | none => rfl
    | some row => exact same row (get?_eq_some.mp found).1

theorem create {make : ℕ → Row} {keyed : ∀ id, key (make id) = id} :
    table.Follows (table.create make keyed) some where
  next_le := Nat.le_succ _
  get? id old := by
    rw [get?_create old, Option.bind_fun_some]

theorem save : table.Follows (table.save row) fun old =>
    some (if key old = key row then row else old) where
  next_le := Nat.le_refl _
  get? id old := by
    rw [get?_save, Option.map_eq_bind]
    rfl

theorem delete {condition : Row → Bool} : table.Follows (table.delete condition) fun row =>
    if condition row then none else some row where
  next_le := Nat.le_refl _
  get? id old := by
    rw [get?_delete]
    cases table.get? id with
    | none => rfl
    | some row => cases decided : condition row <;> simp [decided, Option.filter]

theorem mem_iff (follows : table.Follows later become) (isRow : row ∈ table.rows) :
    row ∈ later.rows ↔ become row = some row := by
  have found := follows.get? (key row) (table.below row isRow)
  rw [get?_key isRow, Option.bind_some] at found
  rw [← found]
  constructor
  · exact get?_key
  · intro same
    exact (get?_eq_some.mp same).1

end Follows

end Table

end Tables
