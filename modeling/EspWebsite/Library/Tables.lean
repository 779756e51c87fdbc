import Mathlib

/-!
# Tables

A table of a database: rows with a primary key, which new rows take from a counter.
-/

namespace Tables

universe u

/-- Rows that have a primary key. -/
class Keyed (Row : Type u) where
  key : Row → ℕ

open Keyed

/-- The rows of a table in the order of their keys, and the key of the next row. -/
@[ext] structure Table (Row : Type u) [Keyed Row] where
  rows : List Row
  next : ℕ
  ordered : rows.Pairwise fun earlier later => key earlier < key later
  below : ∀ row ∈ rows, key row < next
  deriving DecidableEq

namespace Table

theorem ordered_nil [Keyed Row] :
    List.Pairwise (fun earlier later => key earlier < key later) ([] : List Row) := .nil

variable {Row : Type u} [Keyed Row] (table : Table Row)

/-- The row with a key. -/
def get? (id : ℕ) : Option Row := table.rows.find? fun row => key row = id

/-- A table with one more row, which gets the next key. -/
def create (make : ℕ → Row) (keyed : ∀ id, key (make id) = id) : Table Row where
  rows := table.rows ++ [make table.next]
  next := table.next + 1
  ordered := by
    refine List.pairwise_append.mpr ⟨table.ordered, List.pairwise_singleton .., ?_⟩
    intro earlier isRow later isNew
    rw [List.mem_singleton.mp isNew, keyed]
    exact table.below earlier isRow
  below := by
    intro row isRow
    rcases List.mem_append.mp isRow with isOld | isNew
    · exact Nat.lt_succ_of_lt (table.below row isOld)
    · rw [List.mem_singleton.mp isNew, keyed]
      exact Nat.lt_succ_self _

/-- A table whose rows are changed where their keys stay. -/
def mapRows (change : Row → Row) (keyed : ∀ row, key (change row) = key row) : Table Row where
  rows := table.rows.map change
  next := table.next
  ordered := by
    refine List.pairwise_map.mpr (table.ordered.imp ?_)
    intro earlier later before
    rw [keyed, keyed]
    exact before
  below := by
    intro row isRow
    rcases List.mem_map.mp isRow with ⟨old, isOld, rfl⟩
    rw [keyed]
    exact table.below old isOld

/-- The row with the key of `row` becomes `row`. -/
def save (row : Row) : Table Row :=
  table.mapRows (fun old => if key old = key row then row else old) (by
    intro old
    split
    next same => exact same.symm
    next => rfl)

/-- A table without the rows that satisfy a condition. -/
def delete (condition : Row → Bool) : Table Row where
  rows := table.rows.filter fun row => !condition row
  next := table.next
  ordered := table.ordered.filter _
  below := fun row isRow => table.below row (List.mem_of_mem_filter isRow)

/-- A table whose next key is given away. -/
def skip : Table Row where
  rows := table.rows
  next := table.next + 1
  ordered := table.ordered
  below := fun row isRow => Nat.lt_succ_of_lt (table.below row isRow)

/-- A table in which a row is written, over the row with its key if there is one. -/
def put (row : Row) : Table Row where
  rows := (table.rows.filter fun other => key other < key row) ++
    row :: table.rows.filter fun other => key row < key other
  next := max table.next (key row + 1)
  ordered := by
    refine List.pairwise_append.mpr ⟨table.ordered.filter _,
      List.pairwise_cons.mpr ⟨?_, table.ordered.filter _⟩, ?_⟩
    · intro later isLater
      exact of_decide_eq_true (List.mem_filter.mp isLater).2
    · intro earlier isEarlier later isLater
      have before := of_decide_eq_true (List.mem_filter.mp isEarlier).2
      rcases List.mem_cons.mp isLater with same | isLater
      · rw [same]
        exact before
      · exact before.trans (of_decide_eq_true (List.mem_filter.mp isLater).2)
  below := by
    intro other isOther
    rcases List.mem_append.mp isOther with isOld | isOther
    · exact lt_max_of_lt_left (table.below other (List.mem_of_mem_filter isOld))
    · rcases List.mem_cons.mp isOther with same | isOld
      · rw [same]
        exact lt_max_of_lt_right (Nat.lt_succ_self _)
      · exact lt_max_of_lt_left (table.below other (List.mem_of_mem_filter isOld))

section Rows

variable {table} {row other : Row} {make : ℕ → Row} {keyed : ∀ id, key (make id) = id}

@[simp] theorem rows_create : (table.create make keyed).rows = table.rows ++ [make table.next] :=
  rfl

@[simp] theorem rows_save :
    (table.save row).rows =
      table.rows.map fun old => if key old = key row then row else old := rfl

@[simp] theorem rows_mapRows {change : Row → Row} {keyed : ∀ row, key (change row) = key row} :
    (table.mapRows change keyed).rows = table.rows.map change := rfl

@[simp] theorem rows_delete {condition : Row → Bool} :
    (table.delete condition).rows = table.rows.filter fun row => !condition row := rfl

theorem rows_put : (table.put row).rows = (table.rows.filter fun other => key other < key row) ++
    row :: table.rows.filter fun other => key row < key other := rfl

@[simp] theorem next_save : (table.save row).next = table.next := rfl

theorem nodup_keys (table : Table Row) : (table.rows.map key).Nodup :=
  List.pairwise_map.mpr (table.ordered.imp fun before => before.ne)

theorem nodup_rows (table : Table Row) : table.rows.Nodup :=
  List.Nodup.of_map _ table.nodup_keys

theorem eq_of_key_eq (isRow : row ∈ table.rows) (isOther : other ∈ table.rows)
    (same : key row = key other) : row = other :=
  List.inj_on_of_nodup_map table.nodup_keys isRow isOther same

/-- The rows before a key and those after it, where no row has it. -/
theorem filter_lt_append_filter_gt {id : ℕ} {rows : List Row}
    (ordered : rows.Pairwise fun earlier later => key earlier < key later)
    (absent : ∀ row ∈ rows, key row ≠ id) :
    (rows.filter fun row => key row < id) ++ (rows.filter fun row => id < key row) = rows := by
  induction rows with
  | nil => rfl
  | cons first rest ih =>
      rw [List.pairwise_cons] at ordered
      have restOf := ih ordered.2 fun row isRest => absent row (List.mem_cons_of_mem _ isRest)
      rcases lt_or_gt_of_ne (absent first (List.mem_cons_self ..)) with before | after
      · rw [List.filter_cons_of_pos (by simpa using before),
          List.filter_cons_of_neg (by simpa using before.le), List.cons_append, restOf]
      · have none : rest.filter (fun row => key row < id) = [] := by
          refine List.filter_eq_nil_iff.mpr fun row isRest => ?_
          have later := after.trans (ordered.1 row isRest)
          simpa using later.le
        rw [none, List.nil_append] at restOf
        rw [List.filter_cons_of_neg (by simpa using after.le), none,
          List.filter_cons_of_pos (by simpa using after), restOf, List.nil_append]

theorem perm_put (absent : ∀ old ∈ table.rows, key old ≠ key row) :
    (table.put row).rows.Perm (row :: table.rows) := by
  refine List.perm_middle.trans (List.Perm.cons _ ?_)
  rw [filter_lt_append_filter_gt table.ordered absent]

theorem filter_put_of_neg {condition : Row → Bool}
    (absent : ∀ old ∈ table.rows, key old ≠ key row) (fails : condition row = false) :
    (table.put row).rows.filter condition = table.rows.filter condition := by
  rw [rows_put, List.filter_append, List.filter_cons_of_neg (by rw [fails]; decide),
    ← List.filter_append, filter_lt_append_filter_gt table.ordered absent]

theorem rows_put_of_mem (isRow : other ∈ table.rows) (same : key row = key other) :
    (table.put row).rows = (table.save row).rows := by
  rcases List.append_of_mem isRow with ⟨before, after, rows⟩
  have ordered := table.ordered
  rw [rows, List.pairwise_append, List.pairwise_cons] at ordered
  rcases ordered with ⟨_, ⟨laterAfter, _⟩, apart⟩
  have earlier : ∀ old ∈ before, key old < key row :=
    fun old isBefore => same ▸ apart old isBefore other (List.mem_cons_self ..)
  have later : ∀ old ∈ after, key row < key old := fun old isAfter => same ▸ laterAfter old isAfter
  have replaced (kept : List Row) (different : ∀ old ∈ kept, key old ≠ key row) :
      (kept.map fun old => if key old = key row then row else old) = kept := by
    refine (List.map_congr_left fun old isOld => ?_).trans (List.map_id' kept)
    exact if_neg (different old isOld)
  rw [rows_save, rows_put, rows, List.map_append, List.map_cons, if_pos same.symm,
    replaced before fun old isBefore => (earlier old isBefore).ne,
    replaced after fun old isAfter => (later old isAfter).ne', List.filter_append,
    List.filter_append, List.filter_eq_self.mpr fun old isBefore =>
      by simpa using earlier old isBefore,
    List.filter_cons_of_neg (by simp [same]),
    List.filter_eq_nil_iff.mpr fun old isAfter => by simpa using (later old isAfter).le,
    List.filter_eq_nil_iff.mpr fun old isBefore => by simpa using (earlier old isBefore).le,
    List.filter_cons_of_neg (by simp [same]),
    List.filter_eq_self.mpr fun old isAfter => by simpa using later old isAfter, List.append_nil,
    List.nil_append]

theorem get?_eq_some {id : ℕ} : table.get? id = some row ↔ row ∈ table.rows ∧ key row = id := by
  constructor
  · intro found
    exact ⟨List.mem_of_find?_eq_some found,
      of_decide_eq_true (List.find?_some (p := fun row => decide (key row = id)) found)⟩
  · rintro ⟨isRow, rfl⟩
    cases found : table.get? (key row) with
    | none =>
        have different := List.find?_eq_none.mp found row isRow
        exact absurd (decide_eq_true rfl) different
    | some first =>
        have isFirst := List.mem_of_find?_eq_some found
        have same := of_decide_eq_true
          (List.find?_some (p := fun other => decide (key other = key row)) found)
        rw [eq_of_key_eq isFirst isRow same]

end Rows

end Table

end Tables
