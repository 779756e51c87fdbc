import EspWebsite.Library.Runs
import EspWebsite.Library.Tables

/-!
# Persistent query filters

`PersistentQueryFilter`: filters are created under their model, their pickled query and its digest,
changed in place, and looked up by the digest.
-/

namespace EspWebsite.Users

open Runs Tables

universe u v w

/-- `PersistentQueryFilter`. -/
structure PersistentQueryFilter (Bytes : Type v) (Digest : Type w) where
  id : ℕ
  itemModel : List Char
  qFilter : Bytes
  sha1Hash : Digest
  usefulName : List Char
  deriving DecidableEq

instance (Bytes : Type v) (Digest : Type w) : Keyed (PersistentQueryFilter Bytes Digest) :=
  ⟨PersistentQueryFilter.id⟩

/-- Why `get` returns no row. -/
inductive GetError where
  | multipleObjectsReturned
  deriving DecidableEq

/-- `pickle.dumps`, the digest, and a query with `is_active=True` added. -/
structure Pickling (QObject : Type u) (Bytes : Type v) (Digest : Type w) where
  dumps : QObject → Bytes
  sha256 : Bytes → Digest
  andIsActive : QObject → QObject

inductive FilterCall (QObject : Type u) (Bytes : Type v) (Digest : Type w) where
  | createFromQ (itemModel : List Char) (q : QObject) (description : List Char)
  | setQ (self : PersistentQueryFilter Bytes Digest) (q : QObject)
      (itemModel : Option (List Char)) (description : List Char)
      (shouldSave restrictToActive : Bool)
  | getFilterFromQ (q : QObject) (model description : List Char)

/-- The models whose names contain one of these are models of users. -/
def userModels : List String := ["auth.models.User", "esp.users.models.ESPUser"]

def isUserModel (itemModel : List Char) : Bool :=
  userModels.any fun name => decide (name.toList <:+: itemModel)

namespace Pickling

section Calls

variable {QObject : Type u} {Bytes : Type v} {Digest : Type w} [DecidableEq Bytes]
  [DecidableEq Digest] (pickling : Pickling QObject Bytes Digest)
  (table : Table (PersistentQueryFilter Bytes Digest))

/-- The digest of a query. -/
def filterHash (q : QObject) : Digest := pickling.sha256 (pickling.dumps q)

def createFromQ (itemModel : List Char) (q : QObject) (description : List Char) :
    PersistentQueryFilter Bytes Digest × Table (PersistentQueryFilter Bytes Digest) :=
  match table.rows.find? fun row => decide (row.itemModel = itemModel) &&
      decide (row.qFilter = pickling.dumps q) && decide (row.sha1Hash = pickling.filterHash q) with
  | some row =>
      let foo := { row with usefulName := description }
      (foo, table.save foo)
  | none =>
      let make id := PersistentQueryFilter.mk id itemModel (pickling.dumps q)
        (pickling.filterHash q) description
      (make table.next, table.create make fun _ => rfl)

def setQ (self : PersistentQueryFilter Bytes Digest) (q : QObject)
    (itemModel : Option (List Char)) (description : List Char)
    (shouldSave restrictToActive : Bool) :
    PersistentQueryFilter Bytes Digest × Table (PersistentQueryFilter Bytes Digest) :=
  let itemModel := itemModel.getD self.itemModel
  let q := if restrictToActive && isUserModel itemModel then pickling.andIsActive q else q
  let self := ⟨self.id, itemModel, pickling.dumps q, pickling.filterHash q, description⟩
  (self, if shouldSave then table.put self else table)

def getFilterFromQ (q : QObject) (model description : List Char) :
    Except GetError (PersistentQueryFilter Bytes Digest) ×
      Table (PersistentQueryFilter Bytes Digest) :=
  match table.rows.filter fun row => row.sha1Hash = pickling.filterHash q with
  | [] =>
      let created := pickling.createFromQ table model q description
      (.ok created.1, created.2.save created.1)
  | [filterObj] => (.ok filterObj, table)
  | _ :: _ :: _ => (.error .multipleObjectsReturned, table)

/-- The table after a call. -/
def step (call : FilterCall QObject Bytes Digest) : Table (PersistentQueryFilter Bytes Digest) :=
  match call with
  | .createFromQ itemModel q description => (pickling.createFromQ table itemModel q description).2
  | .setQ self q itemModel description shouldSave restrictToActive =>
      (pickling.setQ table self q itemModel description shouldSave restrictToActive).2
  | .getFilterFromQ q model description => (pickling.getFilterFromQ table q model description).2

/-- A call of `getFilterFromQ` returns a row of the table with its model and its query. -/
def GetsFilter (call : FilterCall QObject Bytes Digest) : Prop :=
  match call with
  | .getFilterFromQ q model description =>
      ∃ row ∈ (pickling.getFilterFromQ table q model description).2.rows,
        (pickling.getFilterFromQ table q model description).1 = .ok row ∧
          row.itemModel = model ∧ row.qFilter = pickling.dumps q
  | .createFromQ _ _ _ | .setQ _ _ _ _ _ _ => True

/-- There is at most one row with the digest of a query that is looked up, and it has the model and
the query. -/
def LookupFits (call : FilterCall QObject Bytes Digest) : Prop :=
  match call with
  | .getFilterFromQ q model _ =>
      (∀ row ∈ table.rows, ∀ other ∈ table.rows, row.sha1Hash = pickling.filterHash q →
        other.sha1Hash = pickling.filterHash q → row = other) ∧
        ∀ row ∈ table.rows, row.sha1Hash = pickling.filterHash q →
          row.itemModel = model ∧ row.qFilter = pickling.dumps q
  | .createFromQ _ _ _ | .setQ _ _ _ _ _ _ => True

variable {pickling} {table} {q : QObject} {itemModel model description : List Char}

theorem createFromQ_fst (pickling : Pickling QObject Bytes Digest)
    (table : Table (PersistentQueryFilter Bytes Digest)) (itemModel : List Char) (q : QObject)
    (description : List Char) :
    (pickling.createFromQ table itemModel q description).1 ∈
        (pickling.createFromQ table itemModel q description).2.rows ∧
      (pickling.createFromQ table itemModel q description).1.itemModel = itemModel ∧
        (pickling.createFromQ table itemModel q description).1.qFilter = pickling.dumps q := by
  rw [createFromQ]
  split
  next row found =>
    have isRow := List.mem_of_find?_eq_some found
    have same := List.find?_some found
    simp only [Bool.and_eq_true, decide_eq_true_eq] at same
    refine ⟨?_, same.1.1, same.1.2⟩
    exact List.mem_map.mpr ⟨row, isRow, if_pos rfl⟩
  next => exact ⟨List.mem_append_right _ (List.mem_singleton_self _), rfl, rfl⟩

omit [DecidableEq Bytes] in
theorem mem_filter_filterHash {row : PersistentQueryFilter Bytes Digest}
    {rows : List (PersistentQueryFilter Bytes Digest)}
    (found : (table.rows.filter fun row => row.sha1Hash = pickling.filterHash q) = rows) :
    row ∈ rows ↔ row ∈ table.rows ∧ row.sha1Hash = pickling.filterHash q := by
  rw [← found, List.mem_filter, decide_eq_true_eq]

theorem getsFilter_iff (call : FilterCall QObject Bytes Digest) :
    pickling.GetsFilter table call ↔ pickling.LookupFits table call := by
  cases call with
  | createFromQ _ _ _ => rfl
  | setQ _ _ _ _ _ _ => rfl
  | getFilterFromQ q model description =>
      rw [GetsFilter, LookupFits, getFilterFromQ]
      cases found : table.rows.filter fun row => row.sha1Hash = pickling.filterHash q with
      | nil =>
          have none : ∀ row ∈ table.rows, row.sha1Hash ≠ pickling.filterHash q := by
            intro row isRow same
            exact List.not_mem_nil ((mem_filter_filterHash found).mpr ⟨isRow, same⟩)
          rcases createFromQ_fst pickling table model q description with ⟨isRow, ofModel, ofQ⟩
          refine iff_of_true ⟨_, List.mem_map.mpr ⟨_, isRow, if_pos rfl⟩, rfl, ofModel, ofQ⟩ ⟨?_, ?_⟩
          · intro row isRow other isOther same
            exact absurd same (none row isRow)
          · intro row isRow same
            exact absurd same (none row isRow)
      | cons row rest =>
          have isFirst := (mem_filter_filterHash found).mp List.mem_cons_self
          cases rest with
          | nil =>
              constructor
              · intro gets
                rcases gets with ⟨other, _, same, fits⟩
                cases same
                have only : ∀ other ∈ table.rows, other.sha1Hash = pickling.filterHash q →
                    other = row := by
                  intro other isOther same
                  exact List.mem_singleton.mp ((mem_filter_filterHash found).mpr ⟨isOther, same⟩)
                refine ⟨fun one isOne other isOther oneHas otherHas => ?_, fun other isOther has => ?_⟩
                · rw [only one isOne oneHas, only other isOther otherHas]
                · rw [only other isOther has]
                  exact fits
              · intro fits
                exact ⟨row, isFirst.1, rfl, fits.2 row isFirst.1 isFirst.2⟩
          | cons second rest =>
              have isSecond := (mem_filter_filterHash found).mp
                (List.mem_cons_of_mem _ List.mem_cons_self)
              have distinct := table.nodup_rows.filter
                fun row => decide (row.sha1Hash = pickling.filterHash q)
              rw [found, List.nodup_cons] at distinct
              constructor
              · intro gets
                rcases gets with ⟨_, _, raised, _⟩
                cases raised
              · intro fits
                have same := fits.1 row isFirst.1 second isSecond.1 isFirst.2 isSecond.2
                rw [same] at distinct
                exact absurd List.mem_cons_self distinct.1

/-- In a run all calls that look a filter up get it, exactly if whenever one is made there is at
most one row with the digest, and it has the model and the query. -/
theorem atEach_getsFilter_iff (pickling : Pickling QObject Bytes Digest)
    (table : Table (PersistentQueryFilter Bytes Digest))
    (calls : List (FilterCall QObject Bytes Digest)) :
    AtEach pickling.step pickling.GetsFilter table calls ↔
      AtEach pickling.step pickling.LookupFits table calls := by
  induction calls generalizing table with
  | nil => exact iff_of_true atEach_nil atEach_nil
  | cons call calls ih => rw [atEach_cons, atEach_cons, getsFilter_iff, ih]

end Calls

namespace Sample

/-- Queries that are numbers and their own digests. -/
def plain : Pickling ℕ ℕ ℕ := ⟨id, id, fun q => q + 100⟩

/-- A filter that was made for students is looked up for teachers. -/
theorem made_for_students : ¬AtEach plain.step plain.GetsFilter ⟨[], 1, List.Pairwise.nil, by simp⟩
    [.createFromQ ['S'] 5 [], .getFilterFromQ 5 ['T'] []] := by
  rw [atEach_cons, atEach_cons]
  intro gets
  rcases gets.2.1 with ⟨row, _, got, ofModel, _⟩
  cases got
  exact absurd ofModel (by decide)

end Sample

end Pickling

end EspWebsite.Users
