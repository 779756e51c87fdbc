import Mathlib

/-!
# Net changes

The writes to a store are folded into a dictionary with the first value and the last value of
every key written to.  If the writes follow one another, these are the values of the key before
all of them and after all of them.
-/

namespace NetChanges

universe u v

variable {Key : Type u} {Value : Type v} [DecidableEq Key]

/-- A write to a key, with its value before and after. -/
structure Write (Key : Type u) (Value : Type v) where
  key : Key
  before : Value
  after : Value

/-- A dictionary, in the order of insertion, with two values for each key. -/
abbrev Net (Key : Type u) (Value : Type v) := List (Key × Value × Value)

/-- Notes a write: a new key gets both values, a known one a new last value. -/
def note (net : Net Key Value) (write : Write Key Value) : Net Key Value :=
  if write.key ∈ net.map Prod.fst then
    net.map fun entry =>
      if entry.1 = write.key then (entry.1, entry.2.1, write.after) else entry
  else net ++ [(write.key, write.before, write.after)]

def Write.apply (store : Key → Value) (write : Write Key Value) : Key → Value :=
  Function.update store write.key write.after

/-- The writes start at the store, each where the one before it ended. -/
def Chain : (Key → Value) → List (Write Key Value) → Prop
  | _, [] => True
  | store, write :: rest => write.before = store write.key ∧ Chain (write.apply store) rest

/-- The dictionary has the written keys, once each and with their values at the start and now;
no other value has changed. -/
structure Nets (start store : Key → Value) (written : List Key) (net : Net Key Value) :
    Prop where
  nodup : (net.map Prod.fst).Nodup
  keys : ∀ key, key ∈ net.map Prod.fst ↔ key ∈ written
  values : ∀ entry ∈ net, entry.2 = (start entry.1, store entry.1)
  unwritten : ∀ key ∉ written, store key = start key

namespace Nets

variable {start store : Key → Value} {written : List Key} {net : Net Key Value}
  {write : Write Key Value} {writes : List (Write Key Value)}

omit [DecidableEq Key] in
theorem nil (start : Key → Value) : Nets start start [] ([] : Net Key Value) where
  nodup := List.nodup_nil
  keys key := Iff.rfl
  values entry listed := absurd listed List.not_mem_nil
  unwritten key _ := rfl

theorem keys_note (net : Net Key Value) (write : Write Key Value) :
    (note net write).map Prod.fst =
      if write.key ∈ net.map Prod.fst then net.map Prod.fst
      else net.map Prod.fst ++ [write.key] := by
  rw [note]
  split
  · rw [List.map_map]
    apply List.map_congr_left
    intro entry _
    simp only [Function.comp]
    split <;> rfl
  · simp

/-- Noting a write to the store keeps the dictionary right. -/
protected theorem note (nets : Nets start store written net)
    (follows : write.before = store write.key) :
    Nets start (write.apply store) (written ++ [write.key]) (note net write) where
  nodup := by
    rw [keys_note]
    split
    next => exact nets.nodup
    next fresh =>
      rw [← List.concat_eq_append]
      exact nets.nodup.concat fresh
  keys key := by
    rw [keys_note, List.mem_append, ← nets.keys]
    split
    next known =>
      constructor
      · exact Or.inl
      · intro listed
        cases listed with
        | inl listed => exact listed
        | inr listed => exact List.mem_singleton.mp listed ▸ known
    next => rw [List.mem_append]
  values entry listed := by
    rw [note] at listed
    split at listed
    next known =>
      cases List.mem_map.mp listed with
      | intro old found =>
          have before := nets.values old found.1
          have changed := found.2
          split at changed
          next same =>
            rw [← changed, before, Write.apply, same, Function.update_self]
          next different =>
            rw [← changed, before, Write.apply, Function.update_of_ne different]
    next fresh =>
      cases List.mem_append.mp listed with
      | inl listed =>
          have different : entry.1 ≠ write.key := by
            intro same
            exact fresh (same ▸ List.mem_map_of_mem listed)
          rw [nets.values entry listed, Write.apply, Function.update_of_ne different]
      | inr listed =>
          have unwritten : write.key ∉ written := fun member => fresh ((nets.keys _).mpr member)
          rw [List.mem_singleton.mp listed, follows, nets.unwritten _ unwritten, Write.apply,
            Function.update_self]
  unwritten key notWritten := by
    rw [List.mem_append, List.mem_singleton, not_or] at notWritten
    rw [Write.apply, Function.update_of_ne notWritten.2]
    exact nets.unwritten key notWritten.1

theorem foldl (nets : Nets start store written net) (chain : Chain store writes) :
    Nets start (writes.foldl Write.apply store) (written ++ writes.map Write.key)
      (writes.foldl NetChanges.note net) := by
  induction writes generalizing store written net with
  | nil => rwa [List.map_nil, List.append_nil]
  | cons write rest ih =>
      have later := ih (nets.note chain.1) chain.2
      rwa [List.append_assoc] at later

omit [DecidableEq Key] in
/-- The dictionary is the written keys with their values. -/
theorem eq_map (nets : Nets start store written net) :
    net = (net.map Prod.fst).map fun key => (key, start key, store key) := by
  rw [List.map_map]
  apply (List.map_id net).symm.trans
  apply List.map_congr_left
  intro entry listed
  rw [id, Function.comp, ← nets.values entry listed]

end Nets

end NetChanges
