import Mathlib

/-!
# Tallies kept up to date

The sum of a value over all owners, where each owner's value depends on what it holds.
When one owner's holding changes, only that owner's value in the sum does, so a
counter can follow the sum without visiting the other owners.
-/

namespace Tally

variable {Owner Holding M : Type*} [DecidableEq Owner]

/-- The sum of the owners' values. -/
def tally [AddCommMonoid M] (owners : List Owner) (value : Owner → Holding → M)
    (held : Owner → Holding) : M :=
  (owners.map fun owner => value owner (held owner)).sum

section Monoid

variable [AddCommMonoid M] {owners : List Owner} {value : Owner → Holding → M}
  {held : Owner → Holding} {owner : Owner}

omit [DecidableEq Owner] in
theorem tally_cons :
    tally (owner :: owners) value held = value owner (held owner) + tally owners value held := by
  simp [tally]

theorem tally_update_of_notMem (unlisted : owner ∉ owners) (holding : Holding) :
    tally owners value (Function.update held owner holding) = tally owners value held := by
  apply congrArg List.sum
  apply List.map_congr_left
  intro other listed
  have different : other ≠ owner := fun same => unlisted (same ▸ listed)
  rw [Function.update_of_ne different]

theorem exists_rest (nodup : owners.Nodup) (listed : owner ∈ owners) :
    ∃ rest, ∀ holding,
      tally owners value (Function.update held owner holding) = rest + value owner holding := by
  induction owners with
  | nil => simp at listed
  | cons head owners ih =>
      obtain ⟨fresh, nodupRest⟩ := List.nodup_cons.mp nodup
      rcases List.mem_cons.mp listed with same | later
      · subst same
        refine ⟨tally owners value held, fun holding => ?_⟩
        rw [tally_cons, Function.update_self, tally_update_of_notMem fresh, add_comm]
      · obtain ⟨rest, changed⟩ := ih nodupRest later
        have different : head ≠ owner := fun same => fresh (same ▸ later)
        refine ⟨value head (held head) + rest, fun holding => ?_⟩
        rw [tally_cons, Function.update_of_ne different, changed, add_assoc]

theorem tally_update_of_eq (nodup : owners.Nodup) (listed : owner ∈ owners)
    {holding : Holding} (sameValue : value owner holding = value owner (held owner)) :
    tally owners value (Function.update held owner holding) = tally owners value held := by
  obtain ⟨rest, changed⟩ : ∃ rest, ∀ holding,
      tally owners value (Function.update held owner holding) = rest + value owner holding :=
    exists_rest nodup listed
  have unchanged := changed (held owner)
  rw [Function.update_eq_self] at unchanged
  rw [changed, unchanged, sameValue]

theorem tally_single (nodup : owners.Nodup) (listed : owner ∈ owners) (amount : M) :
    (owners.map fun other => if other = owner then amount else 0).sum = amount := by
  induction owners with
  | nil => simp at listed
  | cons head owners ih =>
      obtain ⟨fresh, nodupRest⟩ := List.nodup_cons.mp nodup
      rw [List.map_cons, List.sum_cons]
      rcases List.mem_cons.mp listed with same | later
      · subst same
        have others : (owners.map fun other => if other = owner then amount else 0) =
            owners.map fun _ => 0 := by
          apply List.map_congr_left
          intro other member
          have different : other ≠ owner := fun same => fresh (same ▸ member)
          exact if_neg different
        rw [if_pos rfl, others]
        simp
      · have different : head ≠ owner := fun same => fresh (same ▸ later)
        rw [if_neg different, ih nodupRest later, zero_add]

omit [DecidableEq Owner] in
theorem map_tally {N : Type*} [AddCommMonoid N] (hom : M →+ N) :
    hom (tally owners value held) =
      tally owners (fun owner holding => hom (value owner holding)) held := by
  rw [tally, map_list_sum, List.map_map]
  rfl

end Monoid

section Bounds

variable [AddCommMonoid M] [Preorder M] [AddLeftMono M] [AddRightMono M] {owners : List Owner}
  {value : Owner → Holding → M} {held : Owner → Holding}

omit [DecidableEq Owner] [AddRightMono M] in
theorem tally_nonneg (nonneg : ∀ owner ∈ owners, 0 ≤ value owner (held owner)) :
    0 ≤ tally owners value held := by
  apply List.sum_nonneg
  intro amount member
  obtain ⟨owner, listed, same⟩ := List.mem_map.mp member
  rw [← same]
  exact nonneg owner listed

omit [DecidableEq Owner] in
theorem tally_le {bound : Owner → M}
    (bounded : ∀ owner ∈ owners, value owner (held owner) ≤ bound owner) :
    tally owners value held ≤ (owners.map bound).sum :=
  List.sum_le_sum bounded

end Bounds

/-- The counter takes off the old value of an owner and adds the new one. -/
theorem tally_update [AddCommGroup M] {owners : List Owner} (value : Owner → Holding → M)
    (held : Owner → Holding) {owner : Owner} (nodup : owners.Nodup) (listed : owner ∈ owners)
    (holding : Holding) :
    tally owners value (Function.update held owner holding) =
      tally owners value held - value owner (held owner) + value owner holding := by
  obtain ⟨rest, changed⟩ : ∃ rest, ∀ holding,
      tally owners value (Function.update held owner holding) = rest + value owner holding :=
    exists_rest nodup listed
  have unchanged := changed (held owner)
  rw [Function.update_eq_self] at unchanged
  rw [changed, unchanged]
  abel

/-! ## Changing what several owners hold -/

section Several

variable {owners changed : List Owner} {change otherChange : Holding → Holding}
  {held : Owner → Holding} {owner : Owner}

/-- Changes what each of the listed owners holds, one after the other. -/
def updateAll (changed : List Owner) (change : Holding → Holding) (held : Owner → Holding) :
    Owner → Holding :=
  changed.foldl (fun held owner => Function.update held owner (change (held owner))) held

theorem updateAll_cons : updateAll (owner :: changed) change held =
    updateAll changed change (Function.update held owner (change (held owner))) := rfl

theorem updateAll_of_notMem (unlisted : owner ∉ changed) :
    updateAll changed change held owner = held owner := by
  induction changed generalizing held with
  | nil => rfl
  | cons head changed ih =>
      obtain ⟨different, unlistedRest⟩ := not_or.mp (List.mem_cons.not.mp unlisted)
      rw [updateAll_cons, ih unlistedRest, Function.update_of_ne different]

theorem updateAll_of_mem (nodup : changed.Nodup) (listed : owner ∈ changed) :
    updateAll changed change held owner = change (held owner) := by
  induction changed generalizing held with
  | nil => simp at listed
  | cons head changed ih =>
      obtain ⟨fresh, nodupRest⟩ := List.nodup_cons.mp nodup
      rw [updateAll_cons]
      rcases List.mem_cons.mp listed with same | later
      · subst same
        rw [updateAll_of_notMem fresh, Function.update_self]
      · have different : owner ≠ head := fun same => fresh (same ▸ later)
        rw [ih nodupRest later, Function.update_of_ne different]

/-- Changes of different owners can be made in any order. -/
theorem updateAll_comm {others : List Owner} (nodup : changed.Nodup)
    (othersNodup : others.Nodup) (disjoint : ∀ owner ∈ changed, owner ∉ others) :
    updateAll others otherChange (updateAll changed change held) =
      updateAll changed change (updateAll others otherChange held) := by
  funext owner
  by_cases listed : owner ∈ changed
  · rw [updateAll_of_notMem (disjoint owner listed), updateAll_of_mem nodup listed,
      updateAll_of_mem nodup listed, updateAll_of_notMem (disjoint owner listed)]
  · rw [updateAll_of_notMem listed]
    by_cases other : owner ∈ others
    · rw [updateAll_of_mem othersNodup other, updateAll_of_mem othersNodup other,
        updateAll_of_notMem listed]
    · rw [updateAll_of_notMem other, updateAll_of_notMem other, updateAll_of_notMem listed]

theorem tally_updateAll [AddCommGroup M] (value : Owner → Holding → M)
    (nodup : owners.Nodup) (changedNodup : changed.Nodup)
    (listed : ∀ owner ∈ changed, owner ∈ owners) :
    tally owners value (updateAll changed change held) =
      tally owners value held +
        (changed.map fun owner => value owner (change (held owner)) -
          value owner (held owner)).sum := by
  induction changed generalizing held with
  | nil => simp [updateAll]
  | cons head changed ih =>
      obtain ⟨fresh, nodupRest⟩ := List.nodup_cons.mp changedNodup
      have unchanged : (changed.map fun owner =>
          value owner (change (Function.update held head (change (held head)) owner)) -
            value owner (Function.update held head (change (held head)) owner)) =
          changed.map fun owner => value owner (change (held owner)) -
            value owner (held owner) := by
        apply List.map_congr_left
        intro owner later
        have different : owner ≠ head := fun same => fresh (same ▸ later)
        rw [Function.update_of_ne different]
      rw [updateAll_cons, ih nodupRest fun owner later => listed owner
          (List.mem_cons_of_mem _ later), unchanged,
        tally_update value held nodup (listed head List.mem_cons_self), List.map_cons,
        List.sum_cons]
      abel

end Several

end Tally
