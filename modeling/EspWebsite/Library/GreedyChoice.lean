import Mathlib

/-!
# Greedy choices

Values are looked at in an order, and each one is taken if it fits together with those that were
taken before.
-/

namespace GreedyChoice

universe u

variable {Value : Type u} (fits : List Value → Bool)

/-- A value is taken if it fits. -/
def choose (chosen : List Value) (value : Value) : List Value :=
  if fits (chosen ++ [value]) then chosen ++ [value] else chosen

/-- The values that are taken. -/
def choices (values : List Value) : List Value := values.foldl (choose fits) []

variable {fits} {values earlier later chosen : List Value} {value : Value}

theorem choices_append :
    choices fits (earlier ++ later) = later.foldl (choose fits) (choices fits earlier) := by
  simp [choices]

/-- What has been taken stays, and some of the values that follow are added. -/
theorem exists_foldl_choose (chosen later : List Value) :
    ∃ more, later.foldl (choose fits) chosen = chosen ++ more ∧ more.Sublist later := by
  induction later generalizing chosen with
  | nil => exact ⟨[], by simp, .slnil⟩
  | cons value later ih =>
      rw [List.foldl_cons, choose]
      split
      · obtain ⟨more, same, within⟩ := ih (chosen ++ [value])
        exact ⟨value :: more, by simp [same], within.cons_cons value⟩
      · obtain ⟨more, same, within⟩ := ih chosen
        exact ⟨more, same, within.cons value⟩

theorem choices_sublist : (choices fits values).Sublist values := by
  obtain ⟨more, same, within⟩ := @exists_foldl_choose _ fits [] values
  rw [choices, same]
  exact within

theorem fits_foldl_choose (fitting : fits chosen = true) :
    fits (values.foldl (choose fits) chosen) = true := by
  induction values generalizing chosen with
  | nil => exact fitting
  | cons value values ih =>
      rw [List.foldl_cons, choose]
      split
      next more => exact ih more
      next => exact ih fitting

theorem not_fits_of_not_mem (leftOut : value ∉ choices fits (earlier ++ value :: later)) :
    fits (choices fits earlier ++ [value]) = false := by
  by_contra fitting
  rw [Bool.not_eq_false] at fitting
  refine leftOut ?_
  rw [choices_append, List.foldl_cons, choose, if_pos fitting]
  obtain ⟨more, same, -⟩ := @exists_foldl_choose _ fits (choices fits earlier ++ [value]) later
  simp [same]

theorem choices_eq_filter [DecidableEq Value] (distinct : (earlier ++ later).Nodup) :
    choices fits earlier =
      (choices fits (earlier ++ later)).filter fun value => value ∈ earlier := by
  obtain ⟨more, same, within⟩ := @exists_foldl_choose _ fits (choices fits earlier) later
  have first : (choices fits earlier).filter (fun value => value ∈ earlier) =
      choices fits earlier :=
    List.filter_eq_self.mpr fun value isChosen => decide_eq_true (choices_sublist.subset isChosen)
  have rest : more.filter (fun value => value ∈ earlier) = [] := by
    refine List.filter_eq_nil_iff.mpr fun value isMore isEarlier => ?_
    exact (List.nodup_append.mp distinct).2.2 value (of_decide_eq_true isEarlier) value
      (within.subset isMore) rfl
  rw [choices_append, same, List.filter_append, first, rest, List.append_nil]

end GreedyChoice
