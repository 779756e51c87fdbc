import Mathlib

/-!
# Worklists

A loop that takes items from the top of a stack, puts out something for each and pushes further
items.  It ends where a measure goes down with each push, and puts out what it does for the items
that can be reached.
-/

namespace Worklists

open Relation

universe u v

/-- What a loop over a stack does with an item; the item pushed last is taken first. -/
structure Worklist (Item : Type u) (Output : Type v) where
  outputs : Item → List Output
  pushes : Item → List Item

namespace Worklist

variable {Item : Type u} {Output : Type v} (worklist : Worklist Item Output)

/-- The loop with the top of the stack first, as far as it gets in a number of rounds. -/
def loop : ℕ → List Item → List Output → Option (List Output)
  | _, [], outputs => some outputs
  | 0, _ :: _, _ => none
  | rounds + 1, item :: stack, outputs =>
      loop rounds ((worklist.pushes item).reverse ++ stack) (outputs ++ worklist.outputs item)

/-- The items that are pushed for an item, and those that are pushed for these, and so on. -/
def Reaches : Item → Item → Prop := ReflTransGen fun item next => next ∈ worklist.pushes item

variable {worklist} {rounds : ℕ} {stack : List Item} {outputs result : List Output}
  {output : Output}

theorem loop_of_le (ends : worklist.loop rounds stack outputs = some result) {more : ℕ}
    (isMore : rounds ≤ more) : worklist.loop more stack outputs = some result := by
  induction rounds generalizing stack outputs more with
  | zero =>
      cases stack with
      | nil => simpa [loop] using ends
      | cons item stack => simp [loop] at ends
  | succ rounds ih =>
      cases stack with
      | nil => simpa [loop] using ends
      | cons item stack =>
          obtain ⟨more, rfl⟩ :=
            Nat.exists_eq_add_one_of_ne_zero (Nat.ne_of_gt (by omega : 0 < more))
          simp only [loop] at ends ⊢
          exact ih ends (by omega)

theorem loop_append {below : List Item} {between : List Output} {further : ℕ}
    (first : worklist.loop rounds stack outputs = some between)
    (second : worklist.loop further below between = some result) :
    worklist.loop (rounds + further) (stack ++ below) outputs = some result := by
  induction rounds generalizing stack outputs with
  | zero =>
      cases stack with
      | nil =>
          simp only [loop, Option.some.injEq] at first
          simpa [first] using second
      | cons item stack => simp [loop] at first
  | succ rounds ih =>
      cases stack with
      | nil =>
          simp only [loop, Option.some.injEq] at first
          subst first
          exact loop_of_le second (by omega)
      | cons item stack =>
          simp only [loop] at first
          have := ih first
          simpa [loop, Nat.add_right_comm, List.append_assoc] using this

theorem exists_loop (measure : Item → ℕ)
    (decreases : ∀ item, ∀ next ∈ worklist.pushes item, measure next < measure item)
    (stack : List Item) (outputs : List Output) :
    ∃ rounds result, worklist.loop rounds stack outputs = some result := by
  -- the items of a stack are done one after the other, each by induction on its measure
  have each (items : List Item) (single : ∀ item ∈ items, ∀ outputs, ∃ rounds result,
      worklist.loop rounds [item] outputs = some result) :
      ∀ outputs, ∃ rounds result, worklist.loop rounds items outputs = some result := by
    induction items with
    | nil => exact fun outputs => ⟨0, outputs, rfl⟩
    | cons item items ih =>
        intro outputs
        obtain ⟨rounds, between, first⟩ := single item List.mem_cons_self outputs
        obtain ⟨further, result, second⟩ :=
          ih (fun other isItem => single other (List.mem_cons_of_mem _ isItem)) between
        exact ⟨rounds + further, result, loop_append first second⟩
  have single (size : ℕ) : ∀ item, measure item ≤ size → ∀ outputs, ∃ rounds result,
      worklist.loop rounds [item] outputs = some result := by
    induction size with
    | zero =>
        intro item small outputs
        have noPush : worklist.pushes item = [] := by
          refine List.eq_nil_iff_forall_not_mem.mpr fun next isNext => ?_
          exact absurd (decreases item next isNext) (by omega)
        exact ⟨1, outputs ++ worklist.outputs item, by simp [loop, noPush]⟩
    | succ size ih =>
        intro item small outputs
        obtain ⟨rounds, result, ends⟩ := each (worklist.pushes item).reverse
          (fun next isNext => ih next <| by
            have := decreases item next (List.mem_reverse.mp isNext)
            omega) (outputs ++ worklist.outputs item)
        exact ⟨rounds + 1, result, by simpa [loop] using ends⟩
  exact each stack (fun item _ => single (measure item) item le_rfl) outputs

theorem mem_loop_iff (ends : worklist.loop rounds stack outputs = some result) :
    output ∈ result ↔ output ∈ outputs ∨
      ∃ item ∈ stack, ∃ next, worklist.Reaches item next ∧ output ∈ worklist.outputs next := by
  induction rounds generalizing stack outputs with
  | zero =>
      cases stack with
      | nil =>
          simp only [loop, Option.some.injEq] at ends
          simp [ends]
      | cons item stack => simp [loop] at ends
  | succ rounds ih =>
      cases stack with
      | nil =>
          simp only [loop, Option.some.injEq] at ends
          simp [ends]
      | cons item stack =>
          simp only [loop] at ends
          have step : (∃ next, worklist.Reaches item next ∧ output ∈ worklist.outputs next) ↔
              output ∈ worklist.outputs item ∨ ∃ child ∈ worklist.pushes item,
                ∃ next, worklist.Reaches child next ∧ output ∈ worklist.outputs next := by
            constructor
            · rintro ⟨next, reaches, isOutput⟩
              rcases ReflTransGen.cases_head reaches with rfl | ⟨child, isChild, further⟩
              · exact .inl isOutput
              · exact .inr ⟨child, isChild, next, further, isOutput⟩
            · rintro (isOutput | ⟨child, isChild, next, further, isOutput⟩)
              · exact ⟨item, .refl, isOutput⟩
              · exact ⟨next, .head isChild further, isOutput⟩
          rw [ih ends]
          simp only [List.mem_append, List.mem_reverse, or_and_right, exists_or,
            List.exists_mem_cons_iff, step]
          simp only [or_assoc]

end Worklist

end Worklists
