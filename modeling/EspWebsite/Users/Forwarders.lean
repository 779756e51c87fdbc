import Mathlib.Data.List.AList
import EspWebsite.Library.Runs

/-!
# User forwarders

`UserForwarder` of `users/models/forwarder.py`, which links user accounts to others.
-/

namespace EspWebsite.Users

open Runs

variable {User : Type} [DecidableEq User]

/-- The rows of `UserForwarder`, by their sources, which are unique. -/
abbrev Forwarders (User : Type) := AList fun _ : User => User

/-- A row, as it is in memory. -/
structure UserForwarder (User : Type) where
  source : User
  target : User
  deriving DecidableEq

/-- A call of `forward` on distinct users. -/
structure ForwardCall (User : Type) where
  source : User
  target : User
  distinct : source ≠ target

def maxDepth : ℕ := 5

namespace Forwarders

/-- `forwarders_in` of a user. -/
def forwardersIn (table : Forwarders User) (user : User) : List (UserForwarder User) :=
  (table.entries.filter fun row => row.2 = user).map fun row => ⟨row.1, row.2⟩

/-- The loop of `updateTarget` that finds the real target.  It goes back to the given one when it
comes to the source. -/
def chase (table : Forwarders User) (source originalTarget : User) :
    ℕ → User → List (UserForwarder User) → User × List (UserForwarder User)
  | 0, target, rewrites => (target, rewrites)
  | depth + 1, target, rewrites =>
      match table.lookup target with
      | none => (target, rewrites)
      | some next =>
          if next = source then (originalTarget, rewrites)
          else chase table source originalTarget depth next (rewrites ++ [⟨target, next⟩])

/-- A forwarder is rewritten to point to the target, or deleted if it starts there. -/
def rewrite (target : User) (table : Forwarders User) (forwarder : UserForwarder User) :
    Forwarders User :=
  if forwarder.source = target then table.erase forwarder.source
  else table.insert forwarder.source target

/-- `updateTarget`, for the forwarder of a source. -/
def updateTarget (table : Forwarders User) (source target : User) (flatten save : Bool) :
    User × Forwarders User :=
  let flatten := flatten && save
  let rewrites := if flatten then table.forwardersIn source else []
  let (target, rewrites) := table.chase source target maxDepth target rewrites
  if save then
    let table := table.insert source target
    (target, if flatten then rewrites.foldl (rewrite target) table else table)
  else (target, table)

def forward (table : Forwarders User) (source target : User) : Forwarders User :=
  (table.updateTarget source target true true).2

def follow (table : Forwarders User) (user : User) : User × Bool :=
  match table.lookup user with
  | some target => (target, true)
  | none => (user, false)

/-- Nobody who is forwarded is the target of a forwarder. -/
def Flat (table : Forwarders User) : Prop :=
  ∀ source target, table.lookup source = some target → table.lookup target = none

/-- The forwarder that the chase follows, if it does not come to the source. -/
def followed (table : Forwarders User) (source target : User) : List (UserForwarder User) :=
  match table.lookup target with
  | none => []
  | some next => if next = source then [] else [⟨target, next⟩]

/-- The user that the target of a call resolves to, or the target itself if that is the source. -/
def resolvedTarget (table : Forwarders User) (source target : User) : User :=
  if (table.follow target).1 = source then target else (table.follow target).1

variable {table : Forwarders User} {source target user : User}

theorem mem_forwardersIn {forwarder : UserForwarder User} :
    forwarder ∈ table.forwardersIn user ↔
      table.lookup forwarder.source = some user ∧ forwarder.target = user := by
  rw [forwardersIn, List.mem_map]
  constructor
  · intro some
    rcases some with ⟨row, isRow, rfl⟩
    rw [List.mem_filter, decide_eq_true_eq] at isRow
    refine ⟨?_, isRow.2⟩
    rw [← isRow.2]
    exact AList.mem_lookup_iff.mpr isRow.1
  · intro both
    refine ⟨⟨forwarder.source, user⟩, List.mem_filter.mpr
      ⟨AList.mem_lookup_iff.mp both.1, by simp⟩, ?_⟩
    rw [← both.2]

/-- The rows that are rewritten point to the target, and the others stay. -/
theorem lookup_foldl_rewrite {rewrites : List (UserForwarder User)} :
    (rewrites.foldl (rewrite target) table).lookup user =
      if user ∈ rewrites.map UserForwarder.source then
        if user = target then none else some target
      else table.lookup user := by
  induction rewrites generalizing table with
  | nil => rfl
  | cons first rest ih =>
      rw [List.foldl_cons, ih, List.map_cons]
      by_cases isRest : user ∈ rest.map UserForwarder.source
      · rw [if_pos isRest, if_pos (List.mem_cons_of_mem _ isRest)]
      · rw [if_neg isRest, rewrite]
        by_cases isFirst : user = first.source
        · rw [isFirst, if_pos List.mem_cons_self]
          by_cases isTarget : first.source = target
          · rw [if_pos isTarget, if_pos isTarget]
            exact AList.lookup_erase _ _
          · rw [if_neg isTarget, if_neg isTarget]
            exact AList.lookup_insert _
        · rw [if_neg (fun isSource => (List.mem_cons.mp isSource).elim isFirst isRest)]
          by_cases isTarget : first.source = target
          · rw [if_pos isTarget]
            exact AList.lookup_erase_ne isFirst
          · rw [if_neg isTarget]
            exact AList.lookup_insert_ne isFirst

theorem follow_of_none (notForwarded : table.lookup user = none) :
    table.follow user = (user, false) := by
  rw [follow, notForwarded]

theorem follow_of_some (forwarded : table.lookup user = some target) :
    table.follow user = (target, true) := by
  rw [follow, forwarded]

theorem chase_of_flat (flat : table.Flat) {rewrites : List (UserForwarder User)} :
    table.chase source target maxDepth target rewrites =
      (table.resolvedTarget source target, rewrites ++ table.followed source target) := by
  rw [maxDepth, chase, resolvedTarget, followed]
  cases next : table.lookup target with
  | none =>
      rw [follow_of_none next, ite_self, List.append_nil]
  | some next' =>
      rw [follow_of_some next]
      dsimp only
      by_cases circular : next' = source
      · rw [if_pos circular, if_pos circular, if_pos circular, List.append_nil]
      · rw [if_neg circular, if_neg circular, if_neg circular, chase, flat target next' next]

theorem mem_sources_forwardersIn : user ∈ (table.forwardersIn source).map UserForwarder.source ↔
    table.lookup user = some source := by
  rw [List.mem_map]
  constructor
  · intro some
    rcases some with ⟨forwarder, isForwarder, rfl⟩
    exact (mem_forwardersIn.mp isForwarder).1
  · intro forwarded
    exact ⟨⟨user, source⟩, mem_forwardersIn.mpr ⟨forwarded, rfl⟩, rfl⟩

theorem Flat.ne (flat : table.Flat) (forwarded : table.lookup source = some target) :
    source ≠ target := by
  intro same
  rw [← same] at forwarded
  have notForwarded := flat source source forwarded
  rw [forwarded] at notForwarded
  cases notForwarded

theorem lookup_forward (flat : table.Flat) (distinct : source ≠ target) :
    (table.forward source target).lookup user =
      if user = source then some (table.resolvedTarget source target)
      else if table.lookup user = some source then
        if user = table.resolvedTarget source target then none
        else some (table.resolvedTarget source target)
      else table.lookup user := by
  have inserted : (table.insert source (table.resolvedTarget source target)).lookup user =
      if user = source then some (table.resolvedTarget source target) else table.lookup user := by
    split
    next same =>
      rw [same]
      exact AList.lookup_insert _
    next different => exact AList.lookup_insert_ne different
  rw [forward, updateTarget]
  simp only [Bool.and_true, if_true, chase_of_flat flat]
  rw [lookup_foldl_rewrite, inserted]
  have rewritten : user ∈ (table.forwardersIn source ++ table.followed source target).map
      UserForwarder.source ↔ table.lookup user = some source ∨
        user ∈ (table.followed source target).map UserForwarder.source := by
    rw [List.map_append, List.mem_append, mem_sources_forwardersIn]
  by_cases forwarded : table.lookup user = some source
  · rw [if_pos (rewritten.mpr (.inl forwarded)), if_neg (flat.ne forwarded), if_pos forwarded]
  · rw [if_neg forwarded]
    by_cases isFollowed : user ∈ (table.followed source target).map UserForwarder.source
    · rw [if_pos (rewritten.mpr (.inr isFollowed))]
      rw [followed] at isFollowed
      cases next : table.lookup target with
      | none =>
          rw [next] at isFollowed
          cases isFollowed
      | some next' =>
          rw [next] at isFollowed
          dsimp only at isFollowed
          by_cases circular : next' = source
          · rw [if_pos circular] at isFollowed
            cases isFollowed
          · rw [if_neg circular] at isFollowed
            have isTarget : user = target := List.mem_singleton.mp isFollowed
            have resolved : table.resolvedTarget source target = next' := by
              rw [resolvedTarget, follow_of_some next]
              exact if_neg circular
            rw [resolved, isTarget, if_neg (flat.ne next), if_neg distinct.symm, next]
    · rw [if_neg (fun either => (rewritten.mp either).elim forwarded isFollowed)]

/-- What a call does: the source and all who were forwarded to it are forwarded to the user that the
target resolves to, and the others stay. -/
structure Redirects (table : Forwarders User) (call : ForwardCall User)
    (after : Forwarders User) : Prop where
  source : (after.follow call.source).1 = table.resolvedTarget call.source call.target
  incoming : ∀ user, (table.follow user).1 = call.source →
    (after.follow user).1 = table.resolvedTarget call.source call.target
  target : (table.follow call.target).1 = call.source → after.lookup call.target = none
  others : ∀ user, user ≠ call.source → (table.follow user).1 ≠ call.source →
    after.follow user = table.follow user

/-- A call forwards from its source to its target. -/
def step (table : Forwarders User) (call : ForwardCall User) : Forwarders User :=
  table.forward call.source call.target

theorem follow_fst_eq (different : user ≠ source) :
    (table.follow user).1 = source ↔ table.lookup user = some source := by
  rw [follow]
  cases table.lookup user with
  | none => exact iff_of_false different (fun none => nomatch none)
  | some next => exact (Option.some_inj).symm

theorem Flat.follow_follow (flat : table.Flat) (user : User) :
    table.follow (table.follow user).1 = ((table.follow user).1, false) := by
  cases next : table.lookup user with
  | none => rw [follow_of_none next, follow_of_none next]
  | some next' => rw [follow_of_some next, follow_of_none (flat user next' next)]

theorem Flat.lookup_resolvedTarget (flat : table.Flat) (distinct : source ≠ target) :
    table.resolvedTarget source target ≠ source ∧
      (table.lookup (table.resolvedTarget source target) = none ∨
        table.lookup (table.resolvedTarget source target) = some source) := by
  rw [resolvedTarget]
  by_cases circular : (table.follow target).1 = source
  · rw [if_pos circular]
    exact ⟨distinct.symm, .inr ((follow_fst_eq distinct.symm).mp circular)⟩
  · rw [if_neg circular]
    refine ⟨circular, .inl ?_⟩
    cases next : table.lookup target with
    | none =>
        rw [follow_of_none next]
        exact next
    | some next' =>
        rw [follow_of_some next]
        exact flat target next' next

theorem redirects_step (flat : table.Flat) (call : ForwardCall User) :
    Redirects table call (step table call) := by
  have after := fun user => @lookup_forward User _ table call.source call.target user flat
    call.distinct
  constructor
  · rw [step, follow, after, if_pos rfl]
  · intro user resolves
    rw [step, follow, after]
    by_cases same : user = call.source
    · rw [if_pos same]
    · rw [if_neg same, if_pos ((follow_fst_eq same).mp resolves)]
      by_cases isResolved : user = table.resolvedTarget call.source call.target
      · rw [if_pos isResolved]
        exact isResolved
      · rw [if_neg isResolved]
  · intro circular
    rw [step, after, if_neg call.distinct.symm,
      if_pos ((follow_fst_eq call.distinct.symm).mp circular), resolvedTarget, if_pos circular,
      if_pos rfl]
  · intro user different resolves
    rw [step, follow, after, if_neg different,
      if_neg (fun forwarded => resolves ((follow_fst_eq different).mpr forwarded))]
    rfl

theorem flat_step (flat : table.Flat) (call : ForwardCall User) : (step table call).Flat := by
  have after := fun user => @lookup_forward User _ table call.source call.target user flat
    call.distinct
  rcases flat.lookup_resolvedTarget call.distinct with ⟨different, resolved⟩
  have isLast : (step table call).lookup
      (table.resolvedTarget call.source call.target) = none := by
    rw [step, after, if_neg different]
    rcases resolved with none | circular
    · rw [none, if_neg (fun isSource => nomatch isSource)]
    · rw [if_pos circular, if_pos rfl]
  intro source target forwarded
  rw [step, after] at forwarded
  split at forwarded
  next =>
    rw [← Option.some.inj forwarded]
    exact isLast
  next =>
    split at forwarded
    next =>
      split at forwarded
      next => cases forwarded
      next =>
        rw [← Option.some.inj forwarded]
        exact isLast
    next other =>
      have notForwarded := flat source target forwarded
      have notSource : target ≠ call.source := by
        intro same
        rw [same] at forwarded
        exact other forwarded
      rw [step, after, if_neg notSource, notForwarded,
        if_neg (fun isSource => nomatch isSource)]

/-- From no forwarders on, the table stays flat, so that one step follows it, and each call
redirects its source to the user that its target resolves to. -/
theorem forward_throughout (calls : List (ForwardCall User)) :
    Throughout step (fun table : Forwarders User => table.Flat ∧
      (∀ user, table.lookup user ≠ some user) ∧
      ∀ user, table.follow (table.follow user).1 = ((table.follow user).1, false)) ∅ calls ∧
    AtEach step (fun table call => Redirects table call (step table call)) ∅ calls := by
  have initially : Flat (∅ : Forwarders User) := by
    intro source target forwarded
    rw [AList.lookup_empty] at forwarded
    cases forwarded
  have any : AtEach step (fun _ _ => True) (∅ : Forwarders User) calls :=
    fun _ _ _ => trivial
  have flats : Throughout step (fun table : Forwarders User => table.Flat) ∅ calls :=
    throughout_of_steps (fun _ call flat _ => flat_step flat call) initially any
  constructor
  · intro before isPrefix
    have flat := flats before isPrefix
    exact ⟨flat, fun user loop => flat.ne loop rfl, flat.follow_follow⟩
  · intro before call isPrefix
    exact redirects_step (flats before ((List.prefix_append before [call]).trans isPrefix)) call

end Forwarders

end EspWebsite.Users
