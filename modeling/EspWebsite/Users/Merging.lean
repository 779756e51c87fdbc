import EspWebsite.Users.Forwarders

/-!
# Merging users

`users/controllers/merge.py`, as far as the forwarders of both users are concerned.
-/

namespace EspWebsite.Users

variable {User : Type} [DecidableEq User]

namespace Forwarders

/-- The forwarder of the absorbee is saved with the absorber as its source, which is refused if the
absorber has one. -/
def transferSource (table : Forwarders User) (absorber absorbee : User) : Forwarders User :=
  match table.lookup absorbee with
  | none => table
  | some target =>
      if (table.lookup absorber).isSome then table
      else (table.erase absorbee).insert absorber target

/-- `merge`: the rows are found first, and then saved one after another. -/
def merge (table : Forwarders User) (absorber absorbee : User) : Forwarders User :=
  (table.forwardersIn absorbee).foldl (fun table row => table.insert row.source absorber)
    (table.transferSource absorber absorbee)

end Forwarders

/-- The forwarders, and the users who are active. -/
structure Accounts (User : Type) where
  forwarders : Forwarders User
  isActive : User → Bool

def mergeUsers (accounts : Accounts User) (absorber absorbee : User) (forward deactivate : Bool) :
    Accounts User :=
  let merged := accounts.forwarders.merge absorber absorbee
  { forwarders := if forward then merged.forward absorbee absorber else merged
    isActive :=
      if deactivate then Function.update accounts.isActive absorbee false else accounts.isActive }

/-- What merging is for: the table is flat, the absorber resolves as before, and the others who
resolved to the absorbee resolve as the absorber does, as does the absorbee with a forwarder. -/
structure Merges (table : Forwarders User) (absorber absorbee : User) (forward : Bool)
    (after : Forwarders User) : Prop where
  flat : after.Flat
  proper : ∀ user, after.lookup user ≠ some user
  keeps : (after.follow absorber).1 =
    if (table.follow absorber).1 = absorbee then absorber else (table.follow absorber).1
  redirects : ∀ user, user ≠ absorbee → (table.follow user).1 = absorbee →
    (after.follow user).1 = (after.follow absorber).1
  resolves : forward = true → (after.follow absorbee).1 = (after.follow absorber).1

/-- Where the forwarders of both users do not get in the way of each other. -/
structure IsClean (table : Forwarders User) (absorber absorbee : User) (forward : Bool) : Prop where
  /-- Only an absorber who is forwarded absorbs someone who is forwarded to a third user. -/
  outgoing : ∀ target, table.lookup absorbee = some target → target ≠ absorber →
    table.lookup absorber ≠ none
  /-- Only someone to whom nobody is forwarded is absorbed by one who is forwarded to a third. -/
  incoming : ∀ target, table.lookup absorber = some target → target ≠ absorbee →
    ∀ user, table.lookup user ≠ some absorbee
  /-- One of them is forwarded to the other only if the absorbee gets a forwarder. -/
  between : forward = false →
    table.lookup absorbee ≠ some absorber ∧ table.lookup absorber ≠ some absorbee

namespace Forwarders

variable {table : Forwarders User} {absorber absorbee source target resolved user : User}
  {rewrites : List (UserForwarder User)}

theorem lookup_foldl_insert {rows : List (UserForwarder User)} :
    (rows.foldl (fun table row => table.insert row.source absorber) table).lookup user =
      if user ∈ rows.map UserForwarder.source then some absorber else table.lookup user := by
  induction rows generalizing table with
  | nil => rfl
  | cons first rest ih =>
      rw [List.foldl_cons, ih, List.map_cons]
      by_cases isRest : user ∈ rest.map UserForwarder.source
      · rw [if_pos isRest, if_pos (List.mem_cons_of_mem _ isRest)]
      · rw [if_neg isRest]
        by_cases isFirst : user = first.source
        · rw [isFirst, if_pos List.mem_cons_self]
          exact AList.lookup_insert _
        · rw [if_neg (fun isSource => (List.mem_cons.mp isSource).elim isFirst isRest)]
          exact AList.lookup_insert_ne isFirst

/-- Where everyone is forwarded after the rows of the absorbee are transferred. -/
theorem lookup_merge : (table.merge absorber absorbee).lookup user =
    if table.lookup user = some absorbee then some absorber
    else (table.transferSource absorber absorbee).lookup user := by
  rw [merge, lookup_foldl_insert]
  exact if_congr mem_sources_forwardersIn rfl rfl

/-- Nobody is forwarded to someone who is forwarded. -/
theorem Flat.ne_some (flat : table.Flat) (forwarded : table.lookup absorbee = some target) :
    table.lookup user ≠ some absorbee := by
  intro isSource
  rw [flat user absorbee isSource] at forwarded
  cases forwarded

theorem lookup_forward_of_chase
    (chased : table.chase source target maxDepth target (table.forwardersIn source) =
      (resolved, rewrites)) :
    (table.forward source target).lookup user =
      if user ∈ rewrites.map UserForwarder.source then
        if user = resolved then none else some resolved
      else if user = source then some resolved else table.lookup user := by
  rw [forward, updateTarget]
  simp only [Bool.and_true, if_true, chased]
  rw [lookup_foldl_rewrite]
  refine if_congr Iff.rfl rfl ?_
  by_cases isSource : user = source
  · rw [if_pos isSource, isSource]
    exact AList.lookup_insert _
  · rw [if_neg isSource]
    exact AList.lookup_insert_ne isSource

theorem forwardersIn_eq_nil (none : ∀ user, table.lookup user ≠ some source) :
    table.forwardersIn source = [] := by
  refine List.eq_nil_iff_forall_not_mem.mpr fun forwarder isForwarder => ?_
  exact none forwarder.source (mem_forwardersIn.mp isForwarder).1

theorem lookup_forward_of_none (incoming : ∀ user, table.lookup user ≠ some source)
    (last : table.lookup target = none) :
    (table.forward source target).lookup user =
      if user = source then some target else table.lookup user := by
  have chased : table.chase source target maxDepth target (table.forwardersIn source) =
      (target, []) := by
    rw [forwardersIn_eq_nil incoming, maxDepth, chase, last]
  rw [lookup_forward_of_chase chased]
  exact if_neg List.not_mem_nil

theorem lookup_forward_of_some (incoming : ∀ user, table.lookup user ≠ some source)
    (next : table.lookup target = some resolved) (last : table.lookup resolved = none)
    (distinct : target ≠ source) :
    (table.forward source target).lookup user =
      if user = source then some resolved else table.lookup user := by
  have notSource : resolved ≠ source := by
    intro same
    rw [same] at next
    exact incoming target next
  have notResolved : target ≠ resolved := by
    intro same
    rw [same, last] at next
    cases next
  have chased : table.chase source target maxDepth target (table.forwardersIn source) =
      (resolved, [⟨target, resolved⟩]) := by
    rw [forwardersIn_eq_nil incoming, maxDepth, chase, next]
    dsimp only
    rw [if_neg notSource, chase, last]
    rfl
  rw [lookup_forward_of_chase chased, List.map_singleton]
  by_cases isTarget : user = target
  · rw [isTarget, if_pos (List.mem_singleton_self _), if_neg notResolved, if_neg distinct, next]
  · rw [if_neg (fun isSource => isTarget (List.mem_singleton.mp isSource))]

theorem chase_of_loop (loop : table.lookup target = some target) (distinct : target ≠ source)
    {depth : ℕ} : table.chase source target depth target rewrites =
      (target, rewrites ++ List.replicate depth ⟨target, target⟩) := by
  induction depth generalizing rewrites with
  | zero => rw [chase, List.replicate_zero, List.append_nil]
  | succ depth ih =>
      rw [chase, loop]
      dsimp only
      rw [if_neg distinct, ih, List.append_assoc, List.replicate_succ, List.singleton_append]

theorem lookup_forward_of_loop (incoming : ∀ user, table.lookup user ≠ some source)
    (loop : table.lookup target = some target) (distinct : target ≠ source) :
    (table.forward source target).lookup user =
      if user = source then some target else if user = target then none
      else table.lookup user := by
  have chased : table.chase source target maxDepth target (table.forwardersIn source) =
      (target, List.replicate maxDepth ⟨target, target⟩) := by
    rw [chase_of_loop loop distinct, forwardersIn_eq_nil incoming, List.nil_append]
  rw [lookup_forward_of_chase chased, List.map_replicate]
  by_cases isTarget : user = target
  · rw [isTarget, if_pos (List.mem_replicate.mpr ⟨by decide, rfl⟩), if_pos rfl, if_neg distinct,
      if_pos rfl]
  · rw [if_neg (fun isSource => isTarget (List.mem_replicate.mp isSource).2), if_neg isTarget]

/-! ## The cases of a merge -/

theorem lookup_merge_of_both (flat : table.Flat) (out : table.lookup absorbee = some source)
    (forwarded : table.lookup absorber = some target) :
    (table.merge absorber absorbee).lookup user = table.lookup user := by
  rw [lookup_merge, if_neg (flat.ne_some out), transferSource, out]
  dsimp only
  rw [if_pos (by rw [forwarded]; rfl)]

theorem lookup_merge_of_out (flat : table.Flat) (out : table.lookup absorbee = some target)
    (free : table.lookup absorber = none) : (table.merge absorber absorbee).lookup user =
      if user = absorber then some target else if user = absorbee then none
      else table.lookup user := by
  rw [lookup_merge, if_neg (flat.ne_some out), transferSource, out]
  dsimp only
  rw [if_neg (by rw [free]; exact Bool.false_ne_true)]
  by_cases isAbsorber : user = absorber
  · rw [if_pos isAbsorber, isAbsorber]
    exact AList.lookup_insert _
  · rw [if_neg isAbsorber, AList.lookup_insert_ne isAbsorber]
    by_cases isAbsorbee : user = absorbee
    · rw [if_pos isAbsorbee, isAbsorbee]
      exact AList.lookup_erase _ _
    · rw [if_neg isAbsorbee]
      exact AList.lookup_erase_ne isAbsorbee

theorem lookup_merge_of_free (free : table.lookup absorbee = none) :
    (table.merge absorber absorbee).lookup user =
      if table.lookup user = some absorbee then some absorber else table.lookup user := by
  rw [lookup_merge, transferSource, free]

theorem lookup_merge_ne (flat : table.Flat) (distinct : absorber ≠ absorbee) :
    (table.merge absorber absorbee).lookup user ≠ some absorbee := by
  intro isAbsorbee
  cases out : table.lookup absorbee with
  | none =>
      rw [lookup_merge_of_free out] at isAbsorbee
      split at isAbsorbee
      next => exact distinct (Option.some.inj isAbsorbee)
      next other => exact other isAbsorbee
  | some target =>
      cases forwarded : table.lookup absorber with
      | some next =>
          rw [lookup_merge_of_both flat out forwarded] at isAbsorbee
          exact flat.ne_some out isAbsorbee
      | none =>
          rw [lookup_merge_of_out flat out forwarded] at isAbsorbee
          split at isAbsorbee
          next => exact flat.ne out (Option.some.inj isAbsorbee).symm
          next =>
            split at isAbsorbee
            next => cases isAbsorbee
            next => exact flat.ne_some out isAbsorbee

/-- The user that the absorber resolves to after a merge. -/
def root (table : Forwarders User) (absorber absorbee : User) : User :=
  if (table.follow absorber).1 = absorbee then absorber else (table.follow absorber).1

/-- Where everyone should be forwarded after a merge. -/
def intended (table : Forwarders User) (absorber absorbee : User) (forward : Bool) (user : User) :
    Option User :=
  if user = absorbee then
    if forward then some (table.root absorber absorbee) else table.lookup absorbee
  else if table.lookup user = some absorbee then
    if user = absorber then none else some (table.root absorber absorbee)
  else table.lookup user

theorem root_of_none (distinct : absorber ≠ absorbee) (free : table.lookup absorber = none) :
    table.root absorber absorbee = absorber := by
  rw [root, follow_of_none free, if_neg distinct]

theorem root_of_some (forwarded : table.lookup absorber = some target)
    (different : target ≠ absorbee) : table.root absorber absorbee = target := by
  rw [root, follow_of_some forwarded, if_neg different]

theorem root_of_absorbee (forwarded : table.lookup absorber = some absorbee) :
    table.root absorber absorbee = absorber := by
  rw [root, follow_of_some forwarded, if_pos rfl]

end Forwarders

namespace Forwarders

variable {table : Forwarders User} {absorber absorbee target user : User}

theorem lookup_merge_of_isClean (flat : table.Flat) (distinct : absorber ≠ absorbee)
    (clean : IsClean table absorber absorbee false) :
    (table.merge absorber absorbee).lookup user = table.intended absorber absorbee false user := by
  rw [intended, if_neg Bool.false_ne_true]
  have between := clean.between rfl
  cases out : table.lookup absorbee with
  | none =>
      rw [lookup_merge_of_free out]
      by_cases isAbsorbee : user = absorbee
      · rw [if_pos isAbsorbee, isAbsorbee, out, if_neg (fun none => nomatch none)]
      · rw [if_neg isAbsorbee]
        refine if_ctx_congr Iff.rfl (fun isIncoming => ?_) fun _ => rfl
        have notAbsorber : user ≠ absorber := by
          intro same
          rw [same] at isIncoming
          exact between.2 isIncoming
        rw [if_neg notAbsorber]
        cases forwarded : table.lookup absorber with
        | none => rw [root_of_none distinct forwarded]
        | some next =>
            refine absurd isIncoming (clean.incoming next forwarded ?_ user)
            intro same
            rw [same] at forwarded
            exact between.2 forwarded
  | some target =>
      cases forwarded : table.lookup absorber with
      | none =>
          refine absurd forwarded (clean.outgoing target out ?_)
          intro same
          rw [same] at out
          exact between.1 out
      | some next =>
          rw [lookup_merge_of_both flat out forwarded, if_neg (flat.ne_some out)]
          by_cases isAbsorbee : user = absorbee
          · rw [if_pos isAbsorbee, isAbsorbee, out]
          · rw [if_neg isAbsorbee]

/-- With a forwarder from the absorbee to the absorber. -/
theorem lookup_forward_merge (flat : table.Flat) (distinct : absorber ≠ absorbee)
    (clean : IsClean table absorber absorbee true) :
    ((table.merge absorber absorbee).forward absorbee absorber).lookup user =
      table.intended absorber absorbee true user := by
  have incoming := fun user => @lookup_merge_ne _ _ table absorber absorbee user flat distinct
  rw [intended, if_pos rfl]
  cases forwarded : table.lookup absorber with
  | none =>
      rw [root_of_none distinct forwarded]
      cases out : table.lookup absorbee with
      | none =>
          have last : (table.merge absorber absorbee).lookup absorber = none := by
            rw [lookup_merge_of_free out, forwarded, if_neg (fun none => nomatch none)]
          rw [lookup_forward_of_none incoming last, lookup_merge_of_free out]
          refine if_congr Iff.rfl rfl (if_ctx_congr Iff.rfl (fun isIncoming => ?_) fun _ => rfl)
          refine (if_neg fun same => ?_).symm
          rw [same, forwarded] at isIncoming
          cases isIncoming
      | some target =>
          have isAbsorber : target = absorber := by
            by_contra different
            exact clean.outgoing target out different forwarded
          rw [isAbsorber] at out
          have loop : (table.merge absorber absorbee).lookup absorber = some absorber := by
            rw [lookup_merge_of_out flat out forwarded, if_pos rfl]
          rw [lookup_forward_of_loop incoming loop distinct, lookup_merge_of_out flat out forwarded,
            if_neg (flat.ne_some out)]
          by_cases isAbsorbee : user = absorbee
          · rw [if_pos isAbsorbee, if_pos isAbsorbee]
          · rw [if_neg isAbsorbee, if_neg isAbsorbee, if_neg isAbsorbee]
            by_cases same : user = absorber
            · rw [if_pos same, same, forwarded]
            · rw [if_neg same, if_neg same]
  | some next =>
      by_cases isAbsorbee : next = absorbee
      · rw [isAbsorbee] at forwarded
        rw [root_of_absorbee forwarded]
        have free := flat absorber absorbee forwarded
        have loop : (table.merge absorber absorbee).lookup absorber = some absorber := by
          rw [lookup_merge_of_free free, if_pos forwarded]
        rw [lookup_forward_of_loop incoming loop distinct, lookup_merge_of_free free]
        refine if_congr Iff.rfl rfl ?_
        by_cases same : user = absorber
        · rw [if_pos same, same, if_pos forwarded, if_pos rfl]
        · rw [if_neg same, if_neg same]
      · rw [root_of_some forwarded isAbsorbee]
        have others := clean.incoming next forwarded isAbsorbee
        have merged (user : User) (notAbsorbee : user ≠ absorbee) :
            (table.merge absorber absorbee).lookup user = table.lookup user := by
          cases out : table.lookup absorbee with
          | none => rw [lookup_merge_of_free out, if_neg (others user)]
          | some target => exact lookup_merge_of_both flat out forwarded
        have stays := (merged absorber distinct).trans forwarded
        have last := (merged next isAbsorbee).trans (flat absorber next forwarded)
        rw [lookup_forward_of_some incoming stays last distinct, if_neg (others user)]
        by_cases same : user = absorbee
        · rw [if_pos same, if_pos same]
        · rw [if_neg same, if_neg same, merged user same]

end Forwarders

namespace Forwarders

variable {table after : Forwarders User} {absorber absorbee target user : User} {forward : Bool}

theorem intended_of_none (different : user ≠ absorbee) (free : table.lookup user = none) :
    table.intended absorber absorbee forward user = none := by
  rw [intended, if_neg different, free, if_neg (fun none => nomatch none)]

/-- Nobody forwards the user that the absorber resolves to. -/
theorem intended_root (flat : table.Flat) (distinct : absorber ≠ absorbee) :
    table.intended absorber absorbee forward (table.root absorber absorbee) = none := by
  cases forwarded : table.lookup absorber with
  | none =>
      rw [root_of_none distinct forwarded]
      exact intended_of_none distinct forwarded
  | some next =>
      by_cases isAbsorbee : next = absorbee
      · rw [isAbsorbee] at forwarded
        rw [root_of_absorbee forwarded, intended, if_neg distinct, if_pos forwarded, if_pos rfl]
      · rw [root_of_some forwarded isAbsorbee]
        exact intended_of_none isAbsorbee (flat absorber next forwarded)

theorem intended_absorber (distinct : absorber ≠ absorbee)
    (lookup : ∀ user, after.lookup user = table.intended absorber absorbee forward user) :
    (after.follow absorber).1 = table.root absorber absorbee := by
  rw [follow, lookup, intended, if_neg distinct]
  cases forwarded : table.lookup absorber with
  | none =>
      rw [root_of_none distinct forwarded, if_neg (Option.some_ne_none _).symm]
  | some next =>
      by_cases isAbsorbee : next = absorbee
      · rw [isAbsorbee] at forwarded ⊢
        rw [root_of_absorbee forwarded, if_pos rfl, if_pos rfl]
      · rw [root_of_some forwarded isAbsorbee,
          if_neg (fun same => isAbsorbee (Option.some.inj same))]

theorem merges_of_lookup (flat : table.Flat) (distinct : absorber ≠ absorbee)
    (lookup : ∀ user, after.lookup user = table.intended absorber absorbee forward user) :
    Merges table absorber absorbee forward after := by
  have flatAfter : after.Flat := by
    intro source target forwarded
    rw [lookup, intended] at forwarded
    rw [lookup]
    have isRoot (same : some (table.root absorber absorbee) = some target) :
        table.intended absorber absorbee forward target = none := by
      rw [← Option.some.inj same]
      exact intended_root flat distinct
    split at forwarded
    next =>
      split at forwarded
      next => exact isRoot forwarded
      next => exact intended_of_none (flat.ne forwarded).symm (flat absorbee target forwarded)
    next =>
      split at forwarded
      next =>
        split at forwarded
        next => cases forwarded
        next => exact isRoot forwarded
      next notIncoming =>
        refine intended_of_none ?_ (flat source target forwarded)
        intro same
        rw [same] at forwarded
        exact notIncoming forwarded
  exact {
    flat := flatAfter
    proper := fun user loop => flatAfter.ne loop rfl
    keeps := intended_absorber distinct lookup
    redirects := by
      intro user different resolves
      have forwarded := (follow_fst_eq different).mp resolves
      rw [intended_absorber distinct lookup, follow, lookup, intended, if_neg different,
        if_pos forwarded]
      by_cases same : user = absorber
      · rw [same] at forwarded
        rw [if_pos same, same, root_of_absorbee forwarded]
      · rw [if_neg same]
    resolves := by
      intro forwards
      rw [intended_absorber distinct lookup, follow, lookup, intended, if_pos rfl,
        if_pos forwards] }

theorem lookup_merge_between (flat : table.Flat)
    (between : table.lookup absorbee = some absorber ∨ table.lookup absorber = some absorbee) :
    (table.merge absorber absorbee).lookup absorber = some absorber := by
  cases between with
  | inl out => rw [lookup_merge_of_out flat out (flat absorbee absorber out), if_pos rfl]
  | inr into => rw [lookup_merge_of_free (flat absorber absorbee into), if_pos into]

theorem lookup_forward_absorber (flat : table.Flat) (distinct : absorber ≠ absorbee)
    (next : (table.merge absorber absorbee).lookup absorber = some target)
    (last : (table.merge absorber absorbee).lookup target = none) (different : user ≠ absorbee) :
    (if forward then (table.merge absorber absorbee).forward absorbee absorber
      else table.merge absorber absorbee).lookup user =
        (table.merge absorber absorbee).lookup user := by
  have incoming := fun user => @lookup_merge_ne _ _ table absorber absorbee user flat distinct
  cases forward with
  | false => rfl
  | true =>
      rw [if_pos rfl, lookup_forward_of_some incoming next last distinct, if_neg different]

end Forwarders

variable {accounts : Accounts User} {absorber absorbee user : User} {forward deactivate : Bool}

open Forwarders

/-- Where the forwarders are not in the way, everyone is forwarded as intended. -/
theorem lookup_mergeUsers (flat : accounts.forwarders.Flat) (distinct : absorber ≠ absorbee)
    (clean : IsClean accounts.forwarders absorber absorbee forward) :
    (mergeUsers accounts absorber absorbee forward deactivate).forwarders.lookup user =
      accounts.forwarders.intended absorber absorbee forward user := by
  cases forward with
  | false => exact lookup_merge_of_isClean flat distinct clean
  | true => exact lookup_forward_merge flat distinct clean

/-- Merging does what it is for exactly where the forwarders are not in the way. -/
theorem mergeUsers_merges_iff (flat : accounts.forwarders.Flat) (distinct : absorber ≠ absorbee) :
    Merges accounts.forwarders absorber absorbee forward
        (mergeUsers accounts absorber absorbee forward deactivate).forwarders ↔
      IsClean accounts.forwarders absorber absorbee forward := by
  constructor
  · intro merges
    rw [mergeUsers] at merges
    constructor
    · intro target out different free
      have next : (accounts.forwarders.merge absorber absorbee).lookup absorber = some target := by
        rw [lookup_merge_of_out flat out free, if_pos rfl]
      have last : (accounts.forwarders.merge absorber absorbee).lookup target = none := by
        rw [lookup_merge_of_out flat out free, if_neg different, if_neg (flat.ne out).symm]
        exact flat absorbee target out
      have keeps := merges.keeps
      rw [follow, lookup_forward_absorber flat distinct next last distinct, next,
        follow_of_none free, if_neg distinct] at keeps
      exact different keeps
    · intro target forwarded different user isIncoming
      have free := flat user absorbee isIncoming
      have next : (accounts.forwarders.merge absorber absorbee).lookup absorber = some target := by
        rw [lookup_merge_of_free free, forwarded,
          if_neg (fun same => different (Option.some.inj same))]
      have last : (accounts.forwarders.merge absorber absorbee).lookup target = none := by
        rw [lookup_merge_of_free free, flat absorber target forwarded,
          if_neg (Option.some_ne_none _).symm]
      have incoming : (accounts.forwarders.merge absorber absorbee).lookup user =
          some absorber := by
        rw [lookup_merge_of_free free, if_pos isIncoming]
      have stays := fun user => @lookup_forward_absorber _ _ accounts.forwarders absorber absorbee
        target user forward flat distinct next last
      have ends := merges.flat user absorber
        ((stays user (flat.ne isIncoming)).trans incoming)
      rw [stays absorber distinct, next] at ends
      cases ends
    · intro isFalse
      rw [isFalse, if_neg Bool.false_ne_true] at merges
      constructor
      · intro out
        exact merges.proper absorber (lookup_merge_between flat (.inl out))
      · intro into
        exact merges.proper absorber (lookup_merge_between flat (.inr into))
  · intro clean
    exact merges_of_lookup flat distinct fun user => lookup_mergeUsers flat distinct clean

/-- User 2 is forwarded to user 3. -/
def oneForwarder : Accounts ℕ where
  forwarders := AList.insert 2 3 ∅
  isActive _ := true

theorem flat_oneForwarder : oneForwarder.forwarders.Flat := by
  intro source target forwarded
  by_cases isTwo : source = 2
  · rw [isTwo] at forwarded
    cases forwarded
    rfl
  · rw [oneForwarder, AList.lookup_insert_ne isTwo, AList.lookup_empty] at forwarded
    cases forwarded

/-- User 1, who was not forwarded, is forwarded to user 3 after absorbing user 2. -/
theorem not_merges_oneForwarder : oneForwarder.forwarders.Flat ∧
    ¬ Merges oneForwarder.forwarders 1 2 true
      (mergeUsers oneForwarder 1 2 true false).forwarders := by
  refine ⟨flat_oneForwarder, fun merges => ?_⟩
  have keeps := merges.keeps
  revert keeps
  decide

theorem mergeUsers_merges_iff_oneForwarder :
    Merges oneForwarder.forwarders 3 1 false (mergeUsers oneForwarder 3 1 false true).forwarders ↔
      IsClean oneForwarder.forwarders 3 1 false :=
  mergeUsers_merges_iff flat_oneForwarder (by decide)

end EspWebsite.Users
