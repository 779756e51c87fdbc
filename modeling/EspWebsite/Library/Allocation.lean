import Mathlib

/-!
# Exclusive allocation of resources

Owners hold lists of resources, and each resource records who holds it.  The two
views agree; releasing what an owner holds and acquiring free resources keep them
in agreement, and the two operations undo each other.
-/

namespace Allocation

variable {Owner Resource : Type*} [DecidableEq Owner] [DecidableEq Resource]

/-- The holders after the listed resources are given to an owner. -/
def grant (holder : Resource → Option Owner) (owner : Owner) (resources : List Resource) :
    Resource → Option Owner :=
  fun resource => if resource ∈ resources then some owner else holder resource

/-- The holders after the listed resources are freed. -/
def free (holder : Resource → Option Owner) (resources : List Resource) :
    Resource → Option Owner :=
  fun resource => if resource ∈ resources then none else holder resource

section Operations

variable {holder : Resource → Option Owner} {owner : Owner} {resources : List Resource}

omit [DecidableEq Owner] in
@[simp] theorem grant_nil : grant holder owner [] = holder := by
  funext resource
  simp [grant]

omit [DecidableEq Owner] in
@[simp] theorem free_nil : free holder [] = holder := by
  funext resource
  simp [free]

omit [DecidableEq Owner] in
theorem grant_cons (resource : Resource) :
    grant (Function.update holder resource (some owner)) owner resources =
      grant holder owner (resource :: resources) := by
  funext other
  by_cases same : other = resource
  · subst same
    simp [grant]
  · simp [grant, same]

omit [DecidableEq Owner] in
theorem free_cons (resource : Resource) :
    free (Function.update holder resource none) resources =
      free holder (resource :: resources) := by
  funext other
  by_cases same : other = resource
  · subst same
    simp [free]
  · simp [free, same]

omit [DecidableEq Owner] in
theorem free_grant (unheld : ∀ resource ∈ resources, holder resource = none) :
    free (grant holder owner resources) resources = holder := by
  funext resource
  by_cases listed : resource ∈ resources
  · simp [free, listed, unheld resource listed]
  · simp [free, grant, listed]

omit [DecidableEq Owner] in
theorem grant_free (held : ∀ resource ∈ resources, holder resource = some owner) :
    grant (free holder resources) owner resources = holder := by
  funext resource
  by_cases listed : resource ∈ resources
  · simp [grant, listed, held resource listed]
  · simp [free, grant, listed]

end Operations

/-- What the owners of a set hold agrees with who holds each resource of a
set. -/
structure Agrees (owners : Set Owner) (resources : Set Resource)
    (held : Owner → List Resource) (holder : Resource → Option Owner) : Prop where
  resource_of_held : ∀ owner ∈ owners, ∀ resource ∈ held owner, resource ∈ resources
  holder_of_held : ∀ owner ∈ owners, ∀ resource ∈ held owner, holder resource = some owner
  owner_of_holder :
    ∀ resource ∈ resources, ∀ owner, holder resource = some owner → owner ∈ owners
  held_of_holder :
    ∀ resource ∈ resources, ∀ owner, holder resource = some owner → resource ∈ held owner

namespace Agrees

variable {owners : Set Owner} {resources : Set Resource} {held : Owner → List Resource}
  {holder : Resource → Option Owner} {owner : Owner}

omit [DecidableEq Owner] [DecidableEq Resource] in
theorem owner_unique (agrees : Agrees owners resources held holder) {left right : Owner}
    (leftOwner : left ∈ owners) (rightOwner : right ∈ owners) {resource : Resource}
    (leftHolds : resource ∈ held left) (rightHolds : resource ∈ held right) :
    left = right := by
  have leftHolder := agrees.holder_of_held left leftOwner resource leftHolds
  have rightHolder := agrees.holder_of_held right rightOwner resource rightHolds
  rw [leftHolder] at rightHolder
  exact Option.some.inj rightHolder

/-- Releasing everything an owner holds keeps the agreement. -/
theorem release (agrees : Agrees owners resources held holder) (member : owner ∈ owners) :
    Agrees owners resources (Function.update held owner []) (free holder (held owner)) where
  resource_of_held other otherMember resource listed := by
    by_cases same : other = owner
    · simp [same] at listed
    · rw [Function.update_of_ne same] at listed
      exact agrees.resource_of_held other otherMember resource listed
  holder_of_held other otherMember resource listed := by
    by_cases same : other = owner
    · simp [same] at listed
    · rw [Function.update_of_ne same] at listed
      have notOwned : resource ∉ held owner := by
        intro owned
        exact same (agrees.owner_unique otherMember member listed owned)
      rw [free, if_neg notOwned]
      exact agrees.holder_of_held other otherMember resource listed
  owner_of_holder resource registered other found := by
    by_cases owned : resource ∈ held owner
    · simp [free, owned] at found
    · rw [free, if_neg owned] at found
      exact agrees.owner_of_holder resource registered other found
  held_of_holder resource registered other found := by
    by_cases owned : resource ∈ held owner
    · simp [free, owned] at found
    · rw [free, if_neg owned] at found
      have listed := agrees.held_of_holder resource registered other found
      have different : other ≠ owner := fun same => owned (same ▸ listed)
      rwa [Function.update_of_ne different]

/-- Acquiring free resources keeps the agreement for an owner that holds none. -/
theorem acquire (agrees : Agrees owners resources held holder) (member : owner ∈ owners)
    {acquired : List Resource} (holdsNone : held owner = [])
    (registered : ∀ resource ∈ acquired, resource ∈ resources)
    (unheld : ∀ resource ∈ acquired, holder resource = none) :
    Agrees owners resources (Function.update held owner acquired)
      (grant holder owner acquired) where
  resource_of_held other otherMember resource listed := by
    by_cases same : other = owner
    · subst same
      rw [Function.update_self] at listed
      exact registered resource listed
    · rw [Function.update_of_ne same] at listed
      exact agrees.resource_of_held other otherMember resource listed
  holder_of_held other otherMember resource listed := by
    by_cases same : other = owner
    · subst same
      rw [Function.update_self] at listed
      rw [grant, if_pos listed]
    · rw [Function.update_of_ne same] at listed
      have heldByOther := agrees.holder_of_held other otherMember resource listed
      have notAcquired : resource ∉ acquired := by
        intro wasFree
        simp [unheld resource wasFree] at heldByOther
      rw [grant, if_neg notAcquired]
      exact heldByOther
  owner_of_holder resource isResource other found := by
    by_cases listed : resource ∈ acquired
    · rw [grant, if_pos listed, Option.some.injEq] at found
      exact found ▸ member
    · rw [grant, if_neg listed] at found
      exact agrees.owner_of_holder resource isResource other found
  held_of_holder resource isResource other found := by
    by_cases listed : resource ∈ acquired
    · rw [grant, if_pos listed, Option.some.injEq] at found
      subst found
      rwa [Function.update_self]
    · rw [grant, if_neg listed] at found
      have heldBefore := agrees.held_of_holder resource isResource other found
      have different : other ≠ owner := by
        intro same
        simp [same, holdsNone] at heldBefore
      rwa [Function.update_of_ne different]

end Agrees

end Allocation
