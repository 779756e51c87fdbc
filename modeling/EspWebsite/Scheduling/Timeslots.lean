import EspWebsite.ArgCache.Functions

/-!
# Timeslots

`contiguous` and `group_contiguous` of `Event`, and `sufficient_length` of `ClassSection`: how long
a section can go on from a timeslot.
-/

namespace EspWebsite.Scheduling

open ArgCache Binary64 Python

def minute : ℤ := 60 * 10 ^ 6

/-- `__eq__` of events. -/
def sameStart (event other : Event) : Bool := event.startTime = other.startTime

/-- `contiguous`: an event begins less than `tol` minutes after another one has ended. -/
def contiguous (tol : ℤ) (event next : Event) : Bool :=
  next.startTime - event.endTime < tol * minute

/-- `sort` by start. -/
def byStart (events : List Event) : List Event :=
  events.insertionSort fun event other => event.startTime ≤ other.startTime

/-- The loop of `group_contiguous`, with the current group and the last event. -/
def groupFrom (tol : ℤ) : List Event → Event → List Event → List (List Event)
  | current, _, [] => [current]
  | current, last, event :: rest =>
      if contiguous tol last event then groupFrom tol (current ++ [event]) event rest
      else current :: groupFrom tol [event] event rest

def groupContiguous (tol : ℤ) (events : List Event) : List (List Event) :=
  match byStart events with
  | [] => []
  | first :: rest => groupFrom tol [first] first rest

/-- `sufficient_length` of a section with a duration, for some events. -/
def sufficientLength (duration : Option ℚ) (events : List Event) : Bool :=
  !decide ((totalLength events : ℚ) < durationOf duration * 3600)

/-- The events from the first one on until one is not contiguous with the next. -/
def contiguousFrom (tol : ℤ) : List Event → List Event
  | [] => []
  | [event] => [event]
  | event :: next :: rest =>
      if contiguous tol event next then event :: contiguousFrom tol (next :: rest) else [event]

/-- The timeslots of a program in their order, of which none overlap. -/
structure Timeline where
  timeslots : List Event
  proper : ∀ event ∈ timeslots, event.startTime < event.endTime
  disjoint : timeslots.Pairwise fun event next => event.endTime ≤ next.startTime

variable {tol : ℤ} {duration : Option ℚ} {event first last next : Event}
  {current events rest group : List Event}

/-! ## Lengths -/

theorem contiguous_iff : contiguous tol event next = true ↔
    next.startTime - event.endTime < tol * minute := decide_eq_true_iff

/-- How long it is from the start of an event to the end of another one, in rounded seconds. -/
def lengthTo (first last : Event) : ℤ :=
  36 * hundredths (nearest (nearest ((last.endTime - first.startTime : ℤ) / 10 ^ 6) / 3600))

theorem totalLength_of_sorted
    (sorted : (first :: rest).Pairwise fun event next => event.startTime ≤ next.startTime) :
    totalLength (first :: rest) =
      lengthTo first ((first :: rest).getLast (List.cons_ne_nil _ _)) := by
  have same : ((first :: rest).insertionSort fun event other => event.startTime ≤ other.startTime) =
      first :: rest := List.Pairwise.insertionSort_eq sorted
  rw [totalLength, same]
  rfl

/-- The later an event ends the longer it is until then. -/
theorem lengthTo_mono (proper : first.startTime ≤ event.endTime)
    (before : event.endTime ≤ last.endTime) :
    lengthTo first event ≤ lengthTo first last := by
  have nonneg : (0 : ℚ) ≤ (event.endTime - first.startTime : ℤ) / 10 ^ 6 := by
    have whole : (0 : ℤ) ≤ event.endTime - first.startTime := sub_nonneg.mpr proper
    have cast : (0 : ℚ) ≤ ((event.endTime - first.startTime : ℤ) : ℚ) := by exact_mod_cast whole
    positivity
  have seconds : ((event.endTime - first.startTime : ℤ) : ℚ) / 10 ^ 6 ≤
      (last.endTime - first.startTime : ℤ) / 10 ^ 6 := by
    refine div_le_div_of_nonneg_right ?_ (by positivity)
    exact_mod_cast sub_le_sub_right before _
  have hours := nearest_mono (div_nonneg (nearest_nonneg nonneg) (by norm_num))
    (div_le_div_of_nonneg_right (nearest_mono nonneg seconds) (show (0 : ℚ) ≤ 3600 by norm_num))
  have rounded := roundHalfEven_mono
    (mul_le_mul_of_nonneg_left hours (show (0 : ℚ) ≤ 100 by norm_num))
  rw [lengthTo, lengthTo, hundredths, hundredths]
  exact mul_le_mul_of_nonneg_left rounded (by norm_num)

/-! ## Groups -/

theorem head_contiguousFrom (tol : ℤ) (event : Event) (rest : List Event) :
    ∃ more, contiguousFrom tol (event :: rest) = event :: more := by
  cases rest with
  | nil => exact ⟨[], rfl⟩
  | cons next rest =>
      rw [contiguousFrom]
      split
      next => exact ⟨_, rfl⟩
      next => exact ⟨[], rfl⟩

theorem contiguousFrom_prefix (tol : ℤ) (events : List Event) :
    contiguousFrom tol events <+: events := by
  induction events with
  | nil => exact List.prefix_refl _
  | cons event rest ih =>
      cases rest with
      | nil => exact List.prefix_refl _
      | cons next rest =>
          rw [contiguousFrom]
          split
          next => exact List.cons_prefix_cons.mpr ⟨rfl, ih⟩
          next => exact ⟨next :: rest, rfl⟩

theorem cons_suffix_append_iff {suffix : List Event} :
    event :: suffix <:+ events ++ rest ↔
      (∃ after, event :: after <:+ events ∧ suffix = after ++ rest) ∨ event :: suffix <:+ rest := by
  constructor
  · intro isSuffix
    rcases isSuffix with ⟨before, same⟩
    rcases List.append_eq_append_iff.mp same with
      ⟨middle, events', rest'⟩ | ⟨middle, before', rest'⟩
    · cases middle with
      | nil =>
          right
          rw [List.nil_append] at rest'
          exact ⟨[], rest'⟩
      | cons head after =>
          rw [List.cons_append, List.cons.injEq] at rest'
          rw [← rest'.1] at events'
          exact .inl ⟨after, ⟨before, events'.symm⟩, rest'.2⟩
    · exact .inr ⟨middle, rest'.symm⟩
  · intro either
    rcases either with ⟨after, ⟨before, same⟩, rfl⟩ | isSuffix
    · exact ⟨before, by rw [← same, List.append_assoc, List.cons_append]⟩
    · exact isSuffix.trans (List.suffix_append _ _)

theorem exists_suffix_cons_iff (property : List Event → Prop) :
    (∃ after, event :: after <:+ last :: rest ∧ property (event :: after)) ↔
      (event = last ∧ property (last :: rest)) ∨
        ∃ after, event :: after <:+ rest ∧ property (event :: after) := by
  constructor
  · intro some
    rcases some with ⟨after, isSuffix, holds⟩
    rcases List.suffix_cons_iff.mp isSuffix with whole | later
    · rw [whole] at holds
      exact .inl ⟨(List.cons.inj whole).1, holds⟩
    · exact .inr ⟨after, later, holds⟩
  · intro either
    rcases either with ⟨rfl, holds⟩ | ⟨after, later, holds⟩
    · exact ⟨rest, List.suffix_refl _, holds⟩
    · exact ⟨after, List.suffix_cons_iff.mpr (.inr later), holds⟩

theorem exists_suffix_concat_iff {property : List Event → Prop} :
    (∃ after, event :: after <:+ current ++ [last] ∧ property (event :: after ++ rest)) ↔
      (∃ after, event :: after <:+ current ∧ property (event :: after ++ last :: rest)) ∨
        (event = last ∧ property (last :: rest)) := by
  constructor
  · intro some
    rcases some with ⟨after, isSuffix, holds⟩
    rcases cons_suffix_append_iff.mp isSuffix with ⟨earlier, inCurrent, rfl⟩ | isLast
    · refine .inl ⟨earlier, inCurrent, ?_⟩
      rwa [← List.cons_append, List.append_assoc, List.singleton_append] at holds
    · rcases List.suffix_cons_iff.mp isLast with whole | none
      · rw [List.cons.injEq] at whole
        rw [whole.1, whole.2] at holds
        exact .inr ⟨whole.1, holds⟩
      · exact absurd (List.suffix_nil.mp none) (List.cons_ne_nil _ _)
  · intro either
    rcases either with ⟨after, inCurrent, holds⟩ | ⟨rfl, holds⟩
    · refine ⟨after ++ [last], cons_suffix_append_iff.mpr (.inl ⟨after, inCurrent, rfl⟩), ?_⟩
      rwa [← List.cons_append, List.append_assoc, List.singleton_append]
    · exact ⟨[], List.suffix_append _ _, holds⟩

theorem exists_groupFrom_iff (property : List Event → Prop) :
    (∃ group ∈ groupFrom tol (current ++ [last]) last rest, ∃ after, event :: after <:+ group ∧
      property (event :: after)) ↔
        (∃ after, event :: after <:+ current ∧
          property (event :: after ++ contiguousFrom tol (last :: rest))) ∨
        ∃ after, event :: after <:+ last :: rest ∧
          property (contiguousFrom tol (event :: after)) := by
  rw [exists_suffix_cons_iff fun events => property (contiguousFrom tol events),
    ← or_assoc]
  induction rest generalizing current last with
  | nil =>
      have single : contiguousFrom tol [last] = [last] := rfl
      rw [groupFrom, single, ← exists_suffix_concat_iff]
      simp
  | cons next rest ih =>
      rw [groupFrom]
      split
      next follows =>
        have longer : contiguousFrom tol (last :: next :: rest) =
            last :: contiguousFrom tol (next :: rest) := by rw [contiguousFrom, if_pos follows]
        rw [longer, ← exists_suffix_concat_iff, ih, or_assoc, exists_suffix_cons_iff
          fun events => property (contiguousFrom tol events)]
      next apart =>
        have single : contiguousFrom tol (last :: next :: rest) = [last] := by
          rw [contiguousFrom, if_neg apart]
        have later := @ih next []
        rw [List.nil_append] at later
        rw [single, ← exists_suffix_concat_iff, List.exists_mem_cons_iff, later,
          exists_suffix_cons_iff fun events => property (contiguousFrom tol events)]
        simp

theorem exists_groupContiguous_iff (property : List Event → Prop) :
    (∃ group ∈ groupContiguous tol events, ∃ after, event :: after <:+ group ∧
      property (event :: after)) ↔
        ∃ after, event :: after <:+ byStart events ∧
          property (contiguousFrom tol (event :: after)) := by
  rw [groupContiguous]
  cases byStart events with
  | nil => simp
  | cons first rest =>
      have groups := @exists_groupFrom_iff tol event first [] rest property
      rw [List.nil_append] at groups
      rw [groups]
      simp

end EspWebsite.Scheduling
