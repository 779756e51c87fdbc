import EspWebsite.Autoscheduler.Changes

/-!
# Inverse changes

The change with which an action is undone, made on the assignments right after the
action or on assignments that undoing later actions has led to.  Undoing takes
roomslots by the duration of the section again, so it may return to fewer
roomslots than there were: `Reduced` assignments.
-/

namespace EspWebsite.Autoscheduler

open Allocation Calendar Python

namespace ActionDict

/-- The change that performs an action again. -/
def replay : Action → Option Change
  | .schedule sec startRoomslot => some (.schedule sec startRoomslot)
  | .move sec startRoomslot _ => some (.move sec startRoomslot)
  | .unschedule sec _ => some (.unschedule sec)
  | .swap sections _ =>
      match sections.items with
      | [section1, section2] => some (.swap section1 section2)
      | _ => none

def revert : Action → Option Change
  | .schedule sec _ => some (.unschedule sec)
  | .move sec _ prevStartRoomslot => some (.move sec prevStartRoomslot)
  | .unschedule sec prevStartRoomslot =>
      some (.schedule sec prevStartRoomslot)
  | .swap sections _ =>
      match sections.items with
      | [section1, section2] => some (.swap section1 section2)
      | _ => none

end ActionDict

namespace Change

variable {registry : AS_Schedule} {assignments : Assignments} {change back : Change}
  {action : Action}

/-- The second change reverts the first one, made on the given assignments. -/
inductive Inverse (assignments : Assignments) : Change → Change → Prop where
  | schedule {sec : AS_ClassSection} {startRoomslot : AS_RoomSlot} :
      Inverse assignments (.schedule sec startRoomslot) (.unschedule sec)
  | move {sec : AS_ClassSection} {startRoomslot prevStartRoomslot : AS_RoomSlot}
      {rest : List AS_RoomSlot}
      (held : assignments.assignedRoomslots sec = prevStartRoomslot :: rest) :
      Inverse assignments (.move sec startRoomslot)
        (.move sec prevStartRoomslot)
  | unschedule {sec : AS_ClassSection} {prevStartRoomslot : AS_RoomSlot}
      {rest : List AS_RoomSlot}
      (held : assignments.assignedRoomslots sec = prevStartRoomslot :: rest) :
      Inverse assignments (.unschedule sec)
        (.schedule sec prevStartRoomslot)
  | swap {section1 section2 : AS_ClassSection} :
      Inverse assignments (.swap section1 section2) (.swap section1 section2)

theorem replay_of_record (recorded : change.record assignments = .ok action) :
    action.replay = some change := by
  cases change with
  | schedule sec startRoomslot =>
      cases recorded
      rfl
  | move sec startRoomslot =>
      obtain ⟨_, -, same⟩ := bind_eq_ok.mp recorded
      cases same
      rfl
  | unschedule sec =>
      obtain ⟨_, -, same⟩ := bind_eq_ok.mp recorded
      cases same
      rfl
  | swap section1 section2 =>
      obtain ⟨_, -, rest⟩ := bind_eq_ok.mp recorded
      obtain ⟨_, -, same⟩ := bind_eq_ok.mp rest
      cases same
      rfl

theorem inverse_of_record (recorded : change.record assignments = .ok action) :
    ∃ back, action.revert = some back ∧ Inverse assignments change back := by
  cases change with
  | schedule sec startRoomslot =>
      cases recorded
      exact ⟨_, rfl, .schedule⟩
  | move sec startRoomslot =>
      obtain ⟨prevStartRoomslot, found, same⟩ := bind_eq_ok.mp recorded
      obtain ⟨rest, held⟩ := first_eq_ok.mp found
      cases same
      exact ⟨_, rfl, .move held⟩
  | unschedule sec =>
      obtain ⟨prevStartRoomslot, found, same⟩ := bind_eq_ok.mp recorded
      obtain ⟨rest, held⟩ := first_eq_ok.mp found
      cases same
      exact ⟨_, rfl, .unschedule held⟩
  | swap section1 section2 =>
      obtain ⟨_, -, rest⟩ := bind_eq_ok.mp recorded
      obtain ⟨_, -, same⟩ := bind_eq_ok.mp rest
      cases same
      exact ⟨_, rfl, .swap⟩

theorem registered_inverse (placed : WellPlaced registry assignments)
    (registered : change.Registered registry) (inverse : Inverse assignments change back) :
    back.Registered registry := by
  cases inverse with
  | schedule => exact registered.1
  | move held =>
      refine ⟨registered.1, placed.registered_of_assigned registered.1 ?_⟩
      rw [held]
      exact List.mem_cons_self
  | unschedule held =>
      refine ⟨registered, placed.registered_of_assigned registered ?_⟩
      rw [held]
      exact List.mem_cons_self
  | swap => exact registered

/-! ## The roomslots of the sections after a change -/

def sections : Change → List AS_ClassSection
  | schedule sec _ | move sec _ | unschedule sec =>
      [sec]
  | swap section1 section2 => [section1, section2]

theorem listed_of_mem_sections (registered : change.Registered registry)
    {sec : AS_ClassSection} (changed : sec ∈ change.sections) :
    sec ∈ registry.classSections := by
  cases change with
  | schedule other startRoomslot =>
      exact List.mem_singleton.mp changed ▸ registered.1
  | move other startRoomslot => exact List.mem_singleton.mp changed ▸ registered.1
  | unschedule other => exact List.mem_singleton.mp changed ▸ registered
  | swap section1 section2 =>
      rcases List.mem_pair.mp changed with same | same
      · exact same ▸ registered.1
      · exact same ▸ registered.2

theorem assigned_apply_of_notMem (assignments : Assignments) {sec : AS_ClassSection}
    (unchanged : sec ∉ change.sections) :
    (change.apply assignments).assignedRoomslots sec =
      assignments.assignedRoomslots sec := by
  cases change with
  | schedule other startRoomslot =>
      exact Assignments.acquire_of_ne (List.mem_singleton.not.mp unchanged)
  | move other startRoomslot =>
      have different := List.mem_singleton.not.mp unchanged
      rw [apply, Assignments.acquire_of_ne different, Assignments.release_of_ne different]
  | unschedule other => exact Assignments.release_of_ne (List.mem_singleton.not.mp unchanged)
  | swap section1 section2 =>
      have different1 : sec ≠ section1 := fun same => unchanged (by simp [sections, same])
      have different2 : sec ≠ section2 := fun same => unchanged (by simp [sections, same])
      rw [apply, Assignments.acquire_of_ne different2, Assignments.acquire_of_ne different1,
        Assignments.release_of_ne different2, Assignments.release_of_ne different1]

@[simp] theorem assigned_apply_schedule {sec : AS_ClassSection}
    {startRoomslot : AS_RoomSlot} :
    ((schedule sec startRoomslot).apply assignments).assignedRoomslots sec =
      getRoomslotsByDuration startRoomslot sec.duration :=
  Assignments.acquire_self

@[simp] theorem assigned_apply_move {sec : AS_ClassSection}
    {startRoomslot : AS_RoomSlot} :
    ((move sec startRoomslot).apply assignments).assignedRoomslots sec =
      getRoomslotsByDuration startRoomslot sec.duration :=
  Assignments.acquire_self

@[simp] theorem assigned_apply_unschedule {sec : AS_ClassSection} :
    ((unschedule sec).apply assignments).assignedRoomslots sec = [] :=
  Assignments.release_self

theorem assigned_apply_swap_left (assignments : Assignments) {section1 section2 : AS_ClassSection}
    (different : section1 ≠ section2) :
    ((swap section1 section2).apply assignments).assignedRoomslots section1 =
      assignments.assignedRoomslots section2 := by
  rw [apply, Assignments.acquire_of_ne different, Assignments.acquire_self]

@[simp] theorem assigned_apply_swap_right (assignments : Assignments)
    (section1 section2 : AS_ClassSection) :
    ((swap section1 section2).apply assignments).assignedRoomslots section2 =
      assignments.assignedRoomslots section1 :=
  Assignments.acquire_self

end Change

/-! ## Undoing on fewer roomslots -/

/-- Every section has its roomslots or a first part of them, and is scheduled if it
was. -/
structure Reduced (registry : AS_Schedule) (fewer assignments : Assignments) : Prop where
  isPrefix : ∀ sec ∈ registry.classSections,
    fewer.assignedRoomslots sec <+: assignments.assignedRoomslots sec
  scheduled : ∀ sec ∈ registry.classSections,
    assignments.assignedRoomslots sec ≠ [] →
      fewer.assignedRoomslots sec ≠ []

namespace Reduced

variable {registry : AS_Schedule} {fewer assignments more : Assignments}
  {sec : AS_ClassSection} {roomslot : AS_RoomSlot}

theorem refl (assignments : Assignments) : Reduced registry assignments assignments where
  isPrefix _ _ := List.prefix_rfl
  scheduled _ _ scheduled := scheduled

theorem trans (first : Reduced registry fewer assignments)
    (second : Reduced registry assignments more) : Reduced registry fewer more where
  isPrefix other listed := (first.isPrefix other listed).trans (second.isPrefix other listed)
  scheduled other listed scheduled :=
    first.scheduled other listed (second.scheduled other listed scheduled)

theorem assigned_of_holder (reduced : Reduced registry fewer assignments)
    (placed : WellPlaced registry fewer) (registered : roomslot ∈ registry.roomslots)
    (holder : fewer.assignedSection roomslot = some sec) :
    sec ∈ registry.classSections ∧
      roomslot ∈ assignments.assignedRoomslots sec := by
  have listed := placed.agrees.owner_of_holder roomslot registered sec holder
  have assigned := placed.agrees.held_of_holder roomslot registered sec holder
  exact ⟨listed, (reduced.isPrefix sec listed).subset assigned⟩

end Reduced

/-- From the first roomslot of the section on, its duration takes no more roomslots
than it has. -/
def Retakes (assignments : Assignments) (sec : AS_ClassSection) : Prop :=
  ∀ first rest, assignments.assignedRoomslots sec = first :: rest →
    getRoomslotsByDuration first sec.duration <+: first :: rest

/-- From the first roomslot of the section on, its duration takes just the roomslots
it has. -/
def Canonical (assignments : Assignments) (sec : AS_ClassSection) : Prop :=
  ∀ first rest, assignments.assignedRoomslots sec = first :: rest →
    getRoomslotsByDuration first sec.duration = first :: rest

namespace Change

variable {registry : AS_Schedule} {assignments fewer : Assignments} {change back : Change}

theorem run_ne_nil {startRoomslot : AS_RoomSlot} {duration : ℚ}
    (registered : startRoomslot ∈ registry.roomslots) :
    getRoomslotsByDuration startRoomslot duration ≠ [] :=
  getRoomslotsByDuration_ne_nil (AS_Schedule.mem_roomslots.mp registered).2

theorem vacant_of_reduced {sec : AS_ClassSection}
    (placed : WellPlaced registry assignments) (placedFewer : WellPlaced registry fewer)
    (listed : sec ∈ registry.classSections)
    (only : ∀ other ≠ sec,
      (change.apply assignments).assignedRoomslots other =
        assignments.assignedRoomslots other)
    (reduced : Reduced registry fewer (change.apply assignments)) :
    ∀ roomslot ∈ assignments.assignedRoomslots sec,
      fewer.assignedSection roomslot = none ∨
        fewer.assignedSection roomslot = some sec := by
  intro roomslot assigned
  cases holder : fewer.assignedSection roomslot with
  | none => exact Or.inl rfl
  | some other =>
      right
      have registered := placed.registered_of_assigned listed assigned
      obtain ⟨otherListed, otherAssigned⟩ :=
        reduced.assigned_of_holder placedFewer registered holder
      by_cases same : other = sec
      · rw [same]
      · rw [only other same] at otherAssigned
        exact absurd (placed.section_eq_of_shared otherListed listed otherAssigned assigned)
          same

theorem sections_inverse (inverse : Inverse assignments change back) :
    back.sections = change.sections := by
  cases inverse <;> rfl

theorem reduced_of_sections (reduced : Reduced registry fewer (change.apply assignments))
    (inverse : Inverse assignments change back)
    (changed : ∀ sec ∈ change.sections,
      (back.apply fewer).assignedRoomslots sec <+:
          assignments.assignedRoomslots sec ∧
        (assignments.assignedRoomslots sec ≠ [] →
          (back.apply fewer).assignedRoomslots sec ≠ [])) :
    Reduced registry (back.apply fewer) assignments := by
  have kept : ∀ sec ∈ registry.classSections,
      (back.apply fewer).assignedRoomslots sec <+:
          assignments.assignedRoomslots sec ∧
        (assignments.assignedRoomslots sec ≠ [] →
          (back.apply fewer).assignedRoomslots sec ≠ []) := by
    intro sec listed
    by_cases touched : sec ∈ change.sections
    · exact changed sec touched
    · have backUntouched : sec ∉ back.sections :=
        fun member => touched (sections_inverse inverse ▸ member)
      rw [assigned_apply_of_notMem _ backUntouched,
        ← assigned_apply_of_notMem assignments touched]
      exact ⟨reduced.isPrefix sec listed, reduced.scheduled sec listed⟩
  exact ⟨fun sec listed => (kept sec listed).1,
    fun sec listed => (kept sec listed).2⟩

/-- Undoing a change is possible on reduced assignments too, and leads back to the
assignments before the change or to reduced ones. -/
theorem inverse_reduced (placed : WellPlaced registry assignments)
    (placedFewer : WellPlaced registry fewer) (registered : change.Registered registry)
    (possible : change.Possible assignments) (inverse : Inverse assignments change back)
    (retakes : ∀ sec ∈ registry.classSections, Retakes assignments sec)
    (reduced : Reduced registry fewer (change.apply assignments)) :
    back.Possible fewer ∧ Reduced registry (back.apply fewer) assignments := by
  have backRegistered := registered_inverse placed registered inverse
  have combine := reduced_of_sections reduced inverse
  cases inverse with
  | @schedule sec startRoomslot =>
      obtain ⟨listed, startRegistered⟩ := registered
      constructor
      · apply reduced.scheduled sec listed
        rw [assigned_apply_schedule]
        exact run_ne_nil startRegistered
      · apply combine
        intro other changed
        rw [List.mem_singleton.mp changed, assigned_apply_unschedule]
        exact ⟨List.nil_prefix, fun held => absurd possible.1 held⟩
  | @move sec startRoomslot prevStartRoomslot rest held =>
      obtain ⟨listed, startRegistered⟩ := registered
      have taken := retakes sec listed _ _ held
      rw [← held] at taken
      constructor
      · constructor
        · apply reduced.scheduled sec listed
          rw [assigned_apply_move]
          exact run_ne_nil startRegistered
        · intro roomslot listedRun
          apply vacant_of_reduced placed placedFewer listed _ reduced roomslot
            (taken.subset listedRun)
          intro other different
          exact assigned_apply_of_notMem assignments (by simpa [sections])
      · apply combine
        intro other changed
        rw [List.mem_singleton.mp changed, assigned_apply_move]
        exact ⟨taken, fun _ => run_ne_nil backRegistered.2⟩
  | @unschedule sec prevStartRoomslot rest held =>
      have listed := registered
      have unscheduled : fewer.assignedRoomslots sec = [] := by
        have isPrefix := reduced.isPrefix sec listed
        rwa [assigned_apply_unschedule, List.prefix_nil] at isPrefix
      have taken := retakes sec listed _ _ held
      rw [← held] at taken
      constructor
      · constructor
        · exact unscheduled
        · intro roomslot listedRun
          have vacant := vacant_of_reduced placed placedFewer listed
            (fun other different => assigned_apply_of_notMem assignments (by simpa [sections]))
            reduced
            roomslot (taken.subset listedRun)
          rcases vacant with isFree | holder
          · exact isFree
          · have roomslotRegistered :=
              placed.registered_of_assigned listed (taken.subset listedRun)
            have assigned := placedFewer.agrees.held_of_holder roomslot roomslotRegistered
              sec holder
            simp [unscheduled] at assigned
      · apply combine
        intro other changed
        rw [List.mem_singleton.mp changed, assigned_apply_schedule]
        exact ⟨taken, fun _ => run_ne_nil backRegistered.2⟩
  | @swap section1 section2 =>
      obtain ⟨listed1, listed2⟩ := registered
      obtain ⟨held1, held2, different⟩ := possible
      have left := assigned_apply_swap_left assignments different
      have right := assigned_apply_swap_right assignments section1 section2
      have prefix1 := reduced.isPrefix section1 listed1
      have prefix2 := reduced.isPrefix section2 listed2
      have scheduled1 := reduced.scheduled section1 listed1
      have scheduled2 := reduced.scheduled section2 listed2
      rw [left] at prefix1 scheduled1
      rw [right] at prefix2 scheduled2
      constructor
      · exact ⟨scheduled1 held2, scheduled2 held1, different⟩
      · apply combine
        intro other changed
        rcases List.mem_pair.mp changed with same | same
        · rw [same, assigned_apply_swap_left _ different]
          exact ⟨prefix2, scheduled2⟩
        · rw [same, assigned_apply_swap_right]
          exact ⟨prefix1, scheduled1⟩

theorem assignedRoomslots_apply_move (sec : AS_ClassSection)
    (startRoomslot : AS_RoomSlot) :
    ((move sec startRoomslot).apply assignments).assignedRoomslots =
      Function.update assignments.assignedRoomslots sec
        (getRoomslotsByDuration startRoomslot sec.duration) := by
  simp only [apply, Assignments.acquire, Assignments.release, Function.update_idem]

theorem assignedRoomslots_apply_swap {section1 section2 : AS_ClassSection}
    (different : section1 ≠ section2) :
    ((swap section1 section2).apply assignments).assignedRoomslots =
      Function.update
        (Function.update assignments.assignedRoomslots section1
          (assignments.assignedRoomslots section2)) section2
        (assignments.assignedRoomslots section1) := by
  funext other
  by_cases same2 : other = section2
  · subst same2
    rw [assigned_apply_swap_right, Function.update_self]
  · by_cases same1 : other = section1
    · subst same1
      rw [assigned_apply_swap_left _ different, Function.update_of_ne same2,
        Function.update_self]
    · rw [assigned_apply_of_notMem _ (by simp [sections, same1, same2]),
        Function.update_of_ne same2, Function.update_of_ne same1]

theorem assignedSection_apply_swap {section1 section2 : AS_ClassSection}
    (different : section1 ≠ section2) (roomslot : AS_RoomSlot) :
    ((swap section1 section2).apply assignments).assignedSection roomslot =
      if roomslot ∈ assignments.assignedRoomslots section1 then some section2
      else if roomslot ∈ assignments.assignedRoomslots section2 then some section1
      else assignments.assignedSection roomslot := by
  simp only [apply, Assignments.acquire, Assignments.release, grant, free,
    Function.update_of_ne different.symm]
  split
  · rfl
  · split <;> rfl

/-- Where undoing takes the same roomslots again. -/
def Retraceable (assignments : Assignments) : Change → Prop
  | schedule _ _ | swap _ _ => True
  | move sec _ | unschedule sec => Canonical assignments sec

theorem apply_inverse (placed : WellPlaced registry assignments)
    (registered : change.Registered registry) (possible : change.Possible assignments)
    (inverse : Inverse assignments change back)
    (retraceable : change.Retraceable assignments) :
    back.apply (change.apply assignments) = assignments := by
  cases inverse with
  | schedule => exact Assignments.release_acquire possible.1 possible.2
  | @move sec startRoomslot prevStartRoomslot rest held =>
      obtain ⟨room, roomListed, isRun⟩ :=
        WellPlaced.run_of_start sec.duration registered.2
      have vacated : ((assignments.release sec).acquire sec
          (getRoomslotsByDuration startRoomslot sec.duration)).release sec =
            assignments.release sec := by
        apply Assignments.release_acquire Assignments.release_self
        intro roomslot taken
        exact (placed.release_eq_none_iff registered.1
          (List.mem_flatMap.mpr ⟨room, roomListed, isRun.subset taken⟩)).mpr
          (possible.2 roomslot taken)
      rw [apply, apply, vacated, retraceable _ _ held, ← held]
      exact Assignments.acquire_release
        fun roomslot => placed.assignedSection_of_assigned registered.1
  | unschedule held =>
      rw [apply, apply, retraceable _ _ held, ← held]
      exact Assignments.acquire_release
        fun roomslot => placed.assignedSection_of_assigned registered
  | @swap section1 section2 =>
      obtain ⟨listed1, listed2⟩ := registered
      obtain ⟨-, -, different⟩ := possible
      apply Assignments.ext
      · funext other
        by_cases same2 : other = section2
        · subst same2
          rw [assigned_apply_swap_right, assigned_apply_swap_left _ different]
        · by_cases same1 : other = section1
          · subst same1
            rw [assigned_apply_swap_left _ different, assigned_apply_swap_right]
          · rw [assigned_apply_of_notMem _ (by simp [sections, same1, same2]),
              assigned_apply_of_notMem _ (by simp [sections, same1, same2])]
      · funext roomslot
        have holder1 := placed.agrees.holder_of_held section1 listed1 roomslot
        have holder2 := placed.agrees.holder_of_held section2 listed2 roomslot
        rw [assignedSection_apply_swap different, assigned_apply_swap_left _ different,
          assigned_apply_swap_right, assignedSection_apply_swap different]
        split
        next assigned2 => exact (holder2 assigned2).symm
        next =>
          split
          next assigned1 => exact (holder1 assigned1).symm
          next => rfl

end Change

end EspWebsite.Autoscheduler
