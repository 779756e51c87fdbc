import EspWebsite.Autoscheduler.Manipulator
import EspWebsite.Autoscheduler.Placement
import EspWebsite.Library.Allocation

/-!
# Changes of the assignments

The assignments after each manipulation, as functions of the ones before, and
when a manipulation is possible: when no assertion stops it.  The roomslots of
every section stay a run of neighbours in one room, and sections and roomslots
agree on who is assigned where.
-/

namespace EspWebsite.Autoscheduler

open Allocation Calendar Python

namespace Assignments

variable {assignments result : Assignments} {sec : AS_ClassSection}
  {run : List AS_RoomSlot} {room : AS_Classroom}

@[ext] theorem ext {left right : Assignments}
    (sameRoomslots : left.assignedRoomslots = right.assignedRoomslots)
    (sameSections : left.assignedSection = right.assignedSection) : left = right := by
  cases left
  cases right
  cases sameRoomslots
  cases sameSections
  rfl

/-- The assignments after a section is given a run of roomslots. -/
def acquire (assignments : Assignments) (sec : AS_ClassSection)
    (run : List AS_RoomSlot) : Assignments where
  assignedRoomslots := Function.update assignments.assignedRoomslots sec run
  assignedSection := grant assignments.assignedSection sec run

/-- The assignments after a section gives up its roomslots. -/
def release (assignments : Assignments) (sec : AS_ClassSection) :
    Assignments where
  assignedRoomslots := Function.update assignments.assignedRoomslots sec []
  assignedSection :=
    free assignments.assignedSection (assignments.assignedRoomslots sec)

@[simp] theorem acquire_self :
    (assignments.acquire sec run).assignedRoomslots sec = run := by
  simp [acquire]

theorem acquire_of_ne {other : AS_ClassSection} (different : other ≠ sec) :
    (assignments.acquire sec run).assignedRoomslots other =
      assignments.assignedRoomslots other :=
  Function.update_of_ne different _ _

@[simp] theorem release_self :
    (assignments.release sec).assignedRoomslots sec = [] := by
  simp [release]

theorem release_of_ne {other : AS_ClassSection} (different : other ≠ sec) :
    (assignments.release sec).assignedRoomslots other =
      assignments.assignedRoomslots other :=
  Function.update_of_ne different _ _

theorem vacate_eq (run : List AS_RoomSlot)
    (assignedSection : AS_RoomSlot → Option AS_ClassSection) :
    vacate run assignedSection = free assignedSection run := by
  induction run generalizing assignedSection with
  | nil => rw [vacate, free_nil]
  | cons roomslot rest ih => rw [vacate, ih, free_cons]

theorem clearRoomslots_eq (assignments : Assignments) (sec : AS_ClassSection) :
    assignments.clearRoomslots sec = assignments.release sec := by
  rw [clearRoomslots, release, vacate_eq]

theorem occupy_eq_ok {assignedSection after : AS_RoomSlot → Option AS_ClassSection} :
    occupy sec run assignedSection = .ok after ↔
      run.Nodup ∧ (∀ roomslot ∈ run, assignedSection roomslot = none) ∧
        after = grant assignedSection sec run := by
  induction run generalizing assignedSection with
  | nil => simp [occupy, eq_comm]
  | cons roomslot rest ih =>
      simp only [occupy, bind_eq_ok, assert_eq_ok, ih, List.nodup_cons, List.mem_cons,
        forall_eq_or_imp]
      constructor
      · rintro ⟨-, isFree, nodup, restFree, rfl⟩
        have unlisted : roomslot ∉ rest := by
          intro listed
          simpa using restFree roomslot listed
        refine ⟨⟨unlisted, nodup⟩, ⟨isFree, ?_⟩, grant_cons roomslot⟩
        intro other listed
        have different : other ≠ roomslot := fun same => unlisted (same ▸ listed)
        simpa [different] using restFree other listed
      · rintro ⟨⟨unlisted, nodup⟩, ⟨isFree, restFree⟩, rfl⟩
        refine ⟨(), isFree, nodup, ?_, (grant_cons roomslot).symm⟩
        intro other listed
        have different : other ≠ roomslot := fun same => unlisted (same ▸ listed)
        simpa [different] using restFree other listed

theorem insertionSort_run (isRun : run <:+: room.availability) :
    (run.insertionSort fun left right => ¬ right.timeslot.before left.timeslot) = run := by
  apply List.Pairwise.insertionSort_eq
  apply (room.availability_sorted.sublist isRun.sublist).imp
  intro left right ordered
  exact AS_Timeslot.before_asymm ordered

theorem assignRoomslots_eq_ok (isRun : run <:+: room.availability) :
    assignments.assignRoomslots sec run = .ok result ↔
      assignments.assignedRoomslots sec = [] ∧
        (∀ roomslot ∈ run, assignments.assignedSection roomslot = none) ∧
          result = assignments.acquire sec run := by
  have nodup : run.Nodup := room.availability_nodup.sublist isRun.sublist
  simp only [assignRoomslots, insertionSort_run isRun, bind_eq_ok, assert_eq_ok,
    occupy_eq_ok, pure_eq_ok, Except.ok.injEq]
  constructor
  · rintro ⟨-, holdsNone, after, ⟨-, isFree, rfl⟩, rfl⟩
    exact ⟨holdsNone, isFree, rfl⟩
  · rintro ⟨holdsNone, isFree, rfl⟩
    exact ⟨(), holdsNone, _, ⟨nodup, isFree, rfl⟩, rfl⟩

/-- Giving up roomslots that were free when they were acquired undoes
acquiring them. -/
theorem release_acquire (holdsNone : assignments.assignedRoomslots sec = [])
    (isFree : ∀ roomslot ∈ run, assignments.assignedSection roomslot = none) :
    (assignments.acquire sec run).release sec = assignments := by
  apply ext
  · simp [release, acquire, ← holdsNone]
  · simp [release, acquire, free_grant isFree]

/-- Acquiring the roomslots that were given up undoes giving them up. -/
theorem acquire_release
    (held : ∀ roomslot ∈ assignments.assignedRoomslots sec,
      assignments.assignedSection roomslot = some sec) :
    (assignments.release sec).acquire sec
      (assignments.assignedRoomslots sec) = assignments := by
  apply ext
  · simp [release, acquire]
  · simp [release, acquire, grant_free held]

end Assignments

/-- Sections and roomslots agree on the assignments, and the roomslots of a section
are neighbours in a room of the schedule. -/
structure WellPlaced (schedule : AS_Schedule) (assignments : Assignments) : Prop where
  agrees : Agrees {sec | sec ∈ schedule.classSections}
    {roomslot | roomslot ∈ schedule.roomslots} assignments.assignedRoomslots
    assignments.assignedSection
  runs : ∀ sec ∈ schedule.classSections,
    assignments.assignedRoomslots sec ≠ [] →
      ∃ room ∈ schedule.classrooms,
        assignments.assignedRoomslots sec <:+: room.availability

namespace WellPlaced

variable {schedule : AS_Schedule} {assignments : Assignments}
  {sec : AS_ClassSection} {run : List AS_RoomSlot}

theorem release (placed : WellPlaced schedule assignments)
    (listed : sec ∈ schedule.classSections) :
    WellPlaced schedule (assignments.release sec) where
  agrees := placed.agrees.release listed
  runs other otherListed scheduled := by
    by_cases same : other = sec
    · subst same
      simp at scheduled
    · rw [Assignments.release_of_ne same] at scheduled ⊢
      exact placed.runs other otherListed scheduled

theorem acquire (placed : WellPlaced schedule assignments)
    (listed : sec ∈ schedule.classSections)
    (holdsNone : assignments.assignedRoomslots sec = [])
    (isRun : run ≠ [] → ∃ room ∈ schedule.classrooms, run <:+: room.availability)
    (isFree : ∀ roomslot ∈ run, assignments.assignedSection roomslot = none) :
    WellPlaced schedule (assignments.acquire sec run) where
  agrees := by
    apply placed.agrees.acquire listed holdsNone _ isFree
    intro roomslot member
    obtain ⟨room, registered, isInfix⟩ := isRun (List.ne_nil_of_mem member)
    have available := isInfix.subset member
    exact List.mem_flatMap.mpr ⟨room, registered, available⟩
  runs other otherListed scheduled := by
    by_cases same : other = sec
    · subst same
      rw [Assignments.acquire_self] at scheduled ⊢
      exact isRun scheduled
    · rw [Assignments.acquire_of_ne same] at scheduled ⊢
      exact placed.runs other otherListed scheduled

theorem release_eq_none_iff (placed : WellPlaced schedule assignments)
    (listed : sec ∈ schedule.classSections) {roomslot : AS_RoomSlot}
    (registered : roomslot ∈ schedule.roomslots) :
    (assignments.release sec).assignedSection roomslot = none ↔
      assignments.assignedSection roomslot = none ∨
        assignments.assignedSection roomslot = some sec := by
  by_cases assigned : roomslot ∈ assignments.assignedRoomslots sec
  · have holder := placed.agrees.holder_of_held sec listed roomslot assigned
    simp [Assignments.release, free, assigned, holder]
  · have notHolder : assignments.assignedSection roomslot ≠ some sec := by
      intro holder
      exact assigned (placed.agrees.held_of_holder roomslot registered sec holder)
    simp [Assignments.release, free, assigned, notHolder]

theorem run_of_start {startRoomslot : AS_RoomSlot} (duration : ℚ)
    (registered : startRoomslot ∈ schedule.roomslots) :
    ∃ room ∈ schedule.classrooms,
      getRoomslotsByDuration startRoomslot duration <:+: room.availability :=
  ⟨startRoomslot.room, (AS_Schedule.mem_roomslots.mp registered).1,
    getRoomslotsByDuration_infix⟩

theorem registered_of_assigned (placed : WellPlaced schedule assignments)
    (listed : sec ∈ schedule.classSections) {roomslot : AS_RoomSlot}
    (assigned : roomslot ∈ assignments.assignedRoomslots sec) :
    roomslot ∈ schedule.roomslots :=
  placed.agrees.resource_of_held sec listed roomslot assigned

theorem timeslot_of_assigned (placed : WellPlaced schedule assignments)
    (listed : sec ∈ schedule.classSections) {roomslot : AS_RoomSlot}
    (assigned : roomslot ∈ assignments.assignedRoomslots sec) :
    roomslot.timeslot ∈ schedule.timeslots := by
  obtain ⟨roomListed, available⟩ :=
    AS_Schedule.mem_roomslots.mp (placed.registered_of_assigned listed assigned)
  exact schedule.timeslotsRegistered roomslot.room roomListed roomslot.timeslot
    (AS_Classroom.timeslot_mem_of_mem available)

theorem assignedSection_of_assigned (placed : WellPlaced schedule assignments)
    (listed : sec ∈ schedule.classSections) {roomslot : AS_RoomSlot}
    (assigned : roomslot ∈ assignments.assignedRoomslots sec) :
    assignments.assignedSection roomslot = some sec :=
  placed.agrees.holder_of_held sec listed roomslot assigned

theorem section_eq_of_shared (placed : WellPlaced schedule assignments)
    {other : AS_ClassSection} (listed : sec ∈ schedule.classSections)
    (otherListed : other ∈ schedule.classSections) {roomslot : AS_RoomSlot}
    (assigned : roomslot ∈ assignments.assignedRoomslots sec)
    (otherAssigned : roomslot ∈ assignments.assignedRoomslots other) :
    sec = other :=
  placed.agrees.owner_unique listed otherListed assigned otherAssigned

end WellPlaced

/-- A manipulation of the assignments. -/
inductive Change where
  | schedule (sec : AS_ClassSection) (startRoomslot : AS_RoomSlot)
  | move (sec : AS_ClassSection) (startRoomslot : AS_RoomSlot)
  | unschedule (sec : AS_ClassSection)
  | swap (section1 section2 : AS_ClassSection)
  deriving DecidableEq

namespace Change

/-- The assignments that a change leads to. -/
def apply (assignments : Assignments) : Change → Assignments
  | schedule sec startRoomslot =>
      assignments.acquire sec
        (getRoomslotsByDuration startRoomslot sec.duration)
  | move sec startRoomslot =>
      (assignments.release sec).acquire sec
        (getRoomslotsByDuration startRoomslot sec.duration)
  | unschedule sec => assignments.release sec
  | swap section1 section2 =>
      (((assignments.release section1).release section2).acquire section1
        (assignments.assignedRoomslots section2)).acquire section2
          (assignments.assignedRoomslots section1)

/-- What a change needs so that no assertion stops it. -/
def Possible (assignments : Assignments) : Change → Prop
  | schedule sec startRoomslot =>
      assignments.assignedRoomslots sec = [] ∧
        ∀ roomslot ∈ getRoomslotsByDuration startRoomslot sec.duration,
          assignments.assignedSection roomslot = none
  | move sec startRoomslot =>
      assignments.assignedRoomslots sec ≠ [] ∧
        ∀ roomslot ∈ getRoomslotsByDuration startRoomslot sec.duration,
          assignments.assignedSection roomslot = none ∨
            assignments.assignedSection roomslot = some sec
  | unschedule sec => assignments.assignedRoomslots sec ≠ []
  | swap section1 section2 =>
      assignments.assignedRoomslots section1 ≠ [] ∧
        assignments.assignedRoomslots section2 ≠ [] ∧ section1 ≠ section2

/-- The sections and the roomslot of a change belong to the schedule. -/
def Registered (registry : AS_Schedule) : Change → Prop
  | schedule sec startRoomslot | move sec startRoomslot =>
      sec ∈ registry.classSections ∧ startRoomslot ∈ registry.roomslots
  | unschedule sec => sec ∈ registry.classSections
  | swap section1 section2 =>
      section1 ∈ registry.classSections ∧ section2 ∈ registry.classSections

def record (assignments : Assignments) : Change → Raises Action
  | schedule sec startRoomslot => .ok (.schedule sec startRoomslot)
  | move sec startRoomslot => do
      let prevStartRoomslot ← first (assignments.assignedRoomslots sec)
      return .move sec startRoomslot prevStartRoomslot
  | unschedule sec => do
      let prevStartRoomslot ← first (assignments.assignedRoomslots sec)
      return .unschedule sec prevStartRoomslot
  | swap section1 section2 => do
      let original1 ← first (assignments.assignedRoomslots section1)
      let original2 ← first (assignments.assignedRoomslots section2)
      return .swap (.tuple [section1, section2]) (.tuple [original1, original2])

/-- How a change is made: by clearing roomslots and assigning them. -/
def effect (assignments : Assignments) : Change → Raises Assignments
  | schedule sec startRoomslot =>
      assignments.assignRoomslots sec
        (getRoomslotsByDuration startRoomslot sec.duration)
  | move sec startRoomslot =>
      (assignments.clearRoomslots sec).assignRoomslots sec
        (getRoomslotsByDuration startRoomslot sec.duration)
  | unschedule sec => .ok (assignments.clearRoomslots sec)
  | swap section1 section2 => do
      let roomslots1 := assignments.assignedRoomslots section1
      let roomslots2 := assignments.assignedRoomslots section2
      let cleared := (assignments.clearRoomslots section1).clearRoomslots section2
      let assignments ← cleared.assignRoomslots section1 roomslots2
      assignments.assignRoomslots section2 roomslots1

section Effect

variable {registry : AS_Schedule} {assignments after : Assignments}

theorem free_of_released {section1 section2 : AS_ClassSection}
    (placed : WellPlaced registry assignments) (listed1 : section1 ∈ registry.classSections)
    (listed2 : section2 ∈ registry.classSections) :
    ∀ roomslot ∈ assignments.assignedRoomslots section1 ++
        assignments.assignedRoomslots section2,
      ((assignments.release section1).release section2).assignedSection roomslot = none := by
  intro roomslot assigned
  have placedAfter := placed.release listed1
  rcases List.mem_append.mp assigned with assigned1 | assigned2
  · apply (placedAfter.release_eq_none_iff listed2
      (placed.registered_of_assigned listed1 assigned1)).mpr
    simp [Assignments.release, free, assigned1]
  · apply (placedAfter.release_eq_none_iff listed2
      (placed.registered_of_assigned listed2 assigned2)).mpr
    by_cases assigned1 : roomslot ∈ assignments.assignedRoomslots section1
    · simp [Assignments.release, free, assigned1]
    · right
      simp only [Assignments.release, free, if_neg assigned1]
      exact placed.assignedSection_of_assigned listed2 assigned2

theorem free_of_exchanged {section1 section2 : AS_ClassSection}
    (placed : WellPlaced registry assignments) (listed1 : section1 ∈ registry.classSections)
    (listed2 : section2 ∈ registry.classSections) (different : section1 ≠ section2) :
    ∀ roomslot ∈ assignments.assignedRoomslots section1,
      (((assignments.release section1).release section2).acquire section1
        (assignments.assignedRoomslots section2)).assignedSection roomslot = none := by
  intro roomslot assigned1
  have notAssigned2 : roomslot ∉ assignments.assignedRoomslots section2 := by
    intro assigned2
    exact different (placed.section_eq_of_shared listed1 listed2 assigned1 assigned2)
  simp only [Assignments.acquire, grant, if_neg notAssigned2]
  exact free_of_released placed listed1 listed2 roomslot (List.mem_append_left _ assigned1)

theorem first_ok_iff {roomslots : List AS_RoomSlot} :
    (∃ roomslot, first roomslots = .ok roomslot) ↔ roomslots ≠ [] := by
  cases roomslots with
  | nil => simp [first]
  | cons roomslot rest => simp [first]

theorem record_ok_iff {change : Change} :
    (∃ action, change.record assignments = .ok action) ↔
      match change with
      | schedule _ _ => True
      | move sec _ | unschedule sec =>
          assignments.assignedRoomslots sec ≠ []
      | swap section1 section2 =>
          assignments.assignedRoomslots section1 ≠ [] ∧
            assignments.assignedRoomslots section2 ≠ [] := by
  cases change with
  | schedule sec startRoomslot => simp [record]
  | move sec startRoomslot =>
      cases held : assignments.assignedRoomslots sec <;> simp [record, first, held]
  | unschedule sec =>
      cases held : assignments.assignedRoomslots sec <;> simp [record, first, held]
  | swap section1 section2 =>
      cases held1 : assignments.assignedRoomslots section1 <;>
        cases held2 : assignments.assignedRoomslots section2 <;>
          simp [record, first, held1, held2]

theorem effect_eq_ok {change : Change} (placed : WellPlaced registry assignments)
    (registered : change.Registered registry) :
    (∃ action, change.record assignments = .ok action) ∧
        change.effect assignments = .ok after ↔
      change.Possible assignments ∧ after = change.apply assignments := by
  rw [record_ok_iff]
  cases change with
  | schedule sec startRoomslot =>
      obtain ⟨room, -, isRun⟩ :=
        WellPlaced.run_of_start sec.duration registered.2
      simp [effect, Possible, apply, Assignments.assignRoomslots_eq_ok isRun, and_assoc]
  | move sec startRoomslot =>
      obtain ⟨room, roomListed, isRun⟩ :=
        WellPlaced.run_of_start sec.duration registered.2
      have vacant : (∀ roomslot ∈ getRoomslotsByDuration startRoomslot sec.duration,
            (assignments.release sec).assignedSection roomslot = none) ↔
          ∀ roomslot ∈ getRoomslotsByDuration startRoomslot sec.duration,
            assignments.assignedSection roomslot = none ∨
              assignments.assignedSection roomslot = some sec := by
        apply forall₂_congr
        intro roomslot taken
        apply placed.release_eq_none_iff registered.1
        exact List.mem_flatMap.mpr ⟨room, roomListed, isRun.subset taken⟩
      simp only [effect, Possible, apply, Assignments.clearRoomslots_eq,
        Assignments.assignRoomslots_eq_ok isRun, Assignments.release_self, true_and, vacant,
        and_assoc]
  | unschedule sec =>
      simp only [effect, Possible, apply, Assignments.clearRoomslots_eq, Except.ok.injEq]
      exact and_congr_right' eq_comm
  | swap section1 section2 =>
      obtain ⟨listed1, listed2⟩ := registered
      have released : ((assignments.release section1).release section2).assignedRoomslots
          section1 = [] := by
        by_cases same : section1 = section2
        · subst same
          exact Assignments.release_self
        · rw [Assignments.release_of_ne same, Assignments.release_self]
      constructor
      · rintro ⟨⟨held1, held2⟩, made⟩
        obtain ⟨room1, -, isRun1⟩ := placed.runs section1 listed1 held1
        obtain ⟨room2, -, isRun2⟩ := placed.runs section2 listed2 held2
        simp only [effect, Assignments.clearRoomslots_eq, bind_eq_ok,
          Assignments.assignRoomslots_eq_ok isRun2,
          Assignments.assignRoomslots_eq_ok isRun1] at made
        obtain ⟨_, ⟨-, -, rfl⟩, holdsNone, -, rfl⟩ := made
        have different : section1 ≠ section2 := by
          intro same
          subst same
          exact held2 (Assignments.acquire_self.symm.trans holdsNone)
        exact ⟨⟨held1, held2, different⟩, rfl⟩
      · rintro ⟨⟨held1, held2, different⟩, rfl⟩
        obtain ⟨room1, -, isRun1⟩ := placed.runs section1 listed1 held1
        obtain ⟨room2, -, isRun2⟩ := placed.runs section2 listed2 held2
        refine ⟨⟨held1, held2⟩, ?_⟩
        simp only [effect, Assignments.clearRoomslots_eq, bind_eq_ok,
          Assignments.assignRoomslots_eq_ok isRun2,
          Assignments.assignRoomslots_eq_ok isRun1]
        refine ⟨_, ⟨released, ?_, rfl⟩, ?_, free_of_exchanged placed listed1 listed2 different,
          rfl⟩
        · intro roomslot assigned2
          exact free_of_released placed listed1 listed2 roomslot
            (List.mem_append_right _ assigned2)
        · rw [Assignments.acquire_of_ne different.symm, Assignments.release_self]

theorem wellPlaced_apply {change : Change} (placed : WellPlaced registry assignments)
    (registered : change.Registered registry) (possible : change.Possible assignments) :
    WellPlaced registry (change.apply assignments) := by
  cases change with
  | schedule sec startRoomslot =>
      exact placed.acquire registered.1 possible.1
        (fun _ => WellPlaced.run_of_start sec.duration registered.2) possible.2
  | move sec startRoomslot =>
      obtain ⟨room, roomListed, isRun⟩ :=
        WellPlaced.run_of_start sec.duration registered.2
      refine (placed.release registered.1).acquire registered.1 Assignments.release_self
        (fun _ => ⟨room, roomListed, isRun⟩) ?_
      intro roomslot taken
      exact (placed.release_eq_none_iff registered.1
        (List.mem_flatMap.mpr ⟨room, roomListed, isRun.subset taken⟩)).mpr
        (possible.2 roomslot taken)
  | unschedule sec => exact placed.release registered
  | swap section1 section2 =>
      obtain ⟨listed1, listed2⟩ := registered
      obtain ⟨held1, held2, different⟩ := possible
      have placedFirst : WellPlaced registry
          (((assignments.release section1).release section2).acquire section1
            (assignments.assignedRoomslots section2)) := by
        refine ((placed.release listed1).release listed2).acquire listed1 ?_
          (placed.runs section2 listed2) ?_
        · rw [Assignments.release_of_ne different, Assignments.release_self]
        · intro roomslot assigned2
          exact free_of_released placed listed1 listed2 roomslot
            (List.mem_append_right _ assigned2)
      refine placedFirst.acquire listed2 ?_ (placed.runs section1 listed1)
        (free_of_exchanged placed listed1 listed2 different)
      rw [Assignments.acquire_of_ne different.symm, Assignments.release_self]

end Effect

end Change

end EspWebsite.Autoscheduler
