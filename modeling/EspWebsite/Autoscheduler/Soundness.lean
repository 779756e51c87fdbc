import EspWebsite.Autoscheduler.ConstraintSpecs
import EspWebsite.Autoscheduler.Inverses

/-!
# Sound assignments

What the consistency checks and the required constraints ask of a schedule, as one
invariant of its assignments.
-/

namespace EspWebsite.Autoscheduler

open Allocation Calendar Python SectionDurationConstraint

/-- A run of roomslots at which a section may be held: in one room of the schedule,
without gaps, of the section's duration, and with all its teachers available. -/
structure Fits (schedule : AS_Schedule) (sec : AS_ClassSection)
    (run : List AS_RoomSlot) : Prop where
  inRoom : ∃ room ∈ schedule.classrooms, run <:+: room.availability
  noGaps : run.IsChain NoGap
  lasts : Lasts sec run
  available : ∀ teacher ∈ sec.teachers, ∀ roomslot ∈ run,
    teacher.isAvailable roomslot.times

def TeachersApart (schedule : AS_Schedule) (assignments : Assignments) : Prop :=
  ∀ left ∈ schedule.classSections, ∀ right ∈ schedule.classSections, left ≠ right →
    ∀ teacher ∈ left.teachers, teacher ∈ right.teachers →
      ∀ leftSlot ∈ assignments.assignedRoomslots left,
        ∀ rightSlot ∈ assignments.assignedRoomslots right, leftSlot.times ≠ rightSlot.times

theorem TeachersApart.of_subset {schedule : AS_Schedule} {fewer assignments : Assignments}
    (apart : TeachersApart schedule assignments)
    (subset : ∀ sec ∈ schedule.classSections,
      fewer.assignedRoomslots sec ⊆ assignments.assignedRoomslots sec) :
    TeachersApart schedule fewer := by
  intro left leftListed right rightListed different teacher teachesLeft teachesRight leftSlot
    leftAssigned rightSlot rightAssigned
  exact apart left leftListed right rightListed different teacher teachesLeft teachesRight
    leftSlot (subset left leftListed leftAssigned) rightSlot
    (subset right rightListed rightAssigned)

theorem TeachersApart.release {schedule : AS_Schedule} {assignments : Assignments}
    (apart : TeachersApart schedule assignments) (sec : AS_ClassSection) :
    TeachersApart schedule (assignments.release sec) := by
  apply apart.of_subset
  intro other listed
  by_cases same : other = sec
  · subst same
    simp
  · rw [Assignments.release_of_ne same]
    exact List.Subset.refl _

/-- Assignments that pass the consistency checks and the required constraints. -/
structure Sound (schedule : AS_Schedule) (assignments : Assignments) : Prop where
  placed : WellPlaced schedule assignments
  fits : ∀ sec ∈ schedule.classSections,
    assignments.assignedRoomslots sec ≠ [] →
      Fits schedule sec (assignments.assignedRoomslots sec)
  teachersApart : TeachersApart schedule assignments

/-! ## Parts of a run -/

section Parts

variable {schedule : AS_Schedule} {sec other : AS_ClassSection}
  {first previous : AS_RoomSlot} {run part rest : List AS_RoomSlot}

theorem endTime_le_lastEndTime (noGaps : (previous :: rest).IsChain NoGap) :
    previous.timeslot.endTime ≤ lastEndTime previous.timeslot.endTime rest := by
  induction rest generalizing previous with
  | nil => exact le_refl _
  | cons next rest ih =>
      rw [List.isChain_cons_cons] at noGaps
      have ordered := (contiguous_iff.mp noGaps.1).1
      have positive := next.timeslot.startTime_lt_endTime
      calc previous.timeslot.endTime
          ≤ next.timeslot.startTime := ordered
        _ ≤ next.timeslot.endTime := le_of_lt positive
        _ ≤ lastEndTime next.timeslot.endTime rest := ih noGaps.2

theorem lastEndTime_le_of_part (noGaps : (previous :: rest).IsChain NoGap)
    (isPrefix : part <+: rest) :
    lastEndTime previous.timeslot.endTime part ≤
      lastEndTime previous.timeslot.endTime rest := by
  induction part generalizing previous rest with
  | nil => exact endTime_le_lastEndTime noGaps
  | cons next part ih =>
      cases rest with
      | nil => simp at isPrefix
      | cons head rest =>
          obtain ⟨sameHead, tailPrefix⟩ := List.cons_prefix_cons.mp isPrefix
          subst sameHead
          exact ih (List.isChain_cons_cons.mp noGaps).2 tailPrefix

theorem hoursDifference_le (start : DateTime) {early late : DateTime} (ordered : early ≤ late) :
    hoursDifference start early ≤ hoursDifference start late := by
  have split := hoursDifference_add start early late
  have nonneg := DateTime.hoursBetween_nonneg_iff.mpr ordered
  rw [hoursDifference, hoursDifference, hoursDifference] at split
  rw [hoursDifference, hoursDifference]
  linarith

namespace Fits

theorem of_part (fits : Fits schedule sec run) (isPrefix : part <+: run)
    (lasts : Lasts sec part) : Fits schedule sec part where
  inRoom := by
    obtain ⟨room, registered, isRun⟩ := fits.inRoom
    exact ⟨room, registered, isPrefix.isInfix.trans isRun⟩
  noGaps := fits.noGaps.prefix isPrefix
  lasts := lasts
  available teacher teaches roomslot member :=
    fits.available teacher teaches roomslot (isPrefix.subset member)

/-- The run continues its first roomslot in that roomslot's room. -/
theorem split (fits : Fits schedule sec (first :: rest)) :
    ∃ before after, first.room.availability = before ++ first :: (rest ++ after) := by
  obtain ⟨room, -, before, after, split⟩ := fits.inRoom
  have member : first ∈ room.availability := by
    rw [← split]
    simp
  have sameRoom := AS_Classroom.room_eq_of_mem member
  refine ⟨before, after, ?_⟩
  rw [sameRoom, ← split]
  simp

/-- The time that a run falls short of the duration. -/
theorem shortfall_le (fits : Fits schedule sec (first :: rest)) :
    sec.duration - hoursDifference first.timeslot.startTime
      (lastEndTime first.timeslot.endTime rest) ≤ deltaTime := by
  have bounds := abs_le.mp (fits.lasts first rest rfl)
  linarith [bounds.1]

/-- The duration takes no more roomslots than a fitting run has. -/
theorem taken_prefix (fits : Fits schedule sec (first :: rest)) :
    getRoomslotsByDuration first sec.duration <+: first :: rest := by
  obtain ⟨before, after, split⟩ := fits.split
  rw [getRoomslotsByDuration_eq split]
  apply List.cons_prefix_cons.mpr
  exact ⟨rfl, (takeRoomslots_of_covers (List.prefix_append rest after) fits.shortfall_le).1⟩

/-- What the duration takes from the start of a fitting run on fits as well. -/
theorem taken (fits : Fits schedule sec (first :: rest)) :
    Fits schedule sec
      (getRoomslotsByDuration first sec.duration) := by
  apply fits.of_part fits.taken_prefix
  obtain ⟨before, after, split⟩ := fits.split
  have isPrefix := fits.taken_prefix
  rw [getRoomslotsByDuration_eq split] at isPrefix ⊢
  have restPrefix := (List.cons_prefix_cons.mp isPrefix).2
  intro head tail same
  cases same
  have long := (takeRoomslots_of_covers (List.prefix_append rest after) fits.shortfall_le).2
  have ends := hoursDifference_le first.timeslot.startTime
    (lastEndTime_le_of_part fits.noGaps restPrefix)
  have bounds := abs_le.mp (fits.lasts first rest rfl)
  rw [abs_le]
  constructor
  · linarith
  · linarith [bounds.2]

end Fits

end Parts

theorem Sound.retakes {schedule : AS_Schedule} {assignments : Assignments}
    (sound : Sound schedule assignments) :
    ∀ sec ∈ schedule.classSections, Retakes assignments sec := by
  intro sec listed first rest held
  have scheduled : assignments.assignedRoomslots sec ≠ [] := by simp [held]
  have fits := sound.fits sec listed scheduled
  rw [held] at fits
  exact fits.taken_prefix

end EspWebsite.Autoscheduler
