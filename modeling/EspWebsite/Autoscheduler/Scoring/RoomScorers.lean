import EspWebsite.Autoscheduler.ResourceChecker
import EspWebsite.Autoscheduler.Scoring.Laws

/-!
# Scorers of the rooms of sections

The scorers that add up a score of each scheduled section in its room, the room of its
first roomslot.
-/

namespace EspWebsite.Autoscheduler

open Python Tally

variable (schedule : AS_Schedule)

namespace RoomScorer

/-- The loop of `update_schedule` over the sections. -/
def total (processSection : AS_ClassSection → AS_Classroom → ℚ) (assignments : Assignments) :
    List AS_ClassSection → ℚ → ℚ
  | [], totalScore => totalScore
  | sec :: rest, totalScore =>
      match assignments.assignedRoomslots sec with
      | [] => total processSection assignments rest totalScore
      | first :: _ =>
          total processSection assignments rest
            (totalScore + processSection sec first.room)

end RoomScorer

/-- A scorer that keeps the total of `process_section` over the scheduled sections.
Building it may raise, for reasons which lie in the fixed data of the schedule. -/
def RoomScorer (processSection : AS_ClassSection → AS_Classroom → ℚ) (build : Raises Unit)
    (scaling : ℚ) (scoreSchedule : ℚ → Raises ℚ) : Scorer schedule :=
  let updateScheduleSection := fun (_ : Assignments) sec
      (startRoomslot : AS_RoomSlot) totalScore =>
    .ok (totalScore + processSection sec startRoomslot.room)
  let updateUnscheduleSection := fun (assignments : Assignments) sec totalScore => do
    let firstRoomslot ← first (assignments.assignedRoomslots sec)
    return totalScore - processSection sec firstRoomslot.room
  { State := ℚ
    scaling := scaling
    updateSchedule := fun assignments => do
      build
      return RoomScorer.total processSection assignments schedule.classSections 0
    scoreSchedule := scoreSchedule
    updateScheduleSection := updateScheduleSection
    updateUnscheduleSection := updateUnscheduleSection
    updateMoveSection := BaseScorer.updateMoveSection updateScheduleSection
      updateUnscheduleSection
    updateSwapSections := BaseScorer.updateSwapSections updateScheduleSection
      updateUnscheduleSection }

def ResourceCriteriaScorer.totalWeight
    (resourceCriteria : List (ResourceCriterion × ℚ)) : ℚ :=
  let totalWeight := (resourceCriteria.map Prod.snd).sum
  if totalWeight = 0 then 1 else totalWeight

/-- The scaling is set by the constructor, so that the criterion with the greatest
weight has weight one. -/
def ResourceCriteriaScorer.computeScaling
    (resourceCriteria : List (ResourceCriterion × ℚ)) : Raises ℚ :=
  match (resourceCriteria.map Prod.snd).max? with
  | none => .ok 1
  | some maxWeight => div (totalWeight resourceCriteria) maxWeight

/-- `process_section`: the weights of the criteria that are met. -/
def ResourceCriteriaScorer.processSection (resourceCriteria : List (ResourceCriterion × ℚ))
    (sec : AS_ClassSection) (room : AS_Classroom) : ℚ :=
  resourceCriteria.foldl (fun output entry =>
    if entry.1.checkMatch sec room then output + entry.2 else output) 0

def ResourceCriteriaScorer (resourceCriteria : List (ResourceCriterion × ℚ)) :
    Scorer schedule :=
  RoomScorer schedule (ResourceCriteriaScorer.processSection resourceCriteria)
    (do let _ ← ResourceCriteriaScorer.computeScaling resourceCriteria)
    (resultOr 1 (ResourceCriteriaScorer.computeScaling resourceCriteria))
    fun totalScore =>
      div totalScore
        (ResourceCriteriaScorer.totalWeight resourceCriteria * schedule.classSections.length)

/-- `process_section`: the fraction of the requests whose resource the room has. -/
def ResourceMatchingScorer.processSection (sec : AS_ClassSection)
    (room : AS_Classroom) : ℚ :=
  if sec.resourceRequests.length = 0 then 1
  else
    let metCriteria := sec.resourceRequests.countP fun request =>
      room.furnishings.any fun furnishing => furnishing.name == request.name
    (metCriteria : ℚ) / sec.resourceRequests.length

/-- If a section asks for a resource, its room should have it. -/
def ResourceMatchingScorer : Scorer schedule :=
  RoomScorer schedule ResourceMatchingScorer.processSection (.ok ()) 1 fun totalScore =>
    div totalScore schedule.classSections.length

/-- `requests_to_ignore`: the resources which have the same value in all the rooms that
have them. -/
def ResourceValueMatchingScorer.ignores (name : String) : Bool :=
  let furnishings := schedule.classrooms.flatMap AS_Classroom.furnishings
  let values := (furnishings.filter fun furnishing => furnishing.name == name).map
    AS_ResourceType.value
  values.dedup.length = 1

/-- `process_section`: the fraction of the requests for a specific value that the room
satisfies. -/
def ResourceValueMatchingScorer.processSection (sec : AS_ClassSection)
    (room : AS_Classroom) : ℚ :=
  let requested := sec.resourceRequests.filter fun request =>
    !ignores schedule request.name && request.value != ""
  let metCriteria := requested.countP fun request =>
    room.furnishings.any fun furnishing =>
      furnishing.name == request.name && furnishing.value == request.value
  if requested.length = 0 then 1 else (metCriteria : ℚ) / requested.length

/-- If a section asks for a resource with a specific value, its room should have it. -/
def ResourceValueMatchingScorer : Scorer schedule :=
  RoomScorer schedule (ResourceValueMatchingScorer.processSection schedule) (.ok ()) 1
    fun totalScore => div totalScore schedule.classSections.length

namespace RoomSizeMismatchScorer

def maxClassSize : Raises Int :=
  maximum (schedule.classSections.map AS_ClassSection.capacity)

def maxRoomSize : Raises Int :=
  maximum (schedule.classrooms.map AS_Classroom.capacity)

/-- `penalty_for_section_and_room`, with the two maxima of `update_schedule`. -/
def penaltyForSectionAndRoom (maxClassSize maxRoomSize : Int)
    (sec : AS_ClassSection) (room : AS_Classroom) : ℚ :=
  let sectionCapacity := min maxRoomSize sec.capacity
  let roomCapacity := min maxClassSize room.capacity
  let numerator := max sectionCapacity roomCapacity
  let denominator := min sectionCapacity roomCapacity
  if denominator = 0 then 1
  else min 1 (((numerator : ℚ) / denominator - 1) ^ 2)

/-- The part of the total penalty that is due to a section.  A schedule which has the
section does not have zero sections. -/
def processSection (sec : AS_ClassSection) (room : AS_Classroom) : ℚ :=
  penaltyForSectionAndRoom (resultOr 0 (maxClassSize schedule))
      (resultOr 0 (maxRoomSize schedule)) sec room /
    schedule.classSections.length

end RoomSizeMismatchScorer

/-- Matches the sizes of rooms and classes. -/
def RoomSizeMismatchScorer : Scorer schedule :=
  RoomScorer schedule (RoomSizeMismatchScorer.processSection schedule)
    (do
      let _ ← RoomSizeMismatchScorer.maxClassSize schedule
      let _ ← RoomSizeMismatchScorer.maxRoomSize schedule)
    1 fun totalPenalty => .ok (1 - totalPenalty)

namespace StudentClassHoursScorer

/-- `get_effective_student_class_hours` at a given roomslot. -/
def effectiveStudentClassHours (sec : AS_ClassSection) (room : AS_Classroom) : ℚ :=
  min sec.capacity room.capacity * sec.duration

def totalStudentClassHours : ℚ :=
  (schedule.classSections.map fun sec =>
    (sec.capacity : ℚ) * sec.duration).sum

end StudentClassHoursScorer

/-- Schedules as many student-class-hours as possible. -/
def StudentClassHoursScorer : Scorer schedule :=
  RoomScorer schedule StudentClassHoursScorer.effectiveStudentClassHours (.ok ()) 1
    fun scheduledStudentClassHours =>
      div scheduledStudentClassHours (StudentClassHoursScorer.totalStudentClassHours schedule)

/-! ## The law -/

namespace RoomScorer

variable {schedule} {processSection : AS_ClassSection → AS_Classroom → ℚ}
  {build : Raises Unit} {scaling : ℚ} {scoreSchedule : ℚ → Raises ℚ}

/-- What a section with the given roomslots adds to the total. -/
def contribution (processSection : AS_ClassSection → AS_Classroom → ℚ)
    (sec : AS_ClassSection) : List AS_RoomSlot → ℚ
  | [] => 0
  | first :: _ => processSection sec first.room

theorem total_eq (assignments : Assignments) (classSections : List AS_ClassSection)
    (totalScore : ℚ) :
    total processSection assignments classSections totalScore =
      totalScore +
        tally classSections (contribution processSection) assignments.assignedRoomslots := by
  induction classSections generalizing totalScore with
  | nil => simp [total, tally]
  | cons sec rest ih =>
      rw [tally_cons]
      cases held : assignments.assignedRoomslots sec with
      | nil => simp only [total, held, ih, contribution, zero_add]
      | cons first slots => simp only [total, held, ih, contribution, add_assoc]

/-- Taking off and adding what a section contributes keeps the total. -/
theorem incremental :
    Incremental (RoomScorer schedule processSection build scaling scoreSchedule) := by
  let _ : AddCommGroup
      (RoomScorer schedule processSection build scaling scoreSchedule).State :=
    inferInstanceAs (AddCommGroup ℚ)
  apply incremental_of_contributions (contribution processSection) build
  · intro sec
    rfl
  · intro assignments
    simp only [RoomScorer, total_eq, zero_add]
    rfl
  · intro assignments sec startRoomslot totalScore listed registered
    have member := (AS_Schedule.mem_roomslots.mp registered).2
    obtain ⟨first, rest, taken⟩ := List.exists_cons_of_ne_nil
      (@getRoomslotsByDuration_ne_nil _ sec.duration member)
    rw [taken, getRoomslotsByDuration_head taken]
    rfl
  · intro assignments sec totalScore listed scheduled
    obtain ⟨first, rest, held⟩ := List.exists_cons_of_ne_nil scheduled
    simp only [RoomScorer, held, Python.first, ok_bind, pure_eq_ok]
    rfl
  · rfl
  · rfl

end RoomScorer

end EspWebsite.Autoscheduler
