import EspWebsite.Autoscheduler.Scoring.Laws

/-!
# Scorers of the roomslots of sections

The scorers that add up amounts for each roomslot of each scheduled section.  A
dictionary from timeslot ids with an entry for every timeslot is a function of the
id, and an amount is added to one of its entries by adding `entry key amount`.
-/

namespace EspWebsite.Autoscheduler

open Calendar Python Tally

/-- The dictionary with the given amount at one key and zero elsewhere. -/
def entry {Value : Type} [Zero Value] (key : Nat) (amount : Value) : Nat → Value :=
  Pi.single key amount

variable (schedule : AS_Schedule)

/-- A scorer that keeps the total of the amounts which sections have at their roomslots,
listed in the order in which its loops come to them.  Building it may raise, for
reasons which lie in the fixed data of the schedule. -/
def RoomslotScorer {Total : Type} [AddCommGroup Total]
    (amounts : AS_ClassSection → List AS_RoomSlot → List Total) (build : Raises Unit)
    (scaling : ℚ) (scoreSchedule : Total → Raises ℚ) : Scorer schedule :=
  let updateScheduleSection := fun (_ : Assignments) (sec : AS_ClassSection)
      startRoomslot total =>
    let roomslots := getRoomslotsByDuration startRoomslot sec.duration
    .ok ((amounts sec roomslots).foldl (fun total amount => total + amount) total)
  let updateUnscheduleSection := fun (assignments : Assignments) sec total =>
    let roomslots := assignments.assignedRoomslots sec
    .ok ((amounts sec roomslots).foldl (fun total amount => total - amount) total)
  { State := Total
    scaling := scaling
    updateSchedule := fun assignments => do
      build
      return schedule.classSections.foldl (fun total sec =>
        let roomslots := assignments.assignedRoomslots sec
        (amounts sec roomslots).foldl (fun total amount => total + amount) total) 0
    scoreSchedule := scoreSchedule
    updateScheduleSection := updateScheduleSection
    updateUnscheduleSection := updateUnscheduleSection
    updateMoveSection := BaseScorer.updateMoveSection updateScheduleSection
      updateUnscheduleSection
    updateSwapSections := BaseScorer.updateSwapSections updateScheduleSection
      updateUnscheduleSection }

namespace AdminDistributionScorer

/-- The further entries of `ideal_distribution`: nothing in the first timeslot of a day,
a third in the others. -/
def idealDistribution : AS_Timeslot → List AS_Timeslot → List ℚ
  | _, [] => []
  | previous, timeslot :: rest =>
      (if timeslot.startTime.day = previous.startTime.day then 1 / 3 else 0) ::
        idealDistribution timeslot rest

/-- `ideal_distribution_dict`, with the id of each timeslot. -/
def idealDistributionDict : List (Nat × ℚ) :=
  match schedule.timeslots with
  | [] => []
  | firstTimeslot :: rest =>
      (schedule.timeslots.map AS_Timeslot.id).zip (0 :: idealDistribution firstTimeslot rest)

def totalAdmins : ℚ :=
  schedule.teachers.countP AS_Teacher.isAdmin

/-- The scaling that `update_schedule` sets. -/
def computeScaling : Raises ℚ := do
  let _ ← first schedule.timeslots
  let numSections : ℚ := schedule.classSections.length
  let averageDuration ← div (schedule.classSections.map AS_ClassSection.duration).sum
    numSections
  let averageNumTeachers ← div
    (schedule.classSections.map fun sec => (sec.teachers.length : ℚ)).sum
    numSections
  div (totalAdmins schedule) (averageDuration * averageNumTeachers * numSections)

/-- One more for each admin teaching the section, at each of the roomslots. -/
def amounts (sec : AS_ClassSection) (roomslots : List AS_RoomSlot) :
    List (Nat → ℚ) :=
  (sec.teachers.filter AS_Teacher.isAdmin).flatMap fun _ =>
    roomslots.map fun roomslot => entry roomslot.timeslot.id 1

/-- The loop of `score_schedule`, which adds up by how much too many admins teach. -/
def penalty (adminsPerTimeslot : Nat → ℚ) : List (Nat × ℚ) → ℚ → Raises ℚ
  | [], penalty => .ok penalty
  | (timeslotId, ideal) :: rest, total => do
      let actual ← div (adminsPerTimeslot timeslotId) (totalAdmins schedule)
      penalty adminsPerTimeslot rest (if actual > ideal then total + (actual - ideal) else total)

end AdminDistributionScorer

/-- Admins' classes should be spread out over the day, and minimally in the
mornings. -/
def AdminDistributionScorer : Scorer schedule :=
  RoomslotScorer schedule AdminDistributionScorer.amounts
    (do let _ ← AdminDistributionScorer.computeScaling schedule)
    (resultOr 1 (AdminDistributionScorer.computeScaling schedule))
    fun adminsPerTimeslot => do
      let penalty ← AdminDistributionScorer.penalty schedule adminsPerTimeslot
        (AdminDistributionScorer.idealDistributionDict schedule) 0
      return max 0 (1 - penalty)

namespace CategoryBalanceScorer

/-- The keys of `student_class_hours_by_category`. -/
def categories : List Nat :=
  (schedule.classSections.map AS_ClassSection.category).dedup

/-- An entry of `student_class_hours_by_category`. -/
def studentClassHours (category : Nat) : ℚ :=
  ((schedule.classSections.filter fun sec =>
      sec.category == category).map fun sec =>
    (sec.capacity : ℚ) * sec.duration).sum

/-- The capacity of the section in the room, in its category at each timeslot. -/
def amounts (sec : AS_ClassSection) (roomslots : List AS_RoomSlot) :
    List (Nat → Nat → ℚ) :=
  roomslots.map fun roomslot =>
    let actualCapacity := min sec.capacity roomslot.room.capacity
    entry sec.category (entry roomslot.timeslot.id (actualCapacity : ℚ))

/-- The inner loop of `score_schedule`, over the timeslots. -/
def categoryPenalty (capacityPerTimeslot : Nat → ℚ) (studentClassHours leeway : ℚ) :
    List AS_Timeslot → ℚ → Raises ℚ
  | [], totalPenalty => .ok totalPenalty
  | timeslot :: rest, totalPenalty => do
      let capacity := capacityPerTimeslot timeslot.id
      let fractionalCapacity ← div (capacity * timeslot.duration) studentClassHours
      if fractionalCapacity > leeway then
        let excess ← div capacity studentClassHours
        categoryPenalty capacityPerTimeslot studentClassHours leeway rest
          (totalPenalty + (excess - leeway))
      else
        categoryPenalty capacityPerTimeslot studentClassHours leeway rest totalPenalty

/-- The outer loop of `score_schedule`, over the categories. -/
def totalPenalty (capacityPerTimeslotByCategory : Nat → Nat → ℚ) :
    List Nat → ℚ → Raises ℚ
  | [], penalty => .ok penalty
  | category :: rest, penalty => do
      let leeway ← div 1 schedule.timeslots.length
      let penalty ← categoryPenalty (capacityPerTimeslotByCategory category)
        (studentClassHours schedule category) leeway schedule.timeslots penalty
      totalPenalty capacityPerTimeslotByCategory rest penalty

end CategoryBalanceScorer

/-- Each category should have its student-capacity spread out evenly over the
timeslots. -/
def CategoryBalanceScorer : Scorer schedule :=
  RoomslotScorer schedule CategoryBalanceScorer.amounts (.ok ()) 1
    fun capacityPerTimeslotByCategory => do
      let penalty ← CategoryBalanceScorer.totalPenalty schedule
        capacityPerTimeslotByCategory (CategoryBalanceScorer.categories schedule) 0
      return 1 - (← div penalty (CategoryBalanceScorer.categories schedule).length)

namespace LunchStudentClassHoursScorer

/-- Whether the id is in `lunch_timeslots`. -/
def isLunch (timeslotId : Nat) : Bool :=
  schedule.lunchTimeslots.any fun entry =>
    entry.2.any fun timeslot => timeslot.id == timeslotId

def totalStudentClassHours : ℚ :=
  (schedule.classSections.map fun sec =>
    (sec.capacity : ℚ) * sec.duration).sum

/-- The student-class-hours at each roomslot outside of lunch. -/
def amounts (sec : AS_ClassSection) (roomslots : List AS_RoomSlot) : List ℚ :=
  (roomslots.filter fun roomslot => !isLunch schedule roomslot.timeslot.id).map
    fun roomslot =>
      let actualCapacity := min sec.capacity roomslot.room.capacity
      (actualCapacity : ℚ) * roomslot.timeslot.duration

end LunchStudentClassHoursScorer

/-- Preferentially schedules student-class-hours outside of lunch. -/
def LunchStudentClassHoursScorer : Scorer schedule :=
  RoomslotScorer schedule (LunchStudentClassHoursScorer.amounts schedule) (.ok ()) 1
    fun nonLunchStudentClassHours =>
      div nonLunchStudentClassHours
        (LunchStudentClassHoursScorer.totalStudentClassHours schedule)

/-! ## The law -/

namespace RoomslotScorer

variable {schedule} {Total : Type} [AddCommGroup Total]
  {amounts : AS_ClassSection → List AS_RoomSlot → List Total} {build : Raises Unit}
  {scaling : ℚ} {scoreSchedule : Total → Raises ℚ}

theorem foldl_add_eq (values : List Total) (total : Total) :
    values.foldl (fun total amount => total + amount) total = total + values.sum := by
  induction values generalizing total with
  | nil => simp
  | cons value rest ih => simp [ih, add_assoc]

theorem foldl_sub_eq (values : List Total) (total : Total) :
    values.foldl (fun total amount => total - amount) total = total - values.sum := by
  induction values generalizing total with
  | nil => simp
  | cons value rest ih => simp [ih, sub_sub]

theorem foldl_sections_eq (assignments : Assignments) (classSections : List AS_ClassSection)
    (total : Total) :
    classSections.foldl (fun total sec =>
        (amounts sec (assignments.assignedRoomslots sec)).foldl
          (fun total amount => total + amount) total) total =
      total + tally classSections (fun sec roomslots =>
        (amounts sec roomslots).sum) assignments.assignedRoomslots := by
  induction classSections generalizing total with
  | nil => simp [tally]
  | cons sec rest ih =>
      rw [List.foldl_cons, ih, foldl_add_eq, tally_cons, add_assoc]

/-- Taking off and adding a section's amounts keeps the total. -/
theorem incremental (nothing : ∀ sec, amounts sec [] = []) :
    Incremental (RoomslotScorer schedule amounts build scaling scoreSchedule) := by
  let _ : AddCommGroup
      (RoomslotScorer schedule amounts build scaling scoreSchedule).State :=
    inferInstanceAs (AddCommGroup Total)
  apply incremental_of_contributions
    (fun sec roomslots => (amounts sec roomslots).sum) build
  · intro sec
    simp only [nothing]
    rfl
  · intro assignments
    simp only [RoomslotScorer, foldl_sections_eq, zero_add]
    rfl
  · intro assignments sec startRoomslot total listed registered
    exact congrArg Except.ok (foldl_add_eq _ total)
  · intro assignments sec total listed scheduled
    exact congrArg Except.ok (foldl_sub_eq _ total)
  · rfl
  · rfl

end RoomslotScorer

end EspWebsite.Autoscheduler
