import EspWebsite.Autoscheduler.Scoring.Classes
import EspWebsite.Autoscheduler.Scoring.RunningBound

/-!
# The range of scores

`BaseScorer` promises scores between zero and one.  What each class of scorers divides
by is known when the scorer is built, and so is what its total can amount to at most; a
schedule is well scaled for a class if the one is not less than the other.
-/

namespace EspWebsite.Autoscheduler

open Python Tally

/-- A score that is defined and lies between zero and one. -/
def InUnit (score : Raises ℚ) : Prop := ∃ value, score = .ok value ∧ 0 ≤ value ∧ value ≤ 1

theorem inUnit_div {total bound : ℚ} (positive : 0 < bound) (nonneg : 0 ≤ total)
    (bounded : total ≤ bound) : InUnit (div total bound) := by
  refine ⟨total / bound, if_neg positive.ne', div_nonneg nonneg positive.le, ?_⟩
  exact (div_le_one positive).mpr bounded

theorem InUnit.complement {score : Raises ℚ} (inUnit : InUnit score) :
    InUnit (do let value ← score; return 1 - value) := by
  obtain ⟨value, computed, nonneg, atMost⟩ := inUnit
  refine ⟨1 - value, ?_, by linarith, by linarith⟩
  rw [computed]
  rfl

structure AS_Schedule.Populated (schedule : AS_Schedule) : Prop where
  sections : schedule.classSections ≠ []
  timeslots : schedule.timeslots ≠ []
  teachers : schedule.teachers ≠ []
  classrooms : schedule.classrooms ≠ []

structure AS_Schedule.Nonnegative (schedule : AS_Schedule) : Prop where
  capacity : ∀ sec ∈ schedule.classSections, 0 ≤ sec.capacity
  duration : ∀ sec ∈ schedule.classSections, 0 ≤ sec.duration
  roomCapacity : ∀ room ∈ schedule.classrooms, 0 ≤ room.capacity

section Bounds

variable {schedule : AS_Schedule} {assignments : Assignments} {sec : AS_ClassSection}
  {roomslot : AS_RoomSlot}

theorem AS_Schedule.Populated.numSections_pos (populated : schedule.Populated) :
    (0 : ℚ) < schedule.classSections.length :=
  Nat.cast_pos.mpr (List.length_pos_iff.mpr populated.sections)

/-- A scheduled section is at the roomslots that its duration takes from its first one. -/
theorem Tidy.taken (tidy : Tidy schedule assignments)
    (listed : sec ∈ schedule.classSections) :
    assignments.assignedRoomslots sec = [] ∨
      ∃ start ∈ schedule.roomslots, assignments.assignedRoomslots sec =
        getRoomslotsByDuration start sec.duration := by
  cases held : assignments.assignedRoomslots sec with
  | nil => exact .inl rfl
  | cons start rest =>
      refine .inr ⟨start, tidy.placed.registered_of_assigned listed (by simp [held]), ?_⟩
      exact (tidy.canonical sec listed start rest held).symm

theorem AS_Schedule.Nonnegative.actualCapacity (nonnegative : schedule.Nonnegative)
    (listed : sec ∈ schedule.classSections) (registered : roomslot ∈ schedule.roomslots) :
    (0 : ℚ) ≤ (min sec.capacity roomslot.room.capacity : ℤ) ∧
      ((min sec.capacity roomslot.room.capacity : ℤ) : ℚ) ≤ sec.capacity := by
  constructor
  · exact Int.cast_nonneg (le_min (nonnegative.capacity sec listed)
      (nonnegative.roomCapacity _ (AS_Schedule.mem_roomslots.mp registered).1))
  · exact Int.cast_le.mpr (min_le_left _ _)

end Bounds

/-! ## Scorers that count -/

section Counting

variable {schedule : AS_Schedule} {assignments : Assignments}

theorem NumSectionsScorer.inUnit (populated : schedule.Populated) {count : Nat}
    (built : (NumSectionsScorer schedule).updateSchedule assignments = (.ok count : Raises Nat)) :
    InUnit ((NumSectionsScorer schedule).scoreSchedule count) := by
  rw [updateSchedule_eq] at built
  have counted := Except.ok.inj built
  have atMost : count ≤ schedule.classSections.length := by
    rw [← counted]
    have each : ∀ sec ∈ schedule.classSections,
        scheduledValue (fun _ => 1) sec (assignments.assignedRoomslots sec) ≤
          1 := by
      intro sec _
      rw [scheduledValue]
      split <;> simp
    refine (tally_le each).trans ?_
    simp
  exact inUnit_div populated.numSections_pos (Nat.cast_nonneg _) (Nat.cast_le.mpr atMost)

namespace CountScorer

variable {keys : AS_ClassSection → List Nat} {allKeys : List Nat}

theorem numScheduled_le (numScheduledSections : Nat → Nat) :
    numScheduled allKeys numScheduledSections ≤ allKeys.length := by
  have each : ∀ count ∈ allKeys.map fun key => if numScheduledSections key > 0 then 1 else 0,
      count ≤ 1 := by
    intro count member
    obtain ⟨key, _, same⟩ := List.mem_map.mp member
    rw [← same]
    split <;> simp
  have total := List.sum_le_card_nsmul _ _ each
  simpa [numScheduled] using total

theorem inUnit (someKeys : allKeys ≠ []) {state : CountState}
    (built : (CountScorer schedule keys allKeys).updateSchedule assignments =
      (.ok state : Raises CountState)) :
    InUnit ((CountScorer schedule keys allKeys).scoreSchedule state) := by
  obtain ⟨scaling, _, same⟩ := bind_eq_ok.mp built
  cases Except.ok.inj same
  have positive : (0 : ℚ) < allKeys.length := Nat.cast_pos.mpr (List.length_pos_iff.mpr someKeys)
  exact inUnit_div positive (Nat.cast_nonneg _) (Nat.cast_le.mpr (numScheduled_le _))

end CountScorer

theorem HungryTeacherScorer.inUnit (populated : schedule.Populated)
    (byTeacher : Nat → Nat → Bool) :
    InUnit ((HungryTeacherScorer schedule).scoreSchedule (summary schedule byTeacher)) := by
  have atMost : (summary schedule byTeacher).hungryTeachers.card ≤ schedule.teachers.length := by
    refine (Finset.card_filter_le _ _).trans ?_
    refine (List.toFinset_card_le _).trans ?_
    rw [List.length_map]
  have positive : (0 : ℚ) < schedule.teachers.length :=
    Nat.cast_pos.mpr (List.length_pos_iff.mpr populated.teachers)
  exact (inUnit_div positive (Nat.cast_nonneg _) (Nat.cast_le.mpr atMost)).complement

theorem RoomConsecutivityScorer.inUnit (populated : schedule.Populated) {count : ℚ}
    (built : (RoomConsecutivityScorer schedule).updateSchedule assignments =
      (.ok count : Raises ℚ)) :
    InUnit ((RoomConsecutivityScorer schedule).scoreSchedule count) := by
  have counted := Except.ok.inj (updateSchedule_eq.symm.trans built)
  have indicator_mem (complete : Bool) : 0 ≤ indicator complete ∧ indicator complete ≤ 1 := by
    cases complete <;> simp [indicator]
  have value_mem (roomslots : List AS_RoomSlot) :
      0 ≤ value assignments roomslots ∧ value assignments roomslots ≤ 2 := by
    cases roomslots with
    | nil => simp [value]
    | cons first rest =>
        have before := indicator_mem (boundaryCompleteBefore assignments first none)
        have after := indicator_mem
          (boundaryCompleteAfter assignments (lastOf first rest) none true)
        rw [value]
        constructor
        · exact add_nonneg before.1 after.1
        · linarith [before.2, after.2]
  have nonneg : 0 ≤ count := by
    rw [← counted]
    exact @tally_nonneg _ _ _ _ _ _ schedule.classSections
      (fun _ roomslots => value assignments roomslots) _ fun _ _ => (value_mem _).1
  have atMost : count ≤ schedule.classSections.length * 2 := by
    rw [← counted]
    refine (@tally_le _ _ _ _ _ _ _ schedule.classSections
      (fun _ roomslots => value assignments roomslots) _ (fun _ => 2)
        fun _ _ => (value_mem _).2).trans ?_
    simp
  have positive := populated.numSections_pos
  refine ⟨count / schedule.classSections.length / 2, ?_, ?_, ?_⟩
  · simp only [RoomConsecutivityScorer, div, if_neg positive.ne', ok_bind, pure_eq_ok]
  · exact div_nonneg (div_nonneg nonneg positive.le) two_pos.le
  · rw [div_div]
    exact (div_le_one (mul_pos positive two_pos)).mpr atMost

end Counting

/-! ## Scorers of rooms -/

section Rooms

variable {schedule : AS_Schedule} {assignments : Assignments} {sec : AS_ClassSection}
  {room : AS_Classroom}

namespace RoomScorer

variable {processSection : AS_ClassSection → AS_Classroom → ℚ} {build : Raises Unit}
  {scaling total : ℚ} {scoreSchedule : ℚ → Raises ℚ}

theorem mem_of_built {bound : AS_ClassSection → ℚ} (tidy : Tidy schedule assignments)
    (nonneg : ∀ sec ∈ schedule.classSections, 0 ≤ bound sec)
    (each : ∀ sec ∈ schedule.classSections, ∀ roomslot ∈ schedule.roomslots,
      0 ≤ processSection sec roomslot.room ∧
        processSection sec roomslot.room ≤ bound sec)
    (built : (RoomScorer schedule processSection build scaling scoreSchedule).updateSchedule
      assignments = (.ok total : Raises ℚ)) :
    0 ≤ total ∧ total ≤ (schedule.classSections.map bound).sum := by
  have counted := Except.ok.inj (andThen_eq_ok.mp built).2
  rw [total_eq, zero_add] at counted
  have contributes : ∀ sec ∈ schedule.classSections,
      0 ≤ contribution processSection sec (assignments.assignedRoomslots sec) ∧
        contribution processSection sec (assignments.assignedRoomslots sec) ≤
          bound sec := by
    intro sec listed
    cases held : assignments.assignedRoomslots sec with
    | nil => exact ⟨le_refl _, nonneg sec listed⟩
    | cons first rest =>
        exact each sec listed first
          (tidy.placed.registered_of_assigned listed (by simp [held]))
  rw [← counted]
  exact ⟨tally_nonneg fun sec listed => (contributes sec listed).1,
    tally_le fun sec listed => (contributes sec listed).2⟩

theorem inUnit_average {bound : ℚ} (populated : schedule.Populated)
    (tidy : Tidy schedule assignments) (positive : 0 < bound)
    (each : ∀ sec room, 0 ≤ processSection sec room ∧
      processSection sec room ≤ bound)
    (built : (RoomScorer schedule processSection build scaling scoreSchedule).updateSchedule
      assignments = (.ok total : Raises ℚ)) :
    InUnit (div total (bound * schedule.classSections.length)) := by
  have within := mem_of_built tidy (fun _ _ => positive.le)
    (fun sec _ roomslot _ => each sec roomslot.room) built
  refine inUnit_div (mul_pos positive populated.numSections_pos) within.1 ?_
  refine within.2.trans (le_of_eq ?_)
  simp [mul_comm]

end RoomScorer

namespace ResourceCriteriaScorer

variable {criteria : List (ResourceCriterion × ℚ)}

/-- The weights of the criteria that are met are part of the weights. -/
theorem processSection_mem (nonneg : ∀ entry ∈ criteria, 0 ≤ entry.2) :
    0 ≤ processSection criteria sec room ∧
      processSection criteria sec room ≤ (criteria.map Prod.snd).sum := by
  induction criteria using List.reverseRecOn with
  | nil => simp [processSection]
  | append_singleton earlier last ih =>
      have lastNonneg := nonneg last (by simp)
      have before := ih fun entry member => nonneg entry (List.mem_append_left _ member)
      rw [processSection] at before
      rw [processSection, List.foldl_append, List.foldl_cons, List.foldl_nil, List.map_append,
        List.sum_append, List.map_cons, List.map_nil, List.sum_singleton]
      split
      next => exact ⟨add_nonneg before.1 lastNonneg, by linarith [before.2]⟩
      next => exact ⟨before.1, by linarith [before.2]⟩

theorem totalWeight_pos (nonneg : ∀ entry ∈ criteria, 0 ≤ entry.2) :
    0 < totalWeight criteria ∧ (criteria.map Prod.snd).sum ≤ totalWeight criteria := by
  have sumNonneg : 0 ≤ (criteria.map Prod.snd).sum := by
    apply List.sum_nonneg
    intro weight member
    obtain ⟨entry, listed, same⟩ := List.mem_map.mp member
    exact same ▸ nonneg entry listed
  simp only [totalWeight]
  split
  next none => exact ⟨one_pos, by rw [none]; exact zero_le_one⟩
  next some => exact ⟨lt_of_le_of_ne sumNonneg (Ne.symm some), le_refl _⟩

theorem inUnit (populated : schedule.Populated) (tidy : Tidy schedule assignments)
    (nonneg : ∀ entry ∈ criteria, 0 ≤ entry.2) {total : ℚ}
    (built : (ResourceCriteriaScorer schedule criteria).updateSchedule assignments =
      (.ok total : Raises ℚ)) :
    InUnit ((ResourceCriteriaScorer schedule criteria).scoreSchedule total) := by
  have weight := totalWeight_pos nonneg
  apply RoomScorer.inUnit_average populated tidy weight.1 _ built
  intro sec room
  have processed : 0 ≤ processSection criteria sec room ∧ _ := processSection_mem nonneg
  exact ⟨processed.1, processed.2.trans weight.2⟩

end ResourceCriteriaScorer

theorem fraction_mem {part whole : Nat} (isPart : part ≤ whole) :
    (0 : ℚ) ≤ part / whole ∧ (part : ℚ) / whole ≤ 1 := by
  constructor
  · exact div_nonneg (Nat.cast_nonneg _) (Nat.cast_nonneg _)
  · exact div_le_one_of_le₀ (Nat.cast_le.mpr isPart) (Nat.cast_nonneg _)

theorem ResourceMatchingScorer.inUnit (populated : schedule.Populated)
    (tidy : Tidy schedule assignments) {total : ℚ}
    (built : (ResourceMatchingScorer schedule).updateSchedule assignments =
      (.ok total : Raises ℚ)) :
    InUnit ((ResourceMatchingScorer schedule).scoreSchedule total) := by
  have average := RoomScorer.inUnit_average populated tidy one_pos (fun sec room => by
    rw [processSection]
    split
    next => exact ⟨zero_le_one, le_refl _⟩
    next => exact fraction_mem List.countP_le_length) built
  rwa [one_mul] at average

theorem ResourceValueMatchingScorer.inUnit (populated : schedule.Populated)
    (tidy : Tidy schedule assignments) {total : ℚ}
    (built : (ResourceValueMatchingScorer schedule).updateSchedule assignments =
      (.ok total : Raises ℚ)) :
    InUnit ((ResourceValueMatchingScorer schedule).scoreSchedule total) := by
  have average := RoomScorer.inUnit_average populated tidy one_pos (fun sec room => by
    simp only [processSection]
    split
    next => exact ⟨zero_le_one, le_refl _⟩
    next => exact fraction_mem List.countP_le_length) built
  rwa [one_mul] at average

/-- The penalties of all sections together are at most one. -/
theorem RoomSizeMismatchScorer.inUnit (populated : schedule.Populated)
    (tidy : Tidy schedule assignments) {total : ℚ}
    (built : (RoomSizeMismatchScorer schedule).updateSchedule assignments =
      (.ok total : Raises ℚ)) :
    InUnit ((RoomSizeMismatchScorer schedule).scoreSchedule total) := by
  have positive := populated.numSections_pos
  have penalty_mem (maxClassSize maxRoomSize : Int) (sec : AS_ClassSection)
      (room : AS_Classroom) :
      0 ≤ penaltyForSectionAndRoom maxClassSize maxRoomSize sec room ∧
        penaltyForSectionAndRoom maxClassSize maxRoomSize sec room ≤ 1 := by
    simp only [penaltyForSectionAndRoom]
    split
    next => exact ⟨zero_le_one, le_refl _⟩
    next => exact ⟨le_min zero_le_one (sq_nonneg _), min_le_left _ _⟩
  have within := RoomScorer.mem_of_built tidy
    (fun _ _ => (div_nonneg zero_le_one positive.le : 0 ≤ 1 / (schedule.classSections.length : ℚ)))
    (fun sec _ roomslot _ =>
      ⟨div_nonneg (penalty_mem _ _ sec roomslot.room).1 positive.le,
        div_le_div_of_nonneg_right (penalty_mem _ _ sec roomslot.room).2 positive.le⟩)
    built
  have whole : (schedule.classSections.map fun _ =>
      1 / (schedule.classSections.length : ℚ)).sum = 1 := by
    simp [mul_inv_cancel₀ positive.ne']
  rw [whole] at within
  exact ⟨1 - total, rfl, by linarith [within.2], by linarith [within.1]⟩

theorem StudentClassHoursScorer.inUnit (nonnegative : schedule.Nonnegative)
    (positive : 0 < totalStudentClassHours schedule) (tidy : Tidy schedule assignments)
    {total : ℚ}
    (built : (StudentClassHoursScorer schedule).updateSchedule assignments =
      (.ok total : Raises ℚ)) :
    InUnit ((StudentClassHoursScorer schedule).scoreSchedule total) := by
  have within := RoomScorer.mem_of_built tidy
    (fun sec listed => mul_nonneg
      (Int.cast_nonneg (nonnegative.capacity sec listed) :
        (0 : ℚ) ≤ sec.capacity)
      (nonnegative.duration sec listed))
    (fun sec listed roomslot registered => by
      have actual := nonnegative.actualCapacity listed registered
      have duration := nonnegative.duration sec listed
      rw [effectiveStudentClassHours]
      exact ⟨mul_nonneg actual.1 duration, mul_le_mul_of_nonneg_right actual.2 duration⟩)
    built
  exact inUnit_div positive within.1 within.2

end Rooms

/-! ## Scorers of roomslots -/

section Roomslots

variable {schedule : AS_Schedule} {assignments : Assignments} {sec : AS_ClassSection}
  {roomslots : List AS_RoomSlot}

theorem RoomslotScorer.eq_tally {Total : Type} [AddCommGroup Total]
    {amounts : AS_ClassSection → List AS_RoomSlot → List Total} {build : Raises Unit}
    {scaling : ℚ} {scoreSchedule : Total → Raises ℚ} {total : Total}
    (built : (RoomslotScorer schedule amounts build scaling scoreSchedule).updateSchedule
      assignments = (.ok total : Raises Total)) :
    total = tally schedule.classSections
      (fun sec roomslots => (amounts sec roomslots).sum)
      assignments.assignedRoomslots := by
  have counted := Except.ok.inj (andThen_eq_ok.mp built).2
  rw [foldl_sections_eq, zero_add] at counted
  exact counted.symm

namespace LunchStudentClassHoursScorer

def nonLunchHours (schedule : AS_Schedule) (roomslots : List AS_RoomSlot) : ℚ :=
  ((roomslots.filter fun roomslot => !isLunch schedule roomslot.timeslot.id).map
    fun roomslot => roomslot.timeslot.duration).sum

/-- A section has at most its capacity in each of the hours outside of lunch. -/
theorem sum_amounts_mem (nonnegative : schedule.Nonnegative)
    (listed : sec ∈ schedule.classSections)
    (registered : ∀ roomslot ∈ roomslots, roomslot ∈ schedule.roomslots) :
    0 ≤ (amounts schedule sec roomslots).sum ∧
      (amounts schedule sec roomslots).sum ≤
        sec.capacity * nonLunchHours schedule roomslots := by
  have lasts (timeslot : AS_Timeslot) : 0 ≤ timeslot.duration :=
    deltaTime_pos.le.trans timeslot.longEnough
  rw [nonLunchHours, ← List.sum_map_mul_left, amounts]
  constructor
  · apply List.sum_nonneg
    intro amount member
    obtain ⟨roomslot, filtered, same⟩ := List.mem_map.mp member
    have actual := nonnegative.actualCapacity listed
      (registered roomslot (List.mem_of_mem_filter filtered))
    rw [← same]
    exact mul_nonneg actual.1 (lasts roomslot.timeslot)
  · apply List.sum_le_sum
    intro roomslot filtered
    have actual := nonnegative.actualCapacity listed
      (registered roomslot (List.mem_of_mem_filter filtered))
    exact mul_le_mul_of_nonneg_right actual.2 (lasts roomslot.timeslot)

/-- The student-class-hours outside of lunch are part of all student-class-hours, if no
section is given more hours than it lasts. -/
theorem inUnit (nonnegative : schedule.Nonnegative)
    (positive : 0 < totalStudentClassHours schedule)
    (exact : ∀ sec ∈ schedule.classSections, ∀ start ∈ schedule.roomslots,
      nonLunchHours schedule (getRoomslotsByDuration start sec.duration) ≤
        sec.duration)
    (tidy : Tidy schedule assignments) {total : ℚ}
    (built : (LunchStudentClassHoursScorer schedule).updateSchedule assignments =
      (.ok total : Raises ℚ)) :
    InUnit ((LunchStudentClassHoursScorer schedule).scoreSchedule total) := by
  have each : ∀ sec ∈ schedule.classSections,
      0 ≤ (amounts schedule sec (assignments.assignedRoomslots sec)).sum ∧
        (amounts schedule sec (assignments.assignedRoomslots sec)).sum ≤
          sec.capacity * sec.duration := by
    intro sec listed
    have capacity : (0 : ℚ) ≤ sec.capacity :=
      Int.cast_nonneg (nonnegative.capacity sec listed)
    have amount := sum_amounts_mem nonnegative listed
      fun roomslot assigned => tidy.placed.registered_of_assigned listed assigned
    refine ⟨amount.1, amount.2.trans (mul_le_mul_of_nonneg_left ?_ capacity)⟩
    cases tidy.taken listed with
    | inl unscheduled =>
        rw [unscheduled]
        exact nonnegative.duration sec listed
    | inr scheduled =>
        obtain ⟨start, registered, taken⟩ := scheduled
        rw [taken]
        exact exact sec listed start registered
  rw [RoomslotScorer.eq_tally built]
  exact inUnit_div positive (tally_nonneg fun sec listed => (each sec listed).1)
    (tally_le fun sec listed => (each sec listed).2)

end LunchStudentClassHoursScorer

namespace AdminDistributionScorer

theorem penalty_returns (admins : 0 < totalAdmins schedule) (adminsPerTimeslot : Nat → ℚ)
    (ideals : List (Nat × ℚ)) (total : ℚ) :
    ∃ added, penalty schedule adminsPerTimeslot ideals total = .ok added ∧ total ≤ added := by
  induction ideals generalizing total with
  | nil => exact ⟨total, rfl, le_refl _⟩
  | cons entry rest ih =>
      obtain ⟨timeslotId, ideal⟩ := entry
      rw [penalty, div, if_neg admins.ne', ok_bind]
      split
      next excess =>
        obtain ⟨added, computed, more⟩ := ih (total +
          (adminsPerTimeslot timeslotId / totalAdmins schedule - ideal))
        exact ⟨added, computed, by linarith⟩
      next => exact ih total

theorem inUnit (admins : 0 < totalAdmins schedule) (adminsPerTimeslot : Nat → ℚ) :
    InUnit ((AdminDistributionScorer schedule).scoreSchedule adminsPerTimeslot) := by
  obtain ⟨added, computed, nonneg⟩ :=
    penalty_returns admins adminsPerTimeslot (idealDistributionDict schedule) 0
  refine ⟨max 0 (1 - added), bind_eq_ok.mpr ⟨added, computed, rfl⟩, le_max_left _ _, ?_⟩
  exact max_le zero_le_one (by linarith)

end AdminDistributionScorer

namespace CategoryBalanceScorer

/-- Without long timeslots, a category is penalised for at most the fraction of its
student-class-hours that is scheduled. -/
theorem categoryPenalty_mem {capacityPerTimeslot : Nat → ℚ} {hours leeway : ℚ}
    (positive : 0 < hours) (leewayNonneg : 0 ≤ leeway) (timeslots : List AS_Timeslot)
    (short : ∀ timeslot ∈ timeslots, timeslot.duration ≤ 1)
    (nonneg : ∀ timeslot ∈ timeslots, 0 ≤ capacityPerTimeslot timeslot.id) (total : ℚ) :
    ∃ added, categoryPenalty capacityPerTimeslot hours leeway timeslots total = .ok added ∧
      total ≤ added ∧
        added ≤ total + (timeslots.map fun timeslot => capacityPerTimeslot timeslot.id).sum /
          hours := by
  induction timeslots generalizing total with
  | nil => exact ⟨total, rfl, le_refl _, by simp⟩
  | cons timeslot rest ih =>
      have capacity := nonneg timeslot List.mem_cons_self
      have later (total : ℚ) := ih (fun other member => short other (List.mem_cons_of_mem _ member))
        (fun other member => nonneg other (List.mem_cons_of_mem _ member)) total
      have fraction : 0 ≤ capacityPerTimeslot timeslot.id / hours :=
        div_nonneg capacity positive.le
      rw [categoryPenalty, div, if_neg positive.ne', ok_bind, div, if_neg positive.ne',
        List.map_cons, List.sum_cons, add_div]
      split
      next excess =>
        have atMost : capacityPerTimeslot timeslot.id * timeslot.duration / hours ≤
            capacityPerTimeslot timeslot.id / hours := by
          apply div_le_div_of_nonneg_right _ positive.le
          exact mul_le_of_le_one_right capacity (short timeslot List.mem_cons_self)
        rw [ok_bind]
        obtain ⟨added, computed, more, bounded⟩ := later
          (total + (capacityPerTimeslot timeslot.id / hours - leeway))
        exact ⟨added, computed, by linarith, by linarith⟩
      next =>
        obtain ⟨added, computed, more, bounded⟩ := later total
        exact ⟨added, computed, more, by linarith⟩

theorem totalPenalty_mem {capacities : Nat → Nat → ℚ}
    (populated : schedule.Populated)
    (short : ∀ timeslot ∈ schedule.timeslots, timeslot.duration ≤ 1)
    (nonneg : ∀ category timeslotId, 0 ≤ capacities category timeslotId)
    (some : List Nat)
    (positive : ∀ category ∈ some, 0 < studentClassHours schedule category)
    (bounded : ∀ category ∈ some,
      (schedule.timeslots.map fun timeslot => capacities category timeslot.id).sum ≤
        studentClassHours schedule category)
    (total : ℚ) :
    ∃ added, totalPenalty schedule capacities some total = .ok added ∧ total ≤ added ∧
      added ≤ total + some.length := by
  induction some generalizing total with
  | nil => exact ⟨total, rfl, le_refl _, by simp⟩
  | cons category rest ih =>
      have numTimeslots : (0 : ℚ) < schedule.timeslots.length :=
        Nat.cast_pos.mpr (List.length_pos_iff.mpr populated.timeslots)
      have hours := positive category List.mem_cons_self
      have leeway : (0 : ℚ) ≤ 1 / schedule.timeslots.length :=
        div_nonneg zero_le_one numTimeslots.le
      obtain ⟨penalty, computed, more, atMost⟩ := categoryPenalty_mem hours leeway
        schedule.timeslots short (fun timeslot _ => nonneg category timeslot.id) total
      have whole := (div_le_one hours).mpr (bounded category List.mem_cons_self)
      obtain ⟨added, computedRest, moreRest, atMostRest⟩ := ih
        (fun other member => positive other (List.mem_cons_of_mem _ member))
        (fun other member => bounded other (List.mem_cons_of_mem _ member)) penalty
      refine ⟨added, ?_, more.trans moreRest, ?_⟩
      · rw [totalPenalty, div, if_neg numTimeslots.ne', ok_bind, computed, ok_bind]
        exact computedRest
      · rw [List.length_cons, Nat.cast_add, Nat.cast_one]
        linarith

def allTimeslots (schedule : AS_Schedule) (category : Nat) : (Nat → Nat → ℚ) →+ ℚ where
  toFun capacities := (schedule.timeslots.map fun timeslot => capacities category timeslot.id).sum
  map_zero' := by simp
  map_add' left right := by simp [List.sum_map_add]

/-- A section adds its capacity once for each of its roomslots, in its category. -/
theorem allTimeslots_entry {category other timeslotId : Nat} {amount : ℚ}
    (listed : timeslotId ∈ schedule.timeslots.map AS_Timeslot.id) :
    allTimeslots schedule category (entry other (entry timeslotId amount)) =
      if other = category then amount else 0 := by
  by_cases same : other = category
  · have once := tally_single schedule.timeslotIds listed amount
    rw [List.map_map] at once
    rw [if_pos same, same]
    refine Eq.trans ?_ once
    apply congrArg List.sum
    apply List.map_congr_left
    intro timeslot _
    simp [entry, Pi.single_apply]
  · rw [if_neg same]
    apply List.sum_eq_zero
    intro amount member
    obtain ⟨timeslot, _, equal⟩ := List.mem_map.mp member
    rw [← equal, entry, Pi.single_eq_of_ne (Ne.symm same), Pi.zero_apply]

theorem allTimeslots_amounts_le (nonnegative : schedule.Nonnegative)
    (listed : sec ∈ schedule.classSections)
    (registered : ∀ roomslot ∈ roomslots, roomslot ∈ schedule.roomslots) (category : Nat) :
    allTimeslots schedule category (amounts sec roomslots).sum ≤
      if sec.category = category then (sec.capacity : ℚ) * roomslots.length
      else 0 := by
  have each : ∀ roomslot ∈ roomslots, allTimeslots schedule category
      (entry sec.category (entry roomslot.timeslot.id
        ((min sec.capacity roomslot.room.capacity : ℤ) : ℚ))) ≤
        if sec.category = category then (sec.capacity : ℚ) else 0 := by
    intro roomslot member
    obtain ⟨roomListed, available⟩ := AS_Schedule.mem_roomslots.mp (registered roomslot member)
    have isTimeslot := schedule.timeslotsRegistered _ roomListed _
      (AS_Classroom.timeslot_mem_of_mem available)
    rw [allTimeslots_entry (List.mem_map_of_mem isTimeslot)]
    split
    next => exact (nonnegative.actualCapacity listed (registered roomslot member)).2
    next => exact le_refl _
  rw [map_list_sum, amounts, List.map_map]
  refine (List.sum_le_sum each).trans (le_of_eq ?_)
  rw [List.map_const', List.sum_replicate, nsmul_eq_mul]
  split
  next => exact mul_comm _ _
  next => exact mul_zero _

theorem amounts_nonneg (nonnegative : schedule.Nonnegative)
    (listed : sec ∈ schedule.classSections)
    (registered : ∀ roomslot ∈ roomslots, roomslot ∈ schedule.roomslots) :
    0 ≤ (amounts sec roomslots).sum := by
  apply List.sum_nonneg
  intro amount member
  obtain ⟨roomslot, isRoomslot, same⟩ := List.mem_map.mp member
  have actual := nonnegative.actualCapacity listed (registered roomslot isRoomslot)
  rw [← same]
  exact Pi.single_nonneg.mpr (Pi.single_nonneg.mpr actual.1)

theorem studentClassHours_eq (category : Nat) :
    studentClassHours schedule category = (schedule.classSections.map fun sec =>
      if sec.category = category then
        (sec.capacity : ℚ) * sec.duration else 0).sum := by
  rw [List.sum_map_ite, studentClassHours]
  simp [beq_eq_decide]

/-- The penalties of all categories are in the range, if timeslots last at most an hour and
no section is given more timeslots than it lasts hours. -/
theorem inUnit (populated : schedule.Populated) (nonnegative : schedule.Nonnegative)
    (positive : ∀ category ∈ categories schedule, 0 < studentClassHours schedule category)
    (short : ∀ timeslot ∈ schedule.timeslots, timeslot.duration ≤ 1)
    (few : ∀ sec ∈ schedule.classSections, ∀ start ∈ schedule.roomslots,
      ((getRoomslotsByDuration start sec.duration).length : ℚ) ≤ sec.duration)
    (tidy : Tidy schedule assignments) {total : Nat → Nat → ℚ}
    (built : (CategoryBalanceScorer schedule).updateSchedule assignments =
      (.ok total : Raises (Nat → Nat → ℚ))) :
    InUnit ((CategoryBalanceScorer schedule).scoreSchedule total) := by
  have assigned {sec : AS_ClassSection} (listed : sec ∈ schedule.classSections) :
      ∀ roomslot ∈ assignments.assignedRoomslots sec, roomslot ∈ schedule.roomslots :=
    fun roomslot member => tidy.placed.registered_of_assigned listed member
  have nonneg : 0 ≤ total := by
    rw [RoomslotScorer.eq_tally built]
    exact tally_nonneg fun sec listed =>
      amounts_nonneg nonnegative listed (assigned listed)
  have bounded (category : Nat) :
      (schedule.timeslots.map fun timeslot => total category timeslot.id).sum ≤
        studentClassHours schedule category := by
    change allTimeslots schedule category total ≤ _
    rw [RoomslotScorer.eq_tally built, map_tally, studentClassHours_eq]
    apply tally_le
    intro sec listed
    refine (allTimeslots_amounts_le nonnegative listed (assigned listed) category).trans ?_
    have capacity : (0 : ℚ) ≤ sec.capacity :=
      Int.cast_nonneg (nonnegative.capacity sec listed)
    split
    next =>
      apply mul_le_mul_of_nonneg_left _ capacity
      cases tidy.taken listed with
      | inl unscheduled =>
          rw [unscheduled]
          simpa using nonnegative.duration sec listed
      | inr scheduled =>
          obtain ⟨start, registered, taken⟩ := scheduled
          rw [taken]
          exact few sec listed start registered
    next => exact le_refl _
  obtain ⟨added, computed, addedNonneg, atMost⟩ := totalPenalty_mem populated short
    (fun category timeslotId => nonneg category timeslotId) (categories schedule) positive
    (fun category _ => bounded category) 0
  rw [zero_add] at atMost
  have someCategory : (0 : ℚ) < (categories schedule).length := by
    rw [Nat.cast_pos, List.length_pos_iff]
    obtain ⟨sec, rest, same⟩ := List.exists_cons_of_ne_nil populated.sections
    apply List.ne_nil_of_mem
    · exact List.mem_dedup.mpr (List.mem_map_of_mem (f := AS_ClassSection.category)
        (same ▸ List.mem_cons_self : sec ∈ schedule.classSections))
  obtain ⟨value, divided, least, most⟩ := (inUnit_div someCategory addedNonneg atMost).complement
  refine ⟨value, bind_eq_ok.mpr ⟨added, computed, ?_⟩, least, most⟩
  exact divided

end CategoryBalanceScorer

end Roomslots

end EspWebsite.Autoscheduler
