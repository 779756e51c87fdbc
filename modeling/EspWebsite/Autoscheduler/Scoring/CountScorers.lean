import EspWebsite.Autoscheduler.Scoring.Laws

/-!
# Scorers that count

The scorers of how many sections, subjects and teachers are scheduled.  Their hooks
assert that a count is positive before it is decreased.
-/

namespace EspWebsite.Autoscheduler

open Python Tally

variable (schedule : AS_Schedule)

/-- Schedules as many sections as possible. -/
def NumSectionsScorer : Scorer schedule where
  State := Nat
  scaling := 1
  updateSchedule assignments :=
    .ok (schedule.classSections.map fun sec =>
      if assignments.isScheduled sec then 1 else 0).sum
  scoreSchedule scheduledSections := div scheduledSections schedule.classSections.length
  updateScheduleSection _ _ _ scheduledSections := .ok (scheduledSections + 1)
  updateMoveSection _ _ _ scheduledSections := .ok scheduledSections
  updateUnscheduleSection _ _ scheduledSections := do
    assert (scheduledSections > 0) ""
    return scheduledSections - 1
  updateSwapSections _ _ _ scheduledSections := .ok scheduledSections

/-- How many scheduled sections there are for each key, and how many keys have some. -/
structure CountState where
  numScheduledSections : Nat → Nat
  scheduled : Nat

namespace CountScorer

/-- `num_scheduled_sections[key] += 1` for each key, counting the keys that become
scheduled. -/
def addKeys : List Nat → CountState → CountState
  | [], state => state
  | key :: rest, state =>
      let numScheduledSections := Function.update state.numScheduledSections key
        (state.numScheduledSections key + 1)
      addKeys rest ⟨numScheduledSections,
        if numScheduledSections key = 1 then state.scheduled + 1 else state.scheduled⟩

/-- `num_scheduled_sections[key] -= 1` for each key, counting the keys that are no longer
scheduled. -/
def removeKeys : List Nat → CountState → Raises CountState
  | [], state => .ok state
  | key :: rest, state => do
      assert (state.numScheduledSections key > 0) ""
      let numScheduledSections := Function.update state.numScheduledSections key
        (state.numScheduledSections key - 1)
      removeKeys rest ⟨numScheduledSections,
        if numScheduledSections key = 0 then state.scheduled - 1 else state.scheduled⟩

/-- The loop of `update_schedule` that counts the scheduled sections of each key. -/
def countSections (keys : AS_ClassSection → List Nat) (assignments : Assignments) :
    List AS_ClassSection → (Nat → Nat) → Nat → Nat
  | [], numScheduledSections => numScheduledSections
  | sec :: rest, numScheduledSections =>
      countSections keys assignments rest
        (if assignments.isScheduled sec then
          (keys sec).foldl (fun num key => Function.update num key (num key + 1))
            numScheduledSections
        else numScheduledSections)

def numScheduled (allKeys : List Nat) (numScheduledSections : Nat → Nat) : Nat :=
  (allKeys.map fun key => if numScheduledSections key > 0 then 1 else 0).sum

end CountScorer

/-- A scorer of how many of the keys have a scheduled section. -/
def CountScorer (keys : AS_ClassSection → List Nat) (allKeys : List Nat) :
    Scorer schedule where
  State := CountState
  scaling := resultOr 1 (div allKeys.length schedule.classSections.length)
  updateSchedule assignments := do
    let numScheduledSections :=
      CountScorer.countSections keys assignments schedule.classSections fun _ => 0
    let _ ← div allKeys.length schedule.classSections.length
    return ⟨numScheduledSections, CountScorer.numScheduled allKeys numScheduledSections⟩
  scoreSchedule state := div state.scheduled allKeys.length
  updateScheduleSection _ sec _ state :=
    .ok (CountScorer.addKeys (keys sec) state)
  updateMoveSection _ _ _ state := .ok state
  updateUnscheduleSection _ sec state :=
    CountScorer.removeKeys (keys sec) state
  updateSwapSections _ _ _ state := .ok state

/-- Schedules as many unique classes as possible. -/
def NumSubjectsScorer : Scorer schedule :=
  CountScorer schedule (fun sec => [sec.parentClass])
    (schedule.classSections.map AS_ClassSection.parentClass).dedup

/-- Schedules as many distinct teachers' classes as possible. -/
def NumTeachersScorer : Scorer schedule :=
  CountScorer schedule (fun sec => sec.teachers.map AS_Teacher.id)
    (schedule.teachers.map AS_Teacher.id)

/-! ## The laws -/

section Laws

variable {schedule} {assignments : Assignments}

def scheduledValue {Value : Type} [Zero Value] (value : AS_ClassSection → Value)
    (sec : AS_ClassSection) (roomslots : List AS_RoomSlot) : Value :=
  if roomslots = [] then 0 else value sec

theorem scheduledValue_nil {Value : Type} [Zero Value] (value : AS_ClassSection → Value)
    (sec : AS_ClassSection) : scheduledValue value sec [] = 0 :=
  if_pos rfl

theorem scheduledValue_of_ne_nil {Value : Type} [Zero Value]
    (value : AS_ClassSection → Value) {sec : AS_ClassSection}
    {roomslots : List AS_RoomSlot} (scheduled : roomslots ≠ []) :
    scheduledValue value sec roomslots = value sec :=
  if_neg scheduled

def Change.gained {Value : Type} [Zero Value] (value : AS_ClassSection → Value) :
    Change → Value
  | .schedule sec _ => value sec
  | .move _ _ | .unschedule _ | .swap _ _ => 0

def Change.lost {Value : Type} [Zero Value] (value : AS_ClassSection → Value) :
    Change → Value
  | .unschedule sec => value sec
  | .schedule _ _ | .move _ _ | .swap _ _ => 0

theorem tally_scheduled {Value : Type} [AddCommMonoid Value]
    (value : AS_ClassSection → Value) {change : Change}
    (registered : change.Registered schedule) (possible : change.Possible assignments) :
    ∃ rest,
      tally schedule.classSections (scheduledValue value) assignments.assignedRoomslots =
          rest + change.lost value ∧
        tally schedule.classSections (scheduledValue value)
            (change.apply assignments).assignedRoomslots =
          rest + change.gained value := by
  have nodup : schedule.classSections.Nodup := schedule.sectionIds.of_map
  have split : ∀ sec ∈ schedule.classSections, ∃ rest, ∀ roomslots,
      tally schedule.classSections (scheduledValue value)
          (Function.update assignments.assignedRoomslots sec roomslots) =
        rest + scheduledValue value sec roomslots :=
    fun sec listed => exists_rest nodup listed
  cases change with
  | schedule sec startRoomslot =>
      obtain ⟨listed, startRegistered⟩ := registered
      obtain ⟨rest, changed⟩ := split sec listed
      have unchanged := changed (assignments.assignedRoomslots sec)
      rw [Function.update_eq_self, possible.1, scheduledValue_nil] at unchanged
      refine ⟨rest, unchanged, (changed _).trans ?_⟩
      rw [scheduledValue_of_ne_nil value (Change.run_ne_nil startRegistered), Change.gained]
  | unschedule sec =>
      obtain ⟨rest, changed⟩ := split sec registered
      have unchanged := changed (assignments.assignedRoomslots sec)
      rw [Function.update_eq_self, scheduledValue_of_ne_nil value possible] at unchanged
      refine ⟨rest, unchanged, (changed _).trans ?_⟩
      rw [scheduledValue_nil, Change.gained]
  | move sec startRoomslot =>
      obtain ⟨listed, startRegistered⟩ := registered
      refine ⟨_, (add_zero _).symm, ?_⟩
      rw [Change.assignedRoomslots_apply_move, Change.gained, add_zero]
      apply tally_update_of_eq nodup listed
      rw [scheduledValue_of_ne_nil value possible.1,
        scheduledValue_of_ne_nil value (Change.run_ne_nil startRegistered)]
  | swap section1 section2 =>
      obtain ⟨listed1, listed2⟩ := registered
      obtain ⟨held1, held2, different⟩ := possible
      refine ⟨_, (add_zero _).symm, ?_⟩
      rw [Change.assignedRoomslots_apply_swap different, Change.gained, add_zero,
        tally_update_of_eq nodup listed2, tally_update_of_eq nodup listed1]
      · rw [scheduledValue_of_ne_nil value held1, scheduledValue_of_ne_nil value held2]
      · rw [Function.update_of_ne different.symm, scheduledValue_of_ne_nil value held1,
          scheduledValue_of_ne_nil value held2]

namespace NumSectionsScorer

theorem updateSchedule_eq :
    (NumSectionsScorer schedule).updateSchedule assignments =
      (.ok (tally schedule.classSections (scheduledValue fun _ => 1)
        assignments.assignedRoomslots) : Raises Nat) := by
  apply congrArg Except.ok
  apply congrArg List.sum
  apply List.map_congr_left
  intro sec _
  rw [Assignments.isScheduled, scheduledValue]
  cases assignments.assignedRoomslots sec <;> simp

theorem unconditional : Unconditional (NumSectionsScorer schedule) := by
  intro assignments change state placed registered possible built
  obtain ⟨rest, before, after⟩ :=
    tally_scheduled (fun _ => (1 : Nat)) registered possible
  rw [updateSchedule_eq, before] at built
  cases Except.ok.inj built
  rw [updateSchedule_eq, after]
  cases change with
  | schedule sec startRoomslot => exact ⟨_, rfl, rfl⟩
  | move sec startRoomslot => exact ⟨_, rfl, rfl⟩
  | unschedule sec =>
      refine ⟨rest, ?_, rfl⟩
      have positive : rest + 1 > 0 := Nat.succ_pos rest
      simp only [Change.updateScorer, NumSectionsScorer, Change.lost]
      rw [assert_of_holds positive]
      rfl
  | swap section1 section2 => exact ⟨_, rfl, rfl⟩

end NumSectionsScorer

namespace CountScorer

variable {keys : AS_ClassSection → List Nat} {allKeys : List Nat}

/-- How often each key is listed. -/
def occurrences (values : List Nat) : Nat → Nat :=
  fun key => values.count key

/-- The state with the given counts. -/
def summary (allKeys : List Nat) (numScheduledSections : Nat → Nat) : CountState :=
  ⟨numScheduledSections, numScheduled allKeys numScheduledSections⟩

theorem occurrences_nil : occurrences [] = 0 := rfl

theorem occurrences_cons (key : Nat) (rest : List Nat) :
    occurrences (key :: rest) = Pi.single key 1 + occurrences rest := by
  funext other
  simp only [occurrences, Pi.add_apply]
  by_cases same : key = other
  · subst same
    simp [add_comm]
  · simp [same, Ne.symm same]

theorem increment_eq (num : Nat → Nat) (key : Nat) :
    Function.update num key (num key + 1) = num + Pi.single key 1 := by
  funext other
  by_cases same : other = key
  · subst same
    simp
  · simp [same]

theorem numScheduled_increment (nodup : allKeys.Nodup) {key : Nat} (listed : key ∈ allKeys)
    (num : Nat → Nat) :
    numScheduled allKeys (num + Pi.single key 1) =
      if num key = 0 then numScheduled allKeys num + 1 else numScheduled allKeys num := by
  obtain ⟨rest, changed⟩ : ∃ rest, ∀ count,
      tally allKeys (fun _ count => if count > 0 then 1 else 0)
          (Function.update num key count) = rest + if count > 0 then 1 else 0 :=
    exists_rest nodup listed
  have unchanged := changed (num key)
  rw [Function.update_eq_self] at unchanged
  have incremented := changed (num key + 1)
  rw [increment_eq] at incremented
  rw [numScheduled, numScheduled]
  rw [tally] at unchanged incremented
  rw [unchanged, incremented]
  by_cases none : num key = 0 <;> simp [none, Nat.pos_of_ne_zero]

theorem addKeys_summary (nodup : allKeys.Nodup) {values : List Nat}
    (listed : ∀ key ∈ values, key ∈ allKeys) (num : Nat → Nat) :
    addKeys values (summary allKeys num) = summary allKeys (num + occurrences values) := by
  induction values generalizing num with
  | nil => rw [addKeys, occurrences_nil, add_zero]
  | cons key rest ih =>
      have keyListed := listed key List.mem_cons_self
      have restListed : ∀ other ∈ rest, other ∈ allKeys :=
        fun other member => listed other (List.mem_cons_of_mem _ member)
      rw [occurrences_cons, ← add_assoc, ← ih restListed, addKeys]
      have incremented := numScheduled_increment nodup keyListed num
      simp only [summary, increment_eq, incremented, Pi.add_apply, Pi.single_eq_same,
        Nat.add_eq_right]

theorem removeKeys_summary (nodup : allKeys.Nodup) {values : List Nat}
    (listed : ∀ key ∈ values, key ∈ allKeys) (num : Nat → Nat) :
    removeKeys values (summary allKeys (num + occurrences values)) =
      .ok (summary allKeys num) := by
  induction values generalizing num with
  | nil => rw [removeKeys, occurrences_nil, add_zero]
  | cons key rest ih =>
      have keyListed := listed key List.mem_cons_self
      have restListed : ∀ other ∈ rest, other ∈ allKeys :=
        fun other member => listed other (List.mem_cons_of_mem _ member)
      have positive : (summary allKeys
          (num + occurrences (key :: rest))).numScheduledSections key > 0 := by
        simp [summary, occurrences_cons]
      have split : num + occurrences (key :: rest) =
          num + occurrences rest + Pi.single key 1 := by
        rw [occurrences_cons]
        abel
      have decrement : Function.update (num + occurrences (key :: rest)) key
          ((num + occurrences (key :: rest)) key - 1) = num + occurrences rest := by
        rw [split]
        funext other
        by_cases same : other = key
        · subst same
          simp
        · simp [same]
      have incremented := numScheduled_increment nodup keyListed (num + occurrences rest)
      rw [← split] at incremented
      have scheduledLeft : (if (num + occurrences rest) key = 0 then
            numScheduled allKeys (num + occurrences (key :: rest)) - 1
          else numScheduled allKeys (num + occurrences (key :: rest))) =
            numScheduled allKeys (num + occurrences rest) := by
        rw [incremented]
        by_cases none : (num + occurrences rest) key = 0
        · rw [if_pos none, if_pos none, Nat.add_sub_cancel]
        · rw [if_neg none, if_neg none]
      rw [removeKeys, assert_of_holds positive, ok_bind]
      simp only [summary, decrement, scheduledLeft]
      exact ih restListed num

theorem countSections_eq (classSections : List AS_ClassSection) (num : Nat → Nat) :
    countSections keys assignments classSections num =
      num + tally classSections
        (scheduledValue fun sec => occurrences (keys sec))
        assignments.assignedRoomslots := by
  have foldl_eq : ∀ (values : List Nat) (num : Nat → Nat),
      values.foldl (fun num key => Function.update num key (num key + 1)) num =
        num + occurrences values := by
    intro values
    induction values with
    | nil => simp [occurrences_nil]
    | cons key rest ih =>
        intro num
        rw [List.foldl_cons, ih, increment_eq, occurrences_cons, add_assoc]
  induction classSections generalizing num with
  | nil => simp [countSections, tally]
  | cons sec rest ih =>
      rw [countSections, ih, tally_cons, ← add_assoc]
      congr 1
      rw [Assignments.isScheduled, scheduledValue]
      cases assignments.assignedRoomslots sec <;> simp [foldl_eq]

/-- The counts follow the schedule, if the keys of its sections are among all keys. -/
theorem unconditional (nodup : allKeys.Nodup)
    (listed : ∀ sec ∈ schedule.classSections, ∀ key ∈ keys sec,
      key ∈ allKeys) :
    Unconditional (CountScorer schedule keys allKeys) := by
  intro assignments change state placed registered possible built
  obtain ⟨rest, before, after⟩ := tally_scheduled
    (fun sec => occurrences (keys sec)) registered possible
  have built_eq : ∀ assignments, (CountScorer schedule keys allKeys).updateSchedule
      assignments = (do
        let _ ← div allKeys.length schedule.classSections.length
        return summary allKeys (tally schedule.classSections
          (scheduledValue fun sec => occurrences (keys sec))
          assignments.assignedRoomslots)) := by
    intro assignments
    simp only [CountScorer, countSections_eq]
    have zero_add_eq : ∀ num : Nat → Nat, (fun _ => 0) + num = num := fun num => zero_add num
    rw [zero_add_eq]
    rfl
  rw [built_eq, before] at built
  obtain ⟨scaling, divided, same⟩ := bind_eq_ok.mp built
  cases Except.ok.inj same
  rw [built_eq, after, divided]
  cases change with
  | schedule sec startRoomslot =>
      refine ⟨_, ?_, rfl⟩
      have added := addKeys_summary nodup (listed sec registered.1) rest
      simp only [Change.updateScorer, CountScorer, Change.lost, Change.gained, add_zero, added]
  | move sec startRoomslot => exact ⟨_, rfl, rfl⟩
  | unschedule sec =>
      refine ⟨_, ?_, rfl⟩
      have removed := removeKeys_summary nodup (listed sec registered) rest
      simp only [Change.updateScorer, CountScorer, Change.lost, Change.gained, add_zero,
        removed]
  | swap section1 section2 => exact ⟨_, rfl, rfl⟩

end CountScorer

theorem NumSubjectsScorer.unconditional : Unconditional (NumSubjectsScorer schedule) := by
  apply CountScorer.unconditional (List.nodup_dedup _)
  intro sec listed key member
  rw [List.mem_singleton.mp member, List.mem_dedup]
  exact List.mem_map_of_mem listed

theorem NumTeachersScorer.unconditional : Unconditional (NumTeachersScorer schedule) := by
  apply CountScorer.unconditional schedule.teacherIds
  intro sec listed key member
  obtain ⟨teacher, teaches, rfl⟩ := List.mem_map.mp member
  exact List.mem_map_of_mem (schedule.teachersRegistered sec listed teacher teaches)

end Laws

end EspWebsite.Autoscheduler
