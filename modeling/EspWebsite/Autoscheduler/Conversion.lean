import EspWebsite.Autoscheduler.Loading

/-!
# Converting a section

When a section is converted, when it is skipped, and when the conversion goes wrong.
-/

namespace EspWebsite.Autoscheduler.DbInterface

open Calendar Python Resources

/-- How a section should be scheduled: in one room that is assigned at each meeting time, at
consecutive times that last as long as the section. -/
structure WellScheduled (duration : Option ℚ) (rooms : List Resource) (times : List Event) :
    Prop where
  oneRoom : ∀ room ∈ rooms, ∀ other ∈ rooms, room.name = other.name
  matching : (rooms.map fun room => room.event.id).Perm (times.map Event.id)
  consecutive : (sortedEvents times).IsChain fun event1 event2 =>
    contiguousEvents event1 event2 = true
  spanning : ∀ first ∈ (sortedEvents times).head?, ∀ last ∈ (sortedEvents times).getLast?,
    ∀ hours ∈ duration, |hoursDifference first.startTime last.endTime - hours| ≤ deltaTime

/-- What the code looks at: rooms and times are as many, several of them start together, in one
room and at consecutive times, and they last as long as the section. -/
structure LooksScheduled (duration : Option ℚ) (rooms : List Resource) (times : List Event) :
    Prop where
  asMany : rooms.length = times.length
  starts : 1 < times.length →
    (rooms.map fun room => room.event.start).Perm (times.map Event.start)
  oneRoom : 1 < times.length → ∀ room ∈ rooms, ∀ other ∈ rooms, room.name = other.name
  consecutive : 1 < times.length → (sortedEvents times).IsChain fun event1 event2 =>
    contiguousEvents event1 event2 = true
  spanning : ∀ first ∈ (sortedEvents times).head?, ∀ last ∈ (sortedEvents times).getLast?,
    ∀ hours ∈ duration, |hoursDifference first.startTime last.endTime - hours| ≤ deltaTime

namespace Rows

variable (rows : Rows) (filters : Filters)

def classroomsOf (sec : ClassSection) : List Resource :=
  rows.resources.filter fun resource => resource.isClassroom &&
    rows.resourceAssignments.any fun row =>
      decide (row.resource = resource.id) && decide (row.target = some sec.id)

def lastTarget (resource : ℕ) : Option (Option ℕ) :=
  (rows.resourceAssignments.reverse.find? fun row => row.resource = resource).map
    ResourceAssignment.target

/-- A classroom is free, or it was assigned last to a section that is loaded and looks as if it
were scheduled. -/
def Usable (classroom : Resource) : Prop :=
  ∀ target ∈ rows.lastTarget classroom.id, ∃ sec ∈ rows.sections filters, target = some sec.id ∧
    LooksScheduled sec.duration (rows.roomsBySection filters sec) sec.meetingTimes

structure HasRoomslot (timeslots : List AS_Timeslot) (classroom : Resource) : Prop where
  usable : ∃ other ∈ rows.getClassrooms, other.name = classroom.name ∧
    timesOf other.event = timesOf classroom.event ∧ rows.Usable filters other
  timeslot : ∃ timeslot ∈ timeslotDict timeslots (timesOf classroom.event),
    timeslot.id = classroom.event.id

/-- A section is converted as it is scheduled: it is skipped exactly if it is not scheduled as it
should be, and otherwise it gets its teachers and the roomslots of its meeting times. -/
structure ConvertsAsScheduled (rooms : List AS_Classroom) (sec : ClassSection) : Prop where
  checked : ∃ satisfied, rows.satisfiesConstraints filters sec = .ok satisfied ∧
    (satisfied = true ↔ WellScheduled sec.duration (rows.classroomsOf sec) sec.meetingTimes)
  skipped : ¬ WellScheduled sec.duration (rows.classroomsOf sec) sec.meetingTimes →
    rows.convertClassectionObj filters rooms sec = .ok none
  converted : WellScheduled sec.duration (rows.classroomsOf sec) sec.meetingTimes →
    ∃ asSection, rows.convertClassectionObj filters rooms sec = .ok (some asSection) ∧
      asSection.teachers = sec.parentClass.teachers.map some ∧
      (asSection.assignedRoomslots.map fun roomslot => roomslot.timeslot.id).Perm
        (sec.meetingTimes.map Event.id) ∧
      ∀ roomslot ∈ asSection.assignedRoomslots, ∀ classroom ∈ rows.classroomsOf sec,
        roomslot.room.name = String.ofList classroom.name

/-- When a section is converted as it is scheduled. -/
structure Convertible (timeslots : List AS_Timeslot) (sec : ClassSection) : Prop where
  duration : WellScheduled sec.duration (rows.classroomsOf sec) sec.meetingTimes →
    sec.duration.isSome = true
  teachers : WellScheduled sec.duration (rows.classroomsOf sec) sec.meetingTimes →
    sec.parentClass.teachers ≠ []
  kept : WellScheduled sec.duration (rows.classroomsOf sec) sec.meetingTimes →
    ∀ classroom ∈ rows.classroomsOf sec,
      rows.sectionsByResource filters classroom.id = some sec.id
  roomslots : WellScheduled sec.duration (rows.classroomsOf sec) sec.meetingTimes →
    ∀ classroom ∈ rows.classroomsOf sec, rows.HasRoomslot filters timeslots classroom
  noticed : ¬ WellScheduled sec.duration (rows.classroomsOf sec) sec.meetingTimes →
    ¬ LooksScheduled sec.duration (rows.roomsBySection filters sec) sec.meetingTimes

end Rows

/-! ## The check -/

section Check

variable {duration : Option ℚ} {rooms : List Resource} {times : List Event}

theorem perm_sortedEvents (times : List Event) : (sortedEvents times).Perm times :=
  List.perm_insertionSort _ times

theorem perm_sortedRooms (rooms : List Resource) : (sortedRooms rooms).Perm rooms :=
  List.perm_insertionSort _ rooms

theorem sorted_starts (times : List Event) :
    ((sortedEvents times).map Event.start).Pairwise (· ≤ ·) := by
  refine List.pairwise_map.mpr ?_
  have _ : Std.Total fun event other : Event => event.start ≤ other.start :=
    ⟨fun event other => Nat.le_total event.start other.start⟩
  have _ : IsTrans Event fun event other => event.start ≤ other.start :=
    ⟨fun _ _ _ => Nat.le_trans⟩
  exact List.pairwise_insertionSort _ times

theorem sorted_roomStarts (rooms : List Resource) :
    ((sortedRooms rooms).map fun room => room.event.start).Pairwise (· ≤ ·) := by
  refine List.pairwise_map.mpr ?_
  have _ : Std.Total fun room other : Resource => room.event.start ≤ other.event.start :=
    ⟨fun room other => Nat.le_total room.event.start other.event.start⟩
  have _ : IsTrans Resource fun room other => room.event.start ≤ other.event.start :=
    ⟨fun _ _ _ => Nat.le_trans⟩
  exact List.pairwise_insertionSort _ rooms

theorem starts_eq_iff :
    (sortedRooms rooms).map (fun room => room.event.start) = (sortedEvents times).map Event.start ↔
      (rooms.map fun room => room.event.start).Perm (times.map Event.start) := by
  have roomsPerm := (perm_sortedRooms rooms).map fun room => room.event.start
  have timesPerm := (perm_sortedEvents times).map Event.start
  constructor
  · intro same
    rw [same] at roomsPerm
    exact roomsPerm.symm.trans timesPerm
  · intro perm
    exact List.Perm.eq_of_pairwise (fun _ _ _ _ => Nat.le_antisymm) (sorted_roomStarts rooms)
      (sorted_starts times) ((roomsPerm.trans perm).trans timesPerm.symm)

theorem isChain_names :
    (sortedRooms rooms).IsChain (fun room other => room.name = other.name) ↔
      ∀ room ∈ rooms, ∀ other ∈ rooms, room.name = other.name := by
  have _ : IsTrans Resource fun room other => room.name = other.name := ⟨fun _ _ _ => Eq.trans⟩
  have _ : Std.Symm fun room other : Resource => room.name = other.name :=
    ⟨fun _ _ => Eq.symm⟩
  rw [List.isChain_iff_pairwise, (perm_sortedRooms rooms).pairwise_iff fun same => same.symm]
  constructor
  · intro pairwise room isRoom other isOther
    exact List.Pairwise.forall_of_forall (R := fun room other : Resource => room.name = other.name)
      (fun _ _ => rfl) pairwise isRoom isOther
  · intro all
    exact List.Pairwise.imp_of_mem (fun isRoom isOther _ => all _ isRoom _ isOther)
      (List.pairwise_of_forall fun _ _ => trivial : rooms.Pairwise fun _ _ => True)

theorem adjacentAgree_cons_cons {room1 room2 : Resource} {time1 time2 : Event}
    {rest : List (Resource × Event)} :
    adjacentAgree ((room1, time1) :: (room2, time2) :: rest) = true ↔
      contiguousEvents time1 time2 = true ∧ room1.event.start = time1.start ∧
        room2.event.start = time2.start ∧ room1.name = room2.name ∧
        adjacentAgree ((room2, time2) :: rest) = true := by
  rw [adjacentAgree]
  cases contiguousEvents time1 time2 with
  | false => simp
  | true =>
      by_cases starts : room1.event.start = time1.start ∧ room2.event.start = time2.start
      · by_cases names : room1.name = room2.name
        · simp [starts, names]
        · simp [starts, names]
      · rw [not_and_or] at starts
        rw [if_neg (by simp), if_pos starts]
        exact iff_of_false Bool.false_ne_true fun all => starts.elim (absurd all.2.1)
          (absurd all.2.2.1)

theorem adjacentAgree_iff {classrooms : List Resource} {meetingTimes : List Event}
    (asMany : classrooms.length = meetingTimes.length) :
    adjacentAgree (classrooms.zip meetingTimes) = true ↔
      (1 < meetingTimes.length →
        classrooms.map (fun room => room.event.start) = meetingTimes.map Event.start ∧
          classrooms.IsChain (fun room other => room.name = other.name) ∧
          meetingTimes.IsChain fun event1 event2 => contiguousEvents event1 event2 = true) := by
  induction classrooms generalizing meetingTimes with
  | nil =>
      cases meetingTimes with
      | nil => simp [adjacentAgree]
      | cons time rest => cases asMany
  | cons room1 rooms ih =>
      cases meetingTimes with
      | nil => cases asMany
      | cons time1 times =>
          have rest := ih (Nat.succ.inj asMany)
          match rooms, times, asMany with
          | [], [], _ => simp [adjacentAgree]
          | [room2], [time2], _ =>
              rw [List.zip_cons_cons, List.zip_cons_cons, adjacentAgree_cons_cons]
              simp only [List.map_cons, List.map_nil, List.isChain_cons_cons,
                List.cons.injEq, List.isChain_singleton, and_true]
              constructor
              · intro all _
                exact ⟨⟨all.2.1, all.2.2.1⟩, all.2.2.2.1, all.1⟩
              · intro all
                have both := all (Nat.lt_succ_self 1)
                exact ⟨both.2.2, both.1.1, both.1.2, both.2.1, rfl⟩
          | room2 :: room3 :: rooms, time2 :: time3 :: times, _ =>
              simp only [List.zip_cons_cons] at rest
              rw [List.zip_cons_cons, List.zip_cons_cons, List.zip_cons_cons,
                adjacentAgree_cons_cons, rest]
              simp only [List.map_cons, List.isChain_cons_cons, List.cons.injEq, List.length_cons,
                Nat.lt_add_left_iff_pos, Nat.succ_pos, true_imp_iff]
              constructor
              · intro all
                exact ⟨⟨all.2.1, all.2.2.2.2.1⟩, ⟨all.2.2.2.1, all.2.2.2.2.2.1⟩,
                  all.1, all.2.2.2.2.2.2⟩
              · intro all
                exact ⟨all.2.2.1, all.1.1, all.1.2.1, all.2.1.1, all.1.2, all.2.1.2, all.2.2.2⟩

theorem looksScheduled_iff :
    LooksScheduled duration rooms times ↔
      (sortedRooms rooms).length = (sortedEvents times).length ∧
        adjacentAgree ((sortedRooms rooms).zip (sortedEvents times)) = true ∧
        ∀ first ∈ (sortedEvents times).head?, ∀ last ∈ (sortedEvents times).getLast?,
          ∀ hours ∈ duration, |hoursDifference first.startTime last.endTime - hours| ≤
            deltaTime := by
  have roomsLength := (perm_sortedRooms rooms).length_eq
  have timesLength := (perm_sortedEvents times).length_eq
  constructor
  · intro looks
    have asMany : (sortedRooms rooms).length = (sortedEvents times).length := by
      rw [roomsLength, timesLength, looks.asMany]
    refine ⟨asMany, (adjacentAgree_iff asMany).mpr fun several => ?_, looks.spanning⟩
    rw [timesLength] at several
    exact ⟨starts_eq_iff.mpr (looks.starts several), isChain_names.mpr (looks.oneRoom several),
      looks.consecutive several⟩
  · intro all
    rcases all with ⟨asMany, agree, spanning⟩
    rw [adjacentAgree_iff asMany, timesLength] at agree
    exact {
      asMany := by rw [← roomsLength, asMany, timesLength]
      starts := fun several => starts_eq_iff.mp (agree several).1
      oneRoom := fun several => isChain_names.mp (agree several).2.1
      consecutive := fun several => (agree several).2.2
      spanning := spanning }

theorem satisfiesDuration_eq_false {meetingTimes : List Event} :
    satisfiesDuration duration meetingTimes = .ok false ↔
      ¬ ∀ first ∈ meetingTimes.head?, ∀ last ∈ meetingTimes.getLast?,
        ∀ hours ∈ duration, |hoursDifference first.startTime last.endTime - hours| ≤ deltaTime := by
  cases meetingTimes with
  | nil => simp [satisfiesDuration]
  | cons first rest =>
      cases duration with
      | none => simp [satisfiesDuration]
      | some hours => simp [satisfiesDuration, List.getLast?_eq_some_getLast]

theorem satisfiesDuration_eq_true {meetingTimes : List Event} :
    satisfiesDuration duration meetingTimes = .ok true ↔
      (∀ first ∈ meetingTimes.head?, ∀ last ∈ meetingTimes.getLast?,
        ∀ hours ∈ duration, |hoursDifference first.startTime last.endTime - hours| ≤ deltaTime) ∧
      (meetingTimes = [] ∨ duration.isSome = true) := by
  cases meetingTimes with
  | nil => simp [satisfiesDuration]
  | cons first rest =>
      cases duration with
      | none => simp [satisfiesDuration]
      | some hours => simp [satisfiesDuration, List.getLast?_eq_some_getLast]

theorem sectionSatisfiesConstraints_eq_false :
    sectionSatisfiesConstraints duration rooms times = .ok false ↔
      ¬ LooksScheduled duration rooms times := by
  rw [looksScheduled_iff, sectionSatisfiesConstraints]
  by_cases asMany : (sortedRooms rooms).length = (sortedEvents times).length
  · rw [if_neg (not_not_intro asMany)]
    cases agree : adjacentAgree ((sortedRooms rooms).zip (sortedEvents times)) with
    | false => simp
    | true =>
        rw [if_neg Bool.true_eq_false.mp, satisfiesDuration_eq_false]
        exact not_congr ⟨fun spanning => ⟨asMany, rfl, spanning⟩, fun all => all.2.2⟩
  · rw [if_pos asMany]
    exact iff_of_true rfl fun all => asMany all.1

theorem sectionSatisfiesConstraints_eq_true :
    sectionSatisfiesConstraints duration rooms times = .ok true ↔
      LooksScheduled duration rooms times ∧ (times = [] ∨ duration.isSome = true) := by
  have empty : times = [] ↔ sortedEvents times = [] := by
    rw [← List.length_eq_zero_iff, ← List.length_eq_zero_iff, (perm_sortedEvents times).length_eq]
  rw [looksScheduled_iff, sectionSatisfiesConstraints, empty]
  by_cases asMany : (sortedRooms rooms).length = (sortedEvents times).length
  · rw [if_neg (not_not_intro asMany)]
    cases agree : adjacentAgree ((sortedRooms rooms).zip (sortedEvents times)) with
    | false => simp
    | true =>
        rw [if_neg Bool.true_eq_false.mp, satisfiesDuration_eq_true]
        exact and_congr_left' ⟨fun spanning => ⟨asMany, rfl, spanning⟩, fun all => all.2.2⟩
  · rw [if_pos asMany]
    exact iff_of_false (by simp) fun all => asMany all.1.1

theorem WellScheduled.looksScheduled (scheduled : WellScheduled duration rooms times)
    (starts : (rooms.map fun room => room.event.start).Perm (times.map Event.start)) :
    LooksScheduled duration rooms times where
  asMany := by
    have same := scheduled.matching.length_eq
    rw [List.length_map, List.length_map] at same
    exact same
  starts := fun _ => starts
  oneRoom := fun _ => scheduled.oneRoom
  consecutive := fun _ => scheduled.consecutive
  spanning := scheduled.spanning

end Check

/-! ## Classrooms -/

namespace Rows

variable {rows : Rows} {filters : Filters} {sec other : ClassSection}
  {classroom room : Resource} {timeslots : List AS_Timeslot}

theorem assignmentsDict_eq (assignments : List ((List Char × ℕ) × Option ℕ))
    (key : List Char × ℕ) :
    assignmentsDict assignments key =
      ((assignments.reverse.find? fun row => row.1 = key).map Prod.snd).toList := by
  induction assignments using List.reverseRecOn with
  | nil => rfl
  | append_singleton rest row ih =>
      rw [assignmentsDict] at ih ⊢
      rw [List.foldl_append, List.foldl_cons, List.foldl_nil, List.reverse_append,
        List.reverse_singleton, List.singleton_append, List.find?_cons]
      by_cases same : row.1 = key
      · rw [same, Function.update_self, decide_eq_true rfl]
        rfl
      · rw [Function.update_of_ne (Ne.symm same), ih, decide_eq_false same]

def DistinctClassrooms (rows : Rows) : Prop :=
  ∀ room ∈ rows.resources, ∀ other ∈ rows.resources, room.isClassroom = true →
    other.isClassroom = true → room.name = other.name → room.event = other.event → room = other

theorem resource_eq (isRoom : room ∈ rows.resources) (isOther : classroom ∈ rows.resources)
    (same : room.id = classroom.id) : room = classroom :=
  List.inj_on_of_nodup_map rows.resourceIds isRoom isOther same

theorem event_eq {event other : Event} (isEvent : event ∈ rows.events)
    (isOther : other ∈ rows.events) (same : event.id = other.id) : event = other :=
  List.inj_on_of_nodup_map rows.eventIds isEvent isOther same

theorem mem_sections_ids (isSection : sec ∈ rows.sections filters)
    (isOther : other ∈ rows.sections filters) (same : sec.id = other.id) : sec = other :=
  List.inj_on_of_nodup_map rows.sectionIds (List.mem_of_mem_filter isSection)
    (List.mem_of_mem_filter isOther) same

theorem knownSection_eq_some {id : ℕ} :
    rows.knownSection filters id = some sec ↔ sec ∈ rows.sections filters ∧ sec.id = id := by
  constructor
  · intro found
    have same := List.find?_some found
    exact ⟨List.mem_of_find?_eq_some found, of_decide_eq_true same⟩
  · intro both
    cases found : rows.knownSection filters id with
    | none =>
        have missing := List.find?_eq_none.mp found sec both.1
        exact absurd (decide_eq_true both.2) missing
    | some other =>
        have isOther := List.mem_of_find?_eq_some found
        have same := List.find?_some found
        rw [mem_sections_ids isOther both.1 ((of_decide_eq_true same).trans both.2.symm)]

theorem mem_getClassrooms : classroom ∈ rows.getClassrooms ↔ classroom ∈ rows.resources ∧
    classroom.event.program = some rows.program ∧ classroom.isClassroom = true := by
  rw [getClassrooms, List.mem_insertionSort, List.mem_filter, Bool.and_eq_true,
    decide_eq_true_eq]

theorem assignmentsDict_classroom (distinct : rows.DistinctClassrooms)
    (isClassroom : classroom ∈ rows.getClassrooms) :
    assignmentsDict (rows.allAssignments rows.getClassrooms)
      (classroom.name, classroom.event.id) = (rows.lastTarget classroom.id).toList := by
  rw [assignmentsDict_eq, allAssignments, ← List.filterMap_reverse, List.find?_filterMap,
    lastTarget]
  congr 1
  have whose : ∀ row : ResourceAssignment,
      (((rows.getClassrooms.find? fun classroom => classroom.id = row.resource).map
        fun classroom => ((classroom.name, classroom.event.id), row.target)).any
          fun row => row.1 = (classroom.name, classroom.event.id)) =
        decide (row.resource = classroom.id) := by
    intro row
    rw [Bool.eq_iff_iff, Option.any_eq_true, decide_eq_true_eq]
    constructor
    · intro found
      rcases found with ⟨entry, isEntry, named⟩
      rcases Option.map_eq_some_iff.mp isEntry with ⟨other, isFound, rfl⟩
      have isOther := mem_getClassrooms.mp (List.mem_of_find?_eq_some isFound)
      have whole := mem_getClassrooms.mp isClassroom
      rw [decide_eq_true_eq, Prod.mk.injEq] at named
      have same := distinct other isOther.1 classroom whole.1 isOther.2.2 whole.2.2 named.1
        (event_eq (rows.resourceEvents other isOther.1) (rows.resourceEvents classroom whole.1)
          named.2)
      have sameId := List.find?_some isFound
      rw [← same]
      exact (of_decide_eq_true sameId).symm
    · intro same
      cases isFound : rows.getClassrooms.find? fun classroom => classroom.id = row.resource with
      | none =>
          have missing := List.find?_eq_none.mp isFound classroom isClassroom
          exact absurd (decide_eq_true same.symm) missing
      | some other =>
          have isOther := mem_getClassrooms.mp (List.mem_of_find?_eq_some isFound)
          have sameId := List.find?_some isFound
          rw [resource_eq isOther.1 (mem_getClassrooms.mp isClassroom).1
            ((of_decide_eq_true sameId).trans same)]
          exact ⟨_, rfl, decide_eq_true rfl⟩
  simp only [whose]
  cases isLast : rows.resourceAssignments.reverse.find? fun row => row.resource = classroom.id with
  | none => rfl
  | some row =>
      have same := List.find?_some isLast
      have entry := (whose row).trans same
      rcases (Option.any_eq_true _ _).mp entry with ⟨pair, isPair, _⟩
      rcases Option.map_eq_some_iff.mp isPair with ⟨other, isFound, _⟩
      rw [Option.bind_some, isFound]
      rfl

theorem usable_iff {isUnavailable : Bool}
    (returns : rows.unavailable filters classroom (rows.lastTarget classroom.id).toList =
      .ok isUnavailable) : isUnavailable = false ↔ rows.Usable filters classroom := by
  rw [Usable]
  cases isLast : rows.lastTarget classroom.id with
  | none =>
      rw [isLast] at returns
      rw [← Except.ok.inj returns]
      exact iff_of_true rfl fun target isTarget => nomatch isTarget
  | some target =>
      rw [isLast, Option.toList_some, unavailable] at returns
      have only : ∀ P : Option ℕ → Prop, (∀ other ∈ some target, P other) ↔ P target := by
        intro P
        exact ⟨fun all => all target rfl,
          fun holds other isOther => Option.some.inj isOther ▸ holds⟩
      rw [only]
      cases isKnown : target.bind (rows.knownSection filters) with
      | none =>
          rw [isKnown] at returns
          rw [← Except.ok.inj returns]
          refine iff_of_false Bool.true_eq_false.mp fun known => ?_
          rcases known with ⟨sec, isSection, rfl, _⟩
          rw [Option.bind_some, knownSection_eq_some.mpr ⟨isSection, rfl⟩] at isKnown
          cases isKnown
      | some sec =>
          rw [isKnown] at returns
          rcases Option.bind_eq_some_iff.mp isKnown with ⟨id, rfl, isFound⟩
          rcases knownSection_eq_some.mp isFound with ⟨isSection, rfl⟩
          rcases map_eq_ok.mp returns with ⟨satisfied, checked, rfl⟩
          rw [satisfiesConstraints] at checked
          cases satisfied with
          | false =>
              have unscheduled := sectionSatisfiesConstraints_eq_false.mp checked
              refine iff_of_false Bool.true_eq_false.mp fun known => ?_
              rcases known with ⟨other, isOther, same, scheduled⟩
              rw [mem_sections_ids isOther isSection (Option.some.inj same).symm] at scheduled
              exact unscheduled scheduled
          | true =>
              have scheduled := (sectionSatisfiesConstraints_eq_true.mp checked).1
              exact iff_of_true rfl ⟨sec, isSection, rfl, scheduled⟩

/-! ## Rooms -/

section Rooms

variable {infos result : List ClassroomInfo} {name : List Char} {slot timeslot : AS_Timeslot}
  {dict : List Char × ℕ → List (Option ℕ)} {classrooms : List Resource}
  {rooms : List AS_Classroom} {roomslot : AS_RoomSlot}

theorem timeslotDict_eq_some {times : DateTime × DateTime}
    (found : timeslotDict timeslots times = some timeslot) :
    timeslot ∈ timeslots ∧ timeslot.times = times := by
  have same := List.find?_some found
  exact ⟨List.mem_reverse.mp (List.mem_of_find?_eq_some found), of_decide_eq_true same⟩

/-- `classroom_info_dict` has a timeslot for a room name. -/
def HasTimeslot (infos : List ClassroomInfo) (name : List Char) (slot : AS_Timeslot) : Prop :=
  ∃ info ∈ infos, info.name = name ∧ slot ∈ info.timeslots

theorem hasTimeslot_cons {info : ClassroomInfo} :
    HasTimeslot (info :: infos) name slot ↔
      (info.name = name ∧ slot ∈ info.timeslots) ∨ HasTimeslot infos name slot := by
  rw [HasTimeslot, HasTimeslot, List.exists_mem_cons_iff]

theorem hasTimeslot_addTimeslot :
    HasTimeslot (rows.addTimeslot classroom timeslot infos) name slot ↔
      HasTimeslot infos name slot ∨ (classroom.name = name ∧ slot = timeslot) := by
  induction infos with
  | nil => simp [addTimeslot, HasTimeslot]
  | cons info rest ih =>
      rw [addTimeslot]
      by_cases same : info.name = classroom.name
      · rw [if_pos same, hasTimeslot_cons, hasTimeslot_cons, List.mem_append, List.mem_singleton,
          and_or_left, or_right_comm, same]
      · rw [if_neg same, hasTimeslot_cons, hasTimeslot_cons, ih, or_assoc]

theorem mem_names_addTimeslot :
    name ∈ (rows.addTimeslot classroom timeslot infos).map ClassroomInfo.name ↔
      name ∈ infos.map ClassroomInfo.name ∨ name = classroom.name := by
  induction infos with
  | nil => simp [addTimeslot]
  | cons info rest ih =>
      rw [addTimeslot]
      by_cases same : info.name = classroom.name
      · rw [if_pos same, List.map_cons, same, ← same]
        exact (or_iff_left_of_imp fun isName => isName ▸ List.mem_cons_self).symm
      · rw [if_neg same, List.map_cons, List.map_cons, List.mem_cons, List.mem_cons, ih, or_assoc]

theorem nodup_addTimeslot (distinct : (infos.map ClassroomInfo.name).Nodup) :
    ((rows.addTimeslot classroom timeslot infos).map ClassroomInfo.name).Nodup := by
  induction infos with
  | nil => exact List.nodup_singleton _
  | cons info rest ih =>
      rw [List.map_cons, List.nodup_cons] at distinct
      rw [addTimeslot]
      by_cases same : info.name = classroom.name
      · rw [if_pos same]
        exact List.nodup_cons.mpr distinct
      · rw [if_neg same, List.map_cons, List.nodup_cons, mem_names_addTimeslot]
        exact ⟨fun either => either.elim distinct.1 same, ih distinct.2⟩

theorem classroomInfos_eq_ok
    (returns : rows.classroomInfos filters timeslots dict classrooms infos = .ok result) :
    ((infos.map ClassroomInfo.name).Nodup → (result.map ClassroomInfo.name).Nodup) ∧
      (∀ classroom ∈ classrooms, ∃ isUnavailable,
        rows.unavailable filters classroom (dict (classroom.name, classroom.event.id)) =
          .ok isUnavailable ∧
        (isUnavailable = false → (timeslotDict timeslots (timesOf classroom.event)).isSome)) ∧
      ∀ name slot, HasTimeslot result name slot ↔ HasTimeslot infos name slot ∨
        ∃ classroom ∈ classrooms, classroom.name = name ∧
          rows.unavailable filters classroom (dict (classroom.name, classroom.event.id)) =
            .ok false ∧
          timeslotDict timeslots (timesOf classroom.event) = some slot := by
  induction classrooms generalizing infos with
  | nil =>
      rw [classroomInfos] at returns
      rw [← Except.ok.inj returns]
      exact ⟨fun distinct => distinct, by simp, by simp⟩
  | cons classroom rest ih =>
      rw [classroomInfos] at returns
      rcases bind_eq_ok.mp returns with ⟨isUnavailable, checked, returns⟩
      cases isUnavailable with
      | true =>
          rw [if_pos rfl] at returns
          rcases ih returns with ⟨names, each, has⟩
          refine ⟨names, List.forall_mem_cons.mpr ⟨⟨true, checked, by simp⟩, each⟩, ?_⟩
          intro name slot
          rw [has, List.exists_mem_cons_iff, checked]
          simp
      | false =>
          rw [if_neg Bool.false_ne_true] at returns
          cases found : timeslotDict timeslots (timesOf classroom.event) with
          | none =>
              rw [found] at returns
              cases returns
          | some timeslot =>
              rw [found] at returns
              rcases ih returns with ⟨names, each, has⟩
              refine ⟨fun distinct => names (nodup_addTimeslot distinct),
                List.forall_mem_cons.mpr ⟨⟨false, checked, by simp [found]⟩, each⟩, ?_⟩
              intro name slot
              rw [has, List.exists_mem_cons_iff, checked, hasTimeslot_addTimeslot, or_assoc, found,
                Option.some.injEq, eq_comm (b := slot)]
              simp

theorem convertClassroomResources_eq_ok (distinct : rows.DistinctClassrooms)
    (returns : rows.convertClassroomResources filters timeslots = .ok rooms) :
    ∃ infos, (infos.map ClassroomInfo.name).Nodup ∧
      List.Forall₂ (fun info room => asClassroom info = .ok room) infos rooms ∧
      (∀ classroom ∈ rows.getClassrooms, rows.Usable filters classroom →
        (timeslotDict timeslots (timesOf classroom.event)).isSome) ∧
      ∀ name slot, HasTimeslot infos name slot ↔ ∃ classroom ∈ rows.getClassrooms,
        classroom.name = name ∧ rows.Usable filters classroom ∧
          timeslotDict timeslots (timesOf classroom.event) = some slot := by
  rcases bind_eq_ok.mp returns with ⟨infos, loop, converted⟩
  rcases classroomInfos_eq_ok loop with ⟨names, each, has⟩
  have available : ∀ classroom ∈ rows.getClassrooms,
      (rows.unavailable filters classroom (assignmentsDict (rows.allAssignments
        rows.getClassrooms) (classroom.name, classroom.event.id)) = .ok false ↔
          rows.Usable filters classroom) := by
    intro classroom isClassroom
    rcases each classroom isClassroom with ⟨isUnavailable, checked, _⟩
    have usable := checked
    rw [assignmentsDict_classroom distinct isClassroom] at usable
    rw [checked, ← usable_iff usable]
    exact ⟨Except.ok.inj, congrArg Except.ok⟩
  refine ⟨infos, names List.nodup_nil, mapM_eq_ok.mp converted, ?_, ?_⟩
  · intro classroom isClassroom usable
    rcases each classroom isClassroom with ⟨isUnavailable, checked, found⟩
    rw [(available classroom isClassroom).mpr usable] at checked
    exact found (Except.ok.inj checked).symm
  · intro name slot
    rw [has]
    constructor
    · intro either
      cases either with
      | inl impossible =>
          rcases impossible with ⟨info, isInfo, _⟩
          cases isInfo
      | inr some =>
          rcases some with ⟨classroom, isClassroom, named, free, found⟩
          exact ⟨classroom, isClassroom, named, (available classroom isClassroom).mp free, found⟩
    · intro some
      rcases some with ⟨classroom, isClassroom, named, usable, found⟩
      exact .inr ⟨classroom, isClassroom, named, (available classroom isClassroom).mpr usable,
        found⟩

theorem asClassroom_eq_ok {info : ClassroomInfo} {asRoom : AS_Classroom}
    (returns : asClassroom info = .ok asRoom) :
    asRoom.name = String.ofList info.name ∧
      ∀ slot, slot ∈ asRoom.timeslots ↔ slot ∈ info.timeslots := by
  rw [asClassroom] at returns
  split at returns
  next sorted =>
    rw [← Except.ok.inj returns]
    exact ⟨rfl, fun slot => List.mem_insertionSort _⟩
  next => cases returns

theorem roomslotOf_eq_ok (returns : roomslotOf rooms classroom = .ok roomslot) :
    ∃ room ∈ rooms, room.name = String.ofList classroom.name ∧ roomslot.room = room ∧
      roomslot.timeslot ∈ room.timeslots ∧ roomslot.timeslot.times = timesOf classroom.event := by
  rw [roomslotOf] at returns
  cases isRoom : rooms.find? fun room => room.name = String.ofList classroom.name with
  | none =>
      rw [isRoom] at returns
      cases returns
  | some room =>
      rw [isRoom] at returns
      dsimp only at returns
      cases isSlot : room.availability.find? fun roomslot =>
          roomslot.timeslot.times = timesOf classroom.event with
      | none =>
          rw [isSlot] at returns
          cases returns
      | some found =>
          rw [isSlot] at returns
          have named := List.find?_some isRoom
          have times := List.find?_some isSlot
          rcases List.mem_map.mp (List.mem_of_find?_eq_some isSlot) with ⟨slot, isTimeslot, rfl⟩
          rw [← Except.ok.inj returns]
          exact ⟨room, List.mem_of_find?_eq_some isRoom, of_decide_eq_true named, rfl, isTimeslot,
            of_decide_eq_true times⟩

theorem exists_roomslotOf (distinct : (rooms.map AS_Classroom.name).Nodup) {asRoom : AS_Classroom}
    (isRoom : asRoom ∈ rooms) (named : asRoom.name = String.ofList classroom.name)
    (isTimeslot : slot ∈ asRoom.timeslots) (times : slot.times = timesOf classroom.event) :
    ∃ roomslot, roomslotOf rooms classroom = .ok roomslot := by
  rw [roomslotOf]
  cases found : rooms.find? fun room => room.name = String.ofList classroom.name with
  | none =>
      have missing := List.find?_eq_none.mp found asRoom isRoom
      exact absurd (decide_eq_true named) missing
  | some other =>
      have sameName := List.find?_some found
      have same : other = asRoom := List.inj_on_of_nodup_map distinct
        (List.mem_of_find?_eq_some found) isRoom ((of_decide_eq_true sameName).trans named.symm)
      rw [same]
      dsimp only
      cases isSlot : asRoom.availability.find? fun roomslot =>
          roomslot.timeslot.times = timesOf classroom.event with
      | none =>
          have missing := List.find?_eq_none.mp isSlot ⟨slot, asRoom⟩
            (List.mem_map.mpr ⟨slot, isTimeslot, rfl⟩)
          exact absurd (decide_eq_true times) missing
      | some roomslot => exact ⟨roomslot, rfl⟩

theorem usable_of_roomslotOf (distinct : rows.DistinctClassrooms)
    (converted : rows.convertClassroomResources filters timeslots = .ok rooms)
    (returns : roomslotOf rooms classroom = .ok roomslot) :
    roomslot.room.name = String.ofList classroom.name ∧
      timeslotDict timeslots (timesOf classroom.event) = some roomslot.timeslot ∧
      ∃ other ∈ rows.getClassrooms, other.name = classroom.name ∧
        timesOf other.event = timesOf classroom.event ∧ rows.Usable filters other := by
  rcases convertClassroomResources_eq_ok distinct converted with ⟨infos, _, each, _, has⟩
  rcases roomslotOf_eq_ok returns with ⟨asRoom, isRoom, named, whose, isTimeslot, times⟩
  rcases exists_of_forall₂ each isRoom with ⟨info, isInfo, isAsRoom⟩
  rcases asClassroom_eq_ok isAsRoom with ⟨infoName, slots⟩
  have sameName : info.name = classroom.name :=
    String.ofList_injective (infoName.symm.trans named)
  rcases (has classroom.name roomslot.timeslot).mp
    ⟨info, isInfo, sameName, (slots _).mp isTimeslot⟩ with ⟨other, isOther, name, usable, found⟩
  have sameTimes := (timeslotDict_eq_some found).2.symm.trans times
  rw [sameTimes] at found
  exact ⟨by rw [whose, named], found, other, isOther, name, sameTimes, usable⟩

theorem exists_roomslotOf_of_usable (distinct : rows.DistinctClassrooms)
    (converted : rows.convertClassroomResources filters timeslots = .ok rooms)
    (isClassroom : room ∈ rows.getClassrooms) (named : room.name = classroom.name)
    (times : timesOf room.event = timesOf classroom.event) (usable : rows.Usable filters room) :
    ∃ roomslot, roomslotOf rooms classroom = .ok roomslot := by
  rcases convertClassroomResources_eq_ok distinct converted with ⟨infos, names, each, found, has⟩
  rcases Option.isSome_iff_exists.mp (found room isClassroom usable) with ⟨slot, isSlot⟩
  rcases (has room.name slot).mpr ⟨room, isClassroom, rfl, usable, isSlot⟩ with
    ⟨info, isInfo, infoName, isTimeslot⟩
  rcases exists_of_forall₂ each.flip isInfo with ⟨asRoom, isRoom, isAsRoom⟩
  rcases asClassroom_eq_ok isAsRoom with ⟨asName, slots⟩
  have sameNames : infos.map (fun info => String.ofList info.name) =
    rooms.map AS_Classroom.name := by
    rw [← List.forall₂_eq_eq_eq, List.forall₂_map_left_iff, List.forall₂_map_right_iff]
    exact each.imp fun info asRoom isAsRoom => (asClassroom_eq_ok isAsRoom).1.symm
  have distinctNames : (rooms.map AS_Classroom.name).Nodup := by
    have mapped := names.map fun _ _ => String.ofList_injective
    rw [List.map_map] at mapped
    rw [← sameNames]
    exact mapped
  exact exists_roomslotOf distinctNames isRoom (by rw [asName, infoName, named])
    ((slots slot).mpr isTimeslot) ((timeslotDict_eq_some isSlot).2.trans times)

end Rooms

/-! ## Sections -/

section Sections

variable {rooms : List AS_Classroom} {asSection : LoadedSection}

theorem convertClassectionObj_eq_none
    (skipped : rows.satisfiesConstraints filters sec = .ok false) :
    rows.convertClassectionObj filters rooms sec = .ok none := by
  rw [convertClassectionObj, skipped]
  rfl

theorem convertClassectionObj_eq_some :
    rows.convertClassectionObj filters rooms sec = .ok (some asSection) ↔
      rows.satisfiesConstraints filters sec = .ok true ∧
      ∃ roomslots, (rows.roomsBySection filters sec).mapM (roomslotOf rooms) = .ok roomslots ∧
      ∃ duration, sec.duration = some duration ∧ asClassSection sec duration roomslots = asSection ∧
        rows.schedulingHashOf filters sec = asSection.initialState := by
  rw [convertClassectionObj]
  constructor
  · intro returns
    rcases bind_eq_ok.mp returns with ⟨satisfied, checked, returns⟩
    cases satisfied with
    | false => cases returns
    | true =>
        rw [if_pos rfl] at returns
        rcases bind_eq_ok.mp returns with ⟨roomslots, found, returns⟩
        refine ⟨checked, roomslots, found, ?_⟩
        cases isDuration : sec.duration with
        | none =>
            rw [isDuration] at returns
            cases returns
        | some duration =>
            rw [isDuration] at returns
            dsimp only at returns
            rw [andThen_eq_ok, assert_eq_ok] at returns
            rw [← Option.some.inj (Except.ok.inj returns.2)]
            exact ⟨duration, rfl, rfl, returns.1⟩
  · intro all
    rcases all with ⟨checked, roomslots, found, duration, isDuration, rfl, same⟩
    rw [checked, ok_bind, if_pos rfl, found, ok_bind, isDuration]
    dsimp only
    rw [assert_of_holds same]
    rfl

theorem mem_classroomsOf (isRoom : room ∈ rows.roomsBySection filters sec) :
    room ∈ rows.classroomsOf sec := by
  rw [roomsBySection, List.mem_filter, decide_eq_true_eq] at isRoom
  rcases Option.bind_eq_some_iff.mp isRoom.2 with ⟨row, isLast, target⟩
  have isRow := List.mem_reverse.mp (List.mem_of_find?_eq_some isLast)
  have holds := List.find?_some isLast
  simp only [Bool.and_eq_true, decide_eq_true_eq, isClassroom, List.any_eq_true] at holds
  rcases holds.1.2 with ⟨other, isOther, same, classroom⟩
  rw [resource_eq isOther isRoom.1 (same.trans holds.1.1)] at classroom
  rw [classroomsOf, List.mem_filter, classroom, Bool.true_and, List.any_eq_true]
  exact ⟨isRoom.1, row, isRow, by rw [holds.1.1, target]; simp⟩

theorem roomsBySection_eq_iff : rows.roomsBySection filters sec = rows.classroomsOf sec ↔
    ∀ classroom ∈ rows.classroomsOf sec,
      rows.sectionsByResource filters classroom.id = some sec.id := by
  constructor
  · intro same classroom isClassroom
    rw [← same, roomsBySection, List.mem_filter] at isClassroom
    exact of_decide_eq_true isClassroom.2
  · intro kept
    refine List.filter_congr fun classroom isRoom => ?_
    rw [Bool.eq_iff_iff]
    constructor
    · intro loaded
      have assigned := mem_classroomsOf (List.mem_filter.mpr ⟨isRoom, loaded⟩)
      exact (List.mem_filter.mp assigned).2
    · intro assigned
      exact decide_eq_true (kept classroom (List.mem_filter.mpr ⟨isRoom, assigned⟩))

theorem kept_of_length
    (same : (rows.roomsBySection filters sec).length = (rows.classroomsOf sec).length) :
    ∀ classroom ∈ rows.classroomsOf sec,
      rows.sectionsByResource filters classroom.id = some sec.id := by
  have among : rows.roomsBySection filters sec = (rows.classroomsOf sec).filter fun classroom =>
      rows.sectionsByResource filters classroom.id = some sec.id := by
    rw [classroomsOf, List.filter_filter]
    refine List.filter_congr fun classroom isRoom => ?_
    rw [Bool.eq_iff_iff, Bool.and_eq_true]
    refine (and_iff_left_of_imp fun loaded => ?_).symm
    have assigned := mem_classroomsOf (List.mem_filter.mpr ⟨isRoom, loaded⟩)
    exact (List.mem_filter.mp assigned).2
  rw [among, List.length_filter_eq_length_iff] at same
  exact fun classroom isClassroom => of_decide_eq_true (same classroom isClassroom)

theorem perm_of_ids {events others : List Event} (ids : (events.map Event.id).Perm
    (others.map Event.id)) (isEvent : ∀ event ∈ events, event ∈ rows.events)
    (isOther : ∀ event ∈ others, event ∈ rows.events) : events.Perm others := by
  have found : ∀ list : List Event, (∀ event ∈ list, event ∈ rows.events) →
      (list.map Event.id).map (fun id => rows.events.find? fun event => event.id = id) =
        list.map some := by
    intro list among
    rw [List.map_map]
    refine List.map_congr_left fun event isMember => ?_
    cases isFound : rows.events.find? fun other => other.id = event.id with
    | none =>
        have missing := List.find?_eq_none.mp isFound event (among event isMember)
        exact absurd (decide_eq_true rfl) missing
    | some other =>
        have same := List.find?_some isFound
        rw [Function.comp_apply, isFound, event_eq (List.mem_of_find?_eq_some isFound)
          (among event isMember) (of_decide_eq_true same)]
  have mapped := ids.map fun id => rows.events.find? fun event => event.id = id
  rw [found events isEvent, found others isOther] at mapped
  exact (List.map_perm_map_iff (Option.some_injective _)).mp mapped

theorem perm_events (isSection : sec ∈ rows.sections filters)
    (scheduled : WellScheduled sec.duration (rows.classroomsOf sec) sec.meetingTimes) :
    ((rows.classroomsOf sec).map Resource.event).Perm sec.meetingTimes := by
  refine @perm_of_ids rows _ _ ?_ ?_
    (rows.meetingEvents sec (List.mem_of_mem_filter isSection))
  · rw [List.map_map]
    exact scheduled.matching
  · intro event isEvent
    rcases List.mem_map.mp isEvent with ⟨classroom, isClassroom, rfl⟩
    exact rows.resourceEvents classroom (List.mem_of_mem_filter isClassroom)

theorem event_of_timeslot (loaded : rows.timeslots = .ok timeslots) {slot : AS_Timeslot}
    (isSlot : slot ∈ timeslots) :
    ∃ event ∈ rows.events, slot.id = event.id ∧ slot.times = timesOf event ∧
      event.program = some rows.program := by
  rcases map_eq_ok.mp loaded with ⟨converted, each, rfl⟩
  rcases exists_of_forall₂ (mapM_eq_ok.mp each) ((List.mem_insertionSort _).mp isSlot) with
    ⟨event, isEvent, isSlot⟩
  rw [getTimeSlots, sortedEvents, List.mem_insertionSort] at isEvent
  rw [convertEvent, andThen_eq_ok, andThen_eq_ok] at isSlot
  have returns := isSlot.2.2
  have program := assert_eq_ok.mp isSlot.1
  split at returns
  next =>
    rw [← Except.ok.inj returns]
    exact ⟨event, List.mem_of_mem_filter isEvent, rfl, rfl, program⟩
  next => cases returns

theorem nodup_starts {times : List Event}
    (consecutive : (sortedEvents times).IsChain fun event1 event2 =>
      contiguousEvents event1 event2 = true)
    (positive : ∀ event ∈ times, event.startTime < event.endTime) :
    (times.map Event.start).Nodup := by
  have later : (sortedEvents times).IsChain fun event1 event2 => event1.start < event2.start := by
    refine consecutive.imp_of_mem_imp fun event1 event2 isEvent _ contiguous => ?_
    rw [contiguousEvents] at contiguous
    split at contiguous
    next => cases contiguous
    next apart =>
      have before := positive event1 ((perm_sortedEvents times).mem_iff.mp isEvent)
      exact Nat.lt_of_lt_of_le (DateTime.lt_iff.mp before)
        (DateTime.le_iff.mp (DateTime.not_lt_iff_le.mp apart))
  have _ : IsTrans Event fun event1 event2 => event1.start < event2.start :=
    ⟨fun _ _ _ => Nat.lt_trans⟩
  rw [← ((perm_sortedEvents times).map Event.start).nodup_iff, List.Nodup, List.pairwise_map]
  exact (List.isChain_iff_pairwise.mp later).imp fun before => Nat.ne_of_lt before

theorem roomslots_of_mapM (distinct : rows.DistinctClassrooms)
    (converted : rows.convertClassroomResources filters timeslots = .ok rooms)
    {classrooms : List Resource} {roomslots : List AS_RoomSlot}
    (found : classrooms.mapM (roomslotOf rooms) = .ok roomslots) :
    roomslots.map (fun roomslot => roomslot.timeslot.times) =
        classrooms.map (fun classroom => timesOf classroom.event) ∧
      roomslots.map (fun roomslot => roomslot.room.name) =
        classrooms.map (fun classroom => String.ofList classroom.name) ∧
      ∀ classroom ∈ classrooms, ∃ roomslot ∈ roomslots,
        timeslotDict timeslots (timesOf classroom.event) = some roomslot.timeslot ∧
        ∃ other ∈ rows.getClassrooms, other.name = classroom.name ∧
          timesOf other.event = timesOf classroom.event ∧ rows.Usable filters other := by
  have each := mapM_eq_ok.mp found
  refine ⟨?_, ?_, ?_⟩
  · rw [← List.forall₂_eq_eq_eq, List.forall₂_map_left_iff, List.forall₂_map_right_iff]
    refine each.flip.imp fun roomslot classroom returns => ?_
    exact (timeslotDict_eq_some (usable_of_roomslotOf distinct converted returns).2.1).2
  · rw [← List.forall₂_eq_eq_eq, List.forall₂_map_left_iff, List.forall₂_map_right_iff]
    refine each.flip.imp fun roomslot classroom returns => ?_
    exact (usable_of_roomslotOf distinct converted returns).1
  · intro classroom isClassroom
    rcases exists_of_forall₂ each.flip isClassroom with ⟨roomslot, isRoomslot, returns⟩
    exact ⟨roomslot, isRoomslot, (usable_of_roomslotOf distinct converted returns).2⟩

theorem perm_assignedRoomslots {duration : ℚ} {roomslots : List AS_RoomSlot} :
    (asClassSection sec duration roomslots).assignedRoomslots.Perm roomslots :=
  List.perm_insertionSort _ roomslots

theorem schedulingHashOf_eq {duration : ℚ} {roomslots : List AS_RoomSlot}
    {classrooms : List Resource} (loaded : rows.roomsBySection filters sec = classrooms)
    (events : (classrooms.map Resource.event).Perm sec.meetingTimes)
    (times : roomslots.map (fun roomslot => roomslot.timeslot.times) =
      classrooms.map fun classroom => timesOf classroom.event)
    (names : roomslots.map (fun roomslot => roomslot.room.name) =
      classrooms.map fun classroom => String.ofList classroom.name) :
    rows.schedulingHashOf filters sec =
      (asClassSection sec duration roomslots).initialState := by
  have sorted : (asClassSection sec duration roomslots).assignedRoomslots.Perm roomslots :=
    perm_assignedRoomslots
  rw [schedulingHashOf, LoadedSection.initialState, loaded]
  refine Prod.ext (Multiset.coe_eq_coe.mpr ?_) ?_
  · have slots := sorted.map fun roomslot => roomslot.timeslot.times
    have meetings := events.map timesOf
    rw [List.map_map] at meetings
    rw [times] at slots
    exact (meetings.symm.trans slots.symm)
  · have slots := sorted.map fun roomslot => roomslot.room.name.toList
    refine Eq.trans ?_ (List.toFinset_eq_of_perm _ _ slots.symm)
    have texts := congrArg (List.map String.toList) names
    rw [List.map_map, List.map_map] at texts
    have same : classrooms.map Resource.name =
        classrooms.map (String.toList ∘ fun classroom => String.ofList classroom.name) :=
      List.map_congr_left fun classroom _ => String.toList_ofList.symm
    rw [same, ← texts]
    rfl

theorem hasRoomslot_of_mapM (distinct : rows.DistinctClassrooms)
    (timeslotsLoaded : rows.timeslots = .ok timeslots)
    (converted : rows.convertClassroomResources filters timeslots = .ok rooms)
    (isSection : sec ∈ rows.sections filters)
    (scheduled : WellScheduled sec.duration (rows.classroomsOf sec) sec.meetingTimes)
    {roomslots : List AS_RoomSlot}
    (found : (rows.classroomsOf sec).mapM (roomslotOf rooms) = .ok roomslots)
    (ids : ∀ roomslot ∈ roomslots, roomslot.timeslot.id ∈ sec.meetingTimes.map Event.id)
    (isClassroom : classroom ∈ rows.classroomsOf sec) :
    rows.HasRoomslot filters timeslots classroom := by
  have events := perm_events isSection scheduled
  have each := (roomslots_of_mapM distinct converted found).2.2
  -- no two meeting times start together
  have starts : ((rows.classroomsOf sec).map fun room => room.event.start).Nodup := by
    have mapped := events.map Event.start
    rw [List.map_map] at mapped
    refine mapped.nodup_iff.mpr (nodup_starts scheduled.consecutive fun event isEvent => ?_)
    rcases List.mem_map.mp (events.mem_iff.mpr isEvent) with ⟨room, isRoom, rfl⟩
    rcases each room isRoom with ⟨slot, _, isTimeslot, _⟩
    have times := (timeslotDict_eq_some isTimeslot).2
    have start : slot.timeslot.startTime = room.event.startTime := congrArg Prod.fst times
    have finish : slot.timeslot.endTime = room.event.endTime := congrArg Prod.snd times
    have long := lt_of_lt_of_le deltaTime_pos slot.timeslot.longEnough
    rw [hoursDifference, DateTime.hoursBetween_pos_iff, start, finish] at long
    exact long
  rcases each classroom isClassroom with ⟨roomslot, isRoomslot, isSlot, usable⟩
  rcases List.mem_map.mp (ids roomslot isRoomslot) with ⟨time, isTime, sameId⟩
  rcases List.mem_map.mp (events.mem_iff.mpr isTime) with ⟨room, isRoom, rfl⟩
  have slot := timeslotDict_eq_some isSlot
  rcases event_of_timeslot timeslotsLoaded slot.1 with
    ⟨event, isEvent, eventId, eventTimes, _⟩
  have sameEvent : room.event = event := event_eq
    (rows.resourceEvents room (List.mem_of_mem_filter isRoom)) isEvent (sameId.trans eventId)
  have sameTimes : timesOf room.event = timesOf classroom.event := by
    rw [sameEvent, ← eventTimes, slot.2]
  have sameStart : room.event.startTime = classroom.event.startTime := congrArg Prod.fst sameTimes
  have same : room = classroom := by
    refine List.inj_on_of_nodup_map starts isRoom isClassroom ?_
    rw [Event.start, Event.start, sameStart]
  refine ⟨usable, roomslot.timeslot, isSlot, ?_⟩
  rw [← sameId, same]

theorem ids_of_mapM (distinct : rows.DistinctClassrooms)
    (converted : rows.convertClassroomResources filters timeslots = .ok rooms)
    {classrooms : List Resource} {roomslots : List AS_RoomSlot}
    (found : classrooms.mapM (roomslotOf rooms) = .ok roomslots)
    (each : ∀ classroom ∈ classrooms, rows.HasRoomslot filters timeslots classroom) :
    roomslots.map (fun roomslot => roomslot.timeslot.id) =
      classrooms.map fun classroom => classroom.event.id := by
  rw [← List.forall₂_eq_eq_eq, List.forall₂_map_left_iff, List.forall₂_map_right_iff]
  have both := List.forall₂_iff_zip.mp (mapM_eq_ok.mp found).flip
  refine List.forall₂_iff_zip.mpr ⟨both.1, fun isPair => ?_⟩
  have isSlot := (usable_of_roomslotOf distinct converted (both.2 isPair)).2.1
  rcases (each _ (List.of_mem_zip isPair).2).timeslot with ⟨timeslot, isTimeslot, sameId⟩
  rw [Option.mem_def, isSlot] at isTimeslot
  rw [Option.some.inj isTimeslot, sameId]

theorem convertsAsScheduled_of_wellScheduled (distinct : rows.DistinctClassrooms)
    (converted : rows.convertClassroomResources filters timeslots = .ok rooms)
    (isSection : sec ∈ rows.sections filters)
    (convertible : rows.Convertible filters timeslots sec)
    (scheduled : WellScheduled sec.duration (rows.classroomsOf sec) sec.meetingTimes) :
    rows.ConvertsAsScheduled filters rooms sec := by
  have loaded := roomsBySection_eq_iff.mpr (convertible.kept scheduled)
  have events := perm_events isSection scheduled
  have starts := events.map Event.start
  rw [List.map_map] at starts
  have looks := scheduled.looksScheduled starts
  have satisfied : rows.satisfiesConstraints filters sec = .ok true := by
    rw [satisfiesConstraints, loaded]
    exact sectionSatisfiesConstraints_eq_true.mpr ⟨looks, .inr (convertible.duration scheduled)⟩
  have available : ∀ classroom ∈ rows.classroomsOf sec,
      ∃ roomslot, roomslotOf rooms classroom = .ok roomslot := by
    intro classroom isClassroom
    rcases (convertible.roomslots scheduled classroom isClassroom).usable with
      ⟨other, isOther, named, times, usable⟩
    exact exists_roomslotOf_of_usable distinct converted isOther named times usable
  rcases exists_mapM available with ⟨roomslots, found⟩
  rcases Option.isSome_iff_exists.mp (convertible.duration scheduled) with ⟨duration, isDuration⟩
  rcases roomslots_of_mapM distinct converted found with ⟨times, names, each⟩
  refine ⟨⟨true, satisfied, iff_of_true rfl scheduled⟩, fun not => absurd scheduled not,
    fun _ => ⟨asClassSection sec duration roomslots, ?_, ?_, ?_, ?_⟩⟩
  · exact convertClassectionObj_eq_some.mpr ⟨satisfied, roomslots, by rw [loaded, found],
      duration, isDuration, rfl, schedulingHashOf_eq loaded events times names⟩
  · have some := convertible.teachers scheduled
    cases teachers : sec.parentClass.teachers with
    | nil => exact absurd teachers some
    | cons first rest => simp only [asClassSection, teacherKeys, teachers]
  · have sorted : (asClassSection sec duration roomslots).assignedRoomslots.Perm roomslots :=
      perm_assignedRoomslots
    have assigned := sorted.map fun roomslot => roomslot.timeslot.id
    rw [ids_of_mapM distinct converted found (convertible.roomslots scheduled)] at assigned
    exact assigned.trans scheduled.matching
  · intro roomslot isRoomslot classroom isClassroom
    have isName : roomslot.room.name ∈ roomslots.map fun roomslot => roomslot.room.name :=
      List.mem_map.mpr ⟨roomslot, perm_assignedRoomslots.mem_iff.mp isRoomslot, rfl⟩
    rw [names] at isName
    rcases List.mem_map.mp isName with ⟨room, isRoom, sameName⟩
    rw [← sameName, scheduled.oneRoom room isRoom classroom isClassroom]

theorem convertible_of_wellScheduled (distinct : rows.DistinctClassrooms)
    (timeslotsLoaded : rows.timeslots = .ok timeslots)
    (converted : rows.convertClassroomResources filters timeslots = .ok rooms)
    (isSection : sec ∈ rows.sections filters)
    (converts : rows.ConvertsAsScheduled filters rooms sec)
    (scheduled : WellScheduled sec.duration (rows.classroomsOf sec) sec.meetingTimes) :
    rows.Convertible filters timeslots sec := by
  rcases converts.converted scheduled with ⟨asSection, returns, teachers, ids, _⟩
  rcases convertClassectionObj_eq_some.mp returns with
    ⟨satisfied, roomslots, found, duration, isDuration, rfl, _⟩
  have looks := (sectionSatisfiesConstraints_eq_true.mp satisfied).1
  have length : (rows.roomsBySection filters sec).length = (rows.classroomsOf sec).length := by
    rw [looks.asMany, ← (perm_events isSection scheduled).length_eq, List.length_map]
  have kept := kept_of_length length
  rw [roomsBySection_eq_iff.mpr kept] at found
  exact {
    duration := fun _ => by rw [isDuration]; rfl
    teachers := by
      intro _ noTeachers
      simp only [asClassSection, teacherKeys, noTeachers] at teachers
      cases teachers
    kept := fun _ => kept
    roomslots := by
      intro _ classroom isClassroom
      refine hasRoomslot_of_mapM distinct timeslotsLoaded converted isSection scheduled found
        (fun roomslot isRoomslot => ?_) isClassroom
      exact ids.mem_iff.mp (List.mem_map.mpr
        ⟨roomslot, perm_assignedRoomslots.mem_iff.mpr isRoomslot, rfl⟩)
    noticed := fun not => absurd scheduled not }

/-- A section is converted as it is scheduled under exactly these conditions. -/
theorem convertsAsScheduled_iff (distinct : rows.DistinctClassrooms)
    (timeslotsLoaded : rows.timeslots = .ok timeslots)
    (converted : rows.convertClassroomResources filters timeslots = .ok rooms)
    (isSection : sec ∈ rows.sections filters) :
    rows.ConvertsAsScheduled filters rooms sec ↔ rows.Convertible filters timeslots sec := by
  by_cases scheduled : WellScheduled sec.duration (rows.classroomsOf sec) sec.meetingTimes
  · constructor
    · intro converts
      exact convertible_of_wellScheduled distinct timeslotsLoaded converted isSection converts
        scheduled
    · intro convertible
      exact convertsAsScheduled_of_wellScheduled distinct converted isSection convertible scheduled
  · constructor
    · intro converts
      rcases converts.checked with ⟨satisfied, checked, satisfiedIff⟩
      rw [Bool.eq_false_iff.mpr fun isTrue => scheduled (satisfiedIff.mp isTrue)] at checked
      have unnoticed := sectionSatisfiesConstraints_eq_false.mp checked
      exact ⟨fun not => absurd not scheduled, fun not => absurd not scheduled,
        fun not => absurd not scheduled, fun not => absurd not scheduled, fun _ => unnoticed⟩
    · intro convertible
      have failed := sectionSatisfiesConstraints_eq_false.mpr (convertible.noticed scheduled)
      exact ⟨⟨false, failed, iff_of_false Bool.false_ne_true scheduled⟩,
        fun _ => convertClassectionObj_eq_none failed, fun not => absurd not scheduled⟩

/-! ## One section and one classroom -/

def hourAt (id hour : ℕ) (valid : hour < 23) : Event :=
  ⟨id, some 1,
    ⟨2026, 2, 1, hour, 0, 0, 0, by decide, by decide, by decide, by omega, by decide⟩,
    ⟨2026, 2, 1, hour + 1, 0, 0, 0, by decide, by decide, by decide, by omega, by decide⟩⟩

theorem nine_valid : 9 < 23 := by decide

def morningSection : ClassSection where
  id := 5
  parentClass := ⟨4, 1, 0, false, [3], 7, 12, none, by simp⟩
  status := 10
  duration := some 1
  maxClassCapacity := some 20
  meetingTimes := [hourAt 1 9 (by decide)]
  resourceRequests := []
  distinctTimes := by simp

/-- The section has a classroom at nine or at ten. -/
def morningRows (late : Bool) : Rows where
  program := 1
  events := [hourAt 1 9 (by decide), hourAt 2 10 (by decide)]
  isClassTimeBlock := fun _ => true
  resources := [⟨6, ['r'], true, none,
    if late then hourAt 2 10 (by decide) else hourAt 1 9 (by decide)⟩]
  numStudents := fun _ => 20
  asResourceType := fun _ => ⟨0, "", ""⟩
  resourceAssignments := [⟨6, some 5, 0⟩]
  classSections := [morningSection]
  openClassRegistration := false
  openClassCategory := 0
  lockedSections := []
  hasAvailabilityModule := false
  userAvailabilities := []
  administrators := []
  emailcode := fun _ => "M4s1"
  eventIds := by decide
  resourceIds := by simp
  sectionIds := by simp
  resourceEvents := by cases late <;> simp
  meetingEvents := by simp [morningSection]
  availabilityEvents := by simp

/-- No filter. -/
def loadAll : Filters := ⟨false, false, false, false, false⟩

theorem distinctClassrooms_morningRows (late : Bool) : (morningRows late).DistinctClassrooms := by
  intro room isRoom other isOther _ _ _ _
  exact (List.mem_singleton.mp isRoom).trans (List.mem_singleton.mp isOther).symm

/-- A section with a classroom at nine. -/
theorem convertsAsScheduled_iff_morning :
    ∃ timeslots rooms, (morningRows false).timeslots = .ok timeslots ∧
      (morningRows false).convertClassroomResources loadAll timeslots = .ok rooms ∧
      ((morningRows false).ConvertsAsScheduled loadAll rooms morningSection ↔
        (morningRows false).Convertible loadAll timeslots morningSection) := by
  have isOk : ((morningRows false).timeslots >>= fun timeslots =>
      (morningRows false).convertClassroomResources loadAll timeslots).isOk = true := by
    decide +kernel
  rcases exists_of_isOk isOk with ⟨rooms, returns⟩
  rcases bind_eq_ok.mp returns with ⟨timeslots, loaded, converted⟩
  exact ⟨timeslots, rooms, loaded, converted, convertsAsScheduled_iff
    (distinctClassrooms_morningRows false) loaded converted
      (by simp [sections, loadAll, morningRows,
      morningSection])⟩

/-- A section that meets at nine and has a classroom at ten is not skipped. -/
theorem not_convertsAsScheduled_late :
    (morningRows true).DistinctClassrooms ∧
      morningSection ∈ (morningRows true).sections loadAll ∧
      ∃ timeslots rooms, (morningRows true).timeslots = .ok timeslots ∧
        (morningRows true).convertClassroomResources loadAll timeslots = .ok rooms ∧
        ¬ (morningRows true).ConvertsAsScheduled loadAll rooms morningSection := by
  have isOk : ((morningRows true).timeslots >>= fun timeslots =>
      (morningRows true).convertClassroomResources loadAll timeslots).isOk = true := by
    decide +kernel
  have satisfied : (morningRows true).satisfiesConstraints loadAll morningSection = .ok true := by
    decide +kernel
  rcases exists_of_isOk isOk with ⟨rooms, returns⟩
  rcases bind_eq_ok.mp returns with ⟨timeslots, loaded, converted⟩
  refine ⟨distinctClassrooms_morningRows true, by simp [sections, loadAll, morningRows,
    morningSection], timeslots, rooms, loaded, converted, fun converts => ?_⟩
  rcases converts.checked with ⟨checked, isChecked, scheduledIff⟩
  rw [satisfied] at isChecked
  have scheduled := scheduledIff.mp (Except.ok.inj isChecked).symm
  exact absurd scheduled.matching (by decide)

end Sections

end Rows

end EspWebsite.Autoscheduler.DbInterface
