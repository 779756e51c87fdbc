import EspWebsite.Autoscheduler.Scoring.Laws

/-!
# The scorer of room consecutivity

`RoomConsecutivityScorer` counts the complete boundaries of the scheduled sections: no
roomslot is before or after, or another section is there.
-/

namespace EspWebsite.Autoscheduler

open Python Tally

namespace RoomConsecutivityScorer

def boundaryCompleteBefore (assignments : Assignments) (roomslot : AS_RoomSlot)
    (ignoreSection : Option AS_ClassSection) : Bool :=
  let startIdx := roomslot.index
  if startIdx > 0 then
    match roomslot.room.availability[startIdx - 1]? with
    | none => true
    | some prevRoomslot =>
        let assignedSection := assignments.assignedSection prevRoomslot
        (assignedSection != none && assignedSection != ignoreSection) ||
          !contiguous prevRoomslot.timeslot roomslot.timeslot
  else true

def boundaryCompleteAfter (assignments : Assignments) (roomslot : AS_RoomSlot)
    (ignoreSection : Option AS_ClassSection) (avoidDoublecount : Bool) : Bool :=
  match roomslot.next with
  | none => true
  | some nextRoomslot =>
      let assignedSection := assignments.assignedSection nextRoomslot
      (!avoidDoublecount && assignedSection != none && assignedSection != ignoreSection) ||
        !contiguous roomslot.timeslot nextRoomslot.timeslot

/-- The complete boundaries of a section at the given roomslots; both ends are read from
the list. -/
def completeBoundaries (assignments : Assignments) (roomslots : List AS_RoomSlot)
    (ignoreSection : Option AS_ClassSection) (avoidDoublecount : Bool) : Raises ℚ := do
  let firstRoomslot ← first roomslots
  let lastRoomslot ← last roomslots
  let before := boundaryCompleteBefore assignments firstRoomslot ignoreSection
  let after := boundaryCompleteAfter assignments lastRoomslot ignoreSection avoidDoublecount
  return (if before then 1 else 0) + (if after then 1 else 0)

/-- The loop of `update_schedule` over the sections. -/
def countBoundaries (assignments : Assignments) : List AS_ClassSection → ℚ → Raises ℚ
  | [], total => .ok total
  | sec :: rest, total =>
      if assignments.isScheduled sec then do
        let boundaries ← completeBoundaries assignments
          (assignments.assignedRoomslots sec) none true
        countBoundaries assignments rest (total + boundaries)
      else countBoundaries assignments rest total

end RoomConsecutivityScorer

/-- Schedules classes consecutively in classrooms. -/
def RoomConsecutivityScorer (schedule : AS_Schedule) : Scorer schedule where
  State := ℚ
  scaling := 1
  updateSchedule assignments :=
    RoomConsecutivityScorer.countBoundaries assignments schedule.classSections 0
  scoreSchedule completeBoundaries := do
    let perSection ← div completeBoundaries schedule.classSections.length
    return perSection / 2
  updateScheduleSection assignments sec startRoomslot total := do
    let roomslots := getRoomslotsByDuration startRoomslot sec.duration
    let boundaries ← RoomConsecutivityScorer.completeBoundaries assignments roomslots none
      false
    return total + boundaries
  updateUnscheduleSection assignments sec total := do
    let roomslots := assignments.assignedRoomslots sec
    let boundaries ← RoomConsecutivityScorer.completeBoundaries assignments roomslots none
      false
    return total - boundaries
  updateMoveSection assignments sec startRoomslot total := do
    let roomslots := assignments.assignedRoomslots sec
    let boundaries ← RoomConsecutivityScorer.completeBoundaries assignments roomslots none
      false
    let roomslots := getRoomslotsByDuration startRoomslot sec.duration
    let newBoundaries ← RoomConsecutivityScorer.completeBoundaries assignments roomslots
      (some sec) false
    return total - boundaries + newBoundaries
  updateSwapSections _ _ _ total := .ok total

/-! ## Neighbours in a room -/

namespace AS_RoomSlot

/-- The roomslots stand one after the other in the second one's room, without a gap. -/
def Joins (left right : AS_RoomSlot) : Prop :=
  NoGap left right ∧
    ∃ before after, right.room.availability = before ++ left :: right :: after

variable {left right : AS_RoomSlot}

theorem Joins.left_mem (joins : left.Joins right) : left ∈ right.room.availability := by
  obtain ⟨-, before, after, split⟩ := joins
  simp [split]

theorem Joins.right_mem (joins : left.Joins right) : right ∈ right.room.availability := by
  obtain ⟨-, before, after, split⟩ := joins
  simp [split]

theorem Joins.sameRoom (joins : left.Joins right) : left.room = right.room :=
  AS_Classroom.room_eq_of_mem joins.left_mem

/-- What stands right before a roomslot does not depend on how the room is split. -/
theorem previous_unique {roomslot : AS_RoomSlot}
    {before otherBefore after otherAfter : List AS_RoomSlot}
    (split : roomslot.room.availability = before ++ left :: roomslot :: after)
    (otherSplit : roomslot.room.availability =
      otherBefore ++ right :: roomslot :: otherAfter) : left = right := by
  have splitLeft : roomslot.room.availability = (before ++ [left]) ++ roomslot :: after := by
    rw [split]
    simp
  have splitRight : roomslot.room.availability =
      (otherBefore ++ [right]) ++ roomslot :: otherAfter := by
    rw [otherSplit]
    simp
  have sameLength := (index_eq splitLeft).symm.trans (index_eq splitRight)
  rw [splitLeft] at splitRight
  have heads := (List.append_inj splitRight sameLength).1
  simpa using (List.append_inj' heads rfl).2

/-- What stands right after a roomslot does not depend on how the room is split. -/
theorem following_unique {roomslot : AS_RoomSlot}
    {before otherBefore after otherAfter : List AS_RoomSlot}
    (split : roomslot.room.availability = before ++ roomslot :: after)
    (otherSplit : roomslot.room.availability = otherBefore ++ roomslot :: otherAfter) :
    after = otherAfter := by
  rw [← drop_index_succ split, drop_index_succ otherSplit]

theorem Joins.left_unique (joins : left.Joins right) {other : AS_RoomSlot}
    (otherJoins : other.Joins right) : left = other := by
  obtain ⟨-, before, after, split⟩ := joins
  obtain ⟨-, otherBefore, otherAfter, otherSplit⟩ := otherJoins
  exact previous_unique split otherSplit

theorem Joins.right_unique (joins : left.Joins right) {other : AS_RoomSlot}
    (otherJoins : left.Joins other) : right = other := by
  have sameRoom := joins.sameRoom
  have otherRoom := otherJoins.sameRoom
  obtain ⟨-, before, after, split⟩ := joins
  obtain ⟨-, otherBefore, otherAfter, otherSplit⟩ := otherJoins
  rw [← sameRoom] at split
  rw [← otherRoom] at otherSplit
  exact (List.cons.inj (following_unique split otherSplit)).1

end AS_RoomSlot

namespace RoomConsecutivityScorer

open AS_RoomSlot

variable {schedule : AS_Schedule} {assignments : Assignments} {roomslot : AS_RoomSlot}
  {ignoreSection : Option AS_ClassSection}

theorem boundaryCompleteBefore_iff (member : roomslot ∈ roomslot.room.availability) :
    boundaryCompleteBefore assignments roomslot ignoreSection = true ↔
      ∀ left : AS_RoomSlot, left.Joins roomslot →
        assignments.assignedSection left ≠ none ∧
          assignments.assignedSection left ≠ ignoreSection := by
  obtain ⟨before, after, split⟩ := List.append_of_mem member
  rw [boundaryCompleteBefore, index_eq split]
  rcases List.eq_nil_or_concat before with empty | ⟨earlier, previous, last⟩
  · -- Nothing is before the first roomslot of a room.
    subst empty
    simp only [List.length_nil, gt_iff_lt, lt_self_iff_false, if_false, true_iff]
    intro left joins
    exfalso
    obtain ⟨-, before, otherAfter, otherSplit⟩ := joins
    have splitLeft : roomslot.room.availability =
        (before ++ [left]) ++ roomslot :: otherAfter := by
      rw [otherSplit]
      simp
    have sameLength := (index_eq split).symm.trans (index_eq splitLeft)
    simp at sameLength
  · rw [List.concat_eq_append] at last
    subst last
    have splitPrevious : roomslot.room.availability =
        earlier ++ previous :: roomslot :: after := by
      rw [split]
      simp
    have found : roomslot.room.availability[(earlier ++ [previous]).length - 1]? =
        some previous := by
      rw [split]
      simp
    have positive : (earlier ++ [previous]).length > 0 := by simp
    simp only [found, if_pos positive, Bool.or_eq_true, Bool.and_eq_true, bne_iff_ne,
      Bool.not_eq_true']
    by_cases noGap : contiguous previous.timeslot roomslot.timeslot = true
    · have joins : previous.Joins roomslot := ⟨noGap, earlier, after, splitPrevious⟩
      simp only [noGap, Bool.true_eq_false, or_false]
      constructor
      · intro complete left leftJoins
        rwa [leftJoins.left_unique joins]
      · intro complete
        exact complete previous joins
    · rw [Bool.not_eq_true] at noGap
      simp only [noGap, or_true, true_iff]
      intro left joins
      exfalso
      obtain ⟨leftNoGap, before, otherAfter, otherSplit⟩ := joins
      rw [previous_unique splitPrevious otherSplit] at noGap
      rw [NoGap, noGap] at leftNoGap
      cases leftNoGap

theorem boundaryCompleteAfter_iff (member : roomslot ∈ roomslot.room.availability)
    {avoidDoublecount : Bool} :
    boundaryCompleteAfter assignments roomslot ignoreSection avoidDoublecount = true ↔
      ∀ right : AS_RoomSlot, roomslot.Joins right →
        avoidDoublecount = false ∧ assignments.assignedSection right ≠ none ∧
          assignments.assignedSection right ≠ ignoreSection := by
  obtain ⟨before, after, split⟩ := List.append_of_mem member
  rw [boundaryCompleteAfter, next_eq split]
  cases after with
  | nil =>
      simp only [List.head?_nil, true_iff]
      intro right joins
      exfalso
      have sameRoom := joins.sameRoom
      obtain ⟨-, otherBefore, otherAfter, otherSplit⟩ := joins
      rw [← sameRoom] at otherSplit
      cases following_unique split otherSplit
  | cons following after =>
      simp only [List.head?_cons, Bool.or_eq_true, Bool.and_eq_true, bne_iff_ne,
        Bool.not_eq_true', and_assoc]
      by_cases noGap : contiguous roomslot.timeslot following.timeslot = true
      · have followingRoom : following.room = roomslot.room :=
          AS_Classroom.room_eq_of_mem (by simp [split])
        have joins : roomslot.Joins following := ⟨noGap, before, after, by
          rw [followingRoom, split]⟩
        simp only [noGap, Bool.true_eq_false, or_false]
        constructor
        · intro complete right rightJoins
          rwa [rightJoins.right_unique joins]
        · intro complete
          exact complete following joins
      · rw [Bool.not_eq_true] at noGap
        simp only [noGap, or_true, true_iff]
        intro right joins
        exfalso
        have sameRoom := joins.sameRoom
        obtain ⟨rightNoGap, otherBefore, otherAfter, otherSplit⟩ := joins
        rw [← sameRoom] at otherSplit
        have sameFollowing := (List.cons.inj (following_unique split otherSplit)).1
        rw [sameFollowing] at noGap
        rw [NoGap, noGap] at rightNoGap
        cases rightNoGap

/-! ## The ends of a run -/

section Ends

variable {room : AS_Classroom} {first left right : AS_RoomSlot} {rest run : List AS_RoomSlot}
  {sec : AS_ClassSection}

/-- The last roomslot of a run that starts with the given one. -/
def lastOf (first : AS_RoomSlot) (rest : List AS_RoomSlot) : AS_RoomSlot :=
  (first :: rest).getLast (List.cons_ne_nil _ _)

theorem lastOf_mem : lastOf first rest ∈ first :: rest := List.getLast_mem _

theorem notMem_of_joins_first (isRun : first :: rest <:+: room.availability)
    (joins : left.Joins first) : left ∉ first :: rest := by
  obtain ⟨before, after, split⟩ := isRun
  have member : first ∈ room.availability := by simp [← split]
  rw [← AS_Classroom.room_eq_of_mem member] at split
  obtain ⟨-, otherBefore, otherAfter, otherSplit⟩ := joins
  have splitFirst : first.room.availability = before ++ first :: (rest ++ after) := by
    rw [← split]
    simp
  have splitLeft : first.room.availability = (otherBefore ++ [left]) ++ first :: otherAfter := by
    rw [otherSplit]
    simp
  have sameLength := (index_eq splitFirst).symm.trans (index_eq splitLeft)
  rw [splitFirst] at splitLeft
  have heads := (List.append_inj splitLeft sameLength).1
  have nodup := first.room.availability_nodup
  rw [splitFirst, heads, List.nodup_append] at nodup
  intro inRun
  apply nodup.2.2 left (by simp) left _ rfl
  rcases List.mem_cons.mp inRun with same | inRest
  · simp [same]
  · simp [inRest]

theorem notMem_of_last_joins (isRun : first :: rest <:+: room.availability)
    (joins : (lastOf first rest).Joins right) : right ∉ first :: rest := by
  obtain ⟨before, after, split⟩ := isRun
  have whole : (first :: rest).dropLast ++ [lastOf first rest] = first :: rest :=
    List.dropLast_append_getLast _
  have member : lastOf first rest ∈ room.availability := by
    rw [← split]
    exact List.mem_append_left _ (List.mem_append_right _ lastOf_mem)
  have sameRoom := joins.sameRoom
  rw [← AS_Classroom.room_eq_of_mem member] at split
  obtain ⟨-, otherBefore, otherAfter, otherSplit⟩ := joins
  rw [← sameRoom] at otherSplit
  have splitLast : (lastOf first rest).room.availability =
      (before ++ (first :: rest).dropLast) ++ lastOf first rest :: after := by
    rw [← split, ← whole]
    simp
  have following := following_unique splitLast otherSplit
  have nodup := (lastOf first rest).room.availability_nodup
  rw [← split, following] at nodup
  intro inRun
  exact (List.nodup_append.mp nodup).2.2 right (List.mem_append_right _ inRun) right
    List.mem_cons_self rfl

theorem eq_lastOf_of_joins (isRun : first :: rest <:+: room.availability)
    (inRun : left ∈ first :: rest) (joins : left.Joins right)
    (outside : right ∉ first :: rest) : left = lastOf first rest := by
  obtain ⟨before, after, split⟩ := isRun
  have member : left ∈ room.availability := by
    rw [← split]
    exact List.mem_append_left _ (List.mem_append_right _ inRun)
  rw [← AS_Classroom.room_eq_of_mem member] at split
  obtain ⟨earlier, later, runSplit⟩ := List.append_of_mem inRun
  cases later with
  | nil => simp [lastOf, runSplit]
  | cons next later =>
      exfalso
      have sameRoom := joins.sameRoom
      obtain ⟨-, otherBefore, otherAfter, otherSplit⟩ := joins
      rw [← sameRoom] at otherSplit
      have splitLeft : left.room.availability =
          (before ++ earlier) ++ left :: (next :: later ++ after) := by
        rw [← split, runSplit]
        simp
      have same := (List.cons.inj (following_unique splitLeft otherSplit)).1
      exact outside (by simp [runSplit, ← same])

theorem first_of_joins (placed : WellPlaced schedule assignments)
    (listed : sec ∈ schedule.classSections)
    (assigned : right ∈ assignments.assignedRoomslots sec)
    (joins : left.Joins right)
    (notAssigned : left ∉ assignments.assignedRoomslots sec) :
    ∃ rest, assignments.assignedRoomslots sec = right :: rest := by
  obtain ⟨room, -, before, after, split⟩ :=
    placed.runs sec listed (List.ne_nil_of_mem assigned)
  have member : right ∈ room.availability := by
    rw [← split]
    exact List.mem_append_left _ (List.mem_append_right _ assigned)
  rw [← AS_Classroom.room_eq_of_mem member] at split
  obtain ⟨earlier, later, runSplit⟩ := List.append_of_mem assigned
  rcases List.eq_nil_or_concat earlier with empty | ⟨earliest, previous, last⟩
  · subst empty
    exact ⟨later, runSplit⟩
  · exfalso
    rw [List.concat_eq_append] at last
    subst last
    obtain ⟨-, otherBefore, otherAfter, otherSplit⟩ := joins
    have splitRight : right.room.availability =
        (before ++ earliest) ++ previous :: right :: (later ++ after) := by
      rw [← split, runSplit]
      simp
    have same := previous_unique splitRight otherSplit
    exact notAssigned (by simp [runSplit, ← same])

end Ends

/-! ## The count and its changes -/

section Count

variable {room : AS_Classroom} {first : AS_RoomSlot} {rest run : List AS_RoomSlot}
  {sec other : AS_ClassSection} {avoidDoublecount : Bool}

/-- A boundary counts one if it is complete. -/
def indicator (complete : Bool) : ℚ := if complete then 1 else 0

theorem indicator_true : indicator true = 1 := if_pos rfl

theorem indicator_false : indicator false = 0 := if_neg Bool.false_ne_true

/-- What a section at the given roomslots counts in `update_schedule`. -/
def value (assignments : Assignments) : List AS_RoomSlot → ℚ
  | [] => 0
  | first :: rest =>
      indicator (boundaryCompleteBefore assignments first none) +
        indicator (boundaryCompleteAfter assignments (lastOf first rest) none true)

theorem completeBoundaries_eq :
    completeBoundaries assignments (first :: rest) ignoreSection avoidDoublecount =
      .ok (indicator (boundaryCompleteBefore assignments first ignoreSection) +
        indicator (boundaryCompleteAfter assignments (lastOf first rest) ignoreSection
          avoidDoublecount)) := by
  have lastFound : last (first :: rest) = .ok (lastOf first rest) := by
    simp [last, lastOf, List.getLast?_eq_some_getLast]
  simp only [completeBoundaries, Python.first, lastFound, ok_bind, pure_eq_ok, indicator]

/-- The count that `update_schedule` makes. -/
def total (schedule : AS_Schedule) (assignments : Assignments) : ℚ :=
  (schedule.classSections.map fun sec =>
    value assignments (assignments.assignedRoomslots sec)).sum

theorem countBoundaries_eq (classSections : List AS_ClassSection) (count : ℚ) :
    countBoundaries assignments classSections count =
      .ok (count + (classSections.map fun sec =>
        value assignments (assignments.assignedRoomslots sec)).sum) := by
  induction classSections generalizing count with
  | nil => simp [countBoundaries]
  | cons sec later ih =>
      rw [countBoundaries, Assignments.isScheduled, List.map_cons, List.sum_cons]
      cases held : assignments.assignedRoomslots sec with
      | nil => simp [ih, value]
      | cons first rest => simp [ih, completeBoundaries_eq, value, add_assoc]

theorem updateSchedule_eq :
    (RoomConsecutivityScorer schedule).updateSchedule assignments =
      (.ok (total schedule assignments) : Raises ℚ) := by
  rw [total, ← zero_add (List.sum _)]
  exact countBoundaries_eq _ 0

/-- The section that starts right after the given last roomslot of a run. -/
def joinedSection (assignments : Assignments) (lastRoomslot : AS_RoomSlot) :
    Option AS_ClassSection :=
  match lastRoomslot.next with
  | none => none
  | some nextRoomslot =>
      if contiguous lastRoomslot.timeslot nextRoomslot.timeslot then
        assignments.assignedSection nextRoomslot
      else none

theorem joinedSection_eq_some {lastRoomslot : AS_RoomSlot}
    (member : lastRoomslot ∈ lastRoomslot.room.availability) :
    joinedSection assignments lastRoomslot = some other ↔
      ∃ right : AS_RoomSlot,
        lastRoomslot.Joins right ∧ assignments.assignedSection right = some other := by
  obtain ⟨before, after, split⟩ := List.append_of_mem member
  rw [joinedSection, next_eq split]
  cases after with
  | nil =>
      simp only [List.head?_nil, reduceCtorEq, false_iff]
      rintro ⟨right, joins, -⟩
      have sameRoom := joins.sameRoom
      obtain ⟨-, otherBefore, otherAfter, otherSplit⟩ := joins
      rw [← sameRoom] at otherSplit
      cases following_unique split otherSplit
  | cons following after =>
      have followingRoom : following.room = lastRoomslot.room :=
        AS_Classroom.room_eq_of_mem (by simp [split])
      simp only [List.head?_cons]
      split
      next noGap =>
        have joins : lastRoomslot.Joins following := ⟨noGap, before, after, by
          rw [followingRoom, split]⟩
        constructor
        · intro holder
          exact ⟨following, joins, holder⟩
        · rintro ⟨right, rightJoins, holder⟩
          rwa [joins.right_unique rightJoins]
      next gap =>
        simp only [reduceCtorEq, false_iff]
        rintro ⟨right, joins, -⟩
        have sameRoom := joins.sameRoom
        obtain ⟨noGap, otherBefore, otherAfter, otherSplit⟩ := joins
        rw [← sameRoom] at otherSplit
        rw [(List.cons.inj (following_unique split otherSplit)).1] at gap
        exact gap noGap

/-- The boundary after a run counts twice if a section starts right after it. -/
theorem indicator_after (lastRoomslot : AS_RoomSlot) :
    indicator (boundaryCompleteAfter assignments lastRoomslot none false) =
      indicator (boundaryCompleteAfter assignments lastRoomslot none true) +
        indicator (joinedSection assignments lastRoomslot).isSome := by
  rw [boundaryCompleteAfter, boundaryCompleteAfter, joinedSection]
  cases lastRoomslot.next with
  | none => simp [indicator]
  | some following =>
      cases noGap : contiguous lastRoomslot.timeslot following.timeslot <;>
        cases holder : assignments.assignedSection following <;>
          simp [indicator, noGap, holder]

theorem registered_of_mem (registered : room ∈ schedule.classrooms)
    {roomslot : AS_RoomSlot} (member : roomslot ∈ room.availability) :
    roomslot ∈ schedule.roomslots :=
  List.mem_flatMap.mpr ⟨room, registered, member⟩

theorem boundaryCompleteBefore_congr {left right : Assignments}
    (member : roomslot ∈ roomslot.room.availability)
    (same : ∀ previous : AS_RoomSlot, previous.Joins roomslot →
      (left.assignedSection previous = none ↔ right.assignedSection previous = none)) :
    boundaryCompleteBefore left roomslot none = boundaryCompleteBefore right roomslot none := by
  rw [Bool.eq_iff_iff, boundaryCompleteBefore_iff member, boundaryCompleteBefore_iff member]
  apply forall₂_congr
  intro previous joins
  rw [ne_eq, ne_eq, same previous joins]

/-- The boundary after a section's last roomslot, not counted twice, does not depend on
the assignments. -/
theorem boundaryCompleteAfter_congr (left right : Assignments) :
    boundaryCompleteAfter left roomslot none true =
      boundaryCompleteAfter right roomslot none true := by
  simp only [boundaryCompleteAfter, Bool.not_true, Bool.false_and]

theorem value_congr {left right : Assignments}
    (member : first ∈ first.room.availability)
    (same : ∀ previous : AS_RoomSlot, previous.Joins first →
      (left.assignedSection previous = none ↔ right.assignedSection previous = none)) :
    value left (first :: rest) = value right (first :: rest) := by
  rw [value, value, boundaryCompleteBefore_congr member same,
    boundaryCompleteAfter_congr left right]

theorem assignedSection_acquire_of_notMem (outside : roomslot ∉ run) :
    (assignments.acquire sec run).assignedSection roomslot =
      assignments.assignedSection roomslot :=
  if_neg outside

theorem assignedSection_acquire_of_mem (inside : roomslot ∈ run) :
    (assignments.acquire sec run).assignedSection roomslot = some sec :=
  if_pos inside

theorem value_acquire_of_joined (placed : WellPlaced schedule assignments)
    (registered : room ∈ schedule.classrooms)
    (isRun : first :: rest <:+: room.availability)
    (isFree : ∀ roomslot ∈ first :: rest, assignments.assignedSection roomslot = none)
    (otherListed : other ∈ schedule.classSections)
    (joined : joinedSection assignments (lastOf first rest) = some other) :
    value (assignments.acquire sec (first :: rest))
        (assignments.assignedRoomslots other) =
      value assignments (assignments.assignedRoomslots other) + 1 := by
  have lastMember : lastOf first rest ∈ room.availability := isRun.subset lastOf_mem
  have lastRoom := AS_Classroom.room_eq_of_mem lastMember
  obtain ⟨right, lastJoins, holder⟩ := (joinedSection_eq_some (lastRoom ▸ lastMember)).mp joined
  have rightMember := lastJoins.right_mem
  rw [← lastJoins.sameRoom, lastRoom] at rightMember
  have assigned := placed.agrees.held_of_holder right
    (registered_of_mem registered rightMember) other holder
  have notAssigned : lastOf first rest ∉ assignments.assignedRoomslots other := by
    intro lastAssigned
    have lastHolder := placed.assignedSection_of_assigned otherListed lastAssigned
    rw [isFree _ lastOf_mem] at lastHolder
    cases lastHolder
  obtain ⟨later, held⟩ := first_of_joins placed otherListed assigned lastJoins notAssigned
  have completeAfter : boundaryCompleteBefore
      (assignments.acquire sec (first :: rest)) right none = true := by
    apply (boundaryCompleteBefore_iff lastJoins.right_mem).mpr
    intro left leftJoins
    rw [leftJoins.left_unique lastJoins, assignedSection_acquire_of_mem lastOf_mem]
    simp
  have incompleteBefore : boundaryCompleteBefore assignments right none = false := by
    rw [← Bool.not_eq_true]
    intro complete
    have occupied := (boundaryCompleteBefore_iff lastJoins.right_mem).mp complete _ lastJoins
    exact occupied.1 (isFree _ lastOf_mem)
  have sameAfter := @boundaryCompleteAfter_congr (lastOf right later)
    (assignments.acquire sec (first :: rest)) assignments
  rw [held, value, value, completeAfter, incompleteBefore, sameAfter, indicator_true,
    indicator_false]
  ring

theorem value_acquire_of_notJoined (placed : WellPlaced schedule assignments)
    (isRun : first :: rest <:+: room.availability)
    (isFree : ∀ roomslot ∈ first :: rest, assignments.assignedSection roomslot = none)
    (otherListed : other ∈ schedule.classSections)
    (notJoined : joinedSection assignments (lastOf first rest) ≠ some other) :
    value (assignments.acquire sec (first :: rest))
        (assignments.assignedRoomslots other) =
      value assignments (assignments.assignedRoomslots other) := by
  cases held : assignments.assignedRoomslots other with
  | nil => rw [value, value]
  | cons right later =>
      have rightAssigned : right ∈ assignments.assignedRoomslots other := by simp [held]
      have holder := placed.assignedSection_of_assigned otherListed rightAssigned
      have rightMember := (AS_Schedule.mem_roomslots.mp
        (placed.registered_of_assigned otherListed rightAssigned)).2
      have outside : right ∉ first :: rest := by
        intro inside
        rw [isFree right inside] at holder
        cases holder
      apply value_congr rightMember
      intro left leftJoins
      have notInRun : left ∉ first :: rest := by
        intro inRun
        have isLast := eq_lastOf_of_joins isRun inRun leftJoins outside
        subst isLast
        have lastMember := leftJoins.left_mem
        rw [← leftJoins.sameRoom] at lastMember
        exact notJoined ((joinedSection_eq_some lastMember).mpr ⟨right, leftJoins, holder⟩)
      rw [assignedSection_acquire_of_notMem notInRun]

/-- What a free run counts when a section takes it: its boundaries, and the one of the
section right after it. -/
theorem total_acquire (placed : WellPlaced schedule assignments)
    (registered : room ∈ schedule.classrooms)
    (isRun : first :: rest <:+: room.availability)
    (isFree : ∀ roomslot ∈ first :: rest, assignments.assignedSection roomslot = none)
    (listed : sec ∈ schedule.classSections)
    (unscheduled : assignments.assignedRoomslots sec = []) :
    total schedule (assignments.acquire sec (first :: rest)) =
      total schedule assignments +
        (indicator (boundaryCompleteBefore assignments first none) +
          indicator (boundaryCompleteAfter assignments (lastOf first rest) none false)) := by
  have nodup : schedule.classSections.Nodup := schedule.sectionIds.of_map
  have firstMember : first ∈ room.availability := isRun.subset List.mem_cons_self
  have firstRoom := AS_Classroom.room_eq_of_mem firstMember
  have lastMember : lastOf first rest ∈ room.availability := isRun.subset lastOf_mem
  have lastRoom := AS_Classroom.room_eq_of_mem lastMember
  have newValue : value (assignments.acquire sec (first :: rest)) (first :: rest) =
      value assignments (first :: rest) := by
    apply value_congr (firstRoom ▸ firstMember)
    intro left leftJoins
    rw [assignedSection_acquire_of_notMem (notMem_of_joins_first isRun leftJoins)]
  have joinedListed : ∀ other, joinedSection assignments (lastOf first rest) = some other →
      other ∈ schedule.classSections ∧ assignments.assignedRoomslots other ≠ [] := by
    intro other joined
    obtain ⟨right, joins, holder⟩ := (joinedSection_eq_some (lastRoom ▸ lastMember)).mp joined
    have rightMember := joins.right_mem
    rw [← joins.sameRoom, lastRoom] at rightMember
    have rightRegistered := registered_of_mem registered rightMember
    exact ⟨placed.agrees.owner_of_holder right rightRegistered other holder,
      List.ne_nil_of_mem (placed.agrees.held_of_holder right rightRegistered other holder)⟩
  -- Each section's value, with the growth of the two that may gain something.
  have pointwise : ∀ other ∈ schedule.classSections,
      value (assignments.acquire sec (first :: rest))
          ((assignments.acquire sec (first :: rest)).assignedRoomslots other) =
        value assignments (assignments.assignedRoomslots other) +
          ((if other = sec then value assignments (first :: rest) else 0) +
            (if joinedSection assignments (lastOf first rest) = some other then 1 else 0)) := by
    intro other otherListed
    by_cases same : other = sec
    · subst same
      have notJoined : joinedSection assignments (lastOf first rest) ≠ some other := by
        intro joined
        exact (joinedListed other joined).2 unscheduled
      rw [Assignments.acquire_self, newValue, unscheduled, if_pos rfl, if_neg notJoined,
        add_zero, value, zero_add]
    · rw [Assignments.acquire_of_ne same, if_neg same, zero_add]
      by_cases joined : joinedSection assignments (lastOf first rest) = some other
      · rw [if_pos joined]
        exact value_acquire_of_joined placed registered isRun isFree otherListed joined
      · rw [if_neg joined, add_zero]
        exact value_acquire_of_notJoined placed isRun isFree otherListed joined
  have joinedSum : (schedule.classSections.map fun other =>
      if joinedSection assignments (lastOf first rest) = some other then (1 : ℚ) else 0).sum =
        indicator (joinedSection assignments (lastOf first rest)).isSome := by
    cases joined : joinedSection assignments (lastOf first rest) with
    | none => simp [indicator_false]
    | some next =>
        have flipped : (fun other => if some next = some other then (1 : ℚ) else 0) =
            fun other => if other = next then 1 else 0 := by
          funext other
          exact if_congr (Option.some.injEq next other ▸ eq_comm) rfl rfl
        rw [flipped, Option.isSome_some, indicator_true]
        exact tally_single nodup (joinedListed next joined).1 1
  rw [total, List.map_congr_left pointwise, List.sum_map_add, List.sum_map_add,
    tally_single nodup listed, joinedSum, indicator_after, value, ← total]
  ring

/-- What a section's roomslots count when it gives them up. -/
theorem total_release (placed : WellPlaced schedule assignments)
    (listed : sec ∈ schedule.classSections)
    (held : assignments.assignedRoomslots sec = first :: rest) :
    total schedule (assignments.release sec) =
      total schedule assignments -
        (indicator (boundaryCompleteBefore assignments first none) +
          indicator (boundaryCompleteAfter assignments (lastOf first rest) none false)) := by
  obtain ⟨room, registered, isRun⟩ := placed.runs sec listed (by simp [held])
  rw [held] at isRun
  have firstMember : first ∈ room.availability := isRun.subset List.mem_cons_self
  have firstRoom := AS_Classroom.room_eq_of_mem firstMember
  have lastMember : lastOf first rest ∈ room.availability := isRun.subset lastOf_mem
  have lastRoom := AS_Classroom.room_eq_of_mem lastMember
  have outside : ∀ roomslot ∉ first :: rest,
      (assignments.release sec).assignedSection roomslot =
        assignments.assignedSection roomslot := by
    intro roomslot notHeld
    exact if_neg (held ▸ notHeld)
  have restored : (assignments.release sec).acquire sec (first :: rest) =
      assignments := by
    rw [← held]
    exact Assignments.acquire_release
      fun roomslot => placed.assignedSection_of_assigned listed
  have sameBefore : boundaryCompleteBefore (assignments.release sec) first none =
      boundaryCompleteBefore assignments first none := by
    apply boundaryCompleteBefore_congr (firstRoom ▸ firstMember)
    intro left joins
    rw [outside left (notMem_of_joins_first isRun joins)]
  have sameAfter : boundaryCompleteAfter (assignments.release sec)
      (lastOf first rest) none false =
        boundaryCompleteAfter assignments (lastOf first rest) none false := by
    rw [Bool.eq_iff_iff, boundaryCompleteAfter_iff (lastRoom ▸ lastMember),
      boundaryCompleteAfter_iff (lastRoom ▸ lastMember)]
    apply forall₂_congr
    intro right joins
    rw [outside right (notMem_of_last_joins isRun joins)]
  have counted := total_acquire (placed.release listed) registered isRun
    (fun roomslot assigned => if_pos (held ▸ assigned)) listed Assignments.release_self
  rw [restored, sameBefore, sameAfter] at counted
  rw [counted, add_sub_cancel_right]

theorem boundaries_ignoring (placed : WellPlaced schedule assignments)
    (registered : room ∈ schedule.classrooms)
    (isRun : first :: rest <:+: room.availability)
    (listed : sec ∈ schedule.classSections) :
    boundaryCompleteBefore assignments first (some sec) =
        boundaryCompleteBefore (assignments.release sec) first none ∧
      boundaryCompleteAfter assignments (lastOf first rest) (some sec) false =
        boundaryCompleteAfter (assignments.release sec) (lastOf first rest) none
          false := by
  have firstMember : first ∈ room.availability := isRun.subset List.mem_cons_self
  have firstRoom := AS_Classroom.room_eq_of_mem firstMember
  have lastMember : lastOf first rest ∈ room.availability := isRun.subset lastOf_mem
  have lastRoom := AS_Classroom.room_eq_of_mem lastMember
  have counts : ∀ roomslot ∈ room.availability,
      assignments.assignedSection roomslot ≠ none ∧
          assignments.assignedSection roomslot ≠ some sec ↔
        (assignments.release sec).assignedSection roomslot ≠ none := by
    intro roomslot member
    rw [ne_eq, ne_eq, ← not_or, ← placed.release_eq_none_iff listed
      (registered_of_mem registered member)]
  constructor
  · rw [Bool.eq_iff_iff, boundaryCompleteBefore_iff (firstRoom ▸ firstMember),
      boundaryCompleteBefore_iff (firstRoom ▸ firstMember)]
    apply forall₂_congr
    intro left joins
    have leftMember := joins.left_mem
    rw [firstRoom] at leftMember
    rw [counts left leftMember, and_self]
  · rw [Bool.eq_iff_iff, boundaryCompleteAfter_iff (lastRoom ▸ lastMember),
      boundaryCompleteAfter_iff (lastRoom ▸ lastMember)]
    apply forall₂_congr
    intro right joins
    have rightMember := joins.right_mem
    rw [← joins.sameRoom, lastRoom] at rightMember
    rw [counts right rightMember, and_self]

theorem total_swap (placed : WellPlaced schedule assignments)
    {section1 section2 : AS_ClassSection} (listed1 : section1 ∈ schedule.classSections)
    (listed2 : section2 ∈ schedule.classSections) (different : section1 ≠ section2) :
    total schedule ((Change.swap section1 section2).apply assignments) =
      total schedule assignments := by
  have nodup : schedule.classSections.Nodup := schedule.sectionIds.of_map
  have occupied : ∀ roomslot,
      ((Change.swap section1 section2).apply assignments).assignedSection roomslot = none ↔
        assignments.assignedSection roomslot = none := by
    intro roomslot
    rw [Change.assignedSection_apply_swap different]
    split
    next assigned1 => simp [placed.assignedSection_of_assigned listed1 assigned1]
    next =>
      split
      next assigned2 => simp [placed.assignedSection_of_assigned listed2 assigned2]
      next => rfl
  have placedAfter : ∀ other ∈ schedule.classSections, ∀ first ∈
      ((Change.swap section1 section2).apply assignments).assignedRoomslots other,
        first ∈ first.room.availability := by
    intro other listed first assigned
    rw [Change.assignedRoomslots_apply_swap different] at assigned
    by_cases same2 : other = section2
    · subst same2
      rw [Function.update_self] at assigned
      exact (AS_Schedule.mem_roomslots.mp (placed.registered_of_assigned listed1 assigned)).2
    · rw [Function.update_of_ne same2] at assigned
      by_cases same1 : other = section1
      · subst same1
        rw [Function.update_self] at assigned
        exact (AS_Schedule.mem_roomslots.mp (placed.registered_of_assigned listed2 assigned)).2
      · rw [Function.update_of_ne same1] at assigned
        exact (AS_Schedule.mem_roomslots.mp (placed.registered_of_assigned listed assigned)).2
  have sameValues : ∀ other ∈ schedule.classSections,
      value ((Change.swap section1 section2).apply assignments)
          (((Change.swap section1 section2).apply assignments).assignedRoomslots other) =
        value assignments
          (((Change.swap section1 section2).apply assignments).assignedRoomslots other) := by
    intro other listed
    cases held : ((Change.swap section1 section2).apply assignments).assignedRoomslots other with
    | nil => rw [value, value]
    | cons first rest =>
        apply value_congr (placedAfter other listed first (by simp [held]))
        intro left _
        exact occupied left
  have asTally : total schedule assignments = tally schedule.classSections
      (fun _ roomslots => value assignments roomslots) assignments.assignedRoomslots := rfl
  rw [total, List.map_congr_left sameValues, Change.assignedRoomslots_apply_swap different,
    asTally]
  have changed := tally_update (fun (_ : AS_ClassSection) => value assignments)
    (Function.update assignments.assignedRoomslots section1
      (assignments.assignedRoomslots section2)) nodup listed2
    (assignments.assignedRoomslots section1)
  rw [tally_update _ _ nodup listed1, Function.update_of_ne different.symm] at changed
  refine Eq.trans changed ?_
  ring

end Count

/-- The boundaries counted stay the complete boundaries of the schedule. -/
theorem unconditional (schedule : AS_Schedule) :
    Unconditional (RoomConsecutivityScorer schedule) := by
  intro assignments change count placed registered possible built
  have same := Except.ok.inj (updateSchedule_eq.symm.trans built)
  subst same
  refine ⟨total schedule (change.apply assignments), ?_, updateSchedule_eq⟩
  cases change with
  | schedule sec startRoomslot =>
      obtain ⟨listed, startRegistered⟩ := registered
      obtain ⟨unscheduled, isFree⟩ := possible
      obtain ⟨room, roomRegistered, isRun⟩ :=
        WellPlaced.run_of_start sec.duration startRegistered
      obtain ⟨first, rest, taken⟩ := List.exists_cons_of_ne_nil
        (@Change.run_ne_nil schedule _ sec.duration startRegistered)
      rw [taken] at isRun isFree
      have hook : completeBoundaries assignments (first :: rest) none false = .ok _ :=
        completeBoundaries_eq
      rw [Change.apply, taken, total_acquire placed roomRegistered isRun isFree listed
        unscheduled]
      simp only [Change.updateScorer, RoomConsecutivityScorer, taken, hook, ok_bind, pure_eq_ok]
  | unschedule sec =>
      obtain ⟨first, rest, held⟩ := List.exists_cons_of_ne_nil possible
      have hook : completeBoundaries assignments (first :: rest) none false = .ok _ :=
        completeBoundaries_eq
      rw [Change.apply, total_release placed registered held]
      simp only [Change.updateScorer, RoomConsecutivityScorer, held, hook, ok_bind, pure_eq_ok]
  | move sec startRoomslot =>
      obtain ⟨listed, startRegistered⟩ := registered
      obtain ⟨scheduled, vacant⟩ := possible
      obtain ⟨room, roomRegistered, isRun⟩ :=
        WellPlaced.run_of_start sec.duration startRegistered
      obtain ⟨first, rest, held⟩ := List.exists_cons_of_ne_nil scheduled
      obtain ⟨newFirst, newRest, taken⟩ := List.exists_cons_of_ne_nil
        (@Change.run_ne_nil schedule _ sec.duration startRegistered)
      rw [taken] at isRun vacant
      have isFree : ∀ roomslot ∈ newFirst :: newRest,
          (assignments.release sec).assignedSection roomslot = none := by
        intro roomslot inRun
        exact (placed.release_eq_none_iff listed (registered_of_mem roomRegistered
          (isRun.subset inRun))).mpr (vacant roomslot inRun)
      obtain ⟨ignoringBefore, ignoringAfter⟩ :=
        boundaries_ignoring placed roomRegistered isRun listed
      have hook : completeBoundaries assignments (first :: rest) none false = .ok _ :=
        completeBoundaries_eq
      have newHook : completeBoundaries assignments (newFirst :: newRest) (some sec)
          false = .ok _ := completeBoundaries_eq
      rw [ignoringBefore, ignoringAfter] at newHook
      rw [Change.apply, taken, total_acquire (placed.release listed) roomRegistered isRun
        isFree listed Assignments.release_self, total_release placed listed held]
      simp only [Change.updateScorer, RoomConsecutivityScorer, held, taken, hook, newHook,
        ok_bind, pure_eq_ok]
  | swap section1 section2 =>
      rw [total_swap placed registered.1 registered.2 possible.2.2]
      rfl

end RoomConsecutivityScorer

end EspWebsite.Autoscheduler
