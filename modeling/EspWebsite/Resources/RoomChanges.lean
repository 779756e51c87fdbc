import EspWebsite.Resources.Assignments

/-!
# Changing the room of a section

`assign_room` without partial assignments: whether a section that does not get a room costs
anybody theirs.
-/

namespace EspWebsite.Resources

namespace Tables

variable (tables : Tables)

/-- Whether an assignment is one of the `assignments` of a resource. -/
def groupHas (resource : Resource) (row : ResourceAssignment) : Bool :=
  tables.resources.any fun other => resource.grouped other && decide (other.id = row.resource)

end Tables

namespace Database

variable (tables : Tables) (db : Database)

/-- The first step of `assign_room`. -/
def clearOthers (sec : ℕ) (clearOthers : Bool) : Database :=
  if clearOthers then db.clearRooms tables sec else db

/-- A section has the room of a name at each of its meeting times. -/
def HasRoom (sec : ℕ) (name : List Char) (after : Database) : Prop :=
  ∀ event ∈ db.meetingTimes sec, ∃ room ∈ tables.resources, room.name = name ∧
    room.event.id = event.id ∧
      ∃ row ∈ after.resourceAssignments, row.resource = room.id ∧ row.target = some sec

/-- A room is assigned at each meeting time, or no assignment changes. -/
def AllOrNothing (sec : ℕ) (name : List Char)
    (outcome : (Bool × List RoomError) × Database) : Prop :=
  if outcome.1.1 = true then db.HasRoom tables sec name outcome.2
  else outcome.2.resourceAssignments = db.resourceAssignments

/-- The room exists at each meeting time of a section, and nobody has it. -/
def RoomThere (sec : ℕ) (name : List Char) (clearOthers : Bool) : Prop :=
  (tables.roomsToAssign name (db.meetingTimes sec)).length = (db.meetingTimes sec).length ∧
    ∀ room ∈ tables.roomsToAssign name (db.meetingTimes sec),
      (db.clearOthers tables sec clearOthers).isTaken room = false

/-- The rooms that are free before the first one that is taken, if there is one at each meeting
time. -/
def freeBefore (sec : ℕ) (name : List Char) (clearOthers : Bool) : List Resource :=
  if (tables.roomsToAssign name (db.meetingTimes sec)).length = (db.meetingTimes sec).length then
    (tables.roomsToAssign name (db.meetingTimes sec)).takeWhile fun room =>
      !(db.clearOthers tables sec clearOthers).isTaken room
  else []

/-- A section has no rooms to be cleared, and nobody has a resource of the groups of the rooms that
are free before one that is taken. -/
def NothingToLose (sec : ℕ) (name : List Char) (clearOthers : Bool) : Prop :=
  (clearOthers = true → ∀ row ∈ db.resourceAssignments, tables.assignsClassroom sec row = false) ∧
    ∀ room ∈ db.freeBefore tables sec name clearOthers, db.assignments tables room = []

variable {tables} {db} {sec : ℕ} {name : List Char} {lock : ℤ} {withOthers : Bool}
  {rooms : List Resource} {room : Resource}

theorem resourceAssignments_clearAssignments :
    (db.clearAssignments tables room).resourceAssignments =
      db.resourceAssignments.filter fun row => !tables.groupHas room row := by
  refine List.filter_congr fun row isRow => ?_
  have member : row ∉ db.assignments tables room ↔ ¬tables.groupHas room row = true := by
    rw [assignments, List.mem_filter, and_iff_right isRow, Tables.groupHas]
  rw [decide_eq_decide.mpr member, decide_not, Bool.decide_eq_true]

theorem resourceAssignments_foldl_clearAssignments :
    (rooms.foldl (fun db room => db.clearAssignments tables room) db).resourceAssignments =
      db.resourceAssignments.filter fun row => rooms.all fun room => !tables.groupHas room row := by
  induction rooms generalizing db with
  | nil => simp
  | cons room rest ih =>
      rw [List.foldl_cons, ih, resourceAssignments_clearAssignments, List.filter_filter]
      refine List.filter_congr fun row _ => ?_
      rw [List.all_cons, Bool.and_comm]

theorem resourceAssignments_clearOthers :
    (db.clearOthers tables sec withOthers).resourceAssignments =
      db.resourceAssignments.filter fun row => !(withOthers && tables.assignsClassroom sec row) := by
  rw [clearOthers]
  cases withOthers with
  | false => simp
  | true => simp [clearRooms]

theorem groupHas_self (isRoom : room ∈ tables.resources) :
    tables.groupHas room ⟨room.id, some sec, lock⟩ = true := by
  refine List.any_eq_true.mpr ⟨room, isRoom, ?_⟩
  rw [decide_eq_true rfl, Bool.and_true, Resource.grouped]
  cases room.resGroup with
  | none => exact decide_eq_true rfl
  | some group => exact decide_eq_true rfl

theorem resourceAssignments_assigned_cleared (areRooms : ∀ room ∈ rooms, room ∈ tables.resources) :
    (rooms.foldl (fun db room => db.clearAssignments tables room)
        (db.withRooms sec lock rooms)).resourceAssignments =
      db.resourceAssignments.filter fun row => rooms.all fun room => !tables.groupHas room row := by
  rw [resourceAssignments_foldl_clearAssignments, withRooms, List.filter_append]
  have undone : (rooms.map fun room => (⟨room.id, some sec, lock⟩ : ResourceAssignment)).filter
      (fun row => rooms.all fun room => !tables.groupHas room row) = [] := by
    rw [List.filter_eq_nil_iff]
    intro row isRow
    rcases List.mem_map.mp isRow with ⟨room, isRoom, rfl⟩
    intro spared
    have apart := List.all_eq_true.mp spared room isRoom
    rw [groupHas_self (areRooms room isRoom)] at apart
    cases apart
  rw [undone, List.append_nil]

theorem assignments_eq_nil_iff : db.assignments tables room = [] ↔
    ∀ row ∈ db.resourceAssignments, tables.groupHas room row = false := by
  rw [assignments, List.filter_eq_nil_iff]
  refine forall₂_congr fun row _ => ?_
  rw [Bool.not_eq_true, Tables.groupHas]

theorem filter_eq_self_iff :
    ((db.clearOthers tables sec withOthers).resourceAssignments.filter fun row =>
        rooms.all fun room => !tables.groupHas room row) = db.resourceAssignments ↔
      (withOthers = true → ∀ row ∈ db.resourceAssignments,
        tables.assignsClassroom sec row = false) ∧
        ∀ room ∈ rooms, db.assignments tables room = [] := by
  rw [resourceAssignments_clearOthers, List.filter_filter, List.filter_eq_self]
  constructor
  · intro kept
    refine ⟨fun cleared row isRow => ?_, fun room isRoom => ?_⟩
    · have keeps := (Bool.and_eq_true_iff.mp (kept row isRow)).2
      rw [cleared, Bool.true_and] at keeps
      exact Bool.not_eq_true' _ |>.mp keeps
    · refine assignments_eq_nil_iff.mpr fun row isRow => ?_
      have keeps := (Bool.and_eq_true_iff.mp (kept row isRow)).1
      exact Bool.not_eq_true' _ |>.mp (List.all_eq_true.mp keeps room isRoom)
  · intro nothing row isRow
    refine Bool.and_eq_true_iff.mpr ⟨List.all_eq_true.mpr fun room isRoom => ?_, ?_⟩
    · rw [assignments_eq_nil_iff.mp (nothing.2 room isRoom) row isRow]
      rfl
    · cases cleared : withOthers with
      | false => rfl
      | true =>
          rw [nothing.1 cleared row isRow]
          rfl

theorem resourceAssignments_assignRoom_of_not_status
    (distinct : ((db.meetingTimes sec).map Event.id).Nodup)
    (refused : (db.assignRoom tables sec name withOthers false lock).1.1 = false) :
    (db.assignRoom tables sec name withOthers false lock).2.resourceAssignments =
      (db.clearOthers tables sec withOthers).resourceAssignments.filter fun row =>
        (db.freeBefore tables sec name withOthers).all fun room => !tables.groupHas room row := by
  rw [assignRoom_eq, ← clearOthers] at refused ⊢
  rw [freeBefore]
  by_cases all : (tables.roomsToAssign name (db.meetingTimes sec)).length =
      (db.meetingTimes sec).length
  · rw [if_pos all] at refused ⊢
    rw [if_pos all]
    rcases assignRooms_of_not_status refused with
      ⟨assigned, taken, rest, split, free, occupied, outcome⟩
    have apart := @Tables.pairwise_roomsToAssign tables name _ distinct
    rw [split] at apart
    have isTaken : (db.clearOthers tables sec withOthers).isTaken taken = true := by
      rw [isTaken_withRooms, Bool.or_eq_true] at occupied
      rcases occupied with before | assignedNow
      · exact before
      · rcases List.any_eq_true.mp assignedNow with ⟨other, isAssigned, same⟩
        have different := (List.pairwise_append.mp apart).2.2 other isAssigned taken
          List.mem_cons_self
        exact absurd (of_decide_eq_true same) different
    have before : (tables.roomsToAssign name (db.meetingTimes sec)).takeWhile (fun room =>
        !(db.clearOthers tables sec withOthers).isTaken room) = assigned := by
      rw [split, List.takeWhile_append_of_pos fun room isAssigned =>
        by rw [free room isAssigned]; rfl, List.takeWhile_cons_of_neg (by simp [isTaken]),
        List.append_nil]
    rw [before, outcome, List.nil_append]
    refine resourceAssignments_assigned_cleared fun room isAssigned => ?_
    have isRoom : room ∈ tables.roomsToAssign name (db.meetingTimes sec) := by
      rw [split]
      exact List.mem_append_left _ isAssigned
    exact (Tables.mem_roomsToAssign isRoom).1
  · rw [if_neg all, if_neg all]
    simp

theorem hasRoom_of_status
    (assigned : (db.assignRoom tables sec name withOthers false lock).1.1 = true) :
    db.HasRoom tables sec name (db.assignRoom tables sec name withOthers false lock).2 := by
  rcases assignRoom_of_status assigned with ⟨all, outcome⟩
  intro event isEvent
  rcases Tables.roomAt_of_length all isEvent with ⟨room, isRoom, found⟩
  rcases Tables.mem_of_roomAt found with ⟨isResource, named, here⟩
  refine ⟨room, isResource, named, here, ⟨room.id, some sec, lock⟩, ?_, rfl, rfl⟩
  rw [outcome]
  exact List.mem_append_right _ (List.mem_map_of_mem isRoom)

/-- A section gets a room at each of its meeting times or no assignment changes, exactly if the room
is free there or there is nothing to lose. -/
theorem allOrNothing_assignRoom_iff (tables : Tables) (db : Database) (sec : ℕ)
    (name : List Char) (clearOthers : Bool) (lock : ℤ)
    (distinct : ((db.meetingTimes sec).map Event.id).Nodup) :
    db.AllOrNothing tables sec name (db.assignRoom tables sec name clearOthers false lock) ↔
      db.RoomThere tables sec name clearOthers ∨ db.NothingToLose tables sec name clearOthers := by
  have exactly := @status_assignRoom tables db sec lock name clearOthers distinct
  rw [AllOrNothing]
  cases status : (db.assignRoom tables sec name clearOthers false lock).1.1 with
  | true =>
      rw [if_pos rfl]
      exact iff_of_true (hasRoom_of_status status) (.inl (exactly.mp status))
  | false =>
      rw [if_neg Bool.false_ne_true, NothingToLose, ← filter_eq_self_iff,
        resourceAssignments_assignRoom_of_not_status distinct status, or_iff_right]
      intro free
      exact absurd (exactly.mpr free) (by simp [status])

namespace Sample

/-- An hour of a program. -/
def morning : Event :=
  ⟨1, some 1, ⟨2024, 1, 6, 9, 0, 0, 0, Resources.Sample.nine_valid⟩, ⟨2024, 1, 6, 10, 0, 0, 0, Resources.Sample.ten_valid⟩⟩

/-- Two rooms. -/
def campus : Tables where
  program := 1
  events := [morning]
  resources := [⟨10, ['A'], true, some 1, morning⟩, ⟨20, ['B'], true, some 2, morning⟩]
  sections := [1, 2]
  eventIds := by decide
  resourceIds := by decide
  sectionIds := Resources.Sample.sections_nodup

/-- The first section meets in the first room, the second one in the second room. -/
def opening : Database where
  meetingTimes := fun _ => [morning]
  resourceAssignments := [⟨10, some 1, 0⟩, ⟨20, some 2, 0⟩]
  changeLog := []

/-- The first section keeps its room when it gets it again. -/
theorem opening_reassigned : opening.AllOrNothing campus 1 ['A']
    (opening.assignRoom campus 1 ['A'] true false 0) :=
  (allOrNothing_assignRoom_iff campus opening 1 ['A'] true 0 (by decide)).mpr
    (.inl ⟨by decide, by decide⟩)

/-- The first section is to move into the second room, which is taken, and loses its own. -/
theorem opening_not_moved : ¬opening.AllOrNothing campus 1 ['B']
    (opening.assignRoom campus 1 ['B'] true false 0) := by
  rw [AllOrNothing, if_neg (by decide)]
  decide

end Sample

end Database

end EspWebsite.Resources
