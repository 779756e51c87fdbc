import EspWebsite.Resources.Assignments
import EspWebsite.Scheduling.Timeslots

/-!
# Start times

`assign_start_time` of `ClassSection`: a section gets as many timeslots from one on as it needs, and
loses its rooms and resources before.
-/

namespace EspWebsite.Scheduling

open Resources

/-- The times of a row of `Event`. -/
def times (event : Resources.Event) : ArgCache.Event where
  id := event.id
  startTime := event.startTime.toMicroseconds
  endTime := event.endTime.toMicroseconds

/-- `sufficient_length`. -/
def enough (duration : Option ℚ) (eventList : List Resources.Event) : Bool :=
  sufficientLength duration (eventList.map times)

/-- The loop of `extend_timeblock`, with the events that follow in `all_events`; there is no result
if it runs past the last one. -/
def extendFrom (duration : Option ℚ) :
    List Resources.Event → List Resources.Event → Option (List Resources.Event)
  | eventList, [] => if enough duration eventList then some eventList else none
  | eventList, event :: rest =>
      if enough duration eventList then some eventList
      else extendFrom duration (eventList ++ [event]) rest

/-- The events of `all_events` after the first one that is equal to an event, if there is one. -/
def followers (allEvents : List Resources.Event) (event : Resources.Event) :
    Option (List Resources.Event) :=
  match allEvents.dropWhile fun other => other.start ≠ event.start with
  | [] => none
  | _ :: rest => some rest

/-- `extend_timeblock`, without merging. -/
def extendTimeblock (duration : Option ℚ) (allEvents : List Resources.Event)
    (event : Resources.Event) : Option (List Resources.Event) :=
  (followers allEvents event).bind (extendFrom duration [event])

section Sections

variable (tables : Tables) (isTeacherAvailability : ℕ → Bool) (sec : ℕ)

/-- Whether an assignment is one of the `resourceassignments` of a section. -/
def assignsFloating (row : ResourceAssignment) : Bool :=
  row.target = some sec && !tables.isClassroom row.resource && !isTeacherAvailability row.resource

def clearFloatingResources (db : Database) : Database :=
  { db with resourceAssignments := db.resourceAssignments.filter fun row =>
      !assignsFloating tables isTeacherAvailability sec row }

/-- The classrooms of a section at an event. -/
def roomsAt (db : Database) : Option Resources.Event → List Resource
  | none => []
  | some initial => ((db.classrooms tables sec).filter fun room =>
      room.event.id = initial.id).insertionSort fun room other => room.id ≤ other.id

/-- `assign_start_time`, and whether it returns. -/
def assignStartTime (duration : Option ℚ) (allEvents : List Resources.Event)
    (firstEvent : Resources.Event) (db : Database) : Bool × Database :=
  let initialTime := (db.meetingTimes sec).argmin Resources.Event.start
  let db := clearFloatingResources tables isTeacherAvailability sec (db.clearRooms tables sec)
  match extendTimeblock duration allEvents firstEvent with
  | none => (false, db)
  | some eventList =>
      let db := db.assignMeetingTimes sec eventList
      -- `current_rooms` is a query that is made only now, when the rooms are cleared
      let currentRooms := roomsAt tables sec db initialTime
      -- `is_available` takes the event for `QObjects` and returns a query, which is true
      let availability := eventList.all fun _ => currentRooms.all fun _ => true
      (true, if availability then
        currentRooms.foldl (fun db room => (db.assignRoom tables sec room.name false false 0).2) db
        else db)

/-- Consecutive timeslots from one on, each contiguous with the next one, that are long enough. -/
structure IsRun (tol : ℤ) (duration : Option ℚ) (allEvents : List Resources.Event)
    (firstEvent : Resources.Event) (run : List Resources.Event) : Prop where
  first : run.head? = some firstEvent
  consecutive : run <:+: allEvents
  contiguous : run.IsChain fun event next => contiguous tol (times event) (times next) = true
  enough : enough duration run = true

/-- A section has the meeting times, rooms and floating resources that it had. -/
structure Unchanged (db after : Database) : Prop where
  meetingTimes : after.meetingTimes sec = db.meetingTimes sec
  rooms : after.resourceAssignments.filter (tables.assignsClassroom sec) =
    db.resourceAssignments.filter (tables.assignsClassroom sec)
  floating : after.resourceAssignments.filter
      (assignsFloating tables isTeacherAvailability sec) =
    db.resourceAssignments.filter (assignsFloating tables isTeacherAvailability sec)

/-- A section gets a run of timeslots, or it keeps what it had. -/
def StartsOrKeeps (tol : ℤ) (duration : Option ℚ) (allEvents : List Resources.Event)
    (firstEvent : Resources.Event) (db : Database) (outcome : Bool × Database) : Prop :=
  if outcome.1 = true then
    IsRun tol duration allEvents firstEvent (outcome.2.meetingTimes sec)
  else Unchanged tables isTeacherAvailability sec db outcome.2

/-- So many of the events that follow the first one are the fewest with which it is long
enough. -/
structure FirstEnough (duration : Option ℚ) (firstEvent : Resources.Event)
    (rest : List Resources.Event) (count : ℕ) : Prop where
  inRange : count ≤ rest.length
  enough : enough duration (firstEvent :: rest.take count) = true
  least : ∀ fewer < count, Scheduling.enough duration (firstEvent :: rest.take fewer) = false

/-- The timeslots that a section gets for some events: they are a part of the timeline, contiguous
and long enough. -/
structure Together (tol : ℤ) (duration : Option ℚ) (allEvents slots : List Resources.Event) :
    Prop where
  consecutive : eventSet slots <:+: allEvents
  contiguous : (eventSet slots).IsChain fun event next =>
    contiguous tol (times event) (times next) = true
  enough : enough duration (eventSet slots) = true

/-- The fewest timeslots that are long enough have no gap between them, or none are enough and the
section has no rooms and resources to lose. -/
def CanStart (tol : ℤ) (duration : Option ℚ) (allEvents : List Resources.Event)
    (firstEvent : Resources.Event) (db : Database) : Prop :=
  (∃ rest ∈ followers allEvents firstEvent, ∃ count,
    FirstEnough duration firstEvent rest count ∧
      Together tol duration allEvents (firstEvent :: rest.take count)) ∨
    (∀ rest ∈ followers allEvents firstEvent, ∀ count ≤ rest.length,
      enough duration (firstEvent :: rest.take count) = false) ∧
      ∀ row ∈ db.resourceAssignments, tables.assignsClassroom sec row = false ∧
        assignsFloating tables isTeacherAvailability sec row = false

end Sections

variable {tables : Tables} {isTeacherAvailability : ℕ → Bool} {sec : ℕ} {tol : ℤ}
  {duration : Option ℚ} {allEvents eventList rest slots : List Resources.Event}
  {firstEvent : Resources.Event} {db : Database} {count : ℕ}

/-! ## Collecting timeslots -/

theorem append_take_cons {event : Resources.Event} :
    eventList ++ (event :: rest).take (count + 1) = eventList ++ [event] ++ rest.take count := by
  rw [List.take_succ_cons, List.append_assoc, List.singleton_append]

theorem extendFrom_eq_some_iff : extendFrom duration eventList rest = some slots ↔
    ∃ count ≤ rest.length, slots = eventList ++ rest.take count ∧ enough duration slots = true ∧
      ∀ fewer < count, enough duration (eventList ++ rest.take fewer) = false := by
  induction rest generalizing eventList with
  | nil =>
      rw [extendFrom]
      split
      next isEnough =>
        constructor
        · intro same
          cases same
          exact ⟨0, le_refl _, (List.append_nil _).symm, isEnough,
            fun _ none => absurd none (by omega)⟩
        · intro some
          rcases some with ⟨count, _, rfl, _, _⟩
          rw [List.take_nil, List.append_nil]
      next short =>
        refine iff_of_false (Option.some_ne_none slots).symm fun some => ?_
        rcases some with ⟨count, _, rfl, isEnough, _⟩
        rw [List.take_nil, List.append_nil] at isEnough
        exact short isEnough
  | cons event rest ih =>
      rw [extendFrom]
      split
      next isEnough =>
        constructor
        · intro same
          cases same
          exact ⟨0, Nat.zero_le _, (List.append_nil _).symm, isEnough,
            fun _ none => absurd none (by omega)⟩
        · intro some
          rcases some with ⟨count, _, rfl, _, least⟩
          cases count with
          | zero => rw [List.take_zero, List.append_nil]
          | succ count =>
              have short := least 0 (Nat.succ_pos count)
              rw [List.take_zero, List.append_nil, isEnough] at short
              exact absurd short (by decide)
      next short =>
        rw [ih]
        constructor
        · intro some
          rcases some with ⟨count, inRange, same, isEnough, least⟩
          refine ⟨count + 1, Nat.succ_le_succ inRange, ?_, isEnough, fun fewer isFewer => ?_⟩
          · rw [same, append_take_cons]
          · cases fewer with
            | zero =>
                rw [List.take_zero, List.append_nil]
                exact Bool.of_not_eq_true short
            | succ fewer =>
                rw [append_take_cons]
                exact least fewer (Nat.lt_of_succ_lt_succ isFewer)
        · intro some
          rcases some with ⟨count, inRange, same, isEnough, least⟩
          cases count with
          | zero =>
              rw [List.take_zero, List.append_nil] at same
              rw [same] at isEnough
              exact absurd isEnough short
          | succ count =>
              refine ⟨count, Nat.le_of_succ_le_succ inRange, ?_, isEnough, fun fewer isFewer => ?_⟩
              · rw [same, append_take_cons]
              · rw [← append_take_cons]
                exact least (fewer + 1) (Nat.succ_lt_succ isFewer)

theorem extendFrom_eq_none_iff : extendFrom duration eventList rest = none ↔
    ∀ count ≤ rest.length, enough duration (eventList ++ rest.take count) = false := by
  induction rest generalizing eventList with
  | nil =>
      rw [extendFrom]
      simp
  | cons event rest ih =>
      rw [extendFrom]
      split
      next isEnough =>
        refine iff_of_false (Option.some_ne_none _) fun short => ?_
        have first := short 0 (Nat.zero_le _)
        rw [List.take_zero, List.append_nil, isEnough] at first
        exact absurd first (by decide)
      next short =>
        rw [ih]
        constructor
        · intro all count inRange
          cases count with
          | zero =>
              rw [List.take_zero, List.append_nil]
              exact Bool.of_not_eq_true short
          | succ count =>
              rw [append_take_cons]
              exact all count (Nat.le_of_succ_le_succ inRange)
        · intro all count inRange
          rw [← append_take_cons]
          exact all (count + 1) (Nat.succ_le_succ inRange)

theorem extendTimeblock_eq_some_iff : extendTimeblock duration allEvents firstEvent = some slots ↔
    ∃ rest ∈ followers allEvents firstEvent, ∃ count,
      slots = firstEvent :: rest.take count ∧ FirstEnough duration firstEvent rest count := by
  rw [extendTimeblock, Option.bind_eq_some_iff]
  refine exists_congr fun rest => and_congr_right fun _ => ?_
  rw [extendFrom_eq_some_iff]
  constructor
  · intro some
    rcases some with ⟨count, inRange, rfl, isEnough, least⟩
    exact ⟨count, rfl, inRange, isEnough, least⟩
  · intro some
    rcases some with ⟨count, rfl, first⟩
    exact ⟨count, first.inRange, rfl, first.enough, first.least⟩

theorem extendTimeblock_eq_none_iff : extendTimeblock duration allEvents firstEvent = none ↔
    ∀ rest ∈ followers allEvents firstEvent, ∀ count ≤ rest.length,
      enough duration (firstEvent :: rest.take count) = false := by
  rw [extendTimeblock, Option.bind_eq_none_iff]
  exact forall_congr' fun rest => forall_congr' fun _ => extendFrom_eq_none_iff

/-! ## Rooms and resources -/

theorem roomsAt_cleared (times : List Resources.Event) (initial : Option Resources.Event) :
    roomsAt tables sec ((clearFloatingResources tables isTeacherAvailability sec
      (db.clearRooms tables sec)).assignMeetingTimes sec times) initial = [] := by
  cases initial with
  | none => rfl
  | some initial =>
      have none : ((clearFloatingResources tables isTeacherAvailability sec
          (db.clearRooms tables sec)).assignMeetingTimes sec times).classrooms tables sec = [] := by
        refine List.eq_nil_iff_forall_not_mem.mpr fun room isRoom => ?_
        rcases Database.mem_classrooms.mp isRoom with ⟨inTables, classroom, row, isRow, both⟩
        have cleared := Database.mem_classrooms_clearRooms.mp (Database.mem_classrooms.mpr
          ⟨inTables, classroom, row, List.mem_of_mem_filter isRow, both⟩)
        exact cleared.1 rfl
      rw [roomsAt, none]
      rfl

theorem assignStartTime_of_some
    (found : extendTimeblock duration allEvents firstEvent = some slots) :
    assignStartTime tables isTeacherAvailability sec duration allEvents firstEvent db =
      (true, (clearFloatingResources tables isTeacherAvailability sec
        (db.clearRooms tables sec)).assignMeetingTimes sec slots) := by
  rw [assignStartTime, found]
  simp only [roomsAt_cleared, List.foldl_nil, ite_self]

theorem assignStartTime_of_none (found : extendTimeblock duration allEvents firstEvent = none) :
    assignStartTime tables isTeacherAvailability sec duration allEvents firstEvent db =
      (false, clearFloatingResources tables isTeacherAvailability sec
        (db.clearRooms tables sec)) := by
  rw [assignStartTime, found]

theorem unchanged_cleared_iff : Unchanged tables isTeacherAvailability sec db
      (clearFloatingResources tables isTeacherAvailability sec (db.clearRooms tables sec)) ↔
    ∀ row ∈ db.resourceAssignments, tables.assignsClassroom sec row = false ∧
      assignsFloating tables isTeacherAvailability sec row = false := by
  constructor
  · intro unchanged row isRow
    have rooms := unchanged.rooms
    have floating := unchanged.floating
    constructor
    · by_contra isRoom
      have kept : row ∈ db.resourceAssignments.filter (tables.assignsClassroom sec) :=
        List.mem_filter.mpr ⟨isRow, Bool.of_not_eq_false isRoom⟩
      rw [← rooms, List.mem_filter] at kept
      have notRoom := (List.mem_filter.mp (List.mem_of_mem_filter kept.1)).2
      rw [kept.2] at notRoom
      exact absurd notRoom (by decide)
    · by_contra isFloating
      have kept : row ∈ db.resourceAssignments.filter
          (assignsFloating tables isTeacherAvailability sec) :=
        List.mem_filter.mpr ⟨isRow, Bool.of_not_eq_false isFloating⟩
      rw [← floating, List.mem_filter] at kept
      have notFloating := (List.mem_filter.mp kept.1).2
      rw [kept.2] at notFloating
      exact absurd notFloating (by decide)
  · intro none
    have same : clearFloatingResources tables isTeacherAvailability sec (db.clearRooms tables sec) =
        db := by
      have all : (db.resourceAssignments.filter fun row =>
          !assignsFloating tables isTeacherAvailability sec row &&
            !tables.assignsClassroom sec row) = db.resourceAssignments :=
        List.filter_eq_self.mpr fun row isRow => by simp [none row isRow]
      rw [clearFloatingResources, Database.clearRooms, List.filter_filter, all]
    rw [same]
    exact ⟨rfl, rfl, rfl⟩

/-! ## Runs of timeslots -/

theorem FirstEnough.unique {fewest : ℕ} (first : FirstEnough duration firstEvent rest count)
    (least : FirstEnough duration firstEvent rest fewest) : fewest = count := by
  rcases Nat.lt_trichotomy fewest count with fewer | same | more
  · have short := first.least fewest fewer
    rw [least.enough] at short
    exact absurd short (by decide)
  · exact same
  · have short := least.least count more
    rw [first.enough] at short
    exact absurd short (by decide)

theorem head_eventSet : (eventSet (firstEvent :: slots)).head? = some firstEvent := by
  induction slots using List.reverseRecOn with
  | nil => rfl
  | append_singleton earlier event ih =>
      rw [← List.cons_append, eventSet, List.reverse_append, List.reverse_singleton,
        List.singleton_append]
      by_cases apart : ∀ other ∈ List.pwFilter
          (fun event other : Resources.Event => event.start ≠ other.start)
          (firstEvent :: earlier).reverse, event.start ≠ other.start
      · rw [List.pwFilter_cons_of_pos apart, List.reverse_cons, List.head?_append, ← eventSet, ih]
        rfl
      · rw [List.pwFilter_cons_of_neg apart, ← eventSet, ih]

/-- A section gets a run of timeslots, or keeps what it had, exactly if the fewest timeslots that
are long enough have no gap between them, or it has nothing to lose. -/
theorem startsOrKeeps_iff : StartsOrKeeps tables isTeacherAvailability sec tol duration allEvents
      firstEvent db
      (assignStartTime tables isTeacherAvailability sec duration allEvents firstEvent db) ↔
    CanStart tables isTeacherAvailability sec tol duration allEvents firstEvent db := by
  cases found : extendTimeblock duration allEvents firstEvent with
  | none =>
      have noneEnough := extendTimeblock_eq_none_iff.mp found
      rw [assignStartTime_of_none found, StartsOrKeeps, if_neg (by simp), unchanged_cleared_iff,
        CanStart]
      constructor
      · intro nothing
        exact .inr ⟨noneEnough, nothing⟩
      · intro canStart
        rcases canStart with ⟨rest, follows, count, first, _⟩ | ⟨_, nothing⟩
        · have short := noneEnough rest follows count first.inRange
          rw [first.enough] at short
          exact absurd short (by decide)
        · exact nothing
  | some slots =>
      rcases extendTimeblock_eq_some_iff.mp found with ⟨rest, follows, count, rfl, first⟩
      rw [assignStartTime_of_some found, StartsOrKeeps, if_pos rfl, CanStart]
      have gets : ((clearFloatingResources tables isTeacherAvailability sec
          (db.clearRooms tables sec)).assignMeetingTimes sec
            (firstEvent :: rest.take count)).meetingTimes sec =
          eventSet (firstEvent :: rest.take count) := Function.update_self _ _ _
      rw [gets]
      constructor
      · intro run
        exact .inl ⟨rest, follows, count, first, run.consecutive, run.contiguous, run.enough⟩
      · intro canStart
        rcases canStart with ⟨other, alsoFollows, fewest, least, together⟩ | ⟨noneEnough, _⟩
        · cases Option.mem_unique follows alsoFollows
          have same : fewest = count := first.unique least
          rw [same] at together
          exact ⟨head_eventSet, together.consecutive, together.contiguous, together.enough⟩
        · have short := noneEnough rest follows count first.inRange
          rw [first.enough] at short
          exact absurd short (by decide)

namespace Sample

/-- An hour of the first day. -/
def saturday : Resources.Event :=
  ⟨1, some 1, ⟨2024, 1, 6, 9, 0, 0, 0, Resources.Sample.nine_valid⟩, ⟨2024, 1, 6, 10, 0, 0, 0, Resources.Sample.ten_valid⟩⟩

/-- An hour of the second day. -/
def sunday : Resources.Event :=
  ⟨2, some 1, ⟨2024, 1, 7, 9, 0, 0, 0, by decide⟩, ⟨2024, 1, 7, 10, 0, 0, 0, by decide⟩⟩

/-- A room on the first day. -/
def weekend : Tables where
  program := 1
  events := [saturday, sunday]
  resources := [⟨10, ['A'], true, some 1, saturday⟩]
  sections := [1]
  eventIds := by decide
  resourceIds := by decide
  sectionIds := by decide

/-- The section meets in the room. -/
def scheduled : Database where
  meetingTimes := fun _ => [saturday]
  resourceAssignments := [⟨10, some 1, 0⟩]
  changeLog := []

/-- From the second day on there is not enough time for two hours, and the section loses its room;
from the first day on it goes on overnight. -/
theorem scheduled_not_started :
    ¬StartsOrKeeps weekend (fun _ => false) 1 15 (some 2) [saturday, sunday] sunday scheduled
        (assignStartTime weekend (fun _ => false) 1 (some 2) [saturday, sunday] sunday scheduled) ∧
      ¬StartsOrKeeps weekend (fun _ => false) 1 15 (some 2) [saturday, sunday] saturday scheduled
        (assignStartTime weekend (fun _ => false) 1 (some 2) [saturday, sunday] saturday
          scheduled) := by
  have late : extendTimeblock (some 2) [saturday, sunday] sunday = none := by decide +kernel
  have overnight : extendTimeblock (some 2) [saturday, sunday] saturday =
      some [saturday, sunday] := by decide +kernel
  constructor
  · rw [assignStartTime_of_none late, StartsOrKeeps, if_neg (by simp), unchanged_cleared_iff]
    decide
  · rw [assignStartTime_of_some overnight, StartsOrKeeps, if_pos rfl]
    intro run
    have chain := run.contiguous
    revert chain
    decide

end Sample

end EspWebsite.Scheduling
