import EspWebsite.AjaxScheduling.Browser
import EspWebsite.AjaxScheduling.Requests

/-!
# Replaying the change log

How a page replays the entries of the change log, and when the requests that change the schedule
append entries that replay to the schedule of the database.
-/

namespace EspWebsite.AjaxScheduling

open Python Resources Transactions

def replayEntry (schedule : ℕ → Assignment) (entry : AJAXChangeLogEntry) : ℕ → Assignment :=
  match entry.change with
  | .scheduling timeslots roomName => Function.update schedule entry.clsId
      (Board.scheduled entry.clsId timeslots roomName).assignment
  | _ => schedule

/-- Entries are replayed in their order. -/
def replay (schedule : ℕ → Assignment) (entries : AJAXChangeLog) : ℕ → Assignment :=
  entries.foldl replayEntry schedule

namespace Board

variable {page : Page} {board : Board page} {value : Option ℕ} {room : RoomId}
  {timeslots : List ℤ}

theorem assignments_setCells :
    (setCells value room timeslots board).1.assignments = board.assignments := by
  induction timeslots generalizing board with
  | nil => rfl
  | cons first rest ih =>
      rw [setCells.eq_def]
      dsimp only
      split
      next =>
        split
        next => exact ih
        next => rfl
      next => rfl

theorem assignments_scheduleSectionLocal {placement : Placement}
    (completes : (board.scheduleSectionLocal placement).2 = true) :
    (board.scheduleSectionLocal placement).1.assignments =
      Function.update board.assignments placement.sec placement.assignment := by
  rw [scheduleSectionLocal] at completes ⊢
  split at completes
  next same =>
    rw [if_pos same]
    rw [Bool.and_eq_true, decide_eq_true_eq] at same
    have rooms : (board.assignments placement.sec).roomId = placement.assignment.roomId := by
      cases room : (board.assignments placement.sec).roomId with
      | nan =>
          rw [room] at same
          cases same.1
      | null =>
          rw [room] at same
          exact of_decide_eq_true same.1
      | id number =>
          rw [room] at same
          exact of_decide_eq_true same.1
    have unchanged : board.assignments placement.sec = placement.assignment := by
      cases found : board.assignments placement.sec with
      | mk roomId timeslots =>
          rw [found] at rooms same
          cases given : placement.assignment with
          | mk newRoom newTimeslots =>
              rw [given] at rooms same
              exact congrArg₂ Assignment.mk rooms same.2
    rw [← unchanged, Function.update_eq_self]
  next different =>
    rw [if_neg different]
    have removed := @assignments_setCells page board none
      (board.assignments placement.sec).roomId (board.assignments placement.sec).timeslots
    cases outcome : setCells none (board.assignments placement.sec).roomId
      (board.assignments placement.sec).timeslots board with
    | mk between complete =>
        rw [outcome] at completes removed
        cases complete with
        | false => cases completes
        | true =>
            have added := @assignments_setCells page between (some placement.sec)
              placement.assignment.roomId placement.assignment.timeslots
            dsimp only at completes removed ⊢
            cases outcome : setCells (some placement.sec) placement.assignment.roomId
              placement.assignment.timeslots between with
            | mk after complete =>
                rw [outcome] at completes added
                cases complete with
                | false => cases completes
                | true =>
                    dsimp only at added ⊢
                    rw [added, removed]

/-- What a page does with entries that it applies to the end is to replay them. -/
theorem assignments_applyChanges {completes : AJAXChangeLogEntry → Bool}
    {entries : List AJAXChangeLogEntry} (whole : (applyChanges completes entries board).2 = true) :
    (applyChanges completes entries board).1.assignments = replay board.assignments entries := by
  induction entries generalizing board with
  | nil => rfl
  | cons entry rest ih =>
      have applied : ∀ after, board.applyChange completes entry = (after, true) →
          after.assignments = replayEntry board.assignments entry := by
        intro after outcome
        rw [applyChange] at outcome
        rw [replayEntry]
        cases change : entry.change with
        | scheduling timeslots roomName =>
            rw [change] at outcome
            dsimp only at outcome ⊢
            by_cases isSection : entry.clsId ∈ page.sections
            · rw [if_pos isSection] at outcome
              have placed := @assignments_scheduleSectionLocal page board
                (scheduled entry.clsId timeslots roomName)
              rw [outcome] at placed
              have isPlaced : (scheduled entry.clsId timeslots roomName).sec = entry.clsId := by
                rw [scheduled]
                split
                next => rfl
                next => rfl
              rw [placed rfl, isPlaced]
            · rw [if_neg isSection] at outcome
              cases (Prod.mk.inj outcome).2
        | moderator moderator assigned =>
            rw [change] at outcome
            rw [(Prod.mk.inj outcome).1]
        | comment comment locked =>
            rw [change] at outcome
            rw [(Prod.mk.inj outcome).1]
      rw [applyChanges] at whole ⊢
      cases outcome : board.applyChange completes entry with
      | mk after complete =>
          rw [outcome] at whole
          cases complete with
          | false => cases whole
          | true =>
              dsimp only at whole ⊢
              rw [ih whole, applied after outcome]
              rfl

end Board

/-! ## The schedule of the database -/

/-- `room_id` of `schedule_assignments`: null without a room at the earliest meeting time, none if
`identical_id` raises. -/
def roomId (tables : Tables) (db : Database) (sec : ℕ) : Option RoomId :=
  match (db.initialRooms tables sec).head? with
  | none => some .null
  | some room => (tables.identicalId room.name).map fun id : ℕ => RoomId.id id

/-- An assignment has the times and the room that a section has in the database. -/
structure Shows (tables : Tables) (db : Database) (sec : ℕ) (assignment : Assignment) : Prop where
  times : ∀ timeslot, timeslot ∈ assignment.timeslots ↔
    ∃ event ∈ db.meetingTimes sec, (event.id : ℤ) = timeslot
  room : roomId tables db sec = some assignment.roomId

/-- Entries were appended that replay what happened to the schedule. -/
def Tracks (tables : Tables) (before after : Database) : Prop :=
  ∃ entries, after.changeLog = before.changeLog ++ entries ∧
    ∀ schedule, (∀ sec, Shows tables before sec (schedule sec)) →
      ∀ sec, Shows tables after sec (replay schedule entries sec)

/-- A section is scheduled at the same times, and in the same rooms at the earliest one. -/
def SameSchedule (tables : Tables) (before after : Database) (sec : ℕ) : Prop :=
  after.meetingTimes sec = before.meetingTimes sec ∧
    after.initialRooms tables sec = before.initialRooms tables sec

/-- A page reads a text as the id by which it knows the room with this name, and the room at the
earliest of some times is a classroom. -/
def NamesRoom (tables : Tables) (times : List Resources.Event) (name text : List Char) : Prop :=
  (∃ id, tables.identicalId name = some id ∧ parseRoom text = .id id) ∧
    ∀ initial ∈ times.argmin Resources.Event.start, ∀ room ∈ tables.roomAt name initial,
      room.isClassroom = true

variable {tables : Tables} {before between after db : Database} {sec cls : ℕ}
  {timeslots : List ℕ} {roomName name : List Char} {entry : AJAXChangeLogEntry}

theorem SameSchedule.shows (same : SameSchedule tables before after sec) {assignment : Assignment}
    (shown : Shows tables before sec assignment) : Shows tables after sec assignment where
  times := by
    rw [same.1]
    exact shown.times
  room := by
    rw [roomId, same.2]
    exact shown.room

theorem SameSchedule.of_classrooms (times : after.meetingTimes sec = before.meetingTimes sec)
    (rooms : ∀ room, room ∈ after.classrooms tables sec ↔ room ∈ before.classrooms tables sec) :
    SameSchedule tables before after sec :=
  ⟨times, Database.initialRooms_congr times fun _ _ room _ _ => rooms room⟩

/-- A section that is not scheduled has no rooms. -/
theorem SameSchedule.of_unscheduled (unscheduled : before.meetingTimes sec = [])
    (still : after.meetingTimes sec = []) : SameSchedule tables before after sec := by
  refine ⟨still.trans unscheduled.symm, ?_⟩
  rw [Database.initialRooms, Database.initialRooms, unscheduled, still]
  rfl

theorem Tracks.refl (db : Database) : Tracks tables db db :=
  ⟨[], (List.append_nil _).symm, fun _ shown => shown⟩

theorem Tracks.trans (first : Tracks tables before between)
    (second : Tracks tables between after) : Tracks tables before after := by
  rcases first with ⟨entries, appended, tracks⟩
  rcases second with ⟨more, further, later⟩
  refine ⟨entries ++ more, by rw [further, appended, List.append_assoc], fun schedule shown => ?_⟩
  rw [replay, List.foldl_append]
  exact later _ (tracks schedule shown)

theorem Tracks.of_same (log : after.changeLog = before.changeLog)
    (same : ∀ sec, SameSchedule tables before after sec) : Tracks tables before after :=
  ⟨[], by rw [log, List.append_nil], fun _ shown sec => (same sec).shows (shown sec)⟩

theorem Tracks.of_entry {index : ℕ} {user : Option ℕ} {time : ℤ}
    (log : after.changeLog = before.changeLog ++
      [⟨index, .scheduling timeslots roomName, cls, user, time⟩])
    (others : ∀ sec, sec ≠ cls → SameSchedule tables before after sec)
    (own : Shows tables after cls (Board.scheduled cls timeslots roomName).assignment) :
    Tracks tables before after := by
  refine ⟨_, log, fun schedule shown sec => ?_⟩
  rw [replay, List.foldl_cons, List.foldl_nil, replayEntry]
  dsimp only
  by_cases same : sec = cls
  · rw [same, Function.update_self]
    exact own
  · rw [Function.update_of_ne same]
    exact (others sec same).shows (shown sec)

theorem shows_unscheduled (none : db.meetingTimes cls = []) :
    Shows tables db cls (Board.scheduled cls [] roomName).assignment where
  times := by
    rw [none]
    simp [Board.scheduled, Board.unscheduled]
  room := by
    rw [roomId, Database.initialRooms, none]
    rfl

/-- A section whose classrooms all have one name, and that has the first room of that name at its
earliest time, is shown in the room that a text names. -/
theorem shows_scheduled {times : List Resources.Event} (scheduled : db.meetingTimes cls = times)
    (nonempty : times ≠ []) (names : NamesRoom tables times name roomName)
    (classrooms : ∀ room ∈ db.classrooms tables cls, room.name = name)
    (assigned : ∀ event ∈ times, ∃ room, tables.roomAt name event = some room ∧
      (room.isClassroom = true → room ∈ db.classrooms tables cls)) :
    Shows tables db cls
      (Board.scheduled cls (times.map Resources.Event.id) roomName).assignment := by
  have assignment : (Board.scheduled cls (times.map Resources.Event.id) roomName).assignment =
      ⟨parseRoom roomName, (times.map Resources.Event.id).map Nat.cast⟩ := by
    rw [Board.scheduled, if_neg (fun none => nonempty (List.map_eq_nil_iff.mp none))]
  rcases names with ⟨⟨id, known, read⟩, classroom⟩
  rw [assignment]
  constructor
  · intro timeslot
    rw [scheduled]
    simp
  · dsimp only
    rw [roomId]
    cases earliest : times.argmin Resources.Event.start with
    | none => exact absurd (List.argmin_eq_none.mp earliest) nonempty
    | some initial =>
        rw [← scheduled] at earliest
        have isTime : initial ∈ times := by
          rw [← scheduled]
          exact List.argmin_mem earliest
        rcases assigned initial isTime with ⟨room, found, isClassroom⟩
        have isInitial : room ∈ db.initialRooms tables cls := by
          rw [Database.mem_initialRooms earliest]
          rw [scheduled] at earliest
          exact ⟨isClassroom (classroom initial earliest room found),
            (Tables.mem_of_roomAt found).2.2⟩
        cases rooms : db.initialRooms tables cls with
        | nil =>
            rw [rooms] at isInitial
            cases isInitial
        | cons first rest =>
            have isFirst : first ∈ db.initialRooms tables cls := by
              rw [rooms]
              exact List.mem_cons_self
            rw [Database.mem_initialRooms earliest] at isFirst
            rw [List.head?_cons, read]
            dsimp only
            rw [classrooms first isFirst.1, known]
            rfl

end EspWebsite.AjaxScheduling
