import Mathlib.Data.Rat.Floor
import EspWebsite.AjaxScheduling.ChangeLog

/-!
# The scheduler in the browser

`Timeslots.js`, `Matrix.js` and `Sections.js` of the scheduling page, as far as they decide
where sections are, and `applyChangeLog` of `ChangelogFetcher.js`.
-/

namespace EspWebsite.AjaxScheduling

open Python

/-- What JavaScript throws when a value has no such property. -/
inductive JsError where
  | typeError

/-- A computation that may throw. -/
abbrev Throws := Except JsError

/-- A room ID: that of a room, `null`, or what `parseInt` makes of other texts. -/
inductive RoomId where
  | null
  | nan
  | id (number : ℤ)
  deriving DecidableEq

/-- `==` of room IDs. -/
def RoomId.looselyEqual : RoomId → RoomId → Bool
  | .nan, _ => false
  | left, right => left = right

/-- `parseInt(text, 10)`, which ignores what follows the digits. -/
def parseRoom (text : List Char) : RoomId :=
  let trimmed := text.dropWhile isSpace
  let unsigned := match trimmed with
    | '-' :: rest => rest
    | '+' :: rest => rest
    | digits => digits
  match unsigned.takeWhile Char.isDigit with
  | [] => .nan
  | digits =>
      let number : ℤ := Nat.ofDigitChars 10 digits 0
      .id (if trimmed.head? = some '-' then -number else number)

/-- A timeslot: when it starts and ends, in seconds, and on which days of the month. -/
structure Timeslot where
  id : ℤ
  start : ℤ
  finish : ℤ
  startDay : ℕ
  endDay : ℕ
  deriving DecidableEq

/-- A room, with the timeslots at which it is available. -/
structure Room where
  id : ℤ
  availability : List ℤ

/-- A teacher or a moderator, with the sections of that person. -/
structure Person where
  id : ℕ
  availability : List ℤ
  sections : List ℕ

/-- The data of the page that do not change: the timeslots in the order of their starts, those
of lunch, the longest break in minutes between contiguous timeslots (unless that is not a number),
the rooms, and the sections with their lengths in hours. -/
structure Page where
  timeslots : List Timeslot
  lunchTimeslots : List ℤ
  minimumDifference : Option ℤ
  rooms : List Room
  sections : List ℕ
  length : ℕ → ℚ

/-- What a call reads beside the schedule.  Comments, moderators and the panels of the page change
it between calls. -/
structure Context where
  override : Bool
  recurringSelectionMode : Bool
  schedulingLocked : ℕ → Bool
  teacherData : ℕ → Option Person
  moderatorData : ℕ → Option Person
  teachers : ℕ → List Person
  moderators : ℕ → List Person

/-- An entry of `scheduleAssignments`. -/
structure Assignment where
  roomId : RoomId
  timeslots : List ℤ
  deriving DecidableEq

/-- A section with the assignment that it gets. -/
structure Placement where
  sec : ℕ
  assignment : Assignment
  deriving DecidableEq

namespace Page

variable (page : Page)

/-! ## Timeslots -/

def getById (id : ℤ) : Option Timeslot := page.timeslots.find? fun timeslot => timeslot.id = id

/-- The `order` of a timeslot. -/
def order (timeslot : Timeslot) : ℕ := page.timeslots.idxOf timeslot

def getByOrder (order : ℕ) : Option Timeslot := page.timeslots[order]?

/-- `get_hours_spanned`, in hundredths. -/
def hoursSpanned (first last : Timeslot) : ℚ :=
  (⌊((last.finish - first.start : ℤ) : ℚ) / 3600 * 100 + 1 / 2⌋ : ℤ) / 100

/-- Two timeslots follow each other without a long break. -/
def follows (earlier later : Timeslot) : Bool :=
  page.order earlier + 1 = page.order later && earlier.endDay = later.startDay &&
    match page.minimumDifference with
    | none => true
    | some minimumDifference =>
        decide (((later.start - earlier.finish : ℤ) : ℚ) / 60 ≤ minimumDifference)

def areTimeslotsContiguous : List Timeslot → Bool
  | earlier :: later :: rest =>
      page.follows earlier later && areTimeslotsContiguous (later :: rest)
  | _ => true

/-- The timeslots that a section needs after some timeslot, if there are enough. -/
def furtherTimeslots (length : ℚ) (first : Timeslot) :
    List Timeslot → Timeslot → Option (List ℤ)
  | [], last => if hoursSpanned first last < length then none else some []
  | next :: rest, last =>
      if hoursSpanned first last < length then
        if page.follows last next then
          (furtherTimeslots length first rest next).map fun times => next.id :: times
        else none
      else some []

def getTimeslotsToScheduleSection (sec : ℕ) (firstTimeslotId : Option ℤ) :
    Throws (Option (List ℤ)) :=
  match firstTimeslotId.bind page.getById with
  | none => .error .typeError
  | some first => .ok <|
      (page.furtherTimeslots (page.length sec) first
        (page.timeslots.drop (page.order first + 1)) first).map fun times => first.id :: times

def overLunch (timeslots : List ℤ) : Bool :=
  let scheduled := timeslots.filterMap page.getById
  let lunches := page.lunchTimeslots.filterMap page.getById
  scheduled.any fun timeslot =>
    let today := lunches.filter fun lunch => lunch.endDay = timeslot.startDay
    !today.isEmpty && today.all fun lunch =>
      scheduled.any fun other => other.startDay = timeslot.startDay && other.id = lunch.id

/-! ## Cells -/

/-- There is a cell for the room and the timeslot, and it is not disabled. -/
def usable (room timeslot : ℤ) : Bool :=
  (page.getById timeslot).isSome &&
    page.rooms.any fun other => other.id = room && decide (timeslot ∈ other.availability)

/-- There is a cell for the room and the timeslot. -/
def hasCell (room timeslot : ℤ) : Bool :=
  (page.getById timeslot).isSome && page.rooms.any fun other => other.id = room

end Page

/-- The sections in the cells of the page, and where each section is assigned.  Disabled cells
have no sections. -/
structure Board (page : Page) where
  cells : ℤ → ℤ → Option ℕ
  assignments : ℕ → Assignment
  onGrid : ∀ room timeslot, (cells room timeslot).isSome = true →
    page.usable room timeslot = true

namespace Board

variable {page : Page} (board : Board page)

/-- `addSection` and `removeSection` of a cell. -/
def setCell (room timeslot : ℤ) (usable : page.usable room timeslot = true) (value : Option ℕ) :
    Board page where
  cells := fun otherRoom otherTimeslot =>
    if otherRoom = room ∧ otherTimeslot = timeslot then value
    else board.cells otherRoom otherTimeslot
  assignments := board.assignments
  onGrid := by
    intro otherRoom otherTimeslot occupied
    split at occupied
    next same =>
      rw [same.1, same.2]
      exact usable
    next => exact board.onGrid _ _ occupied

theorem cells_setCell {room timeslot other otherTimeslot : ℤ}
    {usable : page.usable room timeslot = true} {value : Option ℕ} :
    (board.setCell room timeslot usable value).cells other otherTimeslot =
      if other = room ∧ otherTimeslot = timeslot then value else board.cells other otherTimeslot :=
  rfl

/-- One cell after the other gets a value, until there is no usable cell: then the page throws. -/
def setCells (value : Option ℕ) (room : RoomId) : List ℤ → Board page → Board page × Bool
  | [], board => (board, true)
  | timeslot :: rest, board =>
      match room with
      | .id number =>
          if usable : page.usable number timeslot = true then
            setCells value room rest (board.setCell number timeslot usable value)
          else (board, false)
      | _ => (board, false)

/-- `scheduleSectionLocal`, with whether it runs to its end. -/
def scheduleSectionLocal (placement : Placement) : Board page × Bool :=
  let old := board.assignments placement.sec
  let new := placement.assignment
  if old.roomId.looselyEqual new.roomId && decide (old.timeslots = new.timeslots) then (board, true)
  else
    match setCells none old.roomId old.timeslots board with
    | (removed, false) => (removed, false)
    | (removed, true) =>
        match setCells (some placement.sec) new.roomId new.timeslots removed with
        | (added, false) => (added, false)
        | (added, true) =>
            ({ added with
                assignments := Function.update added.assignments placement.sec new }, true)

/-- `unscheduleSectionLocal`. -/
def unscheduled (sec : ℕ) : Placement := ⟨sec, .null, []⟩

/-- Placements are made one after the other, until the page throws. -/
def placeAll : List Placement → Board page → Board page × Bool
  | [], board => (board, true)
  | placement :: rest, board =>
      match board.scheduleSectionLocal placement with
      | (after, false) => (after, false)
      | (after, true) => placeAll rest after

/-- A section with a room is put there, one without a room is unscheduled. -/
def swapped (placement : Placement) : Placement :=
  if placement.assignment.roomId = .null then unscheduled placement.sec else placement

/-- The placements of `swapSectionsLocal`. -/
def swapSectionsLocal (assignments1 assignments2 : List Placement) : List Placement :=
  assignments1.map (fun placement => unscheduled placement.sec) ++
    assignments2.map swapped ++ assignments1.map swapped

/-! ## Validating -/

/-- The timeslots at which a person is free, who may have sections of another kind too. -/
def freeTimeslots (sec : ℕ) (ignoreSections : List ℕ) (others : ℕ → Option Person)
    (person : Person) : List ℤ :=
  let busy := person.sections ++ ((others person.id).map Person.sections).getD []
  let counted := busy.filter fun other => other ≠ sec && decide (other ∉ ignoreSections)
  (counted.flatMap fun other => (board.assignments other).timeslots).foldl List.erase
    (person.availability.filter fun id => (page.getById id).isSome)

/-- The first list of `getAvailableTimeslots`. -/
def getAvailableTimeslots (context : Context) (sec : ℕ) (ignoreSections : List ℕ) : List ℤ :=
  if context.override then page.timeslots.map Timeslot.id
  else
    let availabilities :=
      (context.teachers sec).map (board.freeTimeslots sec ignoreSections context.moderatorData) ++
        (context.moderators sec).map (board.freeTimeslots sec ignoreSections context.teacherData)
    match availabilities with
    | [] => []
    | first :: rest => first.filter fun id => rest.all fun availability => id ∈ availability

def validateCells (available : List ℤ) (sec : ℕ) (ignoreSections : List ℕ) (room : RoomId) :
    List ℤ → Throws Bool
  | [] => .ok true
  | timeslot :: rest =>
      match room with
      | .id number =>
          if page.hasCell number timeslot then
            if page.usable number timeslot &&
                ((board.cells number timeslot).all fun other =>
                  other = sec || decide (other ∈ ignoreSections)) &&
                decide (timeslot ∈ available) then
              validateCells available sec ignoreSections room rest
            else .ok false
          else .error .typeError
      | _ => .error .typeError

/-- Whether `validateAssignment` finds an assignment valid. -/
def validateAssignment (context : Context) (sec : ℕ) (room : RoomId) (timeslots : Option (List ℤ))
    (ignoreSections : List ℕ) (enforceContiguous : Bool) : Throws Bool :=
  match timeslots with
  | none => .ok false
  | some timeslots =>
      let available := board.getAvailableTimeslots context sec ignoreSections
      (board.validateCells available sec ignoreSections room timeslots).map fun valid =>
        valid &&
          (!enforceContiguous ||
            page.areTimeslotsContiguous (timeslots.filterMap page.getById)) &&
          !page.overLunch timeslots

end Board

end EspWebsite.AjaxScheduling
