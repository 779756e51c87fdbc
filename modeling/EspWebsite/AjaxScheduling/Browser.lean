import EspWebsite.AjaxScheduling.Sections
import EspWebsite.Library.Runs

/-!
# Calls and callbacks

The calls of `Sections.js` that change the schedule, the callbacks of their requests, and the
entries of the change log that `ChangelogFetcher.js` applies.
-/

namespace EspWebsite.AjaxScheduling

namespace Board

variable {page : Page} (board : Board page)

/-- A section in a room, with the timeslots that it has. -/
def inRoom (room : RoomId) (sec : ℕ) : Placement :=
  ⟨sec, room, (board.assignments sec).timeslots⟩

/-- The section in the cell that `getCell` finds. -/
def cellSection (room : RoomId) (timeslot : ℤ) : Throws (Option ℕ) :=
  match room with
  | .id number =>
      if page.hasCell number timeslot then .ok (board.cells number timeslot)
      else .error .typeError
  | _ => .error .typeError

/-- The cells that make room for the other section, each with its section, unless there is not
enough time.  A section without a room counts once for each timeslot that it needs. -/
def swappingSections (own other : ℕ) : Throws (Option (List (Option ℕ))) :=
  let room := (board.assignments own).roomId
  if room = .null then do
    match ← page.getTimeslotsToScheduleSection own (board.assignments other).timeslots.head? with
    | none => .error .typeError
    | some timeslots => .ok (some (timeslots.map fun _ => some own))
  else do
    match ← page.getTimeslotsToScheduleSection other (board.assignments own).timeslots.head? with
    | none => .ok none
    | some timeslots => (timeslots.mapM (board.cellSection room)).map some

/-- The new assignments of sections in a room, from a timeslot on, unless one of them is not
valid. -/
def newAssignments (context : Context) (room : RoomId) (ignoreSections : List ℕ) :
    List (Option ℕ) → Option Timeslot → List Placement → Throws (Option (List Placement))
  | [], _, placements => .ok (some placements)
  | sec :: rest, startSlot, placements =>
      match sec with
      | none =>
          if room = .null then newAssignments context room ignoreSections rest startSlot placements
          else
            match startSlot with
            | none => .error .typeError
            | some slot => newAssignments context room ignoreSections rest
                (page.getByOrder (page.order slot + 1)) placements
      | some sec =>
          if room = .null then
            newAssignments context room ignoreSections rest startSlot
              (placements ++ [unscheduled sec])
          else if (placements.getLast?.map Placement.sec) = some sec then
            newAssignments context room ignoreSections rest startSlot placements
          else
            match startSlot with
            | none => .error .typeError
            | some slot =>
                match page.getTimeslotsToScheduleSection sec (some slot.id) with
                | .error thrown => .error thrown
                | .ok timeslots =>
                    match board.validateAssignment context sec room timeslots ignoreSections
                      true with
                    | .error thrown => .error thrown
                    | .ok false => .ok none
                    | .ok true =>
                        let times := timeslots.getD []
                        newAssignments context room ignoreSections rest
                          ((times.getLast?.bind page.getById).bind fun last =>
                            page.getByOrder (page.order last + 1))
                          (placements ++ [⟨sec, room, times⟩])

/-- What `swapSections` changes at once, and what it changes back when the request fails. -/
structure Swap where
  changes : List Placement
  restores : List Placement

/-- `swapSections`: nothing if it is not possible or the user does not confirm it. -/
def swapSections (context : Context) (section1 section2 : ℕ) (confirms : Bool) :
    Throws (Option Swap) :=
  let old1 := board.assignments section1
  let old2 := board.assignments section2
  if context.schedulingLocked section1 || context.schedulingLocked section2 then .ok none
  else if old1.roomId = .null ∧ old2.roomId = .null then .ok none
  else do
    let some swapping1 ← board.swappingSections section1 section2 | .ok none
    let some swapping2 ← board.swappingSections section2 section1 | .ok none
    let sections1 := swapping1.reduceOption.eraseDups
    let sections2 := swapping2.reduceOption.eraseDups
    if (1 < sections1.length ∨ 1 < sections2.length) ∧ confirms = false then .ok none
    else
      let ignoreSections := (swapping1 ++ swapping2).reduceOption
      let some new1 ← board.newAssignments context old2.roomId ignoreSections swapping1
        (old2.timeslots.head?.bind page.getById) [] | .ok none
      let some new2 ← board.newAssignments context old1.roomId ignoreSections swapping2
        (old1.timeslots.head?.bind page.getById) [] | .ok none
      .ok (some ⟨swapSectionsLocal new1 new2,
        swapSectionsLocal (sections1.map (board.inRoom old1.roomId))
          (sections2.map (board.inRoom old2.roomId))⟩)

/-- The placement that an entry for a section stands for. -/
def scheduled (sec : ℕ) (timeslots : List ℕ) (roomName : List Char) : Placement :=
  if timeslots = [] then unscheduled sec
  else ⟨sec, parseRoom roomName, timeslots.map Nat.cast⟩

/-- How `applyChangeLog` applies an entry.  Entries of other kinds move no section; whether they
run to their end is given. -/
def applyChange (completes : AJAXChangeLogEntry → Bool) (entry : AJAXChangeLogEntry) :
    Board page × Bool :=
  match entry.change with
  | .scheduling timeslots roomName =>
      if entry.clsId ∈ page.sections then
        board.scheduleSectionLocal (scheduled entry.clsId timeslots roomName)
      else (board, false)
  | _ => (board, completes entry)

/-- Entries are applied one after the other, until the page throws. -/
def applyChanges (completes : AJAXChangeLogEntry → Bool) :
    List AJAXChangeLogEntry → Board page → Board page × Bool
  | [], board => (board, true)
  | entry :: rest, board =>
      match board.applyChange completes entry with
      | (after, false) => (after, false)
      | (after, true) => applyChanges completes rest after

end Board

/-- The page with the requests that have no answer yet, each with the placements that its error
callback makes. -/
structure Browser (page : Page) where
  board : Board page
  requests : List (List Placement)

/-- What happens in the browser. -/
inductive Event where
  | schedule (context : Context) (sec : ℕ) (room : RoomId) (timeslots : Option (List ℤ))
  | unschedule (context : Context) (sec : ℕ)
  | swap (context : Context) (section1 section2 : ℕ) (confirms : Bool)
  | success (request : ℕ)
  | error (request : ℕ)
  | changeLog (completes : AJAXChangeLogEntry → Bool) (entries : List AJAXChangeLogEntry)

namespace Browser

variable {page : Page} (browser : Browser page)

/-- Placements are made at once, and if they do not throw, a request is sent whose failure
makes others. -/
def request (changes restores : List Placement) : Browser page :=
  match Board.placeAll changes browser.board with
  | (board, true) => ⟨board, browser.requests ++ [restores]⟩
  | (board, false) => ⟨board, browser.requests⟩

def scheduleSectionWithTimeslots (context : Context) (sec : ℕ) (room : RoomId)
    (timeslots : Option (List ℤ)) : Browser page :=
  match browser.board.validateAssignment context sec room timeslots []
      (!context.recurringSelectionMode) with
  | .ok true =>
      if context.schedulingLocked sec then browser
      else browser.request [⟨sec, room, timeslots.getD []⟩]
        [⟨sec, browser.board.assignments sec⟩]
  | _ => browser

def unscheduleSection (context : Context) (sec : ℕ) : Browser page :=
  if context.schedulingLocked sec then browser
  else browser.request [Board.unscheduled sec] [⟨sec, browser.board.assignments sec⟩]

def answered (request : ℕ) : Browser page :=
  { browser with requests := browser.requests.eraseIdx request }

/-- What an event makes of the page. -/
def step (browser : Browser page) : Event → Browser page
  | .schedule context sec room timeslots =>
      browser.scheduleSectionWithTimeslots context sec room timeslots
  | .unschedule context sec => browser.unscheduleSection context sec
  | .swap context section1 section2 confirms =>
      match browser.board.swapSections context section1 section2 confirms with
      | .ok (some swap) => browser.request swap.changes swap.restores
      | _ => browser
  | .success request => browser.answered request
  | .error request =>
      { browser.answered request with
        board := (Board.placeAll (browser.requests[request]?.getD []) browser.board).1 }
  | .changeLog completes entries =>
      { browser with board := (Board.applyChanges completes entries browser.board).1 }

end Browser

end EspWebsite.AjaxScheduling
