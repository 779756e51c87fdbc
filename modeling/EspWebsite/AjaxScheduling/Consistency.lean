import EspWebsite.AjaxScheduling.Browser

/-!
# Cells and assignments

When the sections in the cells of the page stay those of `scheduleAssignments`, whatever calls,
callbacks and entries of the change log come.
-/

namespace EspWebsite.AjaxScheduling

open Runs

namespace Board

variable {page : Page}

/-- A cell holds a section if and only if the section is assigned to its room and its
timeslot. -/
def Consistent (board : Board page) : Prop :=
  ∀ room timeslot sec, board.cells room timeslot = some sec ↔
    (board.assignments sec).roomId = .id room ∧ timeslot ∈ (board.assignments sec).timeslots

/-- The section already has that assignment. -/
def Stays (board : Board page) (placement : Placement) : Prop :=
  (board.assignments placement.sec).roomId.looselyEqual placement.assignment.roomId = true ∧
    (board.assignments placement.sec).timeslots = placement.assignment.timeslots

/-- The page throws before it changes a cell: the section has timeslots without a room, or it has
none and the first new cell is not usable. -/
def Refuses (board : Board page) (placement : Placement) : Prop :=
  ((board.assignments placement.sec).timeslots ≠ [] ∧
      ∀ number, (board.assignments placement.sec).roomId ≠ .id number) ∨
    (board.assignments placement.sec).timeslots = [] ∧
      ∃ timeslot ∈ placement.assignment.timeslots.head?,
        ∀ number, placement.assignment.roomId = .id number →
          page.usable number timeslot = false

/-- The new cells of a section are usable and hold no other section. -/
def Free (board : Board page) (placement : Placement) : Prop :=
  ∀ timeslot ∈ placement.assignment.timeslots, ∃ number,
    placement.assignment.roomId = .id number ∧ page.usable number timeslot = true ∧
      ∀ other, board.cells number timeslot = some other → other = placement.sec

/-- A placement takes no cell of another section. -/
def Fits (board : Board page) (placement : Placement) : Prop :=
  board.Stays placement ∨ board.Refuses placement ∨ board.Free placement

def AllFit : List Placement → Board page → Prop
  | [], _ => True
  | placement :: rest, board => board.Fits placement ∧
      ((board.scheduleSectionLocal placement).2 = true →
        AllFit rest (board.scheduleSectionLocal placement).1)

def ChangeFits (board : Board page) (entry : AJAXChangeLogEntry) : Prop :=
  match entry.change with
  | .scheduling timeslots roomName => entry.clsId ∈ page.sections →
      board.Fits (scheduled entry.clsId timeslots roomName)
  | _ => True

/-- What each of the entries changes fits when it is applied. -/
def ChangesFit (completes : AJAXChangeLogEntry → Bool) : List AJAXChangeLogEntry → Board page → Prop
  | [], _ => True
  | entry :: rest, board => board.ChangeFits entry ∧
      ((board.applyChange completes entry).2 = true →
        ChangesFit completes rest (board.applyChange completes entry).1)

variable {board : Board page} {placement : Placement} {room : RoomId} {timeslots : List ℤ}
  {value : Option ℕ}

/-! ## Setting cells -/

theorem setCells_of_usable
    (usable : ∀ timeslot ∈ timeslots, ∃ number, room = .id number ∧
      page.usable number timeslot = true) :
    (setCells value room timeslots board).2 = true ∧
      (setCells value room timeslots board).1.assignments = board.assignments ∧
      ∀ number timeslot, (setCells value room timeslots board).1.cells number timeslot =
        if room = .id number ∧ timeslot ∈ timeslots then value
        else board.cells number timeslot := by
  induction timeslots generalizing board with
  | nil => exact ⟨rfl, rfl, fun number timeslot => (if_neg fun both => nomatch both.2).symm⟩
  | cons first rest ih =>
      rcases usable first (List.mem_cons_self ..) with ⟨number, rfl, isUsable⟩
      have later := @ih (board.setCell number first isUsable value)
        fun timeslot isRest => usable timeslot (List.mem_cons_of_mem _ isRest)
      rw [setCells, dif_pos isUsable]
      refine ⟨later.1, later.2.1, fun other timeslot => ?_⟩
      rw [later.2.2, cells_setCell]
      by_cases isRest : RoomId.id number = .id other ∧ timeslot ∈ rest
      · rw [if_pos isRest, if_pos ⟨isRest.1, List.mem_cons_of_mem _ isRest.2⟩]
      · rw [if_neg isRest]
        by_cases isFirst : other = number ∧ timeslot = first
        · rw [if_pos isFirst, if_pos ⟨by rw [isFirst.1],
            by rw [isFirst.2]; exact List.mem_cons_self ..⟩]
        · rw [if_neg isFirst, if_neg]
          intro both
          rcases List.mem_cons.mp both.2 with same | further
          · exact isFirst ⟨(RoomId.id.inj both.1).symm, same⟩
          · exact isRest ⟨both.1, further⟩

theorem setCells_of_refused (refused : ∃ timeslot ∈ timeslots.head?, ∀ number,
    room = .id number → page.usable number timeslot = false) :
    setCells value room timeslots board = (board, false) := by
  rcases refused with ⟨first, isFirst, unusable⟩
  cases timeslots with
  | nil => cases isFirst
  | cons head rest =>
      cases isFirst
      cases room with
      | null => rfl
      | nan => rfl
      | id number =>
          rw [setCells, dif_neg]
          rw [unusable number rfl]
          exact Bool.false_ne_true

/-! ## Placements -/

theorem Consistent.usable (consistent : board.Consistent) {sec : ℕ} {number timeslot : ℤ}
    (inRoom : (board.assignments sec).roomId = .id number)
    (isTimeslot : timeslot ∈ (board.assignments sec).timeslots) :
    page.usable number timeslot = true := by
  have held := (consistent number timeslot sec).mpr ⟨inRoom, isTimeslot⟩
  exact board.onGrid number timeslot (by rw [held]; rfl)

theorem Consistent.move (consistent : board.Consistent) {sec : ℕ} {new : Assignment}
    (free : board.Free ⟨sec, new⟩) {after : Board page}
    (cells : ∀ number timeslot, after.cells number timeslot =
      if new.roomId = .id number ∧ timeslot ∈ new.timeslots then some sec
      else if (board.assignments sec).roomId = .id number ∧
        timeslot ∈ (board.assignments sec).timeslots then none
      else board.cells number timeslot)
    (assignments : after.assignments = Function.update board.assignments sec new) :
    after.Consistent := by
  intro number timeslot other
  rw [cells, assignments]
  by_cases same : other = sec
  · rw [same, Function.update_self]
    by_cases isNew : new.roomId = .id number ∧ timeslot ∈ new.timeslots
    · rw [if_pos isNew]
      exact iff_of_true rfl isNew
    · rw [if_neg isNew]
      refine iff_of_false (fun holds => ?_) isNew
      split at holds
      next => cases holds
      next notOld => exact notOld ((consistent number timeslot sec).mp holds)
  · rw [Function.update_of_ne same]
    by_cases isNew : new.roomId = .id number ∧ timeslot ∈ new.timeslots
    · rw [if_pos isNew]
      refine iff_of_false (fun holds => same (Option.some.inj holds).symm) fun assigned => ?_
      rcases free timeslot isNew.2 with ⟨room, isRoom, _, alone⟩
      cases isNew.1.symm.trans isRoom
      exact same (alone other ((consistent number timeslot other).mpr assigned))
    · rw [if_neg isNew]
      split
      next isOld =>
        refine iff_of_false (fun holds => nomatch holds) fun assigned => same ?_
        have held := (consistent number timeslot other).mpr assigned
        rw [(consistent number timeslot sec).mpr isOld] at held
        exact (Option.some.inj held).symm
      next => exact consistent number timeslot other

theorem scheduleSectionLocal_of_refuses (moves : ¬board.Stays placement)
    (refuses : board.Refuses placement) :
    board.scheduleSectionLocal placement = (board, false) := by
  rw [scheduleSectionLocal, if_neg (by simpa [Stays] using moves)]
  rcases refuses with ⟨scheduled, noRoom⟩ | ⟨unscheduled, unusable⟩
  · rw [setCells_of_refused]
    rcases List.exists_cons_of_ne_nil scheduled with ⟨first, rest, timeslots⟩
    exact ⟨first, by rw [timeslots]; rfl, fun number inRoom => absurd inRoom (noRoom number)⟩
  · rw [unscheduled, setCells]
    dsimp only
    rw [setCells_of_refused unusable]

theorem scheduleSectionLocal_of_free (consistent : board.Consistent)
    (moves : ¬board.Stays placement) (accepts : ¬board.Refuses placement)
    (free : board.Free placement) :
    (board.scheduleSectionLocal placement).2 = true ∧
      (board.scheduleSectionLocal placement).1.Consistent := by
  have oldUsable : ∀ timeslot ∈ (board.assignments placement.sec).timeslots, ∃ number,
      (board.assignments placement.sec).roomId = .id number ∧
        page.usable number timeslot = true := by
    intro timeslot isTimeslot
    by_contra none
    refine accepts (.inl ⟨List.ne_nil_of_mem isTimeslot, fun number inRoom => none ?_⟩)
    exact ⟨number, inRoom, consistent.usable inRoom isTimeslot⟩
  have newUsable : ∀ timeslot ∈ placement.assignment.timeslots, ∃ number,
      placement.assignment.roomId = .id number ∧ page.usable number timeslot = true := by
    intro timeslot isTimeslot
    rcases free timeslot isTimeslot with ⟨number, inRoom, usable, _⟩
    exact ⟨number, inRoom, usable⟩
  rw [scheduleSectionLocal, if_neg (by simpa [Stays] using moves)]
  have removed := @setCells_of_usable page board _ _ none oldUsable
  cases outcome : setCells none (board.assignments placement.sec).roomId
    (board.assignments placement.sec).timeslots board with
  | mk between completes =>
      rw [outcome] at removed
      cases removed.1
      have added := @setCells_of_usable page between _ _ (some placement.sec) newUsable
      dsimp only
      cases outcome : setCells (some placement.sec) placement.assignment.roomId
        placement.assignment.timeslots between with
      | mk after completes =>
          rw [outcome] at added
          cases added.1
          refine ⟨rfl, consistent.move free (fun number timeslot => ?_) ?_⟩
          · exact (added.2.2 number timeslot).trans (by rw [removed.2.2])
          · exact congrArg (Function.update · placement.sec placement.assignment)
              (added.2.1.trans removed.2.1)

theorem Consistent.scheduleSectionLocal (consistent : board.Consistent)
    (fits : board.Fits placement) : (board.scheduleSectionLocal placement).1.Consistent := by
  by_cases stays : board.Stays placement
  · rw [Board.scheduleSectionLocal, if_pos (by simpa [Stays] using stays)]
    exact consistent
  · by_cases refuses : board.Refuses placement
    · rw [scheduleSectionLocal_of_refuses stays refuses]
      exact consistent
    · have free := (fits.resolve_left stays).resolve_left refuses
      exact (scheduleSectionLocal_of_free consistent stays refuses free).2

/-! ## Several placements -/

theorem Consistent.placeAll {placements : List Placement} (consistent : board.Consistent)
    (fit : AllFit placements board) : (Board.placeAll placements board).1.Consistent := by
  induction placements generalizing board with
  | nil => exact consistent
  | cons placement rest ih =>
      have placed := consistent.scheduleSectionLocal fit.1
      rw [Board.placeAll]
      cases outcome : board.scheduleSectionLocal placement with
      | mk after completes =>
          have further := fit.2
          rw [outcome] at placed further
          cases completes with
          | false => exact placed
          | true => exact ih placed (further rfl)

theorem Consistent.applyChange {completes : AJAXChangeLogEntry → Bool} {entry : AJAXChangeLogEntry}
    (consistent : board.Consistent) (fits : board.ChangeFits entry) :
    (board.applyChange completes entry).1.Consistent := by
  rw [Board.applyChange]
  rw [ChangeFits] at fits
  split
  next timeslots roomName isScheduling =>
    rw [isScheduling] at fits
    split
    next isSection => exact consistent.scheduleSectionLocal (fits isSection)
    next => exact consistent
  next => exact consistent

theorem Consistent.applyChanges {completes : AJAXChangeLogEntry → Bool}
    {entries : List AJAXChangeLogEntry} (consistent : board.Consistent)
    (fit : ChangesFit completes entries board) :
    (Board.applyChanges completes entries board).1.Consistent := by
  induction entries generalizing board with
  | nil => exact consistent
  | cons entry rest ih =>
      have applied := @Consistent.applyChange page board completes entry consistent fit.1
      rw [Board.applyChanges]
      cases outcome : board.applyChange completes entry with
      | mk after complete =>
          have further := fit.2
          rw [outcome] at applied further
          cases complete with
          | false => exact applied
          | true => exact ih applied (further rfl)

/-! ## Valid assignments -/

theorem free_or_ignored_of_validateCells {available : List ℤ} {sec : ℕ} {ignoreSections : List ℕ}
    (valid : board.validateCells available sec ignoreSections room timeslots = .ok true) :
    ∀ timeslot ∈ timeslots, ∃ number, room = .id number ∧ page.usable number timeslot = true ∧
      ∀ other, board.cells number timeslot = some other → other = sec ∨ other ∈ ignoreSections := by
  induction timeslots with
  | nil => exact fun timeslot isNone => nomatch isNone
  | cons first rest ih =>
      rw [validateCells.eq_def] at valid
      dsimp only at valid
      split at valid
      next number =>
        split at valid
        next =>
          split at valid
          next passes =>
            simp only [Bool.and_eq_true] at passes
            intro timeslot isTimeslot
            rcases List.mem_cons.mp isTimeslot with same | isRest
            · refine ⟨number, rfl, ?_, fun other held => ?_⟩
              · rw [same]
                exact passes.1.1
              · have alone := passes.1.2
                rw [same] at held
                rw [held] at alone
                simpa using alone
            · exact ih valid timeslot isRest
          next => cases valid
        next => cases valid
      next => cases valid

theorem validateCells_of_validateAssignment {context : Context} {sec : ℕ}
    {times : Option (List ℤ)} {ignoreSections : List ℕ} {enforceContiguous : Bool}
    (valid : board.validateAssignment context sec room times ignoreSections enforceContiguous =
      .ok true) :
    ∃ timeslots, times = some timeslots ∧ board.validateCells
      (board.getAvailableTimeslots context sec ignoreSections) sec ignoreSections room timeslots =
        .ok true := by
  cases times with
  | none => cases valid
  | some timeslots =>
      rw [validateAssignment.eq_def] at valid
      dsimp only at valid
      cases checked : board.validateCells (board.getAvailableTimeslots context sec ignoreSections)
        sec ignoreSections room timeslots with
      | error thrown =>
          rw [checked] at valid
          cases valid
      | ok cells =>
          rw [checked] at valid
          have passes := Except.ok.inj valid
          simp only [Bool.and_eq_true] at passes
          rw [passes.1.1] at checked
          exact ⟨timeslots, rfl, checked⟩

theorem free_of_validateAssignment {context : Context} {sec : ℕ}
    {timeslots : Option (List ℤ)} {enforceContiguous : Bool}
    (valid : board.validateAssignment context sec room timeslots [] enforceContiguous = .ok true) :
    board.Free ⟨sec, room, timeslots.getD []⟩ := by
  rcases validateCells_of_validateAssignment valid with ⟨times, rfl, validCells⟩
  intro timeslot isTimeslot
  rcases free_or_ignored_of_validateCells validCells timeslot isTimeslot with
    ⟨number, inRoom, usable, alone⟩
  exact ⟨number, inRoom, usable, fun other held =>
    (alone other held).resolve_right List.not_mem_nil⟩

end Board

/-! ## Events -/

namespace Browser

variable {page : Page}

/-- What an error callback, a swap or an entry of the change log places, fits when it is
placed. -/
def Fits (browser : Browser page) : Event → Prop
  | .error request => Board.AllFit (browser.requests[request]?.getD []) browser.board
  | .swap context section1 section2 confirms => ∀ swap,
      browser.board.swapSections context section1 section2 confirms = .ok (some swap) →
        Board.AllFit swap.changes browser.board
  | .changeLog completes entries => Board.ChangesFit completes entries browser.board
  | _ => True

variable {browser : Browser page}

theorem board_request {changes restores : List Placement} :
    (browser.request changes restores).board = (Board.placeAll changes browser.board).1 := by
  rw [request]
  split
  next placed => rw [placed]
  next placed => rw [placed]

theorem allFit_singleton {placement : Placement} (fits : browser.board.Fits placement) :
    Board.AllFit [placement] browser.board :=
  ⟨fits, fun _ => trivial⟩

theorem consistent_step {event : Event} (consistent : browser.board.Consistent)
    (fits : browser.Fits event) : (browser.step event).board.Consistent := by
  cases event with
  | schedule context sec room timeslots =>
      rw [step, scheduleSectionWithTimeslots]
      split
      next valid =>
        split
        next => exact consistent
        next =>
          rw [board_request]
          have free := Board.free_of_validateAssignment valid
          exact consistent.placeAll (allFit_singleton (.inr (.inr free)))
      next => exact consistent
  | unschedule context sec =>
      rw [step, unscheduleSection]
      split
      next => exact consistent
      next =>
        rw [board_request]
        refine consistent.placeAll (allFit_singleton (.inr (.inr fun timeslot isNone => ?_)))
        cases isNone
  | swap context section1 section2 confirms =>
      rw [step]
      split
      next swap planned =>
        rw [board_request]
        exact consistent.placeAll (fits swap planned)
      next => exact consistent
  | success request => exact consistent
  | error request => exact consistent.placeAll fits
  | changeLog completes entries => exact consistent.applyChanges fits

/-- The cells and the assignments agree throughout a run in which all placements of error
callbacks, swaps and entries fit. -/
theorem consistent_throughout {events : List Event} (consistent : browser.board.Consistent)
    (fit : AtEach step Fits browser events) :
    Throughout step (fun browser : Browser page => browser.board.Consistent) browser events :=
  throughout_of_steps (fun _ _ => consistent_step) consistent fit

end Browser

namespace Sample

open Browser

/-- A room for four hours, with a section of one hour and one of two hours. -/
def hall : Page where
  timeslots := [⟨1, 0, 3600, 1, 1⟩, ⟨2, 3600, 7200, 1, 1⟩, ⟨3, 7200, 10800, 1, 1⟩,
    ⟨4, 10800, 14400, 1, 1⟩]
  lunchTimeslots := []
  minimumDifference := some 20
  rooms := [⟨1, [1, 2, 3, 4]⟩]
  sections := [1, 2]
  length := fun sec => if sec = 1 then 1 else 2

/-- The availability of teachers is overridden. -/
def overriding : Context where
  override := true
  recurringSelectionMode := false
  schedulingLocked := fun _ => false
  teacherData := fun _ => none
  moderatorData := fun _ => none
  teachers := fun _ => []
  moderators := fun _ => []

/-- The two sections follow each other. -/
def booked : Board hall where
  cells := fun room timeslot =>
    if room = 1 ∧ timeslot ∈ ([1] : List ℤ) then some 1
    else if room = 1 ∧ timeslot ∈ ([2, 3] : List ℤ) then some 2
    else none
  assignments := fun sec =>
    if sec = 1 then ⟨.id 1, [1]⟩ else if sec = 2 then ⟨.id 1, [2, 3]⟩ else ⟨.null, []⟩
  onGrid := by
    intro room timeslot occupied
    split at occupied
    next first =>
      rw [first.1, List.mem_singleton.mp first.2]
      decide
    next =>
      split at occupied
      next second =>
        rw [second.1]
        exact (by decide : ∀ timeslot ∈ ([2, 3] : List ℤ), hall.usable 1 timeslot = true) _ second.2
      next => cases occupied

theorem consistent_booked : booked.Consistent := by
  intro room timeslot sec
  have cells : booked.cells room timeslot =
      if room = 1 ∧ timeslot ∈ ([1] : List ℤ) then some 1
      else if room = 1 ∧ timeslot ∈ ([2, 3] : List ℤ) then some 2 else none := rfl
  rw [cells]
  by_cases isFirst : sec = 1
  · have assignment : booked.assignments 1 = ⟨.id 1, [1]⟩ := rfl
    rw [isFirst, assignment]
    constructor
    · intro holds
      split at holds
      next here => exact ⟨by rw [here.1], here.2⟩
      next =>
        split at holds
        next => cases holds
        next => cases holds
    · intro assigned
      rw [if_pos ⟨(RoomId.id.inj assigned.1).symm, assigned.2⟩]
  · by_cases isSecond : sec = 2
    · have assignment : booked.assignments 2 = ⟨.id 1, [2, 3]⟩ := rfl
      rw [isSecond, assignment]
      constructor
      · intro holds
        split at holds
        next => cases holds
        next =>
          split at holds
          next here => exact ⟨by rw [here.1], here.2⟩
          next => cases holds
      · intro assigned
        have apart : ∀ timeslot ∈ ([2, 3] : List ℤ), timeslot ∉ ([1] : List ℤ) := by decide
        rw [if_neg fun both => apart timeslot assigned.2 both.2,
          if_pos ⟨(RoomId.id.inj assigned.1).symm, assigned.2⟩]
    · have assignment : booked.assignments sec = ⟨.null, []⟩ :=
        (if_neg isFirst).trans (if_neg isSecond)
      rw [assignment]
      refine iff_of_false (fun holds => ?_) fun assigned => nomatch assigned.2
      split at holds
      next => exact isFirst (Option.some.inj holds).symm
      next =>
        split at holds
        next => exact isSecond (Option.some.inj holds).symm
        next => cases holds

/-- A section that is taken away comes back when its request fails. -/
theorem restored_after_failure :
    Throughout step (fun browser : Browser hall => browser.board.Consistent) ⟨booked, []⟩
      [.unschedule overriding 2, .error 0] := by
  have emptied : ∀ timeslot ∈ ([2, 3] : List ℤ), hall.usable 1 timeslot = true ∧
      (step ⟨booked, []⟩ (.unschedule overriding 2)).board.cells 1 timeslot = none := by
    decide
  refine consistent_throughout consistent_booked (atEach_cons.mpr ⟨trivial, atEach_cons.mpr
    ⟨⟨.inr (.inr fun timeslot isTimeslot => ⟨1, rfl, ?_, fun other held => ?_⟩), fun _ => trivial⟩,
      atEach_nil⟩⟩)
  · exact (emptied timeslot isTimeslot).1
  · rw [(emptied timeslot isTimeslot).2] at held
    cases held

/-- The first section moves, the second one takes its place, and then both requests fail: the first
one keeps an assignment without a cell.  Swapping the two sections does the same at once. -/
theorem assigned_without_cell : booked.Consistent ∧
    ¬Throughout step (fun browser : Browser hall => browser.board.Consistent) ⟨booked, []⟩
        [.schedule overriding 1 (.id 1) (some [4]), .schedule overriding 2 (.id 1) (some [1, 2]),
          .error 0, .error 0] ∧
      ¬Throughout step (fun browser : Browser hall => browser.board.Consistent) ⟨booked, []⟩
        [.swap overriding 1 2 true] := by
  refine ⟨consistent_booked, ?_, ?_⟩
  · intro consistent
    have final := consistent _ (List.prefix_refl _)
    have assigned := (final 1 1 1).mpr ⟨by decide +kernel, by decide +kernel⟩
    revert assigned
    decide +kernel
  · intro consistent
    have final := consistent _ (List.prefix_refl _)
    have assigned := (final 1 2 1).mpr ⟨by decide +kernel, by decide +kernel⟩
    revert assigned
    decide +kernel

end Sample

end EspWebsite.AjaxScheduling
