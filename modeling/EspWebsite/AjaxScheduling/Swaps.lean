import Mathlib.Data.List.Destutter
import EspWebsite.AjaxScheduling.Consistency

/-!
# Swapping sections

What `swapSections` sends: whether its new assignments name each section once, and whether
sections meet in the schedule that they lead to.
-/

namespace EspWebsite.AjaxScheduling

namespace Page

variable (page : Page)

def DistinctIds : Prop := (page.timeslots.map Timeslot.id).Nodup

/-- The ID of the timeslot at a place in the order of the timeslots. -/
def idAt (place : ℕ) : Option ℤ := (page.getByOrder place).map Timeslot.id

/-- The timeslots that a section needs from a first one on, if there are enough. -/
def neededTimes (sec : ℕ) (firstTimeslotId : Option ℤ) : List ℤ :=
  match page.getTimeslotsToScheduleSection sec firstTimeslotId with
  | .ok (some times) => times
  | _ => []

/-- A placement has the timeslot at a place. -/
def IsAt (placement : Placement) (place : ℕ) : Prop :=
  ∃ timeslot ∈ placement.assignment.timeslots, page.idAt place = some timeslot

/-- The sections that are put one after the other from a place on, after a `last` one, end before
another place.  An empty cell leaves a gap of one timeslot. -/
def FitBefore (limit : ℕ) : List (Option ℕ) → Option ℕ → ℕ → Prop
  | [], _, _ => True
  | none :: rest, last, place => FitBefore limit rest last (place + 1)
  | some sec :: rest, last, place =>
      if last = some sec then FitBefore limit rest last place
      else ∃ times, page.getTimeslotsToScheduleSection sec (page.idAt place) = .ok (some times) ∧
        place + times.length ≤ limit ∧ FitBefore limit rest (some sec) (place + times.length)

end Page

namespace Board

variable {page : Page} (board : Board page)

/-- The new assignments that `swapSections` sends, for the sections of the first cells and for those
of the second ones. -/
def swapRequest (context : Context) (section1 section2 : ℕ) (confirms : Bool) :
    Throws (Option (List Placement × List Placement)) :=
  let old1 := board.assignments section1
  let old2 := board.assignments section2
  if context.schedulingLocked section1 || context.schedulingLocked section2 then .ok none
  else if old1.roomId = .null ∧ old2.roomId = .null then .ok none
  else do
    let some swapping1 ← board.swappingSections section1 section2 | .ok none
    let some swapping2 ← board.swappingSections section2 section1 | .ok none
    if (1 < swapping1.reduceOption.eraseDups.length ∨ 1 < swapping2.reduceOption.eraseDups.length) ∧
        confirms = false then .ok none
    else
      let ignoreSections := (swapping1 ++ swapping2).reduceOption
      let some new1 ← board.newAssignments context old2.roomId ignoreSections swapping1
        (old2.timeslots.head?.bind page.getById) [] | .ok none
      let some new2 ← board.newAssignments context old1.roomId ignoreSections swapping2
        (old1.timeslots.head?.bind page.getById) [] | .ok none
      .ok (some (new1, new2))

/-- What is in the cells of a section's room that another section needs from the section's first
timeslot on.  A section without a room is in each timeslot that it needs. -/
def movedSections (own other : ℕ) : List (Option ℕ) :=
  match (board.assignments own).roomId with
  | .id room =>
      (page.neededTimes other (board.assignments own).timeslots.head?).map (board.cells room)
  | _ => (page.neededTimes own (board.assignments other).timeslots.head?).map fun _ => some own

/-- The two sections, and the ones whose cells they need. -/
def affected (section1 section2 : ℕ) : List ℕ :=
  section1 :: section2 ::
    (board.movedSections section1 section2 ++ board.movedSections section2 section1).reduceOption

def NamesOnce (sections : List ℕ) (placements : List Placement) : Prop :=
  ∀ sec ∈ sections, (placements.map Placement.sec).count sec = 1

/-- Where sections are with new assignments for some of them. -/
def resulting (placements : List Placement) (sec : ℕ) : Assignment :=
  match placements.find? fun placement => placement.sec = sec with
  | some placement => placement.assignment
  | none => board.assignments sec

/-- No two sections have the same room and the same timeslot. -/
def NoCollision (assignments : ℕ → Assignment) : Prop :=
  ∀ sec other room timeslot,
    (assignments sec).roomId = .id room → timeslot ∈ (assignments sec).timeslots →
    (assignments other).roomId = .id room → timeslot ∈ (assignments other).timeslots →
      sec = other

/-- In the cells of sections that go to a room no section comes back after another one; in those of
sections that go to no room no section comes back at all. -/
def MoveOnce (room : RoomId) (sections : List (Option ℕ)) : Prop :=
  if room = .null then sections.reduceOption.Nodup
  else (sections.reduceOption.destutter (· ≠ ·)).Nodup

def startPlace (sec : ℕ) : ℕ :=
  ((board.assignments sec).timeslots.head?.bind page.getById).elim 0 page.order

/-- Both sides come in one piece for each section and have none in common, and in one room what goes
to the earlier place ends before the later place. -/
structure SwapsApart (section1 section2 : ℕ) : Prop where
  once1 : MoveOnce (board.assignments section2).roomId (board.movedSections section1 section2)
  once2 : MoveOnce (board.assignments section1).roomId (board.movedSections section2 section1)
  disjoint : (board.movedSections section1 section2).reduceOption.Disjoint
    (board.movedSections section2 section1).reduceOption
  fit1 : (board.assignments section1).roomId = (board.assignments section2).roomId →
    board.startPlace section1 < board.startPlace section2 →
      page.FitBefore (board.startPlace section2) (board.movedSections section2 section1) none
        (board.startPlace section1)
  fit2 : (board.assignments section1).roomId = (board.assignments section2).roomId →
    board.startPlace section2 < board.startPlace section1 →
      page.FitBefore (board.startPlace section1) (board.movedSections section1 section2) none
        (board.startPlace section2)

/-- What `newAssignments` adds for cells after a `last` section, from a place on. -/
inductive Walk (room : ℤ) (ignoreSections : List ℕ) :
    List (Option ℕ) → Option ℕ → ℕ → List Placement → Prop where
  | done {last : Option ℕ} {place : ℕ} : Walk room ignoreSections [] last place []
  | gap {rest : List (Option ℕ)} {last : Option ℕ} {place : ℕ} {added : List Placement}
      (further : Walk room ignoreSections rest last (place + 1) added) :
      Walk room ignoreSections (none :: rest) last place added
  | again {rest : List (Option ℕ)} {sec place : ℕ} {added : List Placement}
      (further : Walk room ignoreSections rest (some sec) place added) :
      Walk room ignoreSections (some sec :: rest) (some sec) place added
  | put {rest : List (Option ℕ)} {last : Option ℕ} {sec place : ℕ} {added : List Placement}
      {times : List ℤ} (different : last ≠ some sec)
      (needs : page.getTimeslotsToScheduleSection sec (page.idAt place) = .ok (some times))
      (alone : ∀ timeslot ∈ times, ∀ other, board.cells room timeslot = some other →
        other = sec ∨ other ∈ ignoreSections)
      (further : Walk room ignoreSections rest (some sec) (place + times.length) added) :
      Walk room ignoreSections (some sec :: rest) last place (⟨sec, .id room, times⟩ :: added)

end Board

theorem find?_of_nodup {Row Key : Type} [DecidableEq Key] {key : Row → Key} {rows : List Row}
    {row : Row} (distinct : (rows.map key).Nodup) (isRow : row ∈ rows) :
    (rows.find? fun other => key other = key row) = some row := by
  cases found : rows.find? fun other => key other = key row with
  | none => exact absurd (decide_eq_true rfl) (List.find?_eq_none.mp found row isRow)
  | some same =>
      have isSame := List.mem_of_find?_eq_some found
      have sameKey : key same = key row := by simpa using List.find?_some found
      rw [List.inj_on_of_nodup_map distinct isSame isRow sameKey]

/-! ## Places of timeslots -/

namespace Page

variable {page : Page} {length : ℚ} {first last slot : Timeslot} {rest : List Timeslot}
  {id : ℤ} {times : List ℤ} {sec place other : ℕ}

theorem DistinctIds.nodup (distinct : page.DistinctIds) : page.timeslots.Nodup :=
  List.Nodup.of_map _ distinct

theorem DistinctIds.place_eq (distinct : page.DistinctIds) (here : page.idAt place = some id)
    (there : page.idAt other = some id) : place = other := by
  rw [idAt, getByOrder, ← List.getElem?_map] at here there
  have inRange := (List.getElem?_eq_some_iff.mp here).1
  exact (List.getElem?_inj inRange distinct).mp (here.trans there.symm)

theorem DistinctIds.getById_eq (distinct : page.DistinctIds)
    (here : page.timeslots[place]? = some slot) : page.getById slot.id = some slot :=
  find?_of_nodup distinct (List.mem_of_getElem? here)

theorem DistinctIds.order_eq (distinct : page.DistinctIds)
    (here : page.timeslots[place]? = some slot) : page.order slot = place := by
  rcases List.getElem?_eq_some_iff.mp here with ⟨inRange, rfl⟩
  exact distinct.nodup.idxOf_getElem place inRange

theorem furtherTimeslots_eq (found : page.furtherTimeslots length first rest last = some times) :
    times = (rest.take times.length).map Timeslot.id ∧ times.length ≤ rest.length := by
  induction rest generalizing last times with
  | nil =>
      rw [furtherTimeslots] at found
      split at found
      next => cases found
      next =>
        cases found
        exact ⟨rfl, le_refl _⟩
  | cons next rest ih =>
      rw [furtherTimeslots] at found
      split at found
      next =>
        split at found
        next =>
          rcases Option.map_eq_some_iff.mp found with ⟨further, isFurther, rfl⟩
          have later := ih isFurther
          refine ⟨?_, Nat.succ_le_succ later.2⟩
          rw [List.length_cons, List.take_succ_cons, List.map_cons, ← later.1]
        next => cases found
      next =>
        cases found
        exact ⟨rfl, Nat.zero_le _⟩

theorem DistinctIds.getElem?_times (distinct : page.DistinctIds)
    (needs : page.getTimeslotsToScheduleSection sec (page.idAt place) = .ok (some times)) :
    0 < times.length ∧ ∀ index < times.length, times[index]? = page.idAt (place + index) := by
  rw [getTimeslotsToScheduleSection] at needs
  cases here : page.timeslots[place]? with
  | none =>
      rw [idAt, getByOrder, here] at needs
      cases needs
  | some slot =>
      rw [idAt, getByOrder, here, Option.map_some, Option.bind_some,
        distinct.getById_eq here] at needs
      dsimp only at needs
      rw [distinct.order_eq here] at needs
      rcases Option.map_eq_some_iff.mp (Except.ok.inj needs) with ⟨further, isFurther, rfl⟩
      have next := furtherTimeslots_eq isFurther
      refine ⟨Nat.succ_pos _, fun index inRange => ?_⟩
      cases index with
      | zero => rw [List.getElem?_cons_zero, Nat.add_zero, idAt, getByOrder, here]; rfl
      | succ index =>
          have isIndex : index < further.length := Nat.lt_of_succ_lt_succ inRange
          rw [List.getElem?_cons_succ, next.1, List.getElem?_map, List.getElem?_take_of_lt isIndex,
            List.getElem?_drop, idAt, getByOrder, Nat.add_assoc, Nat.add_comm 1 index]

theorem DistinctIds.mem_times_iff (distinct : page.DistinctIds)
    (needs : page.getTimeslotsToScheduleSection sec (page.idAt place) = .ok (some times)) :
    id ∈ times ↔ ∃ index < times.length, page.idAt (place + index) = some id := by
  have places := (distinct.getElem?_times needs).2
  constructor
  · intro isTime
    rcases List.mem_iff_getElem?.mp isTime with ⟨index, found⟩
    have inRange := (List.getElem?_eq_some_iff.mp found).1
    exact ⟨index, inRange, (places index inRange).symm.trans found⟩
  · intro some
    rcases some with ⟨index, inRange, found⟩
    exact List.mem_of_getElem? ((places index inRange).trans found)

theorem DistinctIds.next_eq (distinct : page.DistinctIds)
    (needs : page.getTimeslotsToScheduleSection sec (page.idAt place) = .ok (some times)) :
    ((times.getLast?.bind page.getById).bind fun last => page.getByOrder (page.order last + 1)) =
      page.getByOrder (place + times.length) := by
  rcases distinct.getElem?_times needs with ⟨nonempty, places⟩
  have isLast := places (times.length - 1) (by omega)
  rw [← List.getLast?_eq_getElem?] at isLast
  cases here : page.timeslots[place + (times.length - 1)]? with
  | none =>
      rw [idAt, getByOrder, here, List.getLast?_eq_getElem?,
        List.getElem?_eq_getElem (by omega)] at isLast
      cases isLast
  | some slot =>
      have isId : page.idAt (place + (times.length - 1)) = some slot.id := by
        rw [idAt, getByOrder, here]
        rfl
      rw [isLast, isId, Option.bind_some, distinct.getById_eq here, Option.bind_some,
        distinct.order_eq here]
      congr 1
      omega

theorem DistinctIds.isAt_iff (distinct : page.DistinctIds) (room : RoomId) (owner : ℕ)
    (needs : page.getTimeslotsToScheduleSection sec (page.idAt place) = .ok (some times)) :
    page.IsAt ⟨owner, room, times⟩ other ↔ place ≤ other ∧ other < place + times.length := by
  rw [IsAt]
  constructor
  · intro some
    rcases some with ⟨timeslot, isTime, there⟩
    rcases (distinct.mem_times_iff needs).mp isTime with ⟨index, inRange, here⟩
    rw [distinct.place_eq there here]
    exact ⟨Nat.le_add_right _ _, Nat.add_lt_add_left inRange _⟩
  · intro inRange
    have isIndex : other - place < times.length := by omega
    have here := (distinct.getElem?_times needs).2 _ isIndex
    rw [Nat.add_sub_cancel' inRange.1, List.getElem?_eq_getElem isIndex] at here
    exact ⟨times[other - place], List.getElem_mem isIndex, here.symm⟩

end Page

/-! ## Walks -/

namespace Board

variable {page : Page} {board : Board page} {context : Context} {room : ℤ}
  {ignoreSections : List ℕ} {timeslots : List ℤ} {sections : List (Option ℕ)}
  {last : Option ℕ} {sec place : ℕ} {added placements : List Placement}

theorem alone_of_validateAssignment {times : Option (List ℤ)} {enforceContiguous : Bool}
    (valid : board.validateAssignment context sec (.id room) times ignoreSections
      enforceContiguous = .ok true) :
    ∃ timeslots, times = some timeslots ∧ ∀ timeslot ∈ timeslots, ∀ other,
      board.cells room timeslot = some other → other = sec ∨ other ∈ ignoreSections := by
  rcases validateCells_of_validateAssignment valid with ⟨timeslots, isSome, validCells⟩
  refine ⟨timeslots, isSome, fun timeslot isTime => ?_⟩
  rcases free_or_ignored_of_validateCells validCells timeslot isTime with
    ⟨number, inRoom, _, alone⟩
  cases inRoom
  exact alone

theorem walk_of_newAssignments (distinct : page.DistinctIds) {final : List Placement}
    (found : board.newAssignments context (.id room) ignoreSections sections
      (page.getByOrder place) placements = .ok (some final)) :
    ∃ added, final = placements ++ added ∧
      board.Walk room ignoreSections sections (placements.getLast?.map Placement.sec) place
        added := by
  induction sections generalizing place placements with
  | nil =>
      rw [newAssignments.eq_def] at found
      cases found
      exact ⟨[], (List.append_nil _).symm, .done⟩
  | cons cell rest ih =>
      rw [newAssignments.eq_def] at found
      cases cell with
      | none =>
          dsimp only at found
          rw [if_neg (by simp)] at found
          cases here : page.timeslots[place]? with
          | none =>
              rw [Page.getByOrder, here] at found
              cases found
          | some slot =>
              rw [Page.getByOrder, here] at found
              dsimp only at found
              rw [distinct.order_eq here] at found
              rcases ih found with ⟨added, isFinal, walk⟩
              exact ⟨added, isFinal, .gap walk⟩
      | some sec =>
          dsimp only at found
          rw [if_neg (by simp)] at found
          split at found
          next same =>
            rcases ih found with ⟨added, isFinal, walk⟩
            rw [same] at walk ⊢
            exact ⟨added, isFinal, .again walk⟩
          next different =>
            cases here : page.timeslots[place]? with
            | none =>
                rw [Page.getByOrder, here] at found
                cases found
            | some slot =>
                have isId : page.idAt place = some slot.id := by
                  rw [Page.idAt, Page.getByOrder, here]
                  rfl
                rw [Page.getByOrder, here] at found
                dsimp only at found
                split at found
                next => cases found
                next times needs =>
                  split at found
                  next => cases found
                  next => cases found
                  next valid =>
                    rcases alone_of_validateAssignment valid with ⟨timeslots, rfl, alone⟩
                    rw [← isId] at needs
                    rw [Option.getD_some, distinct.next_eq needs] at found
                    rcases ih found with ⟨added, isFinal, walk⟩
                    rw [List.getLast?_concat] at walk
                    refine ⟨⟨sec, .id room, timeslots⟩ :: added, ?_,
                      .put different needs alone walk⟩
                    rw [isFinal, List.append_assoc, List.singleton_append]

theorem Walk.names (walk : board.Walk room ignoreSections sections last place added) :
    last.toList ++ added.map Placement.sec =
      (last.toList ++ sections.reduceOption).destutter (· ≠ ·) := by
  induction walk with
  | @done last => cases last <;> rfl
  | gap further ih => rwa [List.reduceOption_cons_of_none]
  | again further ih =>
      rw [List.reduceOption_cons_of_some, ih]
      simp [List.destutter]
  | @put rest last sec place added times different needs alone further ih =>
      rw [List.reduceOption_cons_of_some, List.map_cons]
      have later : sec :: added.map Placement.sec =
          (sec :: rest.reduceOption).destutter (· ≠ ·) := ih
      cases last with
      | none => exact later
      | some earlier =>
          have apart : earlier ≠ sec := fun same => different (congrArg some same)
          rw [later]
          simp [List.destutter, List.destutter', apart]

theorem Walk.alone (walk : board.Walk room ignoreSections sections last place added) :
    ∀ placement ∈ added, placement.assignment.roomId = .id room ∧
      ∀ timeslot ∈ placement.assignment.timeslots, ∀ other,
        board.cells room timeslot = some other →
          other = placement.sec ∨ other ∈ ignoreSections := by
  induction walk with
  | done => exact fun placement isNone => nomatch isNone
  | gap further ih => exact ih
  | again further ih => exact ih
  | put different needs alone further ih => exact List.forall_mem_cons.mpr ⟨⟨rfl, alone⟩, ih⟩

theorem Walk.le_place (distinct : page.DistinctIds)
    (walk : board.Walk room ignoreSections sections last place added) :
    ∀ placement ∈ added, ∀ timeslot ∈ placement.assignment.timeslots, ∃ other, place ≤ other ∧
      page.idAt other = some timeslot := by
  induction walk with
  | done => exact fun placement isNone => nomatch isNone
  | gap further ih =>
      intro placement isAdded timeslot isTime
      rcases ih placement isAdded timeslot isTime with ⟨other, le, there⟩
      exact ⟨other, by omega, there⟩
  | again further ih => exact ih
  | put different needs alone further ih =>
      refine List.forall_mem_cons.mpr ⟨fun timeslot isTime => ?_, ?_⟩
      · rcases (distinct.mem_times_iff needs).mp isTime with ⟨index, _, there⟩
        exact ⟨_, Nat.le_add_right _ _, there⟩
      · intro placement isAdded timeslot isTime
        rcases ih placement isAdded timeslot isTime with ⟨other, le, there⟩
        exact ⟨other, by omega, there⟩

theorem Walk.pairwise (distinct : page.DistinctIds)
    (walk : board.Walk room ignoreSections sections last place added) :
    added.Pairwise fun placement next =>
      placement.assignment.timeslots.Disjoint next.assignment.timeslots := by
  induction walk with
  | done => exact .nil
  | gap further ih => exact ih
  | again further ih => exact ih
  | put different needs alone further ih =>
      refine List.pairwise_cons.mpr ⟨fun placement isAdded timeslot isTime isLater => ?_, ih⟩
      rcases (distinct.mem_times_iff needs).mp isTime with ⟨index, inRange, here⟩
      rcases further.le_place distinct placement isAdded timeslot isLater with ⟨other, le, there⟩
      have same := distinct.place_eq here there
      omega

theorem Walk.fitBefore_iff (distinct : page.DistinctIds) {limit : ℕ}
    (walk : board.Walk room ignoreSections sections last place added) :
    page.FitBefore limit sections last place ↔
      ∀ placement ∈ added, ∀ other, page.IsAt placement other → other < limit := by
  induction walk with
  | done => exact iff_of_true trivial fun placement isNone => nomatch isNone
  | gap further ih => rw [Page.FitBefore, ih]
  | again further ih => rw [Page.FitBefore, if_pos rfl, ih]
  | @put rest last sec place added times different needs alone further ih =>
      rw [Page.FitBefore, if_neg different, List.forall_mem_cons, ← ih]
      constructor
      · intro some
        rcases some with ⟨same, isSame, le, fit⟩
        rw [needs] at isSame
        cases isSame
        exact ⟨fun other isAt => ((distinct.isAt_iff _ _ needs).mp isAt).2.trans_le le, fit⟩
      · intro both
        have nonempty := (distinct.getElem?_times needs).1
        have isLast := both.1 (place + times.length - 1)
          ((distinct.isAt_iff _ _ needs).mpr ⟨by omega, by omega⟩)
        exact ⟨times, needs, by omega, both.2⟩

/-- A walk that gets to a place or further has a section there, unless it leaves a gap there: then
it has one as many places later as there are empty cells, or earlier. -/
theorem Walk.lands (distinct : page.DistinctIds) (from_ gaps : ℕ)
    (walk : board.Walk room ignoreSections sections last place added)
    (near : place ≤ from_ + gaps)
    (reaches : ∃ placement ∈ added, ∃ other, page.IsAt placement other ∧ from_ ≤ other) :
    ∃ placement ∈ added, ∃ other, page.IsAt placement other ∧ from_ ≤ other ∧
      other ≤ from_ + gaps + sections.count none := by
  induction walk generalizing gaps with
  | done =>
      rcases reaches with ⟨placement, isNone, _⟩
      cases isNone
  | gap further ih =>
      rcases ih (gaps + 1) (by omega) reaches with ⟨placement, isAdded, other, isAt, le, near⟩
      refine ⟨placement, isAdded, other, isAt, le, ?_⟩
      rw [List.count_cons_self]
      omega
  | again further ih =>
      rw [List.count_cons_of_ne (by simp)]
      exact ih gaps near reaches
  | @put rest last sec place added times different needs alone further ih =>
      rw [List.count_cons_of_ne (by simp)]
      by_cases isHere : from_ < place + times.length
      · have nonempty := (distinct.getElem?_times needs).1
        refine ⟨_, List.mem_cons_self .., max place from_,
          (distinct.isAt_iff _ _ needs).mpr ⟨by omega, by omega⟩, by omega, by omega⟩
      · rcases reaches with ⟨placement, isAdded, other, isAt, le⟩
        rcases List.mem_cons.mp isAdded with rfl | isLater
        · have inRange := (distinct.isAt_iff _ _ needs).mp isAt
          omega
        · rcases ih gaps (by omega) ⟨placement, isLater, other, isAt, le⟩ with
            ⟨found, isFound, lands⟩
          exact ⟨found, List.mem_cons_of_mem _ isFound, lands⟩

theorem Walk.first {rest : List (Option ℕ)}
    (walk : board.Walk room ignoreSections (some sec :: rest) none place added) :
    ∃ times, page.getTimeslotsToScheduleSection sec (page.idAt place) = .ok (some times) ∧
      ⟨sec, .id room, times⟩ ∈ added := by
  cases walk with
  | put different needs alone further => exact ⟨_, needs, List.mem_cons_self ..⟩

theorem Walk.mem_names (walk : board.Walk room ignoreSections sections last place added) :
    ∀ sec, some sec ∈ sections → last = some sec ∨ sec ∈ added.map Placement.sec := by
  induction walk with
  | done => exact fun sec isNone => nomatch isNone
  | gap further ih =>
      intro sec isCell
      exact ih sec (List.mem_of_ne_of_mem (Option.some_ne_none sec) isCell)
  | again further ih =>
      intro sec isCell
      rcases List.mem_cons.mp isCell with same | isRest
      · exact .inl same.symm
      · exact ih sec isRest
  | put different needs alone further ih =>
      intro sec isCell
      rw [List.map_cons, List.mem_cons]
      rcases List.mem_cons.mp isCell with same | isRest
      · exact .inr (.inl (Option.some.inj same))
      · rcases ih sec isRest with same | isLater
        · exact .inr (.inl (Option.some.inj same).symm)
        · exact .inr (.inr isLater)

/-! ## Cells that make room -/

theorem newAssignments_null {start : Option Timeslot} :
    board.newAssignments context .null ignoreSections sections start placements =
      .ok (some (placements ++ sections.reduceOption.map unscheduled)) := by
  induction sections generalizing placements with
  | nil =>
      rw [newAssignments.eq_def]
      simp
  | cons cell rest ih =>
      rw [newAssignments.eq_def]
      cases cell with
      | none =>
          dsimp only
          rw [if_pos rfl, ih, List.reduceOption_cons_of_none]
      | some sec =>
          dsimp only
          rw [if_pos rfl, ih, List.reduceOption_cons_of_some, List.map_cons, List.append_assoc,
            List.singleton_append]

theorem bind_eq_ok {Value Result : Type} {computation : Throws Value}
    {next : Value → Throws Result} {result : Result}
    (returns : (computation >>= next) = .ok result) :
    ∃ value, computation = .ok value ∧ next value = .ok result := by
  cases computation with
  | error thrown => cases returns
  | ok value => exact ⟨value, rfl, returns⟩

theorem mapM_cellSection (found : timeslots.mapM (board.cellSection (.id room)) = .ok sections) :
    sections = timeslots.map (board.cells room) := by
  induction timeslots generalizing sections with
  | nil =>
      cases found
      rfl
  | cons timeslot rest ih =>
      rw [List.mapM_cons, cellSection] at found
      split at found
      next =>
        cases later : rest.mapM (board.cellSection (.id room)) with
        | error thrown =>
            rw [later] at found
            cases found
        | ok cells =>
            rw [later] at found
            cases found
            rw [List.map_cons, ← ih later]
      next => cases found

theorem start_eq (distinct : page.DistinctIds) {own : ℕ} {times : Option (List ℤ)}
    (needs : page.getTimeslotsToScheduleSection sec (board.assignments own).timeslots.head? =
      .ok times) :
    (board.assignments own).timeslots.head? = page.idAt (board.startPlace own) ∧
      (board.assignments own).timeslots.head?.bind page.getById =
        page.getByOrder (board.startPlace own) := by
  rw [Page.getTimeslotsToScheduleSection] at needs
  split at needs
  next => cases needs
  next slot found =>
    rcases Option.bind_eq_some_iff.mp found with ⟨id, isHead, isSlot⟩
    rcases List.mem_iff_getElem?.mp (List.mem_of_find?_eq_some isSlot) with ⟨place, here⟩
    have sameId : slot.id = id := by simpa using List.find?_some isSlot
    have isPlace : board.startPlace own = place := by
      rw [startPlace, found, Option.elim_some, distinct.order_eq here]
    rw [isPlace]
    exact ⟨by rw [isHead, Page.idAt, Page.getByOrder, here, Option.map_some, sameId],
      by rw [found, Page.getByOrder, here]⟩

theorem swappingSections_of_room {own other : ℕ}
    (inRoom : (board.assignments own).roomId = .id room)
    (found : board.swappingSections own other = .ok (some sections)) :
    ∃ times, page.getTimeslotsToScheduleSection other (board.assignments own).timeslots.head? =
      .ok (some times) ∧ sections = times.map (board.cells room) := by
  rw [swappingSections, inRoom, if_neg (by simp)] at found
  cases needs : page.getTimeslotsToScheduleSection other
      (board.assignments own).timeslots.head? with
  | error thrown =>
      rw [needs] at found
      cases found
  | ok times =>
      rw [needs] at found
      cases times with
      | none => cases found
      | some times =>
          refine ⟨times, rfl, ?_⟩
          cases cells : times.mapM (board.cellSection (.id room)) with
          | error thrown =>
              simp only [bind, Except.bind, cells] at found
              cases found
          | ok cellSections =>
              simp only [bind, Except.bind, cells] at found
              cases found
              exact mapM_cellSection cells

theorem swappingSections_of_null {own other : ℕ}
    (noRoom : (board.assignments own).roomId = .null)
    (found : board.swappingSections own other = .ok (some sections)) :
    ∃ times, page.getTimeslotsToScheduleSection own (board.assignments other).timeslots.head? =
      .ok (some times) ∧ sections = times.map fun _ => some own := by
  rw [swappingSections, noRoom, if_pos rfl] at found
  cases needs : page.getTimeslotsToScheduleSection own
      (board.assignments other).timeslots.head? with
  | error thrown =>
      rw [needs] at found
      cases found
  | ok times =>
      rw [needs] at found
      cases times with
      | none => cases found
      | some times =>
          cases found
          exact ⟨times, rfl, rfl⟩

/-- A section whose cells make room has a room or `null`, and the first one of them is its own. -/
theorem exists_swappingSections (distinct : page.DistinctIds) (consistent : board.Consistent)
    {own other : ℕ} (found : board.swappingSections own other = .ok (some sections)) :
    ((board.assignments own).roomId = .null ∨ ∃ room, (board.assignments own).roomId = .id room) ∧
      ∃ rest, sections = some own :: rest := by
  cases isRoom : (board.assignments own).roomId with
  | null =>
      refine ⟨.inl rfl, ?_⟩
      rcases swappingSections_of_null isRoom found with ⟨times, needs, rfl⟩
      rw [(start_eq distinct needs).1] at needs
      have nonempty := (distinct.getElem?_times needs).1
      cases times with
      | nil => cases nonempty
      | cons first rest => exact ⟨_, rfl⟩
  | nan =>
      rw [swappingSections, isRoom, if_neg (by simp)] at found
      rcases bind_eq_ok found with ⟨times, needs, cells⟩
      cases times with
      | none => cases cells
      | some times =>
          rw [(start_eq distinct needs).1] at needs
          have nonempty := (distinct.getElem?_times needs).1
          cases times with
          | nil => cases nonempty
          | cons first rest => cases cells
  | id room =>
      refine ⟨.inr ⟨room, rfl⟩, ?_⟩
      rcases swappingSections_of_room isRoom found with ⟨times, needs, rfl⟩
      have isHead := (start_eq distinct needs).1
      rw [isHead] at needs
      rcases distinct.getElem?_times needs with ⟨nonempty, places⟩
      have isFirst := places 0 nonempty
      cases times with
      | nil => cases nonempty
      | cons first rest =>
          rw [Nat.add_zero, ← isHead, List.getElem?_cons_zero] at isFirst
          have held := (consistent room first own).mpr ⟨isRoom, List.mem_of_mem_head? isFirst.symm⟩
          exact ⟨_, by rw [List.map_cons, held]⟩

theorem movedSections_eq (distinct : page.DistinctIds) (consistent : board.Consistent)
    {own other : ℕ} (found : board.swappingSections own other = .ok (some sections)) :
    board.movedSections own other = sections := by
  rcases (exists_swappingSections distinct consistent found).1 with noRoom | ⟨room, inRoom⟩
  · rcases swappingSections_of_null noRoom found with ⟨times, needs, rfl⟩
    rw [movedSections, noRoom]
    dsimp only
    rw [Page.neededTimes, needs]
  · rcases swappingSections_of_room inRoom found with ⟨times, needs, rfl⟩
    rw [movedSections, inRoom]
    dsimp only
    rw [Page.neededTimes, needs]

/-- The side of a swap that moves the sections in the way of the other one: the new assignments for
them. -/
structure Sends (board : Board page) (context : Context) (ignoreSections : List ℕ)
    (own other : ℕ) (new : List Placement) : Prop where
  found : board.swappingSections own other = .ok (some (board.movedSections own other))
  assigned : board.newAssignments context (board.assignments other).roomId ignoreSections
    (board.movedSections own other)
      ((board.assignments other).timeslots.head?.bind page.getById) [] = .ok (some new)

theorem sends_of_swapRequest (distinct : page.DistinctIds) (consistent : board.Consistent)
    {section1 section2 : ℕ} {confirms : Bool} {new1 new2 : List Placement}
    (sent : board.swapRequest context section1 section2 confirms = .ok (some (new1, new2))) :
    ∃ ignoreSections, (∀ sec, sec ∈ ignoreSections ↔
        sec ∈ (board.movedSections section1 section2).reduceOption ∨
          sec ∈ (board.movedSections section2 section1).reduceOption) ∧
      board.Sends context ignoreSections section1 section2 new1 ∧
      board.Sends context ignoreSections section2 section1 new2 ∧
      ¬((board.assignments section1).roomId = .null ∧
        (board.assignments section2).roomId = .null) := by
  rw [swapRequest] at sent
  dsimp only at sent
  split at sent
  next => cases sent
  next =>
    split at sent
    next => cases sent
    next scheduled =>
      rcases bind_eq_ok sent with ⟨found1, isFound1, sent⟩
      split at sent
      next swapping1 =>
        rcases bind_eq_ok sent with ⟨found2, isFound2, sent⟩
        split at sent
        next swapping2 =>
          have moved1 := movedSections_eq distinct consistent isFound1
          have moved2 := movedSections_eq distinct consistent isFound2
          rw [← moved1] at isFound1
          rw [← moved2] at isFound2
          split at sent
          next => cases sent
          next =>
            rcases bind_eq_ok sent with ⟨list1, assigned1, sent⟩
            split at sent
            next =>
              rcases bind_eq_ok sent with ⟨list2, assigned2, sent⟩
              split at sent
              next =>
                cases sent
                rw [← moved1, ← moved2] at assigned1 assigned2
                refine ⟨_, fun sec => ?_, ⟨isFound1, assigned1⟩, ⟨isFound2, assigned2⟩, scheduled⟩
                rw [List.reduceOption_append, List.mem_append]
              next => cases sent
            next => cases sent
        next => cases sent
      next => cases sent

/-! ## The two sides -/

section Sides

variable {own other section1 section2 : ℕ} {new back new1 new2 : List Placement}

/-- If the other section has no room, the sections in its way get none. -/
theorem Sends.eq_unscheduled (sends : board.Sends context ignoreSections own other new)
    (noRoom : (board.assignments other).roomId = .null) :
    new = (board.movedSections own other).reduceOption.map unscheduled := by
  have assigned := sends.assigned
  rw [noRoom, newAssignments_null, List.nil_append] at assigned
  cases assigned
  rfl

/-- If the other section has a room, the sections go there one after the other. -/
theorem Sends.walk (distinct : page.DistinctIds)
    (sends : board.Sends context ignoreSections own other new)
    (returns : board.Sends context ignoreSections other own back)
    (inRoom : (board.assignments other).roomId = .id room) :
    board.Walk room ignoreSections (board.movedSections own other) none (board.startPlace other)
      new := by
  rcases swappingSections_of_room inRoom returns.found with ⟨times, needs, _⟩
  have assigned := sends.assigned
  rw [inRoom, (start_eq distinct needs).2] at assigned
  rcases walk_of_newAssignments distinct assigned with ⟨added, isNew, walk⟩
  rw [List.nil_append] at isNew
  rw [isNew]
  exact walk

theorem Sends.room_cases (distinct : page.DistinctIds) (consistent : board.Consistent)
    (sends : board.Sends context ignoreSections own other new) :
    (board.assignments own).roomId = .null ∨ ∃ room, (board.assignments own).roomId = .id room :=
  (exists_swappingSections distinct consistent sends.found).1

theorem Sends.mem_names (distinct : page.DistinctIds) (consistent : board.Consistent)
    (sends : board.Sends context ignoreSections own other new)
    (returns : board.Sends context ignoreSections other own back) :
    sec ∈ new.map Placement.sec ↔ sec ∈ (board.movedSections own other).reduceOption := by
  rcases returns.room_cases distinct consistent with noRoom | ⟨room, inRoom⟩
  · rw [sends.eq_unscheduled noRoom, List.map_map]
    exact iff_of_eq (congrArg (sec ∈ ·) (List.map_id _))
  · have walk := sends.walk distinct returns inRoom
    constructor
    · intro isNamed
      have names := walk.names
      rw [Option.toList_none, List.nil_append, List.nil_append] at names
      rw [names] at isNamed
      exact (List.destutter_sublist _ _).subset isNamed
    · intro isMoved
      exact (walk.mem_names sec (List.reduceOption_mem_iff.mp isMoved)).resolve_left
        (Option.some_ne_none sec).symm

theorem Sends.nodup_iff (distinct : page.DistinctIds) (consistent : board.Consistent)
    (sends : board.Sends context ignoreSections own other new)
    (returns : board.Sends context ignoreSections other own back) :
    (new.map Placement.sec).Nodup ↔
      MoveOnce (board.assignments other).roomId (board.movedSections own other) := by
  rcases returns.room_cases distinct consistent with noRoom | ⟨room, inRoom⟩
  · rw [sends.eq_unscheduled noRoom, List.map_map, MoveOnce, if_pos noRoom]
    exact iff_of_eq (congrArg List.Nodup (List.map_id _))
  · have names := (sends.walk distinct returns inRoom).names
    rw [Option.toList_none, List.nil_append, List.nil_append] at names
    rw [names, MoveOnce, inRoom, if_neg (by simp)]

theorem Sends.roomId (distinct : page.DistinctIds) (consistent : board.Consistent)
    (sends : board.Sends context ignoreSections own other new)
    (returns : board.Sends context ignoreSections other own back) {placement : Placement}
    (isNew : placement ∈ new) :
    placement.assignment.roomId = (board.assignments other).roomId := by
  rcases returns.room_cases distinct consistent with noRoom | ⟨room, inRoom⟩
  · rw [sends.eq_unscheduled noRoom] at isNew
    rcases List.mem_map.mp isNew with ⟨sec, _, rfl⟩
    exact noRoom.symm
  · rw [inRoom]
    exact ((sends.walk distinct returns inRoom).alone placement isNew).1

theorem nodup_names_iff (distinct : page.DistinctIds) (consistent : board.Consistent)
    (sends1 : board.Sends context ignoreSections section1 section2 new1)
    (sends2 : board.Sends context ignoreSections section2 section1 new2) :
    ((new1 ++ new2).map Placement.sec).Nodup ↔
      MoveOnce (board.assignments section2).roomId (board.movedSections section1 section2) ∧
        MoveOnce (board.assignments section1).roomId (board.movedSections section2 section1) ∧
          (board.movedSections section1 section2).reduceOption.Disjoint
            (board.movedSections section2 section1).reduceOption := by
  rw [List.map_append, List.nodup_append', sends1.nodup_iff distinct consistent sends2,
    sends2.nodup_iff distinct consistent sends1]
  refine and_congr_right fun _ => and_congr_right fun _ => ?_
  exact forall_congr' fun sec => imp_congr (sends1.mem_names distinct consistent sends2)
    (imp_congr (sends2.mem_names distinct consistent sends1) Iff.rfl)

theorem mem_affected_iff (distinct : page.DistinctIds) (consistent : board.Consistent)
    (sends1 : board.Sends context ignoreSections section1 section2 new1)
    (sends2 : board.Sends context ignoreSections section2 section1 new2) :
    sec ∈ board.affected section1 section2 ↔ sec ∈ (new1 ++ new2).map Placement.sec := by
  rcases (exists_swappingSections distinct consistent sends1.found).2 with ⟨rest1, isFirst1⟩
  rcases (exists_swappingSections distinct consistent sends2.found).2 with ⟨rest2, isFirst2⟩
  rw [affected, List.mem_cons, List.mem_cons, List.reduceOption_append, List.map_append,
    List.mem_append, List.mem_append, sends1.mem_names distinct consistent sends2,
    sends2.mem_names distinct consistent sends1]
  constructor
  · intro isAffected
    rcases isAffected with rfl | rfl | isMoved
    · exact .inl (by rw [isFirst1, List.reduceOption_cons_of_some]; exact List.mem_cons_self ..)
    · exact .inr (by rw [isFirst2, List.reduceOption_cons_of_some]; exact List.mem_cons_self ..)
    · exact isMoved
  · intro isMoved
    exact .inr (.inr isMoved)

theorem namesOnce_iff (distinct : page.DistinctIds) (consistent : board.Consistent)
    (sends1 : board.Sends context ignoreSections section1 section2 new1)
    (sends2 : board.Sends context ignoreSections section2 section1 new2) :
    NamesOnce (board.affected section1 section2) (new1 ++ new2) ↔
      ((new1 ++ new2).map Placement.sec).Nodup := by
  rw [List.nodup_iff_count_eq_one]
  exact forall_congr' fun sec =>
    imp_congr (mem_affected_iff distinct consistent sends1 sends2) Iff.rfl

theorem resulting_of_mem (board : Board page) (names : (placements.map Placement.sec).Nodup)
    {placement : Placement} (isNew : placement ∈ placements) :
    board.resulting placements placement.sec = placement.assignment := by
  rw [resulting, find?_of_nodup names isNew]

theorem resulting_of_not_mem (unnamed : sec ∉ placements.map Placement.sec) :
    board.resulting placements sec = board.assignments sec := by
  rw [resulting, List.find?_eq_none.mpr]
  intro placement isNew same
  exact unnamed (List.mem_map.mpr ⟨placement, isNew, of_decide_eq_true same⟩)

/-- The new assignments of a side in one room have no timeslot in common. -/
theorem Sends.pairwise (distinct : page.DistinctIds) (consistent : board.Consistent)
    (sends : board.Sends context ignoreSections own other new)
    (returns : board.Sends context ignoreSections other own back) :
    new.Pairwise fun placement next =>
      placement.assignment.timeslots.Disjoint next.assignment.timeslots := by
  rcases returns.room_cases distinct consistent with noRoom | ⟨room, inRoom⟩
  · rw [sends.eq_unscheduled noRoom, List.pairwise_map]
    exact List.pairwise_of_forall fun _ _ => List.disjoint_nil_left _
  · exact (sends.walk distinct returns inRoom).pairwise distinct

/-- A new assignment takes no cell of a section that stays. -/
theorem Sends.alone (distinct : page.DistinctIds) (consistent : board.Consistent)
    (sends : board.Sends context ignoreSections own other new)
    (returns : board.Sends context ignoreSections other own back) {placement : Placement}
    (isNew : placement ∈ new) {timeslot : ℤ} {third : ℕ}
    (inRoom : placement.assignment.roomId = .id room)
    (isTime : timeslot ∈ placement.assignment.timeslots)
    (held : board.cells room timeslot = some third) :
    third = placement.sec ∨ third ∈ ignoreSections := by
  rcases returns.room_cases distinct consistent with noRoom | ⟨goal, isGoal⟩
  · rw [sends.eq_unscheduled noRoom] at isNew
    rcases List.mem_map.mp isNew with ⟨sec, _, rfl⟩
    cases isTime
  · have both := (sends.walk distinct returns isGoal).alone placement isNew
    rw [inRoom] at both
    cases both.1
    exact both.2 timeslot isTime third held

/-- A new assignment takes no cell of a section that is not named. -/
theorem unnamed_apart (distinct : page.DistinctIds) (consistent : board.Consistent)
    (ignored : ∀ sec, sec ∈ ignoreSections ↔
      sec ∈ (board.movedSections section1 section2).reduceOption ∨
        sec ∈ (board.movedSections section2 section1).reduceOption)
    (sends1 : board.Sends context ignoreSections section1 section2 new1)
    (sends2 : board.Sends context ignoreSections section2 section1 new2)
    {placement : Placement} (isNew : placement ∈ new1 ++ new2) {timeslot : ℤ} {third : ℕ}
    (inRoom : placement.assignment.roomId = .id room)
    (isTime : timeslot ∈ placement.assignment.timeslots)
    (unnamed : third ∉ (new1 ++ new2).map Placement.sec) :
    board.cells room timeslot ≠ some third := by
  intro held
  have either : third = placement.sec ∨ third ∈ ignoreSections := by
    rcases List.mem_append.mp isNew with isNew1 | isNew2
    · exact sends1.alone distinct consistent sends2 isNew1 inRoom isTime held
    · exact sends2.alone distinct consistent sends1 isNew2 inRoom isTime held
  rcases either with rfl | isIgnored
  · exact unnamed (List.mem_map_of_mem isNew)
  · refine unnamed ?_
    rw [List.map_append, List.mem_append, sends1.mem_names distinct consistent sends2,
      sends2.mem_names distinct consistent sends1]
    exact (ignored third).mp isIgnored

theorem disjoint_of_noCollision (distinct : page.DistinctIds) (consistent : board.Consistent)
    (sends1 : board.Sends context ignoreSections section1 section2 new1)
    (sends2 : board.Sends context ignoreSections section2 section1 new2)
    (names : ((new1 ++ new2).map Placement.sec).Nodup)
    (noCollision : NoCollision (board.resulting (new1 ++ new2)))
    (sameRoom : (board.assignments section1).roomId = (board.assignments section2).roomId) :
    ∀ placement ∈ new1, ∀ next ∈ new2,
      placement.assignment.timeslots.Disjoint next.assignment.timeslots := by
  intro placement isNew1 next isNew2 timeslot isTime isNext
  have room1 := sends1.roomId distinct consistent sends2 isNew1
  have room2 := sends2.roomId distinct consistent sends1 isNew2
  rcases sends1.room_cases distinct consistent with noRoom | ⟨room, inRoom⟩
  · rw [sends2.eq_unscheduled noRoom] at isNew2
    rcases List.mem_map.mp isNew2 with ⟨sec, _, rfl⟩
    cases isNext
  · have here := resulting_of_mem board names (List.mem_append_left _ isNew1)
    have there := resulting_of_mem board names (List.mem_append_right _ isNew2)
    have sameSec := noCollision placement.sec next.sec room timeslot
      (by rw [here, room1, ← sameRoom, inRoom]) (by rw [here]; exact isTime)
      (by rw [there, room2, inRoom]) (by rw [there]; exact isNext)
    rw [List.map_append] at names
    exact List.disjoint_of_nodup_append names (List.mem_map_of_mem isNew1)
      (sameSec ▸ List.mem_map_of_mem isNew2)

theorem pairwise_new (distinct : page.DistinctIds) (consistent : board.Consistent)
    (sends1 : board.Sends context ignoreSections section1 section2 new1)
    (sends2 : board.Sends context ignoreSections section2 section1 new2)
    (apart : (board.assignments section1).roomId = (board.assignments section2).roomId →
      ∀ placement ∈ new1, ∀ next ∈ new2,
        placement.assignment.timeslots.Disjoint next.assignment.timeslots) :
    (new1 ++ new2).Pairwise fun placement next =>
      placement.assignment.roomId = next.assignment.roomId →
        placement.assignment.timeslots.Disjoint next.assignment.timeslots := by
  refine List.pairwise_append.mpr ⟨?_, ?_, ?_⟩
  · refine (sends1.pairwise distinct consistent sends2).imp ?_
    intro placement next disjoint _
    exact disjoint
  · refine (sends2.pairwise distinct consistent sends1).imp ?_
    intro placement next disjoint _
    exact disjoint
  · intro placement isNew1 next isNew2 sameRoom
    rw [sends1.roomId distinct consistent sends2 isNew1,
      sends2.roomId distinct consistent sends1 isNew2] at sameRoom
    exact apart sameRoom.symm placement isNew1 next isNew2

theorem noCollision_iff (distinct : page.DistinctIds) (consistent : board.Consistent)
    (ignored : ∀ sec, sec ∈ ignoreSections ↔
      sec ∈ (board.movedSections section1 section2).reduceOption ∨
        sec ∈ (board.movedSections section2 section1).reduceOption)
    (sends1 : board.Sends context ignoreSections section1 section2 new1)
    (sends2 : board.Sends context ignoreSections section2 section1 new2)
    (names : ((new1 ++ new2).map Placement.sec).Nodup) :
    NoCollision (board.resulting (new1 ++ new2)) ↔
      ((board.assignments section1).roomId = (board.assignments section2).roomId →
        ∀ placement ∈ new1, ∀ next ∈ new2,
          placement.assignment.timeslots.Disjoint next.assignment.timeslots) := by
  constructor
  · intro noCollision
    exact disjoint_of_noCollision distinct consistent sends1 sends2 names noCollision
  · intro apart sec third room timeslot inRoom isTime alsoInRoom alsoTime
    by_cases isNamed : sec ∈ (new1 ++ new2).map Placement.sec
    · rcases List.mem_map.mp isNamed with ⟨placement, isNew, rfl⟩
      rw [resulting_of_mem board names isNew] at inRoom isTime
      by_cases alsoNamed : third ∈ (new1 ++ new2).map Placement.sec
      · rcases List.mem_map.mp alsoNamed with ⟨next, isNext, rfl⟩
        rw [resulting_of_mem board names isNext] at alsoInRoom alsoTime
        by_contra different
        have symmetric : Std.Symm fun placement next : Placement =>
            placement.assignment.roomId = next.assignment.roomId →
              placement.assignment.timeslots.Disjoint next.assignment.timeslots :=
          ⟨fun _ _ disjoint same => (disjoint same.symm).symm⟩
        have disjoint := (pairwise_new distinct consistent sends1 sends2 apart).forall isNew isNext
          (fun same => different (congrArg Placement.sec same)) (inRoom.trans alsoInRoom.symm)
        exact disjoint isTime alsoTime
      · rw [resulting_of_not_mem alsoNamed] at alsoInRoom alsoTime
        exact absurd ((consistent room timeslot third).mpr ⟨alsoInRoom, alsoTime⟩)
          (unnamed_apart distinct consistent ignored sends1 sends2 isNew inRoom isTime alsoNamed)
    · rw [resulting_of_not_mem isNamed] at inRoom isTime
      have held := (consistent room timeslot sec).mpr ⟨inRoom, isTime⟩
      by_cases alsoNamed : third ∈ (new1 ++ new2).map Placement.sec
      · rcases List.mem_map.mp alsoNamed with ⟨next, isNext, rfl⟩
        rw [resulting_of_mem board names isNext] at alsoInRoom alsoTime
        exact absurd held
          (unnamed_apart distinct consistent ignored sends1 sends2 isNext alsoInRoom alsoTime isNamed)
      · rw [resulting_of_not_mem alsoNamed] at alsoInRoom alsoTime
        rw [(consistent room timeslot third).mpr ⟨alsoInRoom, alsoTime⟩] at held
        exact (Option.some.inj held).symm

theorem disjoint_iff_fitBefore (distinct : page.DistinctIds) (consistent : board.Consistent)
    (sends : board.Sends context ignoreSections own other new)
    (returns : board.Sends context ignoreSections other own back)
    (inRoom : (board.assignments own).roomId = .id room)
    (sameRoom : (board.assignments own).roomId = (board.assignments other).roomId)
    (earlier : board.startPlace own < board.startPlace other) :
    (∀ placement ∈ new, ∀ next ∈ back,
        placement.assignment.timeslots.Disjoint next.assignment.timeslots) ↔
      page.FitBefore (board.startPlace other) (board.movedSections other own) none
        (board.startPlace own) := by
  have alsoInRoom := sameRoom.symm.trans inRoom
  have walk := sends.walk distinct returns alsoInRoom
  have walkBack := returns.walk distinct sends inRoom
  rw [walkBack.fitBefore_iff distinct]
  constructor
  · intro disjoint
    by_contra late
    push Not at late
    rcases late with ⟨next, isBack, place, isAt, reaches⟩
    rcases walkBack.lands distinct _ 0 (by omega) ⟨next, isBack, place, isAt, reaches⟩ with
      ⟨landing, isLanding, place, ⟨timeslot, isTime, here⟩, from_, until_⟩
    rcases (exists_swappingSections distinct consistent sends.found).2 with ⟨rest, isFirst⟩
    rcases (exists_swappingSections distinct consistent returns.found).2 with ⟨restBack, isFirstBack⟩
    rw [isFirst] at walk
    rcases walk.first with ⟨times, needs, isNew⟩
    rcases swappingSections_of_room alsoInRoom returns.found with ⟨sameTimes, sameNeeds, cells⟩
    rw [(start_eq distinct sameNeeds).1, needs] at sameNeeds
    cases sameNeeds
    have size : (board.movedSections other own).length = times.length := by
      rw [cells, List.length_map]
    have gaps : (board.movedSections other own).count none < times.length := by
      rw [← size, isFirstBack, List.count_cons_of_ne (by simp), List.length_cons]
      exact Nat.lt_succ_of_le List.count_le_length
    rcases (distinct.isAt_iff (.id room) own needs).mpr ⟨from_, by omega⟩ with
      ⟨sameTimeslot, alsoTime, there⟩
    cases here.symm.trans there
    exact disjoint _ isNew landing isLanding alsoTime isTime
  · intro fit placement isNew next isBack timeslot isTime isNext
    rcases walk.le_place distinct placement isNew timeslot isTime with ⟨place, from_, here⟩
    have before := fit next isBack place ⟨timeslot, isNext, here⟩
    omega

theorem startPlace_ne (distinct : page.DistinctIds) (consistent : board.Consistent)
    (sends1 : board.Sends context ignoreSections section1 section2 new1)
    (sends2 : board.Sends context ignoreSections section2 section1 new2)
    (inRoom : (board.assignments section1).roomId = .id room)
    (sameRoom : (board.assignments section1).roomId = (board.assignments section2).roomId)
    (disjoint : (board.movedSections section1 section2).reduceOption.Disjoint
      (board.movedSections section2 section1).reduceOption) :
    board.startPlace section1 ≠ board.startPlace section2 := by
  intro samePlace
  rcases swappingSections_of_room inRoom sends1.found with ⟨times1, needs1, cells1⟩
  rcases swappingSections_of_room (sameRoom.symm.trans inRoom) sends2.found with
    ⟨times2, needs2, cells2⟩
  rcases (exists_swappingSections distinct consistent sends1.found).2 with ⟨rest1, isFirst1⟩
  rcases (exists_swappingSections distinct consistent sends2.found).2 with ⟨rest2, isFirst2⟩
  rw [(start_eq distinct needs1).1] at needs1
  rw [(start_eq distinct needs2).1, ← samePlace] at needs2
  have size1 := distinct.getElem?_times needs1
  have size2 := distinct.getElem?_times needs2
  have first1 := size1.2 0 size1.1
  have first2 := size2.2 0 size2.1
  cases times1 with
  | nil => exact absurd size1.1 (lt_irrefl 0)
  | cons time1 more1 =>
      cases times2 with
      | nil => exact absurd size2.1 (lt_irrefl 0)
      | cons time2 more2 =>
          cases first1.trans first2.symm
          rw [cells1, cells2] at disjoint
          rw [cells1, List.map_cons, List.cons.injEq] at isFirst1
          rw [List.map_cons, List.map_cons, isFirst1.1, List.reduceOption_cons_of_some,
            List.reduceOption_cons_of_some] at disjoint
          exact disjoint (List.mem_cons_self ..) (List.mem_cons_self ..)

theorem disjoint_iff_fit (distinct : page.DistinctIds) (consistent : board.Consistent)
    (sends1 : board.Sends context ignoreSections section1 section2 new1)
    (sends2 : board.Sends context ignoreSections section2 section1 new2)
    (disjoint : (board.movedSections section1 section2).reduceOption.Disjoint
      (board.movedSections section2 section1).reduceOption)
    (inRoom : (board.assignments section1).roomId = .id room)
    (sameRoom : (board.assignments section1).roomId = (board.assignments section2).roomId) :
    (∀ placement ∈ new1, ∀ next ∈ new2,
        placement.assignment.timeslots.Disjoint next.assignment.timeslots) ↔
      (board.startPlace section1 < board.startPlace section2 →
        page.FitBefore (board.startPlace section2) (board.movedSections section2 section1) none
          (board.startPlace section1)) ∧
      (board.startPlace section2 < board.startPlace section1 →
        page.FitBefore (board.startPlace section1) (board.movedSections section1 section2) none
          (board.startPlace section2)) := by
  have different := startPlace_ne distinct consistent sends1 sends2 inRoom sameRoom disjoint
  rcases lt_or_gt_of_ne different with earlier | later
  · rw [disjoint_iff_fitBefore distinct consistent sends1 sends2 inRoom sameRoom earlier]
    constructor
    · intro fit
      exact ⟨fun _ => fit, fun later => absurd later earlier.asymm⟩
    · intro both
      exact both.1 earlier
  · rw [← disjoint_iff_fitBefore distinct consistent sends2 sends1 (sameRoom.symm.trans inRoom)
      sameRoom.symm later]
    constructor
    · intro apart
      refine ⟨fun earlier => absurd earlier later.asymm, fun _ placement isNew next isNext => ?_⟩
      exact (apart next isNext placement isNew).symm
    · intro both placement isNew next isNext
      exact (both.2 later next isNext placement isNew).symm

end Sides

/-- The new assignments that a swap sends name each affected section once, and no sections meet in
the schedule that they lead to, exactly if both sides move apart. -/
theorem swapped_apart_iff (distinct : page.DistinctIds) (consistent : board.Consistent)
    {section1 section2 : ℕ} {confirms : Bool} {new1 new2 : List Placement}
    (sent : board.swapRequest context section1 section2 confirms = .ok (some (new1, new2))) :
    (NamesOnce (board.affected section1 section2) (new1 ++ new2) ∧
        NoCollision (board.resulting (new1 ++ new2))) ↔
      board.SwapsApart section1 section2 := by
  rcases sends_of_swapRequest distinct consistent sent with
    ⟨ignoreSections, ignored, sends1, sends2, scheduled⟩
  have exists_room : (board.assignments section1).roomId = (board.assignments section2).roomId →
      ∃ room, (board.assignments section1).roomId = .id room := by
    intro sameRoom
    rcases sends1.room_cases distinct consistent with noRoom | inRoom
    · exact absurd ⟨noRoom, sameRoom.symm.trans noRoom⟩ scheduled
    · exact inRoom
  rw [namesOnce_iff distinct consistent sends1 sends2]
  constructor
  · intro both
    have moves := (nodup_names_iff distinct consistent sends1 sends2).mp both.1
    have apart := (noCollision_iff distinct consistent ignored sends1 sends2 both.1).mp both.2
    refine ⟨moves.1, moves.2.1, moves.2.2, fun sameRoom => ?_, fun sameRoom => ?_⟩
    all_goals
      rcases exists_room sameRoom with ⟨room, inRoom⟩
      have fit := (disjoint_iff_fit distinct consistent sends1 sends2 moves.2.2 inRoom sameRoom).mp
        (apart sameRoom)
    · exact fit.1
    · exact fit.2
  · intro swapsApart
    have names := (nodup_names_iff distinct consistent sends1 sends2).mpr
      ⟨swapsApart.once1, swapsApart.once2, swapsApart.disjoint⟩
    refine ⟨names, (noCollision_iff distinct consistent ignored sends1 sends2 names).mpr ?_⟩
    intro sameRoom
    rcases exists_room sameRoom with ⟨room, inRoom⟩
    exact (disjoint_iff_fit distinct consistent sends1 sends2 swapsApart.disjoint inRoom
      sameRoom).mpr ⟨swapsApart.fit1 sameRoom, swapsApart.fit2 sameRoom⟩

namespace Sample

/-- A room for five hours, with sections of one hour and of two hours. -/
def theatre : Page where
  timeslots := [⟨1, 0, 3600, 1, 1⟩, ⟨2, 3600, 7200, 1, 1⟩, ⟨3, 7200, 10800, 1, 1⟩,
    ⟨4, 10800, 14400, 1, 1⟩, ⟨5, 14400, 18000, 1, 1⟩]
  lunchTimeslots := []
  minimumDifference := some 20
  rooms := [⟨1, [1, 2, 3, 4, 5]⟩]
  sections := [1, 2, 3, 4]
  length := fun sec => if sec = 2 then 1 else 2

/-- The timeslots of three sections that follow each other; the fourth one has none. -/
def hours (sec : ℕ) : List ℤ :=
  if sec = 1 then [1, 2] else if sec = 2 then [3] else if sec = 3 then [4, 5] else []

/-- The three sections are in the room. -/
def playing : Board theatre where
  cells := fun room timeslot =>
    if room = 1 then [1, 2, 3].find? fun sec => decide (timeslot ∈ hours sec) else none
  assignments := fun sec => ⟨if hours sec = [] then .null else .id 1, hours sec⟩
  onGrid := by
    intro room timeslot occupied
    split at occupied
    next here =>
      rw [here]
      have usable : ∀ sec ∈ [1, 2, 3], ∀ timeslot ∈ hours sec,
          theatre.usable 1 timeslot = true := by decide
      rcases Option.isSome_iff_exists.mp occupied with ⟨sec, found⟩
      have held := List.find?_some found
      exact usable sec (List.mem_of_find?_eq_some found) timeslot (of_decide_eq_true held)
    next => cases occupied

theorem consistent_playing : playing.Consistent := by
  intro room timeslot sec
  have cells : playing.cells room timeslot =
      if room = 1 then [1, 2, 3].find? fun sec => decide (timeslot ∈ hours sec) else none := rfl
  have assignment : playing.assignments sec =
      ⟨if hours sec = [] then .null else .id 1, hours sec⟩ := rfl
  have apart : ∀ sec ∈ [1, 2, 3], ∀ other ∈ [1, 2, 3], ∀ timeslot ∈ hours sec,
      timeslot ∈ hours other → sec = other := by decide
  rw [cells, assignment]
  constructor
  · intro held
    split at held
    next here =>
      have isHeld := List.find?_some held
      have isTime : timeslot ∈ hours sec := of_decide_eq_true isHeld
      rw [if_neg (List.ne_nil_of_mem isTime), here]
      exact ⟨rfl, isTime⟩
    next => cases held
  · intro assigned
    rw [if_neg (List.ne_nil_of_mem assigned.2)] at assigned
    have isSection : sec ∈ [1, 2, 3] := by
      by_contra none
      simp at none
      simp [hours, none] at assigned
    rw [if_pos (RoomId.id.inj assigned.1).symm]
    cases found : [1, 2, 3].find? fun sec => decide (timeslot ∈ hours sec) with
    | none =>
        have free := List.find?_eq_none.mp found sec isSection
        exact absurd (decide_eq_true assigned.2) free
    | some other =>
        have isFound := List.find?_some found
        have isTime : timeslot ∈ hours other := of_decide_eq_true isFound
        rw [apart other (List.mem_of_find?_eq_some found) sec isSection timeslot isTime assigned.2]

theorem eq_ok_of_toOption {Value : Type} {computation : Throws Value} {value : Value}
    (returns : computation.toOption = some value) : computation = .ok value := by
  cases computation with
  | error thrown => cases returns
  | ok other => exact congrArg Except.ok (Option.some.inj returns)

theorem distinctIds_theatre : theatre.DistinctIds := by
  rw [Page.DistinctIds]
  decide

/-- Two sections of two hours change places. -/
theorem playing_swapped :
    NamesOnce (playing.affected 1 3) [⟨1, .id 1, [4, 5]⟩, ⟨3, .id 1, [1, 2]⟩] ∧
      NoCollision (playing.resulting [⟨1, .id 1, [4, 5]⟩, ⟨3, .id 1, [1, 2]⟩]) := by
  have first : playing.movedSections 1 3 = [some 1, some 1] := by decide +kernel
  have third : playing.movedSections 3 1 = [some 3, some 3] := by decide +kernel
  have sent : playing.swapRequest Sample.overriding 1 3 true =
      .ok (some ([⟨1, .id 1, [4, 5]⟩], [⟨3, .id 1, [1, 2]⟩])) :=
    eq_ok_of_toOption (by decide +kernel)
  refine (swapped_apart_iff distinctIds_theatre consistent_playing sent).mpr
    ⟨?_, ?_, ?_, fun _ _ => ?_, fun _ later => ?_⟩
  · rw [first, MoveOnce, if_neg (by decide)]
    decide
  · rw [third, MoveOnce, if_neg (by decide)]
    decide
  · rw [first, third]
    simp
  · rw [third, Page.FitBefore, if_neg (by decide)]
    refine ⟨[1, 2], eq_ok_of_toOption (by decide +kernel), by decide +kernel, ?_⟩
    rw [Page.FitBefore, if_pos rfl]
    trivial
  · exact absurd later (by decide)

/-- A section of two hours changes places with the section of one hour after it, and meets the next
one, which has to move along; when it changes places with the unscheduled one, it is named twice. -/
theorem playing_not_apart : playing.Consistent ∧
    (∃ new1 new2, playing.swapRequest Sample.overriding 1 2 true = .ok (some (new1, new2)) ∧
      (placeAll (swapSectionsLocal new1 new2) playing).2 = true ∧
        ¬NoCollision (playing.resulting (new1 ++ new2))) ∧
    ∃ new1 new2, playing.swapRequest Sample.overriding 1 4 true = .ok (some (new1, new2)) ∧
      (placeAll (swapSectionsLocal new1 new2) playing).2 = true ∧
        ¬NamesOnce (playing.affected 1 4) (new1 ++ new2) := by
  refine ⟨consistent_playing, ⟨[⟨1, .id 1, [3, 4]⟩], [⟨2, .id 1, [1]⟩, ⟨3, .id 1, [2, 3]⟩], ?_, ?_,
    ?_⟩, ⟨[⟨1, .null, []⟩, ⟨1, .null, []⟩], [⟨4, .id 1, [1, 2]⟩], ?_, ?_, ?_⟩⟩
  · exact eq_ok_of_toOption (by decide +kernel)
  · decide
  · intro noCollision
    exact absurd (noCollision 1 3 1 3 (by decide) (by decide) (by decide) (by decide)) (by decide)
  · exact eq_ok_of_toOption (by decide +kernel)
  · decide
  · intro once
    exact absurd (once 1 (List.mem_cons_self ..)) (by decide)

end Sample

end Board

end EspWebsite.AjaxScheduling
