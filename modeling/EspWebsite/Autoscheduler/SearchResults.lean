import EspWebsite.Autoscheduler.Performing
import EspWebsite.Autoscheduler.Preservation

/-!
# What a search leaves behind

When no evicted section is left without a place, a search reverts just what it has tried:
nothing from before is undone, no section loses its place, and the score does not fall.  When
one is left without a place, what was proposed is reverted twice.
-/

namespace EspWebsite.Autoscheduler

open Python

/-- Whether the section has just the roomslots that its duration takes. -/
def canonical (assignments : Assignments) (sec : AS_ClassSection) : Bool :=
  match assignments.assignedRoomslots sec with
  | [] => true
  | first :: rest => getRoomslotsByDuration first sec.duration = first :: rest

theorem canonical_iff {assignments : Assignments} {sec : AS_ClassSection} :
    canonical assignments sec = true ↔ Canonical assignments sec := by
  rw [canonical, Canonical]
  split
  next unscheduled => simp [unscheduled]
  next first rest held =>
    rw [decide_eq_true_eq]
    constructor
    · intro taken other others same
      cases held.symm.trans same
      exact taken
    · intro taken
      exact taken first rest held

/-! ## Searches that strand no section -/

namespace SearchOptimizer

section Safety

variable {schedule : AS_Schedule} {scorer : Scorer schedule}
  (constraints : CompositeConstraint) (movable : Assignments → AS_ClassSection → Bool)
  (nested : AS_ClassSection → SearchState scorer → Bool)
  (optimizeSection :
    AS_ClassSection → SearchState scorer → Raises (List Action × SearchState scorer))

/-- Whether all sections are movable that the loop kicks out of the needed slots. -/
def evictsMovable (depth : ℕ) : List AS_RoomSlot → ScheduleManipulator scorer → Bool
  | [], _ => true
  | neededSlot :: rest, manipulator =>
      match manipulator.assignments.assignedSection neededSlot with
      | none => evictsMovable depth rest manipulator
      | some otherSection =>
          if depth = 1 then true
          else
            match manipulator.unscheduleSection constraints otherSection with
            | .ok (true, after) =>
                movable manipulator.assignments otherSection && evictsMovable depth rest after
            | _ => true

/-- Whether each evicted section finds a place, by a search that strands no section. -/
def rehomesAll : List AS_ClassSection → SearchState scorer → Bool
  | [], _ => true
  | otherSection :: rest, state =>
      nested otherSection state &&
        match optimizeSection otherSection state with
        | .ok (_, state) =>
            state.manipulator.isScheduled otherSection && rehomesAll rest state
        | .error _ => true

/-- Whether putting the section into one roomslot strands no section. -/
def triesSafely (depth : ℕ) (sec : AS_ClassSection) (roomslot : AS_RoomSlot)
    (state : SearchState scorer) : Bool :=
  let neededSlots := getRoomslotsByDuration roomslot sec.duration
  evictsMovable constraints movable depth neededSlots state.manipulator &&
    match clearSlots constraints depth neededSlots [] [] state.manipulator with
    | .error _ => true
    | .ok cleared =>
        cleared.failed ||
          match place constraints sec roomslot cleared.manipulator with
          | .ok (true, manipulator) =>
              movable cleared.manipulator.assignments sec &&
                rehomesAll nested optimizeSection cleared.otherSections
                  { state with manipulator := manipulator }
          | _ => true

/-- Whether the main loop strands no section. -/
def searchesSafely (depth : ℕ) (sec : AS_ClassSection) :
    List AS_RoomSlot → Best → SearchState scorer → Bool
  | [], _, _ => true
  | roomslot :: rest, best, state =>
      triesSafely constraints movable nested optimizeSection depth sec roomslot state &&
        match tryRoomslot constraints optimizeSection depth sec roomslot best state with
        | .error _ => true
        | .ok (best, state) => searchesSafely depth sec rest best state

/-- Whether in a search, and in all the searches in it, every evicted section finds a place,
and every section that is evicted or moved is movable. -/
def strandsNone (expired : ℕ → Bool) : ℕ → AS_ClassSection → SearchState scorer → Bool
  | 0, _, _ => true
  | depth + 1, sec, state =>
      let read := { state with readings := state.readings + 1 }
      expired state.readings ||
        match scorer.scoreSchedule read.manipulator.scorerState with
        | .error _ => true
        | .ok score =>
            searchesSafely constraints movable (strandsNone expired depth)
              (SearchOptimizer.optimizeSection constraints expired depth) (depth + 1)
              sec schedule.roomslots ⟨score, []⟩ read

end Safety

/-! ## What has been reached -/

section Reaching

variable {schedule : AS_Schedule} {scorer : Scorer schedule} {View : Type}
  {constraints : CompositeConstraint} {view : ScheduleManipulator scorer → View}
  {steady : ScheduleManipulator scorer → Prop}
  {base manipulator result : ScheduleManipulator scorer} {actions more : List Action}
  {action : Action} {change : Change} {sec : AS_ClassSection}

/-- The actions lead from one manipulator to another, and are recorded. -/
structure Reaches (constraints : CompositeConstraint) (view : ScheduleManipulator scorer → View)
    (steady : ScheduleManipulator scorer → Prop) (base : ScheduleManipulator scorer)
    (actions : List Action) (manipulator : ScheduleManipulator scorer) : Prop where
  leads : Leads constraints view steady (view base) actions (view manipulator)
  history : manipulator.history = base.history ++ actions
  isSteady : steady manipulator

theorem Reaches.refl (isSteady : steady base) : Reaches constraints view steady base [] base where
  leads := .nil
  history := (List.append_nil _).symm
  isSteady := isSteady

theorem Reaches.trans (first : Reaches constraints view steady base actions manipulator)
    (second : Reaches constraints view steady manipulator more result) :
    Reaches constraints view steady base (actions ++ more) result where
  leads := first.leads.trans second.leads
  history := by rw [second.history, first.history, List.append_assoc]
  isSteady := second.isSteady

theorem Reaches.view_eq (reaches : Reaches constraints view steady base [] manipulator) :
    view manipulator = view base := by
  rcases reaches with ⟨leads, -, -⟩
  generalize final : view manipulator = reached at leads
  generalize none : ([] : List Action) = actions at leads
  cases leads with
  | nil => rfl
  | snoc _ _ _ _ => cases List.append_ne_nil_of_right_ne_nil _ (List.cons_ne_nil _ _) none.symm

theorem Reaches.perform (determines : Determines constraints view steady)
    (reaches : Reaches constraints view steady base actions manipulator)
    (revertible : change.Revertible schedule manipulator.assignments)
    (performs : change.Performs constraints manipulator result action) :
    Reaches constraints view steady base (actions ++ [action]) result where
  leads := .snoc reaches.leads reaches.isSteady revertible performs
  history := by rw [performs.history, reaches.history, List.append_assoc]
  isSteady := determines.next reaches.isSteady revertible performs

theorem Reaches.revert (determines : Determines constraints view steady)
    (isSteady : steady base) (reaches : Reaches constraints view steady base actions manipulator)
    (returned : SearchOptimizer.revert constraints actions.length manipulator = .ok result) :
    Reaches constraints view steady base [] result := by
  have back := reaches.leads.revert determines rfl reaches.history returned
  refine ⟨?_, back.2.trans (List.append_nil _).symm, determines.congr back.1 isSteady⟩
  rw [back.1]
  exact .nil

/-- Sections that were scheduled still are. -/
def Keeps (base manipulator : ScheduleManipulator scorer) : Prop :=
  ∀ sec ∈ schedule.classSections, base.isScheduled sec = true →
    manipulator.isScheduled sec = true

theorem isScheduled_iff :
    manipulator.isScheduled sec = true ↔
      manipulator.assignments.assignedRoomslots sec ≠ [] := by
  simp [ScheduleManipulator.isScheduled, Assignments.isScheduled]

theorem isScheduled_congr (same : manipulator.assignments = result.assignments) :
    manipulator.isScheduled sec = result.isScheduled sec := by
  rw [ScheduleManipulator.isScheduled, ScheduleManipulator.isScheduled, same]

theorem isScheduled_of_notMem
    (performs : change.Performs constraints manipulator result action)
    (unchanged : sec ∉ change.sections) :
    result.isScheduled sec = manipulator.isScheduled sec := by
  rw [ScheduleManipulator.isScheduled, ScheduleManipulator.isScheduled, performs.assignments,
    Assignments.isScheduled, Assignments.isScheduled, Change.assigned_apply_of_notMem _ unchanged]

/-- What the loop has done that kicks everyone else out: the sections that it has evicted are
remembered. -/
structure Clears (constraints : CompositeConstraint) (view : ScheduleManipulator scorer → View)
    (steady : ScheduleManipulator scorer → Prop) (base : ScheduleManipulator scorer)
    (cleared : Cleared scorer) : Prop where
  reaches : Reaches constraints view steady base cleared.proposedActions cleared.manipulator
  listed : ∀ otherSection ∈ cleared.otherSections, otherSection ∈ schedule.classSections
  keeps : ∀ sec ∈ schedule.classSections, base.isScheduled sec = true →
    cleared.manipulator.isScheduled sec = true ∨ sec ∈ cleared.otherSections

/-- The loop that clears the slots either evicts sections, or leaves nothing changed. -/
theorem clearSlots_spec (determines : Determines constraints view steady)
    (isSteady : steady base) {depth : ℕ} {slots : List AS_RoomSlot}
    {otherSections : List AS_ClassSection} {cleared : Cleared scorer}
    (registered : ∀ slot ∈ slots, slot ∈ schedule.roomslots)
    (clears : Clears constraints view steady base ⟨false, otherSections, actions, manipulator⟩)
    (untouched : depth = 1 → actions = [])
    (safe : evictsMovable constraints canonical depth slots manipulator = true)
    (returned : clearSlots constraints depth slots otherSections actions manipulator =
      .ok cleared) :
    (cleared.failed = true ∧
        Reaches constraints view steady base [] cleared.manipulator) ∨
      cleared.failed = false ∧ Clears constraints view steady base cleared := by
  induction slots generalizing otherSections actions manipulator with
  | nil =>
      cases returned
      exact .inr ⟨rfl, clears⟩
  | cons slot rest ih =>
      have restRegistered : ∀ slot ∈ rest, slot ∈ schedule.roomslots :=
        fun other isLater => registered other (List.mem_cons_of_mem _ isLater)
      rw [clearSlots] at returned
      rw [evictsMovable] at safe
      cases holder : manipulator.assignments.assignedSection slot with
      | none =>
          simp only [holder] at returned safe
          exact ih restRegistered clears untouched safe returned
      | some other =>
          simp only [holder] at returned safe
          by_cases shallow : depth = 1
          · rw [if_pos shallow] at returned
            cases returned
            have reaches := clears.reaches
            rw [untouched shallow] at reaches
            exact .inl ⟨rfl, reaches⟩
          · rw [if_neg shallow] at returned safe
            rcases bind_eq_ok.mp returned with ⟨⟨success, after⟩, unscheduled, later⟩
            have placed := determines.placed clears.reaches.isSteady
            have isOther : other ∈ schedule.classSections :=
              placed.agrees.owner_of_holder slot (registered slot (List.mem_cons_self ..)) other
                holder
            cases success with
            | true =>
                simp only [unscheduled, Bool.and_eq_true] at safe
                rcases bind_eq_ok.mp later with ⟨proposed, isProposed, later⟩
                have called : Change.call constraints manipulator false (.unschedule other) =
                    .ok (true, after) := unscheduled
                have revertible : Change.Revertible schedule manipulator.assignments
                    (.unschedule other) := ⟨isOther, id, canonical_iff.mp safe.1⟩
                rcases (Change.call_performs placed revertible.registered).mp called with
                  ⟨action, performs⟩
                rw [updateProposedActions, last_history_eq_ok performs.history] at isProposed
                cases isProposed
                refine ih restRegistered ?_ (fun isOne => absurd isOne shallow) safe.2 later
                refine ⟨clears.reaches.perform determines revertible performs, ?_, ?_⟩
                · intro section' isSection
                  rcases List.mem_append.mp isSection with isOld | isNew
                  · exact clears.listed section' isOld
                  · rw [List.mem_singleton.mp isNew]
                    exact isOther
                · intro section' isSection wasScheduled
                  rcases clears.keeps section' isSection wasScheduled with still | evicted
                  · by_cases same : section' = other
                    · exact .inr (List.mem_append_right _ (List.mem_singleton.mpr same))
                    · left
                      rw [isScheduled_of_notMem performs (List.mem_singleton.not.mpr same)]
                      exact still
                  · exact .inr (List.mem_append_left _ evicted)
            | false =>
                rcases bind_eq_ok.mp later with ⟨reverted, isReverted, isCleared⟩
                cases isCleared
                have called : Change.call constraints manipulator false (.unschedule other) =
                    .ok (false, after) := unscheduled
                rw [(Change.call_eq_false.mp called).2.2] at isReverted
                exact .inl ⟨rfl, clears.reaches.revert determines isSteady isReverted⟩

/-- Putting the section into the roomslot keeps all sections scheduled. -/
theorem place_spec (placed : WellPlaced schedule manipulator.assignments)
    (listed : sec ∈ schedule.classSections) {roomslot : AS_RoomSlot}
    (registered : roomslot ∈ schedule.roomslots)
    (safe : canonical manipulator.assignments sec = true)
    (returned : place constraints sec roomslot manipulator = .ok (true, result)) :
    ∃ (change : Change) (action : Action),
      change.Revertible schedule manipulator.assignments ∧
      change.Performs constraints manipulator result action ∧
      Keeps manipulator result ∧ result.isScheduled sec = true := by
  have keeps {change : Change} {action : Action}
      (performs : change.Performs constraints manipulator result action)
      (sections : change.sections = [sec])
      (isScheduled : result.isScheduled sec = true) : Keeps manipulator result := by
    intro other _ wasScheduled
    by_cases same : other = sec
    · rw [same]
      exact isScheduled
    · rw [isScheduled_of_notMem performs (by rw [sections]; exact List.mem_singleton.not.mpr same)]
      exact wasScheduled
  rw [place] at returned
  split at returned
  next scheduled =>
    have called : Change.call constraints manipulator false (.move sec roomslot) =
        .ok (true, result) := returned
    have revertible : Change.Revertible schedule manipulator.assignments
        (.move sec roomslot) := ⟨⟨listed, registered⟩, id, canonical_iff.mp safe⟩
    rcases (Change.call_performs placed revertible.registered).mp called with ⟨action, performs⟩
    have isScheduled : result.isScheduled sec = true := by
      rw [isScheduled_iff, performs.assignments, Change.assigned_apply_move]
      exact Change.run_ne_nil registered
    exact ⟨_, action, revertible, performs, keeps performs rfl isScheduled, isScheduled⟩
  next unscheduled =>
    have called : Change.call constraints manipulator false (.schedule sec roomslot) =
        .ok (true, result) := returned
    have revertible : Change.Revertible schedule manipulator.assignments
        (.schedule sec roomslot) := ⟨⟨listed, registered⟩, id, trivial⟩
    rcases (Change.call_performs placed revertible.registered).mp called with ⟨action, performs⟩
    have isScheduled : result.isScheduled sec = true := by
      rw [isScheduled_iff, performs.assignments, Change.assigned_apply_schedule]
      exact Change.run_ne_nil registered
    exact ⟨_, action, revertible, performs, keeps performs rfl isScheduled, isScheduled⟩

theorem place_eq_false {roomslot : AS_RoomSlot}
    (returned : place constraints sec roomslot manipulator = .ok (false, result)) :
    result = manipulator := by
  rw [place] at returned
  split at returned
  next =>
    have called : Change.call constraints manipulator false (.move sec roomslot) =
        .ok (false, result) := returned
    exact (Change.call_eq_false.mp called).2.2
  next =>
    have called : Change.call constraints manipulator false (.schedule sec roomslot) =
        .ok (false, result) := returned
    exact (Change.call_eq_false.mp called).2.2

/-- What a search does that strands no section: it leads to what the actions say that it
returns, no section loses its place, and the score has been seen not to fall. -/
structure Finds (constraints : CompositeConstraint) (view : ScheduleManipulator scorer → View)
    (steady : ScheduleManipulator scorer → Prop) (before : ScheduleManipulator scorer)
    (actions : List Action) (after : ScheduleManipulator scorer) : Prop where
  reaches : Reaches constraints view steady before actions after
  keeps : Keeps before after
  improves : ∀ score, scorer.scoreSchedule before.scorerState = .ok score →
    ∃ tried better, view tried = view after ∧
      scorer.scoreSchedule tried.scorerState = .ok better ∧ score ≤ better

theorem Finds.refl (isSteady : steady base) : Finds constraints view steady base [] base where
  reaches := .refl isSteady
  keeps _ _ scheduled := scheduled
  improves score isScore := ⟨base, score, rfl, isScore, le_rfl⟩

/-- A search of the given depth, or in its place a function that does what it does. -/
def Searches (constraints : CompositeConstraint) (view : ScheduleManipulator scorer → View)
    (steady : ScheduleManipulator scorer → Prop)
    (nested : AS_ClassSection → SearchState scorer → Bool)
    (optimizeSection :
      AS_ClassSection → SearchState scorer → Raises (List Action × SearchState scorer)) : Prop :=
  ∀ sec ∈ schedule.classSections, ∀ (before after : SearchState scorer)
    (actions : List Action), steady before.manipulator → nested sec before = true →
      optimizeSection sec before = .ok (actions, after) →
        Finds constraints view steady before.manipulator actions after.manipulator

variable {nested : AS_ClassSection → SearchState scorer → Bool}
  {optimizeSection :
    AS_ClassSection → SearchState scorer → Raises (List Action × SearchState scorer)}
  {state after : SearchState scorer}

/-- When all evicted sections find a place, the loop performs what it proposes. -/
theorem rehome_spec (searches : Searches constraints view steady nested optimizeSection)
    {otherSections : List AS_ClassSection} {proposed : List Action}
    (listed : ∀ otherSection ∈ otherSections, otherSection ∈ schedule.classSections)
    (reaches : Reaches constraints view steady base actions state.manipulator)
    (safe : rehomesAll nested optimizeSection otherSections state = true)
    (returned : rehome constraints optimizeSection otherSections actions state =
      .ok (proposed, after)) :
    Reaches constraints view steady base proposed after.manipulator ∧
      Keeps state.manipulator after.manipulator ∧
        ∀ otherSection ∈ otherSections, after.manipulator.isScheduled otherSection = true := by
  induction otherSections generalizing actions state with
  | nil =>
      cases returned
      exact ⟨reaches, fun _ _ scheduled => scheduled, fun _ isOther => nomatch isOther⟩
  | cons other rest ih =>
      have isOther := listed other (List.mem_cons_self ..)
      rw [rehome] at returned
      rw [rehomesAll, Bool.and_eq_true] at safe
      rcases bind_eq_ok.mp returned with ⟨⟨found, middle⟩, search, later⟩
      have finds := searches other isOther _ _ _ reaches.isSteady safe.1 search
      simp only [search, Bool.and_eq_true] at safe
      simp only [safe.2.1, if_true] at later
      rcases ih (fun section' isLater => listed section' (List.mem_cons_of_mem _ isLater))
        (reaches.trans finds.reaches) safe.2.2 later with ⟨reachesAfter, keeps, scheduled⟩
      refine ⟨reachesAfter, fun section' isSection was => ?_, fun section' isSection => ?_⟩
      · exact keeps section' isSection (finds.keeps section' isSection was)
      · rcases List.mem_cons.mp isSection with same | isLater
        · rw [same]
          exact keeps other isOther safe.2.1
        · exact scheduled section' isLater

/-- The best actions lead, from where the search started, to the score they are remembered
with. -/
def IsBest (constraints : CompositeConstraint) (view : ScheduleManipulator scorer → View)
    (steady : ScheduleManipulator scorer → Prop) (base : ScheduleManipulator scorer)
    (score : ℚ) (best : Best) : Prop :=
  ∃ tried, Reaches constraints view steady base best.actions tried ∧ Keeps base tried ∧
    scorer.scoreSchedule tried.scorerState = .ok best.score ∧ score ≤ best.score

variable {depth : ℕ} {score : ℚ} {best better : Best} {roomslot : AS_RoomSlot}

theorem Reaches.keeps (determines : Determines constraints view steady)
    (reaches : Reaches constraints view steady base [] manipulator) : Keeps base manipulator := by
  intro section' _ was
  rw [isScheduled_congr (determines.assignments reaches.view_eq)]
  exact was

/-- One iteration of the main loop reverts all that it has tried. -/
theorem tryRoomslot_spec (determines : Determines constraints view steady)
    (searches : Searches constraints view steady nested optimizeSection)
    (isSteady : steady base) (listed : sec ∈ schedule.classSections)
    (registered : roomslot ∈ schedule.roomslots)
    (reaches : Reaches constraints view steady base [] state.manipulator)
    (isBest : IsBest constraints view steady base score best)
    (safe : triesSafely constraints canonical nested optimizeSection depth sec roomslot
      state = true)
    (returned : tryRoomslot constraints optimizeSection depth sec roomslot best state =
      .ok (better, after)) :
    Reaches constraints view steady base [] after.manipulator ∧
      IsBest constraints view steady base score better := by
  rw [tryRoomslot] at returned
  rw [triesSafely, Bool.and_eq_true] at safe
  rcases bind_eq_ok.mp returned with ⟨cleared, isCleared, later⟩
  have slotsRegistered : ∀ slot ∈ getRoomslotsByDuration roomslot sec.duration,
      slot ∈ schedule.roomslots := by
    intro slot isSlot
    rcases WellPlaced.run_of_start sec.duration registered with ⟨room, isRoom, isRun⟩
    exact List.mem_flatMap.mpr ⟨room, isRoom, isRun.subset isSlot⟩
  have starts : Clears constraints view steady base ⟨false, [], [], state.manipulator⟩ := {
    reaches := reaches
    listed := fun _ isOther => nomatch isOther
    keeps := fun section' isSection was =>
      .inl (reaches.keeps determines section' isSection was) }
  rcases clearSlots_spec determines isSteady slotsRegistered starts (fun _ => rfl) safe.1
    isCleared with ⟨failed, unchanged⟩ | ⟨cleared', clears⟩
  · rw [if_pos failed] at later
    cases later
    exact ⟨unchanged, isBest⟩
  · rw [cleared'] at later
    simp only [isCleared, cleared', Bool.false_or] at safe
    rw [if_neg Bool.false_ne_true] at later
    rcases bind_eq_ok.mp later with ⟨⟨success, manipulator⟩, placed, later⟩
    cases success with
    | false =>
        simp only [Bool.not_false, if_true] at later
        rcases bind_eq_ok.mp later with ⟨reverted, isReverted, isResult⟩
        cases isResult
        rw [place_eq_false placed] at isReverted
        exact ⟨clears.reaches.revert determines isSteady isReverted, isBest⟩
    | true =>
        simp only [Bool.not_true, Bool.false_eq_true, if_false] at later
        simp only [placed, Bool.and_eq_true] at safe
        rcases bind_eq_ok.mp later with ⟨proposed, isProposed, later⟩
        rcases bind_eq_ok.mp later with ⟨⟨whole, found⟩, isRehomed, later⟩
        rcases bind_eq_ok.mp later with ⟨newScore, isScore, later⟩
        rcases bind_eq_ok.mp later with ⟨reverted, isReverted, isResult⟩
        cases isResult
        rcases place_spec (determines.placed clears.reaches.isSteady) listed registered safe.2.1
          placed with ⟨change, action, revertible, performs, keeps, -⟩
        rw [updateProposedActions, last_history_eq_ok performs.history] at isProposed
        cases isProposed
        have placedThere := clears.reaches.perform determines revertible performs
        rcases rehome_spec searches clears.listed placedThere safe.2.2 isRehomed with
          ⟨tried, keepsOthers, rehomed⟩
        refine ⟨tried.revert determines isSteady isReverted, ?_⟩
        split
        next isBetter =>
          rcases isBest with ⟨_, _, _, _, atLeast⟩
          refine ⟨found.manipulator, tried, fun section' isSection was => ?_, isScore,
            atLeast.trans isBetter.le⟩
          rcases clears.keeps section' isSection was with still | evicted
          · exact keepsOthers section' isSection (keeps section' isSection still)
          · exact rehomed section' evicted
        next => exact isBest

theorem tryRoomslots_spec (determines : Determines constraints view steady)
    (searches : Searches constraints view steady nested optimizeSection)
    (isSteady : steady base) (listed : sec ∈ schedule.classSections)
    {roomslots : List AS_RoomSlot} (registered : ∀ slot ∈ roomslots, slot ∈ schedule.roomslots)
    (reaches : Reaches constraints view steady base [] state.manipulator)
    (isBest : IsBest constraints view steady base score best)
    (safe : searchesSafely constraints canonical nested optimizeSection depth sec
      roomslots best state = true)
    (returned : tryRoomslots constraints optimizeSection depth sec roomslots best state =
      .ok (better, after)) :
    Reaches constraints view steady base [] after.manipulator ∧
      IsBest constraints view steady base score better := by
  induction roomslots generalizing best state with
  | nil =>
      cases returned
      exact ⟨reaches, isBest⟩
  | cons roomslot rest ih =>
      rw [tryRoomslots] at returned
      rw [searchesSafely, Bool.and_eq_true] at safe
      rcases bind_eq_ok.mp returned with ⟨⟨bestSoFar, middle⟩, tried, later⟩
      simp only [tried] at safe
      rcases tryRoomslot_spec determines searches isSteady listed
        (registered roomslot (List.mem_cons_self ..)) reaches isBest safe.1 tried with
        ⟨back, isBestSoFar⟩
      exact ih (fun slot isLater => registered slot (List.mem_cons_of_mem _ isLater)) back
        isBestSoFar safe.2 later

/-- A search that strands no section does what the actions say that it returns. -/
theorem optimizeSection_spec (determines : Determines constraints view steady)
    (expired : ℕ → Bool) (depth : ℕ) :
    Searches constraints view steady (strandsNone constraints canonical expired depth)
      (SearchOptimizer.optimizeSection constraints expired depth) := by
  induction depth with
  | zero =>
      intro sec _ before after actions isSteady _ returned
      cases returned
      exact .refl isSteady
  | succ depth ih =>
      intro sec listed before after actions isSteady safe returned
      rw [SearchOptimizer.optimizeSection] at returned
      rw [strandsNone] at safe
      split at returned
      next =>
        cases returned
        exact .refl isSteady
      next inTime =>
        rcases bind_eq_ok.mp returned with ⟨score, isScore, later⟩
        rcases bind_eq_ok.mp later with ⟨⟨best, middle⟩, tried, later⟩
        rcases bind_eq_ok.mp later with ⟨manipulator, performed, isResult⟩
        cases isResult
        simp only [Bool.not_eq_true] at inTime
        simp only [inTime, Bool.false_or, isScore] at safe
        let read : SearchState scorer := { before with readings := before.readings + 1 }
        have start : Reaches constraints view steady before.manipulator [] read.manipulator :=
          .refl isSteady
        have isBest : IsBest constraints view steady before.manipulator score ⟨score, []⟩ :=
          ⟨_, start, fun _ _ was => was, isScore, le_rfl⟩
        rcases tryRoomslots_spec determines ih isSteady listed (fun _ isSlot => isSlot) start
          isBest safe tried with ⟨back, reached, reaches, keeps, isBestScore, atLeast⟩
        rcases reaches.leads.performBest determines back.view_eq performed with
          ⟨sameView, recorded⟩
        refine ⟨⟨?_, ?_, determines.congr sameView reaches.isSteady⟩, ?_, ?_⟩
        · rw [sameView]
          exact reaches.leads
        · rw [recorded, back.history, List.append_nil]
        · intro section' isSection was
          rw [isScheduled_congr (determines.assignments sameView)]
          exact keeps section' isSection was
        · intro other isOther
          rw [isScore, Except.ok.injEq] at isOther
          exact ⟨reached, best.score, sameView.symm, isBestScore, isOther ▸ atLeast⟩

end Reaching

end SearchOptimizer

end EspWebsite.Autoscheduler
