import EspWebsite.Autoscheduler.Saving
import EspWebsite.Autoscheduler.Scoring.Correctness
import EspWebsite.Library.NetChanges

/-!
# Simplified and exported histories

`simplify_history` and `export_assignments` of `controller.py`, which read the history that a
manipulator recorded.
-/

namespace EspWebsite.Autoscheduler

open Calendar NetChanges Python SmallSchedule

/-- The part of `AutoschedulerController` that the two methods read. -/
structure AutoschedulerController {schedule : AS_Schedule} (scorer : Scorer schedule)
    (Options : Type) where
  manipulator : ScheduleManipulator scorer
  initialState : AS_ClassSection → DbInterface.SchedulingHash
  options : Options

namespace AutoschedulerController

/-- What the branch for an action notes about its sections: where they start before the action,
which counts if they are new to the dictionary, and after it. -/
def writes : Action → List (Write AS_ClassSection (Option AS_RoomSlot))
  | .schedule sec startRoomslot => [⟨sec, none, some startRoomslot⟩]
  | .move sec startRoomslot prevStartRoomslot =>
      [⟨sec, some prevStartRoomslot, some startRoomslot⟩]
  | .unschedule sec prevStartRoomslot => [⟨sec, some prevStartRoomslot, none⟩]
  | .swap sections originalRoomslots =>
      let roomslots := originalRoomslots.items
      (sections.items.zip (roomslots.zip roomslots.reverse)).map fun entry =>
        ⟨entry.1, some entry.2.1, some entry.2.2⟩

/-- The first loop of `simplify_history`, from sections to their original and final roomslot. -/
def netSections (history : List Action) : Net AS_ClassSection (Option AS_RoomSlot) :=
  history.foldl (fun sections action => (writes action).foldl note sections) []

/-- The body of the second loop of `simplify_history`. -/
def newAction : AS_ClassSection × Option AS_RoomSlot × Option AS_RoomSlot → Raises Action
  | (_, none, none) => .error (.assertion "Did nothing")
  | (sec, none, some newRoomslot) => .ok (.schedule sec newRoomslot)
  | (sec, some oldRoomslot, none) => .ok (.unschedule sec oldRoomslot)
  | (sec, some oldRoomslot, some newRoomslot) =>
      .ok (.move sec newRoomslot oldRoomslot)

def simplifyHistory (history : List Action) : Raises (List Action) :=
  (netSections history).mapM newAction

/-- `action["section"]`, a key that the record of a swap lacks. -/
def actionSection : Action → Raises AS_ClassSection
  | .schedule sec _ | .move sec _ _ | .unschedule sec _ =>
      .ok sec
  | .swap _ _ => .error .keyError

variable {schedule : AS_Schedule} {scorer : Scorer schedule} {Options : Type}

/-- `export_assignments`.  The hashes are the entries of a dictionary, whose order is
arbitrary. -/
def exportAssignments (controller : AutoschedulerController scorer Options) :
    Raises ((List JsonAction × List (ℕ × DbInterface.SchedulingHash)) × Options) := do
  let changedSections ← controller.manipulator.history.mapM actionSection
  let schedulingHashes := changedSections.dedup.map fun sec =>
    (sec.id, controller.initialState sec)
  return ((controller.manipulator.jsonifyHistory, schedulingHashes), controller.options)

end AutoschedulerController

/-! ## The net change of a run -/

/-- A call on sections and roomslots of the schedule that returns true. -/
def AcceptedStep {schedule : AS_Schedule} {scorer : Scorer schedule}
    (constraints : CompositeConstraint) (manipulator result : ScheduleManipulator scorer) : Prop :=
  ∃ (change : Change) (force : Bool), change.Registered schedule ∧
    change.call constraints manipulator force = .ok (true, result)

/-- Finitely many accepted calls. -/
abbrev AcceptedRun {schedule : AS_Schedule} {scorer : Scorer schedule}
    (constraints : CompositeConstraint) :
    ScheduleManipulator scorer → ScheduleManipulator scorer → Prop :=
  Relation.ReflTransGen (AcceptedStep constraints)

namespace Assignments

def startSlot (assignments : Assignments) (sec : AS_ClassSection) : Option AS_RoomSlot :=
  (assignments.assignedRoomslots sec).head?

/-- The entry that leads a section from where it starts in some assignments to where it starts in
others, if it is scheduled in some of them. -/
def netAction (start finish : Assignments) (sec : AS_ClassSection) : Option Action :=
  match start.startSlot sec, finish.startSlot sec with
  | none, none => none
  | none, some newRoomslot => some (.schedule sec newRoomslot)
  | some oldRoomslot, none => some (.unschedule sec oldRoomslot)
  | some oldRoomslot, some newRoomslot => some (.move sec newRoomslot oldRoomslot)

end Assignments

namespace ActionDict

def sections : Action → List AS_ClassSection
  | .schedule sec _ | .move sec _ _ | .unschedule sec _ =>
      [sec]
  | .swap sections _ => sections.items

def isSwap : Action → Bool
  | .swap _ _ => true
  | _ => false

end ActionDict

/-- The sections that are elsewhere in the second assignments than in the first. -/
def sectionsMoved (schedule : AS_Schedule) (start finish : Assignments) : List AS_ClassSection :=
  schedule.classSections.filter fun sec =>
    decide (start.assignedRoomslots sec ≠ finish.assignedRoomslots sec)

/-- A history has one entry for each section that is elsewhere at the end than at the start, and
no other, with the roomslots at which the section starts. -/
def IsNetChange (schedule : AS_Schedule) (start finish : Assignments) (simplified : List Action) :
    Prop :=
  (simplified.map some).Perm
    ((sectionsMoved schedule start finish).map (Assignments.netAction start finish))

instance (schedule : AS_Schedule) (start finish : Assignments) (simplified : List Action) :
    Decidable (IsNetChange schedule start finish simplified) := by
  unfold IsNetChange
  infer_instance

namespace AutoschedulerController

section Changes

variable {registry : AS_Schedule} {assignments : Assignments} {change : Change} {action : Action}
  {history : List Action}

theorem netSections_concat (history : List Action) (action : Action) :
    netSections (history ++ [action]) = (writes action).foldl note (netSections history) := by
  rw [netSections, List.foldl_append]
  rfl

theorem startSlot_acquire (assignments : Assignments) (sec : AS_ClassSection)
    (run : List AS_RoomSlot) :
    (assignments.acquire sec run).startSlot =
      Function.update assignments.startSlot sec run.head? := by
  funext other
  by_cases same : other = sec
  · rw [same, Function.update_self, Assignments.startSlot, Assignments.acquire_self]
  · rw [Function.update_of_ne same, Assignments.startSlot, Assignments.acquire_of_ne same]
    rfl

theorem startSlot_release (assignments : Assignments) (sec : AS_ClassSection) :
    (assignments.release sec).startSlot =
      Function.update assignments.startSlot sec none := by
  funext other
  by_cases same : other = sec
  · rw [same, Function.update_self, Assignments.startSlot, Assignments.release_self]
    rfl
  · rw [Function.update_of_ne same, Assignments.startSlot, Assignments.release_of_ne same]
    rfl

theorem head?_getRoomslotsByDuration {startRoomslot : AS_RoomSlot} {duration : ℚ}
    (registered : startRoomslot ∈ registry.roomslots) :
    (getRoomslotsByDuration startRoomslot duration).head? = some startRoomslot := by
  have available := (AS_Schedule.mem_roomslots.mp registered).2
  rw [getRoomslotsByDuration, if_neg (not_not_intro available)]
  rfl

theorem writes_of_record (registered : change.Registered registry)
    (possible : change.Possible assignments) (recorded : change.record assignments = .ok action) :
    Chain assignments.startSlot (writes action) ∧
      (writes action).foldl Write.apply assignments.startSlot =
        (change.apply assignments).startSlot := by
  cases change with
  | schedule sec startRoomslot =>
      cases recorded
      refine ⟨⟨?_, trivial⟩, ?_⟩
      · rw [Assignments.startSlot, possible.1]
        rfl
      · rw [Change.apply, startSlot_acquire, head?_getRoomslotsByDuration registered.2]
        rfl
  | move sec startRoomslot =>
      obtain ⟨prevStartRoomslot, found, same⟩ := bind_eq_ok.mp recorded
      obtain ⟨rest, held⟩ := first_eq_ok.mp found
      cases same
      refine ⟨⟨?_, trivial⟩, ?_⟩
      · rw [Assignments.startSlot, held]
        rfl
      · rw [Change.apply, startSlot_acquire, startSlot_release, Function.update_idem,
          head?_getRoomslotsByDuration registered.2]
        rfl
  | unschedule sec =>
      obtain ⟨prevStartRoomslot, found, same⟩ := bind_eq_ok.mp recorded
      obtain ⟨rest, held⟩ := first_eq_ok.mp found
      cases same
      refine ⟨⟨?_, trivial⟩, ?_⟩
      · rw [Assignments.startSlot, held]
        rfl
      · rw [Change.apply, startSlot_release]
        rfl
  | swap section1 section2 =>
      obtain ⟨original1, found1, later⟩ := bind_eq_ok.mp recorded
      obtain ⟨original2, found2, same⟩ := bind_eq_ok.mp later
      obtain ⟨rest1, held1⟩ := first_eq_ok.mp found1
      obtain ⟨rest2, held2⟩ := first_eq_ok.mp found2
      have different : section2 ≠ section1 := possible.2.2.symm
      cases same
      refine ⟨⟨?_, ?_, trivial⟩, ?_⟩
      · rw [Assignments.startSlot, held1]
        rfl
      · rw [Write.apply, Function.update_of_ne different, Assignments.startSlot, held2]
        rfl
      · rw [Change.apply, startSlot_acquire, startSlot_acquire, startSlot_release,
          startSlot_release, held1, held2, Function.update_comm different,
          Function.update_idem, Function.update_idem]
        rfl

theorem sections_of_record (recorded : change.record assignments = .ok action) :
    (writes action).map Write.key = action.sections ∧ action.sections = change.sections := by
  cases change with
  | schedule sec startRoomslot =>
      cases recorded
      exact ⟨rfl, rfl⟩
  | move sec startRoomslot =>
      obtain ⟨_, -, same⟩ := bind_eq_ok.mp recorded
      cases same
      exact ⟨rfl, rfl⟩
  | unschedule sec =>
      obtain ⟨_, -, same⟩ := bind_eq_ok.mp recorded
      cases same
      exact ⟨rfl, rfl⟩
  | swap section1 section2 =>
      obtain ⟨_, -, later⟩ := bind_eq_ok.mp recorded
      obtain ⟨_, -, same⟩ := bind_eq_ok.mp later
      cases same
      exact ⟨rfl, rfl⟩

/-- A history tells what has changed since some assignments: the sections that its actions name
belong to the schedule, the net of it has where they started and start now, and the other
sections are where they were. -/
structure Tells (registry : AS_Schedule) (start : Assignments) (history : List Action)
    (assignments : Assignments) : Prop where
  placed : WellPlaced registry assignments
  listed : ∀ sec ∈ history.flatMap ActionDict.sections,
    sec ∈ registry.classSections
  nets : Nets start.startSlot assignments.startSlot (history.flatMap ActionDict.sections)
    (netSections history)
  kept : ∀ sec ∉ history.flatMap ActionDict.sections,
    assignments.assignedRoomslots sec = start.assignedRoomslots sec

theorem Tells.nil (placed : WellPlaced registry assignments) :
    Tells registry assignments [] assignments where
  placed := placed
  listed _ member := absurd member List.not_mem_nil
  nets := .nil _
  kept _ _ := rfl

theorem Tells.record {start : Assignments} (tells : Tells registry start history assignments)
    (registered : change.Registered registry) (possible : change.Possible assignments)
    (recorded : change.record assignments = .ok action) :
    Tells registry start (history ++ [action]) (change.apply assignments) := by
  have keys := (sections_of_record recorded).1
  have changed := (sections_of_record recorded).2
  have sections : (history ++ [action]).flatMap ActionDict.sections =
      history.flatMap ActionDict.sections ++ action.sections := by
    rw [List.flatMap_append, List.flatMap_singleton]
  have written := writes_of_record registered possible recorded
  constructor
  · exact Change.wellPlaced_apply tells.placed registered possible
  · intro sec member
    rw [sections, changed] at member
    cases List.mem_append.mp member with
    | inl earlier => exact tells.listed sec earlier
    | inr now => exact Change.listed_of_mem_sections registered now
  · rw [netSections_concat, sections, ← keys, ← written.2]
    exact tells.nets.foldl written.1
  · intro sec unnamed
    rw [sections, changed, List.mem_append, not_or] at unnamed
    rw [Change.assigned_apply_of_notMem _ unnamed.2]
    exact tells.kept sec unnamed.1

end Changes

section Runs

variable {schedule : AS_Schedule} {scorer : Scorer schedule} {constraints : CompositeConstraint}
  {manipulator result : ScheduleManipulator scorer} {start : Assignments}

theorem tells_of_accepted
    (tells : Tells schedule start manipulator.history manipulator.assignments)
    (step : AcceptedStep constraints manipulator result) :
    Tells schedule start result.history result.assignments := by
  cases step with
  | intro change called =>
      obtain ⟨force, registered, returned⟩ := called
      obtain ⟨possible, action, scorerState, recorded, -, rfl⟩ :=
        (Change.perform_eq_ok tells.placed registered).mp (Change.call_eq_true.mp returned).2
      exact tells.record registered possible recorded

theorem tells_of_run (placed : WellPlaced schedule manipulator.assignments)
    (fresh : manipulator.history = []) (run : AcceptedRun constraints manipulator result) :
    Tells schedule manipulator.assignments result.history result.assignments := by
  induction run with
  | refl =>
      rw [fresh]
      exact .nil placed
  | tail _ step ih => exact tells_of_accepted ih step

end Runs

/-! ## When the simplified history is the net change -/

section Exactness

variable {registry : AS_Schedule} {start assignments : Assignments} {history : List Action}
  {action : Action}

theorem netAction_of_newAction {sec : AS_ClassSection}
    (made : newAction (sec, start.startSlot sec,
      assignments.startSlot sec) = .ok action) :
    start.netAction assignments sec = some action := by
  rw [Assignments.netAction]
  revert made
  cases start.startSlot sec with
  | none =>
      cases assignments.startSlot sec with
      | none => exact fun made => nomatch made
      | some newRoomslot => exact fun made => congrArg some (Except.ok.inj made)
  | some oldRoomslot =>
      cases assignments.startSlot sec with
      | none => exact fun made => congrArg some (Except.ok.inj made)
      | some newRoomslot => exact fun made => congrArg some (Except.ok.inj made)

theorem sections_of_netAction {sec : AS_ClassSection}
    (isNet : start.netAction assignments sec = some action) :
    action.sections = [sec] := by
  rw [Assignments.netAction] at isNet
  split at isNet
  next => cases isNet
  next =>
    cases isNet
    rfl
  next =>
    cases isNet
    rfl
  next =>
    cases isNet
    rfl

theorem exists_newAction
    {entry : AS_ClassSection × Option AS_RoomSlot × Option AS_RoomSlot}
    (ends : entry.2 ≠ (none, none)) : ∃ action, newAction entry = .ok action := by
  obtain ⟨sec, before, after⟩ := entry
  cases before with
  | none =>
      cases after with
      | none => exact absurd rfl ends
      | some newRoomslot => exact ⟨_, rfl⟩
  | some oldRoomslot =>
      cases after with
      | none => exact ⟨_, rfl⟩
      | some newRoomslot => exact ⟨_, rfl⟩

theorem map_some_of_simplifyHistory (tells : Tells registry start history assignments)
    {simplified : List Action} (simplifies : simplifyHistory history = .ok simplified) :
    simplified.map some =
      ((netSections history).map Prod.fst).map (start.netAction assignments) := by
  have pairs := mapM_eq_ok.mp simplifies
  rw [tells.nets.eq_map, List.forall₂_map_left_iff] at pairs
  generalize (netSections history).map Prod.fst = keys at pairs
  clear simplifies
  induction pairs with
  | nil => rfl
  | cons made _ ih => rw [List.map_cons, List.map_cons, netAction_of_newAction made, ih]

theorem ends_of_moved {sec : AS_ClassSection}
    (moved : start.assignedRoomslots sec ≠ assignments.assignedRoomslots sec) :
    (start.startSlot sec, assignments.startSlot sec) ≠ (none, none) := by
  intro nowhere
  have before := List.head?_eq_none_iff.mp (congrArg Prod.fst nowhere)
  have after := List.head?_eq_none_iff.mp (congrArg Prod.snd nowhere)
  exact moved (before.trans after.symm)

theorem perm_sectionsMoved (tells : Tells registry start history assignments)
    (moved : ∀ sec ∈ history.flatMap ActionDict.sections,
      start.assignedRoomslots sec ≠ assignments.assignedRoomslots sec) :
    ((netSections history).map Prod.fst).Perm (sectionsMoved registry start assignments) := by
  have nodup : (sectionsMoved registry start assignments).Nodup :=
    (List.Nodup.of_map _ registry.sectionIds).filter _
  apply (List.perm_ext_iff_of_nodup tells.nets.nodup nodup).mpr
  intro sec
  rw [tells.nets.keys, sectionsMoved, List.mem_filter, decide_eq_true_iff]
  constructor
  · intro named
    exact ⟨tells.listed sec named, moved sec named⟩
  · intro elsewhere
    by_contra unnamed
    exact elsewhere.2 (tells.kept sec unnamed).symm

theorem simplifyHistory_iff (tells : Tells registry start history assignments) :
    (∃ simplified, simplifyHistory history = .ok simplified ∧
        IsNetChange registry start assignments simplified) ↔
      ∀ sec ∈ history.flatMap ActionDict.sections,
        start.assignedRoomslots sec ≠ assignments.assignedRoomslots sec := by
  constructor
  · intro simplifies sec named
    cases simplifies with
    | intro simplified found =>
        -- The entry of the section is the net action of a section that moved.
        have entries := map_some_of_simplifyHistory tells found.1
        have net := found.2
        rw [IsNetChange, entries] at net
        have key : sec ∈ (netSections history).map Prod.fst :=
          (tells.nets.keys sec).mpr named
        have listed := net.subset (List.mem_map_of_mem key)
        have isEntry := entries ▸ List.mem_map_of_mem key
        cases List.mem_map.mp isEntry with
        | intro action made =>
            cases List.mem_map.mp listed with
            | intro other elsewhere =>
                have names := sections_of_netAction made.2.symm
                have namesOther := sections_of_netAction (elsewhere.2.trans made.2.symm)
                have same := List.singleton_inj.mp (names.symm.trans namesOther)
                rw [same]
                exact of_decide_eq_true (List.mem_filter.mp elsewhere.1).2
  · intro moved
    have each : ∀ entry ∈ netSections history, ∃ action, newAction entry = .ok action := by
      intro entry listed
      apply exists_newAction
      rw [tells.nets.values entry listed]
      exact ends_of_moved
        (moved entry.1 ((tells.nets.keys entry.1).mp (List.mem_map_of_mem listed)))
    cases exists_mapM each with
    | intro simplified simplifies =>
        refine ⟨simplified, simplifies, ?_⟩
        rw [IsNetChange, map_some_of_simplifyHistory tells simplifies]
        exact (perm_sectionsMoved tells moved).map _

variable {schedule : AS_Schedule} {scorer : Scorer schedule} {Options : Type}

theorem exportAssignments_iff {controller : AutoschedulerController scorer Options} :
    (∃ exported, controller.exportAssignments = .ok exported) ↔
      ∀ action ∈ controller.manipulator.history, action.isSwap = false := by
  constructor
  · intro exports action recorded
    cases exports with
    | intro exported returned =>
        cases bind_eq_ok.mp returned with
        | intro changedSections found =>
            cases exists_of_forall₂ (mapM_eq_ok.mp found.1).flip recorded with
            | intro sec names =>
                cases action with
                | schedule _ _ | move _ _ _ | unschedule _ _ => rfl
                | swap _ _ => exact nomatch names.2
  · intro noSwap
    have each : ∀ action ∈ controller.manipulator.history,
        ∃ sec, actionSection action = .ok sec := by
      intro action recorded
      cases action with
      | schedule sec startRoomslot => exact ⟨_, rfl⟩
      | move sec startRoomslot prevStartRoomslot => exact ⟨_, rfl⟩
      | unschedule sec prevStartRoomslot => exact ⟨_, rfl⟩
      | swap sections originalRoomslots => exact nomatch noSwap _ recorded
    cases exists_mapM each with
    | intro changedSections found =>
        rw [exportAssignments, found]
        exact ⟨_, rfl⟩

end Exactness

/-- After accepted calls simplifying the history returns the net change, and exporting it
succeeds, exactly when every section that an action names ends elsewhere than it began, and no
action is a swap. -/
theorem netChange_and_exports_iff {schedule : AS_Schedule} {scorer : Scorer schedule}
    {Options : Type} {constraints : CompositeConstraint} {start : ScheduleManipulator scorer}
    {controller : AutoschedulerController scorer Options}
    (placed : WellPlaced schedule start.assignments) (fresh : start.history = [])
    (run : AcceptedRun constraints start controller.manipulator) :
    ((∃ simplified, simplifyHistory controller.manipulator.history = .ok simplified ∧
        IsNetChange schedule start.assignments controller.manipulator.assignments simplified) ∧
      ∃ exported, controller.exportAssignments = .ok exported) ↔
    (∀ action ∈ controller.manipulator.history, ∀ sec ∈ action.sections,
        start.assignedRoomslots sec ≠
          controller.manipulator.assignedRoomslots sec) ∧
      ∀ action ∈ controller.manipulator.history, action.isSwap = false := by
  rw [simplifyHistory_iff (tells_of_run placed fresh run), exportAssignments_iff]
  apply and_congr_left'
  constructor
  · intro moved action recorded sec named
    exact moved sec (List.mem_flatMap.mpr ⟨action, recorded, named⟩)
  · intro moved sec named
    cases List.mem_flatMap.mp named with
    | intro action recorded => exact moved action recorded.1 sec recorded.2

/-- The theorem at a run that schedules the long section. -/
theorem netChange_and_exports_iff_small :
    ∃ (start : ScheduleManipulator (compositeOf small []))
      (controller : AutoschedulerController (compositeOf small []) Unit),
      AcceptedRun required start controller.manipulator ∧
      controller.manipulator.history = [.schedule long ⟨ten, roomA⟩] ∧
      (((∃ simplified, simplifyHistory controller.manipulator.history = .ok simplified ∧
          IsNetChange small start.assignments controller.manipulator.assignments simplified) ∧
        ∃ exported, controller.exportAssignments = .ok exported) ↔
      (∀ action ∈ controller.manipulator.history, ∀ sec ∈ action.sections,
          start.assignedRoomslots sec ≠
            controller.manipulator.assignedRoomslots sec) ∧
        ∀ action ∈ controller.manipulator.history, action.isSwap = false) := by
  have returns : (do
      let start ← ScheduleManipulator.create (compositeOf small []) vacant
      let (answer, result) ← longAtTen.call required start false
      return answer &&
        decide (result.history = [ActionDict.schedule long (AS_RoomSlot.mk ten roomA)])) =
          .ok true := by
    decide +kernel
  obtain ⟨start, created, called⟩ := bind_eq_ok.mp returns
  obtain ⟨⟨answer, result⟩, returned, expected⟩ := bind_eq_ok.mp called
  simp only [pure_eq_ok, Except.ok.injEq, Bool.and_eq_true, decide_eq_true_eq] at expected
  obtain ⟨accepted, recorded⟩ := expected
  subst accepted
  obtain ⟨-, sameAssignments, fresh⟩ := create_eq_ok.mp created
  have placed : WellPlaced small start.assignments := by
    rw [sameAssignments]
    exact unassigned_vacant.sound.placed
  let controller : AutoschedulerController (compositeOf small []) Unit :=
    ⟨result, DbInterface.schedulingHash vacant, ()⟩
  have run : AcceptedRun required start controller.manipulator :=
    .single ⟨longAtTen, false, registered_longAtTen, returned⟩
  exact ⟨start, controller, run, recorded, netChange_and_exports_iff placed fresh run⟩

/-- A section that is scheduled and unscheduled again stops simplifying the history. -/
theorem not_netChange_scheduled_and_unscheduled :
    ∃ start result : ScheduleManipulator (compositeOf small []),
      WellPlaced small start.assignments ∧ start.history = [] ∧
      AcceptedRun required start result ∧
      ¬ ∃ simplified, simplifyHistory result.history = .ok simplified ∧
        IsNetChange small start.assignments result.assignments simplified := by
  have returns : (do
      let start ← ScheduleManipulator.create (compositeOf small []) vacant
      let (scheduled, middle) ← longAtTen.call required start false
      let (unscheduled, result) ← (Change.unschedule long).call required middle false
      return scheduled && unscheduled && !(simplifyHistory result.history).isOk) =
      .ok true := by decide +kernel
  obtain ⟨start, created, called⟩ := bind_eq_ok.mp returns
  obtain ⟨⟨scheduled, middle⟩, returned, later⟩ := bind_eq_ok.mp called
  obtain ⟨⟨unscheduled, result⟩, returnedLater, expected⟩ := bind_eq_ok.mp later
  simp only [pure_eq_ok, Except.ok.injEq, Bool.and_eq_true, Bool.not_eq_true'] at expected
  obtain ⟨⟨accepted, acceptedLater⟩, raises⟩ := expected
  subst accepted acceptedLater
  obtain ⟨-, sameAssignments, fresh⟩ := create_eq_ok.mp created
  have placed : WellPlaced small start.assignments := by
    rw [sameAssignments]
    exact unassigned_vacant.sound.placed
  have first : AcceptedStep required start middle :=
    ⟨longAtTen, false, registered_longAtTen, returned⟩
  have second : AcceptedStep required middle result :=
    ⟨.unschedule long, false, registered_longAtTen.1, returnedLater⟩
  refine ⟨start, result, placed, fresh, .tail (.single first) second, ?_⟩
  intro simplifies
  cases simplifies with
  | intro simplified found =>
      rw [found.1] at raises
      cases raises

end AutoschedulerController

end EspWebsite.Autoscheduler
