import EspWebsite.Registration.OpenRegistrations
import EspWebsite.Registration.OnsiteSchedule

/-!
# What an onsite change leaves

The schedule that `update_schedule_json` leaves, as a function of the schedule before it, and
when it costs a student a class.
-/

namespace EspWebsite.Registration

open Python

def ScheduleRequest.requested (request : ScheduleRequest) : List ℤ :=
  match request.sections with
  | .list entries => (sanitizeSectionIds entries).1
  | _ => []

namespace Catalog

variable (catalog : Catalog) (program : ℕ)

def withSection (schedule : List ℕ) (sec : ℕ) : List ℕ :=
  catalog.sections.filter fun classSection => classSection ∈ schedule || classSection = sec

/-- The schedule after sections are tried one after the other, where `full` tells which are full
after so many changes. -/
def afterTrying (full : ℕ → ℕ → Bool) (override : Bool) (existing : List ℕ) :
    List ℕ → List ℕ → ℕ → List ℕ
  | [], schedule, _ => schedule
  | sec :: rest, schedule, ticks =>
      if existing.any fun other => catalog.sameSection sec other then
        afterTrying full override existing rest schedule ticks
      else
        match catalog.cannotAddTo sec schedule (!override && full ticks sec) 0 with
        | .error _ => schedule
        | .ok error =>
            if error = "" && (override || !full ticks sec) then
              afterTrying full override existing rest (catalog.withSection schedule sec) (ticks + 1)
            else afterTrying full override existing rest schedule ticks

/-- The sections that a student keeps when those not wanted are removed. -/
def keptSections (schedule current : List ℕ) (desired : List ℤ) : List ℕ :=
  schedule.filter fun sec => sec ∉ catalog.sectionsToRemove current desired

def conflictingSections (toAdd schedule : List ℕ) : List ℕ :=
  (catalog.occupying toAdd (catalog.mapOf program schedule)).filter fun sec => sec ∉ toAdd

def existingSections (toAdd schedule : List ℕ) : List ℕ :=
  (catalog.occupying toAdd (catalog.mapOf program schedule)).filter fun sec => sec ∈ toAdd

def clearedSections (toAdd schedule : List ℕ) : List ℕ :=
  schedule.filter fun sec => sec ∉ catalog.conflictingSections program toAdd schedule

/-- The schedule that a student gets who has a schedule and wants other sections. -/
def plannedSchedule (full : ℕ → ℕ → Bool) (override : Bool) (schedule current : List ℕ)
    (desired : List ℤ) : List ℕ :=
  let toAdd := catalog.sectionsToAdd current desired
  let kept := catalog.keptSections schedule current desired
  let cleared := catalog.clearedSections program toAdd kept
  if catalog.usePriority program then cleared
  else catalog.afterTrying full override (catalog.existingSections program toAdd kept) toAdd cleared
    ((catalog.sectionsToRemove current desired).length +
      (catalog.conflictingSections program toAdd kept).length)

/-- No two different sections of a schedule overlap. -/
def Apart (schedule : List ℕ) : Prop :=
  ∀ first ∈ schedule, ∀ second ∈ schedule, first ≠ second → catalog.overlaps first second = false

instance {schedule : List ℕ} : Decidable (catalog.Apart schedule) :=
  inferInstanceAs (Decidable (∀ first ∈ schedule, ∀ second ∈ schedule, first ≠ second →
    catalog.overlaps first second = false))

/-- A schedule keeps the wanted sections of another one, but for those that overlap wanted
sections that it has instead. -/
def KeepsWanted (before after : List ℕ) (desired : List ℤ) : Prop :=
  ∀ held ∈ before, (held : ℤ) ∈ desired →
    held ∈ after ∨ ∃ sec ∈ after, (sec : ℤ) ∈ desired ∧ catalog.overlaps held sec = true

instance {before after : List ℕ} {desired : List ℤ} :
    Decidable (catalog.KeepsWanted before after desired) :=
  inferInstanceAs (Decidable (∀ held ∈ before, (held : ℤ) ∈ desired →
    held ∈ after ∨ ∃ sec ∈ after, (sec : ℤ) ∈ desired ∧ catalog.overlaps held sec = true))

/-- A section that is tried passes all checks. -/
structure Acceptable (full override : Bool) (existing schedule : List ℕ) (sec : ℕ) : Prop where
  notExisting : ∀ other ∈ existing, catalog.sameSection sec other = false
  notFull : override = false → full = false
  satisfied : catalog.constraintError sec schedule = .ok ""
  free : catalog.conflictError sec schedule = ""
  isRegOpen : catalog.isRegOpen sec = true
  notCancelled : catalog.isCancelled sec = false

/-- A section that is tried makes the request fail. -/
structure Breaks (full override : Bool) (existing schedule : List ℕ) (sec : ℕ) : Prop where
  notExisting : ∀ other ∈ existing, catalog.sameSection sec other = false
  notFull : override = false → full = false
  raises : ∃ raised, catalog.constraintError sec schedule = .error raised

/-- A section is accepted when sections are tried one after the other: it passes all checks,
with the sections that are accepted before it. -/
inductive Accepted (full : ℕ → ℕ → Bool) (override : Bool) (existing : List ℕ) (sec : ℕ) :
    List ℕ → List ℕ → ℕ → Prop where
  | here {rest schedule ticks}
      (acceptable : catalog.Acceptable (full ticks sec) override existing schedule sec) :
      Accepted full override existing sec (sec :: rest) schedule ticks
  | added {first rest schedule ticks}
      (acceptable : catalog.Acceptable (full ticks first) override existing schedule first)
      (later : Accepted full override existing sec rest (catalog.withSection schedule first)
        (ticks + 1)) :
      Accepted full override existing sec (first :: rest) schedule ticks
  | refused {first rest schedule ticks}
      (unacceptable : ¬catalog.Acceptable (full ticks first) override existing schedule first)
      (goesOn : ¬catalog.Breaks (full ticks first) override existing schedule first)
      (later : Accepted full override existing sec rest schedule ticks) :
      Accepted full override existing sec (first :: rest) schedule ticks

/-- A section to add is accepted with what is left of a schedule. -/
def Joins (full : ℕ → ℕ → Bool) (override : Bool) (schedule current : List ℕ) (desired : List ℤ)
    (sec : ℕ) : Prop :=
  let toAdd := catalog.sectionsToAdd current desired
  let kept := catalog.keptSections schedule current desired
  catalog.usePriority program = false ∧
    catalog.Accepted full override (catalog.existingSections program toAdd kept) sec toAdd
      (catalog.clearedSections program toAdd kept)
      ((catalog.sectionsToRemove current desired).length +
        (catalog.conflictingSections program toAdd kept).length)

/-- Each wanted section that a student has and that overlaps one to add, overlaps one that is
accepted. -/
def Replaces (full : ℕ → ℕ → Bool) (override : Bool) (schedule current : List ℕ)
    (desired : List ℤ) : Prop :=
  ∀ held ∈ current, (held : ℤ) ∈ desired →
    (∃ sec ∈ catalog.sectionsToAdd current desired, catalog.overlaps held sec = true) →
      ∃ sec ∈ catalog.sectionsToAdd current desired, catalog.overlaps held sec = true ∧
        catalog.Joins program full override schedule current desired sec

variable {catalog : Catalog} {program : ℕ} {schedule current toAdd existing : List ℕ}
  {desired : List ℤ} {full : ℕ → ℕ → Bool} {override : Bool} {sec other ticks : ℕ}

theorem overlaps_iff : catalog.overlaps sec other = true ↔
    ∃ id ∈ catalog.timeslotIds other, id ∈ catalog.timeslotIds sec := by
  rw [overlaps, List.any_eq_true]
  simp only [decide_eq_true_eq]

theorem overlaps_comm : catalog.overlaps sec other = catalog.overlaps other sec := by
  rw [Bool.eq_iff_iff, overlaps_iff, overlaps_iff]
  exact exists_congr fun id => and_comm

theorem mem_sectionsToAdd : sec ∈ catalog.sectionsToAdd current desired ↔
    sec ∈ catalog.sections ∧ (sec : ℤ) ∈ desired ∧ sec ∉ current := by
  simp [sectionsToAdd]

theorem mem_sectionsToRemove : sec ∈ catalog.sectionsToRemove current desired ↔
    sec ∈ catalog.sections ∧ sec ∈ current ∧ (sec : ℤ) ∉ desired := by
  simp [sectionsToRemove]

theorem mem_withSection : other ∈ catalog.withSection schedule sec ↔
    other ∈ catalog.sections ∧ (other ∈ schedule ∨ other = sec) := by
  simp [withSection]

/-! ## Trying sections -/

theorem overlaps_of_conflictError (none : catalog.conflictError sec schedule = "")
    (isSection : other ∈ schedule) :
    catalog.overlaps sec other = false ∧ other ≠ sec := by
  induction schedule with
  | nil => cases isSection
  | cons first rest ih =>
      rw [conflictError] at none
      split at none
      next => exact absurd none (by decide)
      next different =>
        split at none
        next =>
          split at none
          next => exact absurd none (by decide)
          next => exact absurd none (by decide)
        next apart =>
          rcases List.mem_cons.mp isSection with same | isRest
          · rw [same]
            refine ⟨Bool.eq_false_of_not_eq_true apart, fun equal => different ?_⟩
            rw [equal, sameClass]
            simp
          · exact ih none isRest

/-- What is kept when a section is added that conflicts with none, is kept when sections are
tried. -/
theorem afterTrying_induction {motive : List ℕ → Prop}
    (adds : ∀ schedule, ∀ sec ∈ toAdd, motive schedule → catalog.conflictError sec schedule = "" →
      motive (catalog.withSection schedule sec)) (initially : motive schedule) :
    motive (catalog.afterTrying full override existing toAdd schedule ticks) := by
  induction toAdd generalizing schedule ticks with
  | nil => exact initially
  | cons sec rest ih =>
      have later := fun schedule other isRest =>
        adds schedule other (List.mem_cons_of_mem sec isRest)
      rw [afterTrying]
      split
      next => exact ih later initially
      next =>
        split
        next => exact initially
        next error added =>
          split
          next accepted =>
            simp only [Bool.and_eq_true, decide_eq_true_eq] at accepted
            rw [accepted.1] at added
            have notFull : (!override && full ticks sec) = false := by
              cases override <;> simp_all
            rw [notFull] at added
            exact ih later (adds schedule sec (List.mem_cons_self ..) initially
              (cannotAddTo_eq_empty_iff.mp added).2.1)
          next => exact ih later initially

theorem mem_of_mem_afterTrying
    (isTried : sec ∈ catalog.afterTrying full override existing toAdd schedule ticks) :
    sec ∈ schedule ∨ sec ∈ toAdd := by
  revert isTried
  refine afterTrying_induction
    (motive := fun after => sec ∈ after → sec ∈ schedule ∨ sec ∈ toAdd) ?_ .inl
  intro between other isToAdd before _ isMember
  rcases (mem_withSection.mp isMember).2 with isBefore | same
  · exact before isBefore
  · exact .inr (same ▸ isToAdd)

theorem mem_afterTrying_of_mem (isSection : sec ∈ catalog.sections) (isMember : sec ∈ schedule) :
    sec ∈ catalog.afterTrying full override existing toAdd schedule ticks :=
  afterTrying_induction (motive := fun after => sec ∈ after)
    (fun _ _ _ before _ => mem_withSection.mpr ⟨isSection, .inl before⟩) isMember

/-- Sections that can be added overlap none that are there. -/
theorem Apart.afterTrying (apart : catalog.Apart schedule) :
    catalog.Apart (catalog.afterTrying full override existing toAdd schedule ticks) := by
  refine afterTrying_induction ?_ apart
  intro schedule sec _ apart free first isFirst second isSecond different
  rcases (mem_withSection.mp isFirst).2 with isFirst | firstNew
  · rcases (mem_withSection.mp isSecond).2 with isSecond | secondNew
    · exact apart first isFirst second isSecond different
    · rw [secondNew, overlaps_comm]
      exact (overlaps_of_conflictError free isFirst).1
  · rcases (mem_withSection.mp isSecond).2 with isSecond | secondNew
    · rw [firstNew]
      exact (overlaps_of_conflictError free isSecond).1
    · exact absurd (firstNew.trans secondNew.symm) different

/-- Without priorities, trying a section adds it if it is acceptable, and makes the request fail
if it breaks. -/
theorem afterTrying_cons {rest : List ℕ}
    (unranked : catalog.usePriority (catalog.parentProgram sec) = false) :
    (catalog.Acceptable (full ticks sec) override existing schedule sec ∧
        catalog.afterTrying full override existing (sec :: rest) schedule ticks =
          catalog.afterTrying full override existing rest (catalog.withSection schedule sec)
            (ticks + 1)) ∨
      ¬catalog.Acceptable (full ticks sec) override existing schedule sec ∧
        (catalog.Breaks (full ticks sec) override existing schedule sec ∧
            catalog.afterTrying full override existing (sec :: rest) schedule ticks = schedule ∨
          ¬catalog.Breaks (full ticks sec) override existing schedule sec ∧
            catalog.afterTrying full override existing (sec :: rest) schedule ticks =
              catalog.afterTrying full override existing rest schedule ticks) := by
  rw [afterTrying]
  by_cases isExisting : (existing.any fun other => catalog.sameSection sec other) = true
  · rcases List.any_eq_true.mp isExisting with ⟨other, isOther, same⟩
    rw [if_pos isExisting]
    refine .inr ⟨fun acceptable => ?_, .inr ⟨fun breaks => ?_, rfl⟩⟩
    · exact Bool.false_ne_true ((acceptable.notExisting other isOther).symm.trans same)
    · exact Bool.false_ne_true ((breaks.notExisting other isOther).symm.trans same)
  · have notExisting : ∀ other ∈ existing, catalog.sameSection sec other = false :=
      fun other isOther => eq_false_of_ne_true fun same =>
        isExisting (List.any_eq_true.mpr ⟨other, isOther, same⟩)
    rw [if_neg isExisting]
    by_cases isFull : override = false ∧ full ticks sec = true
    · rw [isFull.1, isFull.2, Bool.not_false, Bool.true_and, cannotAddTo, if_pos rfl]
      dsimp only
      rw [if_neg (by simp)]
      refine .inr ⟨fun acceptable => ?_, .inr ⟨fun breaks => ?_, rfl⟩⟩
      · exact Bool.false_ne_true ((acceptable.notFull rfl).symm.trans rfl)
      · exact Bool.false_ne_true ((breaks.notFull rfl).symm.trans rfl)
    · have notFull : override = false → full ticks sec = false :=
        fun plain => eq_false_of_ne_true fun isFullThen => isFull ⟨plain, isFullThen⟩
      have unchecked : (!override && full ticks sec) = false := by
        cases override with
        | false => exact notFull rfl
        | true => rfl
      have registers : (override || !full ticks sec) = true := by
        cases override with
        | false => rw [notFull rfl, Bool.not_false, Bool.or_true]
        | true => rfl
      rw [unchecked, registers]
      cases tried : catalog.cannotAddTo sec schedule false 0 with
      | error raised =>
          have raises := cannotAddTo_eq_error_iff.mp tried
          refine .inr ⟨fun acceptable => ?_, .inl ⟨⟨notExisting, notFull, raised, raises⟩, rfl⟩⟩
          rw [acceptable.satisfied] at raises
          cases raises
      | ok error =>
          have goesOn : ¬catalog.Breaks (full ticks sec) override existing schedule sec := by
            intro breaks
            rcases breaks.raises with ⟨raised, raises⟩
            rw [cannotAddTo_eq_error_iff.mpr raises] at tried
            cases tried
          dsimp only
          rw [Bool.and_true]
          by_cases accepted : error = ""
          · rw [decide_eq_true accepted, if_pos rfl]
            rw [accepted] at tried
            rcases cannotAddTo_eq_empty_iff.mp tried with
              ⟨satisfied, free, isRegOpen, notCancelled, _⟩
            exact .inl ⟨⟨notExisting, notFull, satisfied, free, isRegOpen, notCancelled⟩, rfl⟩
          · rw [decide_eq_false accepted, if_neg Bool.false_ne_true]
            refine .inr ⟨fun acceptable => ?_, .inr ⟨goesOn, rfl⟩⟩
            refine accepted (Except.ok.inj (tried.symm.trans (cannotAddTo_eq_empty_iff.mpr ?_)))
            exact ⟨acceptable.satisfied, acceptable.free, acceptable.isRegOpen,
              acceptable.notCancelled, fun ranked => absurd (ranked.symm.trans unranked)
                (by decide)⟩

theorem mem_afterTrying_iff
    (unranked : ∀ sec ∈ toAdd, catalog.usePriority (catalog.parentProgram sec) = false)
    (isSection : ∀ sec ∈ toAdd, sec ∈ catalog.sections)
    (isScheduled : ∀ sec ∈ schedule, sec ∈ catalog.sections) :
    sec ∈ catalog.afterTrying full override existing toAdd schedule ticks ↔
      sec ∈ schedule ∨ catalog.Accepted full override existing sec toAdd schedule ticks := by
  induction toAdd generalizing schedule ticks with
  | nil => exact ⟨.inl, fun either => either.resolve_right fun accepted => nomatch accepted⟩
  | cons first rest ih =>
      have ofRest := fun schedule ticks isScheduled => @ih schedule ticks
        (fun sec isRest => unranked sec (List.mem_cons_of_mem _ isRest))
        (fun sec isRest => isSection sec (List.mem_cons_of_mem _ isRest)) isScheduled
      have isFirst := isSection first (List.mem_cons_self ..)
      rcases @afterTrying_cons catalog schedule existing full override first ticks rest
        (unranked first (List.mem_cons_self ..)) with
        ⟨acceptable, after⟩ | ⟨unacceptable, ⟨breaks, after⟩ | ⟨goesOn, after⟩⟩
      · rw [after, ofRest _ _ fun sec isMember => (mem_withSection.mp isMember).1, mem_withSection]
        constructor
        · intro either
          rcases either with ⟨_, isScheduled | same⟩ | accepted
          · exact .inl isScheduled
          · rw [same]
            exact .inr (.here acceptable)
          · exact .inr (.added acceptable accepted)
        · intro either
          rcases either with isMember | accepted
          · exact .inl ⟨isScheduled sec isMember, .inl isMember⟩
          · cases accepted with
            | here => exact .inl ⟨isFirst, .inr rfl⟩
            | added _ later => exact .inr later
            | refused unacceptable => exact absurd acceptable unacceptable
      · rw [after]
        refine ⟨.inl, fun either => either.resolve_right fun accepted => ?_⟩
        cases accepted with
        | here acceptable => exact unacceptable acceptable
        | added acceptable => exact unacceptable acceptable
        | refused _ goesOn => exact goesOn breaks
      · rw [after, ofRest _ _ isScheduled]
        refine or_congr_right ⟨.refused unacceptable goesOn, fun accepted => ?_⟩
        cases accepted with
        | here acceptable => exact absurd acceptable unacceptable
        | added acceptable => exact absurd acceptable unacceptable
        | refused _ _ later => exact later

/-! ## The plan -/

theorem mem_occupying
    (populated : ∀ sec ∈ schedule, ∀ id ∈ catalog.timeslotIds sec, id ∈ catalog.timeSlots program) :
    sec ∈ catalog.occupying toAdd (catalog.mapOf program schedule) ↔
      sec ∈ schedule ∧ ∃ new ∈ toAdd, catalog.overlaps sec new = true := by
  simp only [occupying, secTimes, List.mem_flatMap, List.mem_insertionSort, List.mem_dedup,
    List.mem_map]
  constructor
  · intro isOccupying
    rcases isOccupying with ⟨pair, ⟨new, isNew, id, isId, rfl⟩, isMember⟩
    rw [mapOf] at isMember
    split at isMember
    next =>
      rw [Option.getD_some, List.mem_flatMap] at isMember
      rcases isMember with ⟨other, isOther, isMember⟩
      rcases List.mem_map.mp isMember with ⟨ts, isTs, rfl⟩
      rcases List.mem_filter.mp isTs with ⟨isTs, same⟩
      rw [of_decide_eq_true same] at isTs
      exact ⟨isOther, new, isNew, overlaps_iff.mpr ⟨id, isId, isTs⟩⟩
    next => cases isMember
  · intro overlapping
    rcases overlapping with ⟨isMember, new, isNew, overlaps⟩
    rcases overlaps_iff.mp overlaps with ⟨id, isNewId, isId⟩
    refine ⟨(new, id), ⟨new, isNew, id, isNewId, rfl⟩, ?_⟩
    rw [mapOf, if_pos (populated sec isMember id isId), Option.getD_some]
    exact List.mem_flatMap.mpr ⟨sec, isMember, List.mem_map.mpr
      ⟨id, List.mem_filter.mpr ⟨isId, decide_eq_true rfl⟩, rfl⟩⟩

theorem mem_clearedSections
    (populated : ∀ sec ∈ schedule, ∀ id ∈ catalog.timeslotIds sec, id ∈ catalog.timeSlots program) :
    sec ∈ catalog.clearedSections program toAdd schedule ↔
      sec ∈ schedule ∧ (sec ∈ toAdd ∨ ¬∃ new ∈ toAdd, catalog.overlaps sec new = true) := by
  rw [clearedSections, List.mem_filter, decide_eq_true_eq, conflictingSections, List.mem_filter,
    decide_eq_true_eq, mem_occupying populated]
  refine and_congr_right fun isMember => ?_
  rw [and_iff_right isMember, not_and, not_not, imp_iff_or_not]

theorem mem_keptSections : sec ∈ catalog.keptSections schedule current desired ↔
    sec ∈ schedule ∧ sec ∉ catalog.sectionsToRemove current desired := by
  simp [keptSections]

/-- The planned schedule has what is left after all removals, and else only sections to add. -/
theorem plannedSchedule_spec (apart : catalog.Apart schedule)
    (isSection : ∀ sec ∈ schedule, sec ∈ catalog.sections) :
    catalog.Apart (catalog.plannedSchedule program full override schedule current desired) ∧
      (∀ sec ∈ catalog.clearedSections program (catalog.sectionsToAdd current desired)
          (catalog.keptSections schedule current desired),
        sec ∈ catalog.plannedSchedule program full override schedule current desired) ∧
      ∀ sec ∈ catalog.plannedSchedule program full override schedule current desired,
        sec ∈ catalog.clearedSections program (catalog.sectionsToAdd current desired)
            (catalog.keptSections schedule current desired) ∨
          sec ∈ catalog.sectionsToAdd current desired := by
  have isOld {sec : ℕ} (isCleared : sec ∈ catalog.clearedSections program
      (catalog.sectionsToAdd current desired) (catalog.keptSections schedule current desired)) :
      sec ∈ schedule := List.mem_of_mem_filter (List.mem_of_mem_filter isCleared)
  have clearedApart : catalog.Apart (catalog.clearedSections program
      (catalog.sectionsToAdd current desired) (catalog.keptSections schedule current desired)) :=
    fun first isFirst second isSecond => apart first (isOld isFirst) second (isOld isSecond)
  rw [plannedSchedule]
  split
  next => exact ⟨clearedApart, fun sec isCleared => isCleared, fun sec => .inl⟩
  next =>
    refine ⟨clearedApart.afterTrying, fun sec isCleared => ?_, fun sec => mem_of_mem_afterTrying⟩
    exact mem_afterTrying_of_mem (isSection sec (isOld isCleared)) isCleared

theorem mem_plannedSchedule_iff
    (inProgram : ∀ sec ∈ catalog.sectionsToAdd current desired, catalog.parentProgram sec = program)
    (isSection : ∀ sec ∈ schedule, sec ∈ catalog.sections) (isNew : sec ∉ schedule) :
    sec ∈ catalog.plannedSchedule program full override schedule current desired ↔
      catalog.Joins program full override schedule current desired sec := by
  have isOld {sec : ℕ} (isCleared : sec ∈ catalog.clearedSections program
      (catalog.sectionsToAdd current desired) (catalog.keptSections schedule current desired)) :
      sec ∈ schedule := List.mem_of_mem_filter (List.mem_of_mem_filter isCleared)
  rw [plannedSchedule, Joins]
  cases ranked : catalog.usePriority program with
  | true =>
      rw [if_pos rfl]
      exact iff_of_false (fun isCleared => isNew (isOld isCleared)) fun joins => nomatch joins.1
  | false =>
      rw [if_neg Bool.false_ne_true, mem_afterTrying_iff]
      · rw [or_iff_right fun isCleared => isNew (isOld isCleared), and_iff_right rfl]
      · intro sec isToAdd
        rw [inProgram sec isToAdd]
        exact ranked
      · exact fun sec isToAdd => (mem_sectionsToAdd.mp isToAdd).1
      · exact fun sec isCleared => isSection sec (isOld isCleared)

theorem keepsWanted_plannedSchedule_iff
    (inProgram : ∀ sec ∈ catalog.sectionsToAdd current desired, catalog.parentProgram sec = program)
    (apart : catalog.Apart schedule) (isSection : ∀ sec ∈ schedule, sec ∈ catalog.sections)
    (isHeld : ∀ sec ∈ current, sec ∈ schedule)
    (populated : ∀ sec ∈ catalog.keptSections schedule current desired,
      ∀ id ∈ catalog.timeslotIds sec, id ∈ catalog.timeSlots program) :
    catalog.KeepsWanted schedule
        (catalog.plannedSchedule program full override schedule current desired) desired ↔
      catalog.Replaces program full override schedule current desired := by
  rcases @plannedSchedule_spec catalog program schedule current desired full override apart
    isSection with ⟨_, keeps, adds⟩
  constructor
  · intro keepsWanted held isCurrent wanted overlapping
    have isHeld := isHeld held isCurrent
    have gone : held ∉ catalog.plannedSchedule program full override schedule current desired := by
      intro isPlanned
      rcases adds held isPlanned with isCleared | isToAdd
      · rcases ((mem_clearedSections populated).mp isCleared).2 with isToAdd | free
        · exact (mem_sectionsToAdd.mp isToAdd).2.2 isCurrent
        · exact free overlapping
      · exact (mem_sectionsToAdd.mp isToAdd).2.2 isCurrent
    rcases keepsWanted held isHeld wanted with isPlanned | ⟨sec, isPlanned, isWanted, overlaps⟩
    · exact absurd isPlanned gone
    · have isNew : sec ∉ schedule := by
        intro isMember
        have different : held ≠ sec := fun same => gone (same ▸ isPlanned)
        rw [apart held isHeld sec isMember different] at overlaps
        cases overlaps
      rcases adds sec isPlanned with isCleared | isToAdd
      · exact absurd (mem_keptSections.mp ((mem_clearedSections populated).mp isCleared).1).1 isNew
      · exact ⟨sec, isToAdd, overlaps, (mem_plannedSchedule_iff inProgram isSection isNew).mp
          isPlanned⟩
  · intro replaces held isHeld wanted
    have isKept : held ∈ catalog.keptSections schedule current desired :=
      mem_keptSections.mpr ⟨isHeld, fun isRemoved => (mem_sectionsToRemove.mp isRemoved).2.2 wanted⟩
    by_cases stays : held ∈ catalog.sectionsToAdd current desired ∨
        ¬∃ new ∈ catalog.sectionsToAdd current desired, catalog.overlaps held new = true
    · exact .inl (keeps held ((mem_clearedSections populated).mpr ⟨isKept, stays⟩))
    · rcases not_or.mp stays with ⟨isOld, overlapping⟩
      have isCurrent : held ∈ current := by
        by_contra missing
        exact isOld (mem_sectionsToAdd.mpr ⟨isSection held isHeld, wanted, missing⟩)
      rcases replaces held isCurrent wanted (not_not.mp overlapping) with
        ⟨sec, isToAdd, overlaps, joins⟩
      have isNew : sec ∉ schedule := by
        intro isMember
        have different : held ≠ sec := fun same => isOld (same ▸ isToAdd)
        rw [apart held isHeld sec isMember different] at overlaps
        cases overlaps
      exact .inr ⟨sec, (mem_plannedSchedule_iff inProgram isSection isNew).mpr joins,
        (mem_sectionsToAdd.mp isToAdd).2.1, overlaps⟩

/-! ## The plan is what happens -/

variable {clock : ℕ → DateTime} {user : ℕ} {verbs : List String} {db : Database}
  {progress : Progress} {pending : List ℕ}

/-- The student has a schedule at some point of a request, and the sections still to be tried
have the students that they had at its start. -/
structure Tracks (catalog : Catalog) (clock : ℕ → DateTime) (program user : ℕ) (db : Database)
    (pending : List ℕ) (progress : Progress) (schedule : List ℕ) : Prop where
  settled : ∃ last, last < clock progress.ticks ∧
    Settled (fun student _ _ => student = user) ⟨progress.db, last⟩
  enrolled : catalog.getEnrolledSectionsFromProgram progress.db user program
    (clock progress.ticks) = schedule
  students : ∀ sec ∈ pending, ∀ verb now,
    progress.db.students sec verb now = db.students sec verb now
  checkedIn : progress.db.checkedIn = db.checkedIn

theorem mem_getEnrolledSectionsFromProgram {now : DateTime} :
    sec ∈ catalog.getEnrolledSectionsFromProgram db user program now ↔
      sec ∈ catalog.sections ∧ catalog.parentProgram sec = program ∧
        user ∈ db.students sec "Enrolled" now := by
  simp [getEnrolledSectionsFromProgram]

theorem schedule_eq {left right : Database} {now when' : DateTime} {keep : ℕ → Bool}
    (same : ∀ sec ∈ catalog.sections, catalog.parentProgram sec = program →
      (user ∈ left.students sec "Enrolled" now ↔
        user ∈ right.students sec "Enrolled" when' ∧ keep sec = true)) :
    catalog.getEnrolledSectionsFromProgram left user program now =
      (catalog.getEnrolledSectionsFromProgram right user program when').filter keep := by
  rw [getEnrolledSectionsFromProgram, getEnrolledSectionsFromProgram, List.filter_filter]
  refine List.filter_congr fun sec isSection => ?_
  by_cases inProgram : catalog.parentProgram sec = program
  · have iff := same sec isSection inProgram
    rw [Bool.eq_iff_iff]
    simp only [inProgram, decide_true, Bool.true_and, Bool.and_eq_true, decide_eq_true_eq, iff]
    exact and_comm
  · simp [inProgram]

theorem Tracks.removeSection
    (tracks : Tracks catalog clock program user db pending progress schedule)
    (increasing : StrictMono clock) (covered : "Enrolled" ∈ verbs) (other : sec ∉ pending) :
    Tracks catalog clock program user db pending
      (catalog.removeSection clock user verbs progress sec)
      (schedule.filter fun kept => kept ≠ sec) := by
  rcases tracks.settled with ⟨last, later, settled⟩
  have next := increasing (Nat.lt_succ_self progress.ticks)
  have settledAfter : Settled (fun student _ _ => student = user)
      ⟨catalog.unpreregisterStudent progress.db sec user (clock progress.ticks) verbs,
        clock progress.ticks⟩ :=
    settled.of_follows follows_unpreregisterStudent later.le
  refine ⟨⟨_, next, settledAfter⟩, ?_, ?_, ?_⟩
  · rw [← tracks.enrolled]
    refine schedule_eq fun kept _ _ => ?_
    rw [Catalog.removeSection, settledAfter.mem_students_iff rfl next,
      settled.mem_students_iff rfl later, isOpen_unpreregisterStudent (.inr covered)]
    · rw [decide_eq_true_eq]
      refine and_congr_right fun _ => ?_
      exact ⟨fun stays same => stays ⟨rfl, same.symm⟩, fun stays leaves => stays leaves.2.symm⟩
    · intro _ row isRow ofUser _ _ endless
      exact (settled.isValid_iff isRow ofUser later).mpr endless
  · intro sec' isPending verb now
    have different : sec ≠ sec' := fun same => other (same ▸ isPending)
    exact (students_unpreregisterStudent different).trans (tracks.students sec' isPending verb now)
  · exact checkedIn_unpreregisterStudent.trans tracks.checkedIn

theorem Tracks.removeSections {removed : List ℕ}
    (tracks : Tracks catalog clock program user db pending progress schedule)
    (increasing : StrictMono clock) (covered : "Enrolled" ∈ verbs)
    (others : ∀ sec ∈ removed, sec ∉ pending) :
    Tracks catalog clock program user db pending
        (removed.foldl (catalog.removeSection clock user verbs) progress)
        (schedule.filter fun kept => kept ∉ removed) ∧
      (removed.foldl (catalog.removeSection clock user verbs) progress).ticks =
        progress.ticks + removed.length := by
  induction removed generalizing progress schedule with
  | nil => exact ⟨by simpa using tracks, rfl⟩
  | cons sec rest ih =>
      have first := tracks.removeSection increasing covered (others sec (List.mem_cons_self ..))
      rcases ih first fun later isRest => others later (List.mem_cons_of_mem _ isRest) with
        ⟨further, ticks⟩
      rw [List.filter_filter] at further
      refine ⟨?_, ?_⟩
      · have same : (schedule.filter fun kept => kept ∉ sec :: rest) =
            schedule.filter fun kept => decide (kept ∉ rest) && decide (kept ≠ sec) := by
          refine List.filter_congr fun kept _ => ?_
          rw [Bool.eq_iff_iff]
          simp [and_comm]
        rw [same]
        exact further
      · have one : (catalog.removeSection clock user verbs progress sec).ticks =
            progress.ticks + 1 := rfl
        rw [List.foldl_cons, ticks, one, List.length_cons]
        omega

theorem Tracks.register {rest : List ℕ} {after : Database}
    (tracks : Tracks catalog clock program user db (sec :: rest) progress schedule)
    (increasing : StrictMono clock) (inProgram : catalog.parentProgram sec = program)
    (fresh : sec ∉ rest)
    (registered : catalog.preregisterStudent progress.db sec user (clock progress.ticks)
      { overridefull := override, webapp := true } = (true, after)) (messages : List Message) :
    Tracks catalog clock program user db rest ⟨after, progress.ticks + 1, messages⟩
      (if catalog.usePriority program then schedule else catalog.withSection schedule sec) := by
  rcases tracks.settled with ⟨last, later, settled⟩
  have next := increasing (Nat.lt_succ_self progress.ticks)
  have success := congrArg Prod.fst registered
  have isAfter : _ = after := congrArg Prod.snd registered
  have settledAfter :
      Settled (fun student _ _ => student = user) ⟨after, clock progress.ticks⟩ := by
    rw [← isAfter]
    exact settled.of_follows follows_preregisterStudent later.le
  have isOpen {other : ℕ} : after.IsOpen user other ↔ progress.db.IsOpen user other ∨
      sec = other ∧ catalog.usePriority program = false := by
    rw [← isAfter, Database.isOpen_congr (registrations_preregisterStudent success),
      isOpen_addRegistrations fun _ _ enrolled => (settled.mem_students_iff rfl later).mp enrolled,
      eq_self_iff_true, true_and]
    refine or_congr_right (and_congr_right fun _ => ?_)
    rw [Site.verb]
    dsimp only
    rw [inProgram]
    cases catalog.usePriority program with
    | true => exact iff_of_false (by decide) (by decide)
    | false => exact iff_of_true rfl rfl
  refine ⟨⟨_, next, settledAfter⟩, ?_, ?_, ?_⟩
  · have isEnrolled {other : ℕ} : user ∈ after.students other "Enrolled" (clock (progress.ticks + 1)) ↔
        user ∈ progress.db.students other "Enrolled" (clock progress.ticks) ∨
          sec = other ∧ catalog.usePriority program = false := by
      rw [settledAfter.mem_students_iff rfl next, settled.mem_students_iff rfl later, isOpen]
    have before {other : ℕ} := @mem_getEnrolledSectionsFromProgram catalog program other user
      progress.db (clock progress.ticks)
    rw [tracks.enrolled] at before
    cases ranked : catalog.usePriority program with
    | true =>
        rw [if_pos rfl, ← tracks.enrolled]
        refine List.filter_congr fun other _ => ?_
        simp [isEnrolled, ranked]
    | false =>
        rw [if_neg Bool.false_ne_true]
        refine List.filter_congr fun other isSection => ?_
        rw [Bool.eq_iff_iff]
        simp only [Bool.and_eq_true, decide_eq_true_eq, isEnrolled, ranked, and_true,
          Bool.or_eq_true,
          before, isSection, true_and]
        constructor
        · intro enrolled
          exact enrolled.2.imp (fun old => ⟨enrolled.1, old⟩) Eq.symm
        · intro either
          rcases either with ⟨inProgram, old⟩ | same
          · exact ⟨inProgram, .inl old⟩
          · exact ⟨same ▸ inProgram, .inr same.symm⟩
  · intro other isRest verb now
    have different : sec ≠ other := fun same => fresh (same ▸ isRest)
    rw [← isAfter]
    exact (students_preregisterStudent different).trans
      (tracks.students other (List.mem_cons_of_mem _ isRest) verb now)
  · rw [← isAfter]
    exact checkedIn_preregisterStudent.trans tracks.checkedIn

theorem Tracks.finish (tracks : Tracks catalog clock program user db pending progress schedule) :
    Tracks catalog clock program user db [] progress schedule :=
  ⟨tracks.settled, tracks.enrolled, fun _ isNone => absurd isNone List.not_mem_nil,
    tracks.checkedIn⟩

theorem Tracks.forget {rest : List ℕ}
    (tracks : Tracks catalog clock program user db (sec :: rest) progress schedule)
    (messages : List Message) :
    Tracks catalog clock program user db rest { progress with messages } schedule :=
  ⟨tracks.settled, tracks.enrolled,
    fun other isRest => tracks.students other (List.mem_cons_of_mem _ isRest), tracks.checkedIn⟩

theorem Tracks.cannotAdd_eq {rest : List ℕ}
    (tracks : Tracks catalog clock program user db (sec :: rest) progress schedule)
    (inProgram : catalog.parentProgram sec = program) (override : Bool) :
    catalog.cannotAdd progress.db user sec (clock progress.ticks) (!override) true =
      catalog.cannotAddTo sec schedule
        (!override && catalog.isFull db sec (clock progress.ticks) false true)
        (catalog.getRegistrationPriority progress.db user program (clock progress.ticks)
          (catalog.meetingTimes sec)) := by
  rw [cannotAdd, inProgram, tracks.enrolled,
    isFull_congr (fun verb => tracks.students sec (List.mem_cons_self ..) verb _) tracks.checkedIn]

theorem Tracks.preregisterStudent_eq {rest : List ℕ}
    (tracks : Tracks catalog clock program user db (sec :: rest) progress schedule)
    (override : Bool) :
    (catalog.preregisterStudent progress.db sec user (clock progress.ticks)
      { overridefull := override, webapp := true }).1 =
        (override || !catalog.isFull db sec (clock progress.ticks) false true) := by
  rw [Site.preregisterStudent, Bool.or_false,
    isFull_congr (fun verb => tracks.students sec (List.mem_cons_self ..) verb _) tracks.checkedIn]
  dsimp only
  split
  next accepted => exact accepted.symm
  next refused => exact (eq_false_of_ne_true refused).symm

theorem cannotAddTo_eq {isFull : Bool} {priority : ℕ}
    (unranked : catalog.usePriority (catalog.parentProgram sec) = false) :
    catalog.cannotAddTo sec schedule isFull priority =
      catalog.cannotAddTo sec schedule isFull 0 := by
  rw [cannotAddTo, cannotAddTo, unranked]
  rfl

/-- The student gets the schedule that trying the sections gives; with priorities, the schedule
stays. -/
theorem Tracks.addSections {toAdd : List ℕ}
    (tracks : Tracks catalog clock program user db toAdd progress schedule)
    (increasing : StrictMono clock) (nodup : toAdd.Nodup)
    (inProgram : ∀ sec ∈ toAdd, catalog.parentProgram sec = program) :
    Tracks catalog clock program user db []
      (catalog.addSections clock user override existing toAdd progress).1
      (if catalog.usePriority program then schedule
        else catalog.afterTrying (fun ticks sec => catalog.isFull db sec (clock ticks) false true)
          override existing toAdd schedule progress.ticks) := by
  induction toAdd generalizing progress schedule with
  | nil =>
      rw [Catalog.addSections, afterTrying, ite_self]
      exact tracks
  | cons sec rest ih =>
      have ofProgram := inProgram sec (List.mem_cons_self ..)
      rcases List.nodup_cons.mp nodup with ⟨fresh, restNodup⟩
      have later : ∀ sec ∈ rest, catalog.parentProgram sec = program :=
        fun sec isRest => inProgram sec (List.mem_cons_of_mem _ isRest)
      have refused (messages : List Message) := ih (tracks.forget messages) restNodup later
      rw [Catalog.addSections, afterTrying]
      split
      next => exact refused progress.messages
      next =>
        have tried := tracks.cannotAdd_eq ofProgram override
        have registers := tracks.preregisterStudent_eq override
        cases ranked : catalog.usePriority program with
        | true =>
            simp only [ranked, if_true] at refused ih ⊢
            cases catalog.cannotAdd progress.db user sec (clock progress.ticks)
              (!override) true with
            | error raised => exact tracks.finish
            | ok error =>
                dsimp only
                split
                next =>
                  split
                  next after registered =>
                    have next := tracks.register increasing ofProgram fresh registered
                    rw [ranked, if_pos rfl] at next
                    exact ih (next _) restNodup later
                  next => exact refused _
                next => exact refused _
        | false =>
            simp only [ranked, Bool.false_eq_true, if_false] at refused ih ⊢
            rw [cannotAddTo_eq (ofProgram.symm ▸ ranked)] at tried
            rw [tried]
            cases catalog.cannotAddTo sec schedule
              (!override && catalog.isFull db sec (clock progress.ticks) false true) 0 with
            | error raised => exact tracks.finish
            | ok error =>
                dsimp only
                by_cases accepted : error = ""
                · rw [if_pos accepted, decide_eq_true accepted, Bool.true_and, ← registers]
                  split
                  next after registered =>
                    have next := tracks.register increasing ofProgram fresh registered
                    rw [ranked, if_neg Bool.false_ne_true] at next
                    rw [registered, if_pos rfl]
                    exact ih (next _) restNodup later
                  next refusal =>
                    rw [refusal, if_neg Bool.false_ne_true]
                    exact refused _
                · rw [if_neg accepted, decide_eq_false accepted, Bool.false_and,
                    if_neg Bool.false_ne_true]
                  exact refused _

theorem populate_eq_error (outside : ∃ sec ∈ schedule, ∃ id ∈ catalog.timeslotIds sec,
    id ∉ catalog.timeSlots program) : catalog.populate program schedule = .error .keyError := by
  rw [populate, if_neg]
  intro populated
  rcases outside with ⟨sec, isMember, id, isId, outside⟩
  exact outside (of_decide_eq_true
    (List.all_eq_true.mp (List.all_eq_true.mp populated sec isMember) id isId))

theorem populate_eq_ok (inside : ¬∃ sec ∈ schedule, ∃ id ∈ catalog.timeslotIds sec,
    id ∉ catalog.timeSlots program) :
    catalog.populate program schedule = .ok (catalog.mapOf program schedule) := by
  rw [populate, if_pos]
  refine List.all_eq_true.mpr fun sec isMember => List.all_eq_true.mpr fun id isId => ?_
  by_contra missing
  exact inside ⟨sec, isMember, id, isId, fun isTimeslot => missing (decide_eq_true isTimeslot)⟩

variable (override) in
/-- The student gets the planned schedule, unless a section to add is full, or a section that is
kept does not meet at timeslots of the program. -/
theorem Tracks.updateSections
    (tracks : Tracks catalog clock program user db (catalog.sectionsToAdd current desired) progress
      schedule)
    (start : progress.ticks = 0) (increasing : StrictMono clock) (covered : "Enrolled" ∈ verbs)
    (inProgram : ∀ sec ∈ catalog.sectionsToAdd current desired,
      catalog.parentProgram sec = program) :
    Tracks catalog clock program user db []
      (catalog.updateSections clock program user verbs override current desired progress).1
      (if override = false ∧ ∃ sec ∈ catalog.sectionsToAdd current desired,
          catalog.isFull db sec (clock 0) false true = true then schedule
        else if ∃ sec ∈ catalog.keptSections schedule current desired,
            ∃ id ∈ catalog.timeslotIds sec, id ∉ catalog.timeSlots program then
          catalog.keptSections schedule current desired
        else catalog.plannedSchedule program
          (fun ticks sec => catalog.isFull db sec (clock ticks) false true) override
            schedule current
            desired) := by
  have isFull : ∀ sec ∈ catalog.sectionsToAdd current desired,
      catalog.isFull progress.db sec (clock progress.ticks) false true =
        catalog.isFull db sec (clock 0) false true := by
    intro sec isToAdd
    rw [start]
    exact isFull_congr (fun verb => tracks.students sec isToAdd verb _) tracks.checkedIn
  rw [Catalog.updateSections]
  dsimp only
  split
  next noneFull =>
    have free : ¬(override = false ∧ ∃ sec ∈ catalog.sectionsToAdd current desired,
        catalog.isFull db sec (clock 0) false true = true) := by
      intro any
      rcases any with ⟨plain, sec, isToAdd, full⟩
      rw [List.isEmpty_iff, List.filter_eq_nil_iff] at noneFull
      refine noneFull sec isToAdd ?_
      rw [isFull sec isToAdd, full, plain]
      rfl
    rw [if_neg free]
    have apart : ∀ sec ∈ catalog.sectionsToRemove current desired,
        sec ∉ catalog.sectionsToAdd current desired := fun sec isRemoved isToAdd =>
      (mem_sectionsToRemove.mp isRemoved).2.2 (mem_sectionsToAdd.mp isToAdd).2.1
    rcases tracks.removeSections increasing covered apart with ⟨removed, ticks⟩
    rw [removed.enrolled]
    by_cases outside : ∃ sec ∈ catalog.keptSections schedule current desired,
      ∃ id ∈ catalog.timeslotIds sec, id ∉ catalog.timeSlots program
    · rw [if_pos outside, ← keptSections, populate_eq_error outside]
      exact removed.finish
    · rw [if_neg outside, plannedSchedule, ← keptSections, populate_eq_ok outside]
      have apart : ∀ sec ∈ catalog.conflictingSections program
        (catalog.sectionsToAdd current desired)
            (catalog.keptSections schedule current desired),
          sec ∉ catalog.sectionsToAdd current desired := fun sec isConflicting =>
        of_decide_eq_true (List.mem_filter.mp isConflicting).2
      rcases removed.removeSections increasing covered apart with ⟨cleared, clearedTicks⟩
      rw [ticks, start, Nat.zero_add] at clearedTicks
      rw [← clearedTicks]
      exact cleared.addSections increasing (catalog.nodup.filter _) inProgram
  next someFull =>
    have full : override = false ∧ ∃ sec ∈ catalog.sectionsToAdd current desired,
        catalog.isFull db sec (clock 0) false true = true := by
      rw [List.isEmpty_iff] at someFull
      rcases List.exists_mem_of_ne_nil _ someFull with ⟨sec, isFullSection⟩
      rcases List.mem_filter.mp isFullSection with ⟨isToAdd, full⟩
      rw [isFull sec isToAdd, Bool.and_eq_true, Bool.not_eq_true'] at full
      exact ⟨full.2, sec, isToAdd, full.1⟩
    rw [if_pos full]
    exact ⟨tracks.settled, tracks.enrolled, fun _ isNone => absurd isNone List.not_mem_nil,
      tracks.checkedIn⟩

/-! ## A whole request -/

/-- A request costs a student no class: it asks for too many sections, one to add is full, one
that is kept does not meet at timeslots of the program, or those that are taken away for sections
to add are replaced. -/
def Spares (catalog : Catalog) (clock : ℕ → DateTime) (program user : ℕ) (db : Database)
    (request : ScheduleRequest) : Prop :=
  let checkedIn := if request.checkIn then checkIn program user db else db
  let schedule := catalog.getEnrolledSectionsFromProgram db user program (clock 0)
  let current := catalog.currentSections program user db (clock 0)
  maxScheduleSections < request.requested.length ∨
    (request.override = false ∧ ∃ sec ∈ catalog.sectionsToAdd current request.requested,
      catalog.isFull checkedIn sec (clock 0) false true = true) ∨
    (∃ sec ∈ catalog.keptSections schedule current request.requested,
      ∃ id ∈ catalog.timeslotIds sec, id ∉ catalog.timeSlots program) ∨
    catalog.Replaces program (fun ticks sec =>
      catalog.isFull checkedIn sec (clock ticks) false true)
      request.override schedule current request.requested

section Requests

variable {types : RegistrationTypes} {request : ScheduleRequest} {last : DateTime}

theorem enrolled_mem_getVisibleRegistrationTypeNames (isType : "Enrolled" ∈ types.names) :
    "Enrolled" ∈ types.getVisibleRegistrationTypeNames program := by
  rw [RegistrationTypes.getVisibleRegistrationTypeNames]
  split
  next => exact isType
  next => exact List.mem_append_right _ (List.mem_singleton_self _)

theorem mem_schedule_of_mem_currentSections {now : DateTime}
    (isCurrent : sec ∈ catalog.currentSections program user db now) :
    sec ∈ catalog.getEnrolledSectionsFromProgram db user program now := by
  rcases List.mem_filter.mp isCurrent with ⟨isSection, counts⟩
  simp only [Bool.and_eq_true, decide_eq_true_eq] at counts
  exact mem_getEnrolledSectionsFromProgram.mpr ⟨isSection, counts.1.2, counts.2⟩

/-- The schedule of a student depends on registrations only. -/
theorem getEnrolledSectionsFromProgram_congr {left right : Database} {now : DateTime}
    (same : left.registrations = right.registrations) :
    catalog.getEnrolledSectionsFromProgram left user program now =
      catalog.getEnrolledSectionsFromProgram right user program now := by
  have students {sec : ℕ} : left.students sec "Enrolled" now = right.students sec "Enrolled" now := by
    rw [Database.students, same, Database.students]
  simp only [getEnrolledSectionsFromProgram, students]

theorem currentSections_congr {left right : Database} {now : DateTime}
    (same : left.registrations = right.registrations) :
    catalog.currentSections program user left now =
      catalog.currentSections program user right now := by
  have students {sec : ℕ} : left.students sec "Enrolled" now = right.students sec "Enrolled" now := by
    rw [Database.students, same, Database.students]
  simp only [currentSections, students]

theorem updateSections_iff {registered : Database} {warnings : List Message}
    (increasing : StrictMono clock)
    (settled : Settled (fun student _ _ => student = user) ⟨registered, last⟩)
      (later : last < clock 0)
    (covered : "Enrolled" ∈ verbs)
    (inProgram : ∀ sec ∈ catalog.sectionsToAdd current desired, catalog.parentProgram sec = program)
    (isSchedule : catalog.getEnrolledSectionsFromProgram registered user program (clock 0) =
      schedule)
    (isHeld : ∀ sec ∈ current, sec ∈ schedule) (apart : catalog.Apart schedule) :
    let updated := (catalog.updateSections clock program user verbs override current desired
      ⟨registered, 0, warnings⟩).1
    let after := catalog.getEnrolledSectionsFromProgram updated.db user program
      (clock updated.ticks)
    catalog.Apart after ∧ catalog.KeepsWanted schedule after desired ↔
      (override = false ∧ ∃ sec ∈ catalog.sectionsToAdd current desired,
        catalog.isFull registered sec (clock 0) false true = true) ∨
      (∃ sec ∈ catalog.keptSections schedule current desired,
        ∃ id ∈ catalog.timeslotIds sec, id ∉ catalog.timeSlots program) ∨
      catalog.Replaces program
        (fun ticks sec => catalog.isFull registered sec (clock ticks) false true) override schedule
          current desired := by
  have tracks : Tracks catalog clock program user registered (catalog.sectionsToAdd current desired)
      ⟨registered, 0, warnings⟩ schedule :=
    ⟨⟨last, later, settled⟩, isSchedule, fun _ _ _ _ => rfl, rfl⟩
  have updated := tracks.updateSections override rfl increasing covered inProgram
  dsimp only
  rw [updated.enrolled]
  split
  next full =>
    exact iff_of_true ⟨apart, fun held isHeld _ => .inl isHeld⟩ (.inl full)
  next free =>
    rw [or_iff_right free]
    split
    next outside =>
      refine iff_of_true ⟨fun first isFirst second isSecond => ?_, fun held isHeld wanted => ?_⟩
        (.inl outside)
      · exact apart first (mem_keptSections.mp isFirst).1 second (mem_keptSections.mp isSecond).1
      · exact .inl (mem_keptSections.mpr
          ⟨isHeld, fun isRemoved => (mem_sectionsToRemove.mp isRemoved).2.2 wanted⟩)
    next inside =>
      have isSection : ∀ sec ∈ schedule, sec ∈ catalog.sections := by
        intro sec isMember
        rw [← isSchedule] at isMember
        exact (mem_getEnrolledSectionsFromProgram.mp isMember).1
      have populated : ∀ sec ∈ catalog.keptSections schedule current desired,
          ∀ id ∈ catalog.timeslotIds sec, id ∈ catalog.timeSlots program := by
        intro sec isKept id isId
        by_contra outside
        exact inside ⟨sec, isKept, id, isId, outside⟩
      rw [or_iff_right inside, and_iff_right (plannedSchedule_spec apart isSection).1]
      exact keepsWanted_plannedSchedule_iff inProgram apart isSection isHeld populated

/-- After a request the sections of a student are apart, and the wanted ones are kept or replaced,
exactly if the request spares the student. -/
theorem updateScheduleJson_iff (names : request.user = some user) (increasing : StrictMono clock)
    (settled : Settled (fun student _ _ => student = user) ⟨db, last⟩) (later : last < clock 0)
    (isType : "Enrolled" ∈ types.names)
    (inProgram : ∀ sec ∈ catalog.sections, (sec : ℤ) ∈ request.requested →
      catalog.parentProgram sec = program)
    (apart : catalog.Apart (catalog.getEnrolledSectionsFromProgram db user program (clock 0))) :
    let served := (catalog.updateScheduleJson clock program types db request).1
    let before := catalog.getEnrolledSectionsFromProgram db user program (clock 0)
    let after := catalog.getEnrolledSectionsFromProgram served.db user program (clock served.ticks)
    catalog.Apart after ∧ catalog.KeepsWanted before after request.requested ↔
      Spares catalog clock program user db request := by
  have unchanged : catalog.Apart (catalog.getEnrolledSectionsFromProgram db user program
    (clock 0)) ∧
      catalog.KeepsWanted (catalog.getEnrolledSectionsFromProgram db user program (clock 0))
        (catalog.getEnrolledSectionsFromProgram db user program (clock 0)) request.requested :=
    ⟨apart, fun held isHeld _ => .inl isHeld⟩
  have nothing (none : request.requested = []) : Spares catalog clock program user db request := by
    refine .inr (.inr (.inr fun held _ wanted => ?_))
    rw [none] at wanted
    cases wanted
  have registrations :
      (if request.checkIn = true then checkIn program user db else db).registrations =
      db.registrations := by
    split <;> rfl
  have schedule := @getEnrolledSectionsFromProgram_congr catalog program user _ _ (clock 0)
    registrations
  rw [updateScheduleJson, names]
  cases listed : request.sections with
  | missing =>
      have none : request.requested = [] := by rw [ScheduleRequest.requested, listed]
      dsimp only
      rw [schedule]
      exact iff_of_true unchanged (nothing none)
  | malformed =>
      exact iff_of_true unchanged (nothing (by rw [ScheduleRequest.requested, listed]))
  | notAList =>
      exact iff_of_true unchanged (nothing (by rw [ScheduleRequest.requested, listed]))
  | list entries =>
      have requested : request.requested = (sanitizeSectionIds entries).1 := by
        rw [ScheduleRequest.requested, listed]
      dsimp only
      rw [← requested]
      split
      next invalid =>
        rw [Bool.and_eq_true, List.isEmpty_iff] at invalid
        exact iff_of_true unchanged (nothing invalid.1)
      next =>
        split
        next tooMany => exact iff_of_true unchanged (.inl tooMany)
        next within =>
          rw [Spares, or_iff_right within, ← currentSections_congr registrations]
          refine updateSections_iff increasing ?_ later
            (enrolled_mem_getVisibleRegistrationTypeNames isType) ?_ schedule ?_ apart
          · intro row isRow
            rw [registrations] at isRow
            exact settled row isRow
          · intro sec isToAdd
            rcases mem_sectionsToAdd.mp isToAdd with ⟨isSection, wanted, _⟩
            exact inProgram sec isSection wanted
          · intro sec isCurrent
            rw [← schedule]
            exact mem_schedule_of_mem_currentSections isCurrent

end Requests

end Catalog

namespace Sample

open Catalog

/-- Two sections at one time, where the second one is closed, and one at another time. -/
def closing : Catalog where
  parentClass := id
  classProgram := fun _ => 0
  meetingTimes := fun classSection =>
    if classSection < 2 then [⟨1, 0⟩] else [⟨2, 60 * minute⟩]
  capacity := fun _ _ => 10
  usePriority := fun _ => false
  switchTime := fun _ => none
  switchLag := fun _ => none
  sections := [0, 1, 2]
  nodup := Sample.sections_nodup
  title := toString
  status := fun _ => accepted
  registrationStatus := fun classSection => if classSection = 1 then 10 else opened
  assigned := fun _ => true
  classStatus := fun _ => accepted
  gradeMin := fun _ => 7
  gradeMax := fun _ => 12
  timeSlots := fun _ => [1, 2]
  scheduleConstraints := fun _ => []
  priorityLimit := fun _ => 3
  enforceMax := fun _ => true
  temporarilyFullText := fun _ => "Class temporarily full; please check back later"
  isStudent := fun _ => true
  getGrade := fun _ _ => 9
  gradeOverride := fun _ _ => false
  userCanJoin := fun _ _ _ _ => true

/-- The types that a new site has, where no program displays more than enrollments. -/
def plain : RegistrationTypes := ⟨["Applied", "Enrolled"], fun _ => none⟩

/-- The student has the first section. -/
def holds : Database := ⟨[⟨⟨some 0, none⟩, 7, 0, "Enrolled"⟩], ∅, ∅⟩

/-- One change after the other. -/
def ticking (ticks : ℕ) : DateTime := ticks + 1

/-- The first section is wanted, and another one. -/
def asks (other : ℤ) : ScheduleRequest := ⟨some 7, .list [.int 0, .int other], false, false⟩

theorem spared_by_another_time :
    let served := (closing.updateScheduleJson ticking 0 plain holds (asks 2)).1
    let before := closing.getEnrolledSectionsFromProgram holds 7 0 (ticking 0)
    let after := closing.getEnrolledSectionsFromProgram served.db 7 0 (ticking served.ticks)
    closing.Apart after ∧ closing.KeepsWanted before after (asks 2).requested := by
  have settled : Settled (fun student _ _ => student = 7) ⟨holds, 0⟩ := by
    intro row isRow _
    rw [List.mem_singleton.mp isRow]
    exact ⟨fun start starts => by cases starts; exact le_rfl, fun finish ends => by cases ends⟩
  have current : closing.currentSections 0 7 holds (ticking 0) = [0] := by decide
  have toAdd : closing.sectionsToAdd [0] (asks 2).requested = [2] := by decide
  have increasing : StrictMono ticking := strictMono_nat_of_lt_succ fun ticks => by simp [ticking]
  refine (updateScheduleJson_iff rfl increasing settled (by decide) (by decide) (fun _ _ _ => rfl)
    (by decide)).mpr (.inr (.inr (.inr fun held isHeld _ overlapping => ?_)))
  rw [current] at isHeld overlapping
  rw [toAdd] at overlapping
  rcases overlapping with ⟨sec, isToAdd, overlaps⟩
  rw [List.mem_singleton.mp isHeld, List.mem_singleton.mp isToAdd] at overlaps
  exact absurd overlaps (by decide)

/-- The section that is held makes room for the closed one, which cannot be added. -/
theorem loses_for_closed_section :
    let served := (closing.updateScheduleJson ticking 0 plain holds (asks 1)).1
    let before := closing.getEnrolledSectionsFromProgram holds 7 0 (ticking 0)
    let after := closing.getEnrolledSectionsFromProgram served.db 7 0 (ticking served.ticks)
    closing.Apart before ∧ ¬closing.KeepsWanted before after (asks 1).requested := by
  decide

end Sample

end EspWebsite.Registration
