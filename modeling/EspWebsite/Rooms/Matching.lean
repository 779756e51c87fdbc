import EspWebsite.Rooms.Imports

/-!
# Availability that is imported

An import without complete availability matches the class timeslots of the two programs.  A slot
of the past program only survives the collapsing if it is the only one of its run.
-/

namespace EspWebsite.Rooms

open Tables

namespace Room

/-- The event is the only one of its run in the list of the room. -/
def Isolated (room : Room) (event : Event) : Prop :=
  [event.toCal] ∈ Cal.Event.runs minute (room.timeslots.map Event.toCal)

instance (room : Room) (event : Event) : Decidable (room.Isolated event) :=
  inferInstanceAs (Decidable (_ ∈ _))

end Room

namespace Store

/-- Rooms of a kind are available at a timeslot of the new program exactly if they were available
at the timeslot of the past program in the same place. -/
def Matches (request : ImportRequest) (kind : Resource → Bool) (rooms : List Room)
    (store after : Store) : Prop :=
  ∀ room ∈ rooms, ∀ slots ∈ request.tsMap store,
    after.isAt kind room.name slots.2 = true ↔ store.isAt kind room.name slots.1 = true

/-- A room of a kind is there at a new timeslot, or can be imported, exactly if it was available
at the old one. -/
def Available (kind : Resource → Bool) (importable : Room → Event → Event → Prop) (room : Room)
    (slots : Event × Event) (store : Store) : Prop :=
  if store.isAt kind room.name slots.1 then
    store.isAt kind room.name slots.2 = true ∨ importable room slots.1 slots.2
  else store.isAt kind room.name slots.2 = false

/-- No resource has the name at the new timeslot, the old one is isolated, and none of the rooms
that are imported before has a furnishing with the name. -/
structure ClassroomImportable (request : ImportRequest) (store : Store) (room : Room)
    (old new : Event) : Prop where
  unnamed : store.isNamedAt room.name new = false
  isolated : room.Isolated old
  earlier : ∀ before rest, store.groupedClassrooms request.pastProgram = before ++ room :: rest →
    ∀ other ∈ before, other.Isolated old →
      ∀ furnishing ∈ store.furnishingsOf request other.resource, furnishing.name ≠ room.name

/-- No resource has the name at the new timeslot, and the old one is isolated. -/
structure EquipmentImportable (store : Store) (room : Room) (old new : Event) : Prop where
  unnamed : store.isNamedAt room.name new = false
  isolated : room.Isolated old

/-- The rows refer to rows, and to groups that were given away. -/
structure Linked (store : Store) : Prop where
  events : ∀ resource ∈ store.resources.rows, resource.event ∈ store.events.rows
  groups : ∀ resource ∈ store.resources.rows, ∀ group ∈ resource.resGroup,
    group < store.nextGroup
  classroomType : store.HasClassroomType

/-! ## Timeslots -/

section Timeslots

variable {store after : Store} {request : ImportRequest} {room : Room} {rooms : List Room}
  {resources : List Resource} {event old new : Event} {slots : Event × Event} {program : ℕ}
  {kind : Resource → Bool}

theorem mem_timeSlots : event ∈ store.timeSlots program ↔
    event ∈ store.events.rows ∧ event.program = some program ∧ event.isClassTime = true := by
  rw [timeSlots, List.mem_insertionSort, List.mem_filter, decide_eq_true_eq]

theorem nodup_timeSlots : ((store.timeSlots program).map Event.id).Nodup := by
  have perm : (store.timeSlots program).Perm
      (store.events.rows.filter fun event => event.program = some program ∧ event.isClassTime) :=
    List.perm_insertionSort _ _
  refine (perm.map _).nodup_iff.mpr ?_
  exact (store.events.nodup_keys).sublist (List.filter_sublist.map _)

theorem mem_tsMap (isPair : slots ∈ request.tsMap store) :
    slots.1 ∈ store.timeSlots request.pastProgram ∧ slots.2 ∈ store.timeSlots request.program :=
  List.of_mem_zip isPair

theorem eq_of_mem_tsMap {others : Event × Event} (isPair : slots ∈ request.tsMap store)
    (isOther : others ∈ request.tsMap store)
    (same : slots.1.id = others.1.id ∨ slots.2.id = others.2.id) : slots = others := by
  rcases List.mem_iff_getElem.mp isPair with ⟨first, inside, rfl⟩
  rcases List.mem_iff_getElem.mp isOther with ⟨second, inside', rfl⟩
  simp only [ImportRequest.tsMap, List.length_zip, lt_inf_iff] at inside inside'
  simp only [ImportRequest.tsMap, List.getElem_zip] at same ⊢
  have apart (program : ℕ) (first second : ℕ) (inside : first < (store.timeSlots program).length)
      (inside' : second < (store.timeSlots program).length)
      (same : (store.timeSlots program)[first].id = (store.timeSlots program)[second].id) :
      first = second := by
    have nodup := @nodup_timeSlots store program
    exact (@List.Nodup.getElem_inj_iff _ _ nodup first (by simpa using inside) second
      (by simpa using inside')).mp (by simpa using same)
  have sameIndex : first = second := by
    rcases same with same | same
    · exact apart _ first second inside.1 inside'.1 same
    · exact apart _ first second inside.2 inside'.2 same
  subst sameIndex
  rfl

theorem mem_timeSlots_of_mem_newTimeslots (isTimeslot : new ∈ request.newTimeslots store room) :
    new ∈ store.timeSlots request.program := by
  rw [ImportRequest.newTimeslots] at isTimeslot
  split at isTimeslot
  next => exact isTimeslot
  next =>
    rcases List.mem_filterMap.mp isTimeslot with ⟨event, _, isNew⟩
    rw [ImportRequest.newTimeslot, Option.map_eq_some_iff] at isNew
    rcases isNew with ⟨slots, found, same⟩
    rw [← same]
    exact (mem_tsMap (List.mem_of_find?_eq_some found)).2

theorem mem_timeslots (grouped : IsGrouped rooms resources) (isRoom : room ∈ rooms) :
    event ∈ room.timeslots ↔
      ∃ resource ∈ resources, resource.name = room.name ∧ resource.event = event := by
  rw [grouped.timeslots room isRoom, List.mem_map]
  simp only [List.mem_filter, decide_eq_true_eq, and_assoc]

theorem mem_timegroup : event.toCal ∈ room.timegroup ↔ room.Isolated event :=
  Cal.Event.mem_collapse_of_saved (Option.some_ne_none _)

theorem mem_of_isolated (isolated : room.Isolated event) :
    ∃ other ∈ room.timeslots, other.toCal = event.toCal :=
  List.mem_map.mp (Cal.Event.mem_runs isolated List.mem_cons_self)

theorem mem_newTimeslots (incomplete : request.completeAvailability = false)
    (areRows : ∀ event ∈ room.timeslots, event ∈ store.events.rows) :
    new ∈ request.newTimeslots store room ↔
      ∃ slots ∈ request.tsMap store, slots.2 = new ∧ room.Isolated slots.1 := by
  rw [ImportRequest.newTimeslots, if_neg (by rw [incomplete]; decide), List.mem_filterMap]
  constructor
  · rintro ⟨event, isLeft, isNew⟩
    rw [ImportRequest.newTimeslot, Option.map_eq_some_iff] at isNew
    rcases isNew with ⟨slots, found, rfl⟩
    have isPair := List.mem_of_find?_eq_some found
    have sameId : some slots.1.id = event.id := of_decide_eq_true
      (List.find?_some (p := fun slots : Event × Event => decide (some slots.1.id = event.id)) found)
    have saved : event.id ≠ none := by
      rw [← sameId]
      exact Option.some_ne_none _
    have single := (Cal.Event.mem_collapse_of_saved saved).mp isLeft
    rcases List.mem_map.mp (Cal.Event.mem_runs single List.mem_cons_self) with ⟨row, isRow, rfl⟩
    have same : row = slots.1 := Table.eq_of_key_eq (areRows row isRow)
      (mem_timeSlots.mp (mem_tsMap isPair).1).1 (Option.some_injective _ sameId).symm
    exact ⟨slots, isPair, rfl, same ▸ single⟩
  · rintro ⟨slots, isPair, rfl, isolated⟩
    refine ⟨slots.1.toCal, mem_timegroup.mpr isolated, ?_⟩
    rw [ImportRequest.newTimeslot]
    cases found : (request.tsMap store).find? fun pair => some pair.1.id = slots.1.toCal.id with
    | none =>
        have different := List.find?_eq_none.mp found slots isPair
        exact absurd (decide_eq_true rfl) different
    | some pair =>
        have sameId : some pair.1.id = slots.1.toCal.id := of_decide_eq_true (List.find?_some
          (p := fun pair : Event × Event => decide (some pair.1.id = slots.1.toCal.id)) found)
        rw [eq_of_mem_tsMap (List.mem_of_find?_eq_some found) isPair
          (Or.inl (Option.some_injective _ sameId)), Option.map_some]

theorem isAt_of_isolated (grouped : IsGrouped rooms resources) (isRoom : room ∈ rooms)
    (areRows : ∀ resource ∈ resources, resource ∈ store.resources.rows ∧ kind resource = true)
    (isolated : room.Isolated event) : store.isAt kind room.name event = true := by
  rcases mem_of_isolated isolated with ⟨other, isOther, same⟩
  rcases (mem_timeslots grouped isRoom).mp isOther with ⟨resource, isResource, sameName, rfl⟩
  rcases areRows resource isResource with ⟨isRow, isKind⟩
  have sameId : resource.event.id = event.id :=
    Option.some_injective _ (congrArg Cal.Event.id same)
  exact isAt_iff.mpr ⟨resource, isRow, isKind, sameName, sameId⟩

theorem matches_iff {importable : Room → Event → Event → Prop}
    (adds : ∀ room ∈ rooms, ∀ slots ∈ request.tsMap store,
      after.isAt kind room.name slots.2 = true ↔
        store.isAt kind room.name slots.2 = true ∨ importable room slots.1 slots.2)
    (wasThere : ∀ room ∈ rooms, ∀ slots ∈ request.tsMap store,
      importable room slots.1 slots.2 → store.isAt kind room.name slots.1 = true) :
    store.Matches request kind rooms after ↔
      ∀ room ∈ rooms, ∀ slots ∈ request.tsMap store, Available kind importable room slots store := by
  refine forall₄_congr fun room isRoom slots isPair => ?_
  rw [adds room isRoom slots isPair, Available]
  have old := wasThere room isRoom slots isPair
  split
  next isThere => simp only [isThere, iff_true]
  next absent =>
    simp only [absent, iff_false, not_or, Bool.not_eq_true, Bool.false_eq_true]
    exact and_iff_left fun isImportable => absent (old isImportable)

end Timeslots

/-! ## Classrooms -/

section Classrooms

variable {store after : Store} {request : ImportRequest} {room : Room} {name : String}
  {event : Event} {step : Resource × Event} {steps : List (Resource × Event)}
  {slots : Event × Event} {slotSet : Set Event}

/-- The import of a classroom at a timeslot brings a resource with a name to an event. -/
def brings (store : Store) (request : ImportRequest) (name : String) (event : Event)
    (step : Resource × Event) : Bool :=
  request.imports step.1 ∧ step.2.id = event.id ∧ (step.1.name = name ∨
    ∃ furnishing ∈ store.furnishingsOf request step.1, furnishing.name = name)

theorem brings_iff : store.brings request name event step = true ↔ request.imports step.1 = true ∧
    step.2.id = event.id ∧ (step.1.name = name ∨
      ∃ furnishing ∈ store.furnishingsOf request step.1, furnishing.name = name) := by
  rw [brings, decide_eq_true_eq]

/-- What the steps are about was there before. -/
structure Known (store : Store) (steps : List (Resource × Event)) : Prop where
  groups : ∀ step ∈ steps, ∀ group ∈ step.1.resGroup, group < store.nextGroup
  classroom : ∀ step ∈ steps, store.isClassroom step.1 = true

theorem Known.tail (known : store.Known (step :: steps))
    (later : Extends slotSet store after) : after.Known steps where
  groups := fun other isOther group isGroup =>
    (known.groups other (List.mem_cons_of_mem _ isOther) group isGroup).trans_le later.nextGroup
  classroom := by
    rw [later.isClassroom]
    exact fun other isOther => known.classroom other (List.mem_cons_of_mem _ isOther)

theorem Extends.furnishingsOf (later : Extends slotSet store after) {oldRes : Resource}
    (known : ∀ group ∈ oldRes.resGroup, group < store.nextGroup) :
    after.furnishingsOf request oldRes = store.furnishingsOf request oldRes := by
  rw [Store.furnishingsOf, Store.furnishingsOf, later.associatedResources known]

theorem isClassroomAt_foldl (hasType : store.HasClassroomType) (known : store.Known steps) :
    (steps.foldl (importClassroom request) store).isAt store.isClassroom name event = true ↔
      store.isAt store.isClassroom name event = true ∨ store.isNamedAt name event = false ∧
        ∃ step, steps.find? (store.brings request name event) = some step ∧ step.1.name = name := by
  induction steps generalizing store with
  | nil => simp
  | cons step rest ih =>
      rcases step with ⟨oldRes, timeslot⟩
      have isKnown := known.groups (oldRes, timeslot) List.mem_cons_self
      have later := @extends_importClassroom store Set.univ request oldRes timeslot
        (Set.mem_univ _)
      have named := @isNamedAt_importClassroom store name event request oldRes timeslot isKnown
      have classroom := @isClassroomAt_importClassroom store name event request oldRes timeslot
        isKnown hasType (known.classroom _ List.mem_cons_self)
      have sameBrings : rest.find? ((store.importClassroom request (oldRes, timeslot)).brings
          request name event) = rest.find? (store.brings request name event) := by
        refine List.find?_congr fun other isOther => ?_
        rw [brings, brings, later.furnishingsOf
          (known.groups other (List.mem_cons_of_mem _ isOther))]
      have others := ih (later.hasClassroomType hasType) (known.tail later)
      rw [later.isClassroom, sameBrings, classroom] at others
      rw [List.foldl_cons, others]
      cases isFirst : store.brings request name event (oldRes, timeslot) with
      | true =>
          rcases brings_iff.mp isFirst with ⟨imports, sameEvent, brought⟩
          have isThere := named.mpr (Or.inr ⟨imports, sameEvent, brought⟩)
          rw [List.find?_cons_of_pos isFirst, isThere]
          simp only [Bool.true_eq_false, false_and, or_false, Option.some.injEq, exists_eq_left']
          refine or_congr_right ⟨?_, ?_⟩
          · rintro ⟨⟨absent, _⟩, rfl, _⟩
            rw [isNamedAt, ← sameEvent]
            exact ⟨absent, rfl⟩
          · rintro ⟨absent, sameName⟩
            rw [isNamedAt, ← sameName, ← sameEvent] at absent
            exact ⟨⟨absent, imports⟩, sameName, sameEvent⟩
      | false =>
          have notBrought : ¬ (request.imports oldRes = true ∧ timeslot.id = event.id ∧
              (oldRes.name = name ∨
                ∃ furnishing ∈ store.furnishingsOf request oldRes, furnishing.name = name)) := by
            rw [← Bool.not_eq_true, brings_iff] at isFirst
            exact isFirst
          rw [or_iff_left notBrought] at named
          have sameNamed : (store.importClassroom request (oldRes, timeslot)).isNamedAt name event =
              store.isNamedAt name event := Bool.eq_iff_iff.mpr named
          rw [List.find?_cons_of_neg (by rw [isFirst]; decide), sameNamed]
          refine or_congr_left (or_iff_left ?_)
          rintro ⟨⟨_, imports⟩, sameName, sameEvent⟩
          exact notBrought ⟨imports, sameEvent, Or.inl sameName⟩

theorem extends_foldl_importClassroom (areSlots : ∀ step ∈ steps, step.2 ∈ slotSet) :
    Extends slotSet store (steps.foldl (importClassroom request) store) :=
  extends_foldl fun step isStep store =>
    @extends_importClassroom store slotSet request step.1 step.2 (areSlots step isStep)

/-- All that was to be imported is there in the end. -/
theorem settled_foldl (known : store.Known steps) :
    ∀ step ∈ steps, Settled request step.1 step.2 (steps.foldl (importClassroom request) store) := by
  induction steps generalizing store with
  | nil => simp
  | cons first rest ih =>
      have isKnown := known.groups first List.mem_cons_self
      have later := @extends_importClassroom store Set.univ request first.1 first.2
        (Set.mem_univ _)
      refine List.forall_mem_cons.mpr ⟨?_, ih (known.tail later)⟩
      refine (settled_importClassroom isKnown).mono
        (@extends_foldl_importClassroom _ request rest Set.univ fun _ _ => Set.mem_univ _) ?_
      exact fun group isGroup => (isKnown group isGroup).trans_le later.nextGroup

theorem resources_foldl (settled : ∀ step ∈ steps, Settled request step.1 step.2 store) :
    (steps.foldl (importClassroom request) store).resources = store.resources := by
  induction steps generalizing store with
  | nil => rfl
  | cons first rest ih =>
      rw [List.forall_mem_cons] at settled
      have same := @resources_importClassroom store request first.1 first.2 settled.1
      rw [List.foldl_cons, ih, same]
      exact fun step isStep => (settled.2 step isStep).congr same

theorem mem_getClassrooms {program : ℕ} {resource : Resource} :
    resource ∈ store.getClassrooms program ↔ resource ∈ store.resources.rows ∧
      resource.event.program = some program ∧ store.isClassroom resource = true := by
  rw [getClassrooms, List.mem_insertionSort, getResources, List.mem_filter, List.mem_filter,
    decide_eq_true_eq, and_assoc]

theorem mem_classroomSteps : step ∈ store.classroomSteps request ↔
    ∃ room ∈ store.groupedClassrooms request.pastProgram, step.1 = room.resource ∧
      step.2 ∈ request.newTimeslots store room := by
  rw [classroomSteps, List.mem_flatMap]
  refine exists_congr fun room => and_congr_right fun _ => ?_
  rw [List.mem_map]
  constructor
  · rintro ⟨timeslot, isTimeslot, rfl⟩
    exact ⟨rfl, isTimeslot⟩
  · rintro ⟨same, isTimeslot⟩
    exact ⟨step.2, isTimeslot, Prod.ext same.symm rfl⟩

theorem known_classroomSteps (linked : store.Linked) :
    store.Known (store.classroomSteps request) := by
  have isRow : ∀ step ∈ store.classroomSteps request,
      step.1 ∈ store.getClassrooms request.pastProgram := by
    intro step isStep
    rcases mem_classroomSteps.mp isStep with ⟨room, isRoom, same, _⟩
    rw [same]
    exact (isGrouped_groupedClassrooms store request.pastProgram).resource room isRoom
  exact {
    groups := fun step isStep => linked.groups _ (mem_getClassrooms.mp (isRow step isStep)).1
    classroom := fun step isStep => (mem_getClassrooms.mp (isRow step isStep)).2.2 }

variable (linked : store.Linked) (incomplete : request.completeAvailability = false)
include linked incomplete

theorem mem_newTimeslots_classroom (isRoom : room ∈ store.groupedClassrooms request.pastProgram)
    {new : Event} : new ∈ request.newTimeslots store room ↔
      ∃ slots ∈ request.tsMap store, slots.2 = new ∧ room.Isolated slots.1 := by
  refine mem_newTimeslots incomplete fun event isEvent => ?_
  rcases (mem_timeslots (isGrouped_groupedClassrooms store _) isRoom).mp isEvent with
    ⟨resource, isResource, _, rfl⟩
  exact linked.events resource (mem_getClassrooms.mp isResource).1

/-- The first step that brings the name of a room to a new timeslot is its own exactly if the old
one is isolated and no room before it brings a furnishing with the name. -/
theorem find_classroomSteps
    (all : ∀ room ∈ store.groupedClassrooms request.pastProgram,
      request.imports room.resource = true)
    (isRoom : room ∈ store.groupedClassrooms request.pastProgram)
    (isPair : slots ∈ request.tsMap store) :
    (∃ step, (store.classroomSteps request).find? (store.brings request room.name slots.2) =
        some step ∧ step.1.name = room.name) ↔
      room.Isolated slots.1 ∧
        ∀ before rest, store.groupedClassrooms request.pastProgram = before ++ room :: rest →
          ∀ other ∈ before, other.Isolated slots.1 →
            ∀ furnishing ∈ store.furnishingsOf request other.resource,
              furnishing.name ≠ room.name := by
  have names := (isGrouped_groupedClassrooms store request.pastProgram).names
  -- A step of a room to the new timeslot comes from the old one.
  have isolated_of (other : Room) (isOther : other ∈ store.groupedClassrooms request.pastProgram)
      (timeslot : Event) (isTimeslot : timeslot ∈ request.newTimeslots store other)
      (same : timeslot.id = slots.2.id) : other.Isolated slots.1 := by
    rcases (mem_newTimeslots_classroom linked incomplete isOther).mp isTimeslot with
      ⟨others, isOthers, rfl, isolated⟩
    rw [← eq_of_mem_tsMap isOthers isPair (Or.inr same)]
    exact isolated
  have new_of (other : Room) (isOther : other ∈ store.groupedClassrooms request.pastProgram)
      (isolated : other.Isolated slots.1) : slots.2 ∈ request.newTimeslots store other :=
    (mem_newTimeslots_classroom linked incomplete isOther).mpr ⟨slots, isPair, rfl, isolated⟩
  have split (before rest : List Room)
      (rooms : store.groupedClassrooms request.pastProgram = before ++ room :: rest) :
      store.classroomSteps request =
        (before.flatMap fun room =>
          (request.newTimeslots store room).map fun timeslot => (room.resource, timeslot)) ++
        (((request.newTimeslots store room).map fun timeslot => (room.resource, timeslot)) ++
          rest.flatMap fun room =>
            (request.newTimeslots store room).map fun timeslot => (room.resource, timeslot)) := by
    rw [classroomSteps, rooms, List.flatMap_append, List.flatMap_cons]
  have apart (before rest : List Room)
      (rooms : store.groupedClassrooms request.pastProgram = before ++ room :: rest) :
      ∀ other ∈ before, other.name ≠ room.name := by
    rw [rooms, List.map_append, List.nodup_append] at names
    exact fun other isOther => names.2.2 _ (List.mem_map_of_mem isOther) _ List.mem_cons_self
  constructor
  · rintro ⟨step, found, sameName⟩
    rcases mem_classroomSteps.mp (List.mem_of_find?_eq_some found) with
      ⟨other, isOther, sameResource, isTimeslot⟩
    have sameRoom : other = room := by
      refine List.inj_on_of_nodup_map names isOther isRoom ?_
      rw [Room.name, ← sameResource, sameName]
    subst sameRoom
    rcases brings_iff.mp (List.find?_some found) with ⟨_, sameEvent, _⟩
    refine ⟨isolated_of other isOther step.2 isTimeslot sameEvent, ?_⟩
    intro before rest rooms earlier isEarlier isolated furnishing isFurnishing isNamed
    have isEarlierRoom : earlier ∈ store.groupedClassrooms request.pastProgram := by
      rw [rooms]
      exact List.mem_append_left _ isEarlier
    rw [split before rest rooms, List.find?_append] at found
    cases first : (before.flatMap fun room =>
        (request.newTimeslots store room).map fun timeslot => (room.resource, timeslot)).find?
          (store.brings request other.name slots.2) with
    | none =>
        have none := List.find?_eq_none.mp first (earlier.resource, slots.2)
          (List.mem_flatMap.mpr ⟨earlier, isEarlier,
            List.mem_map_of_mem (new_of earlier isEarlierRoom isolated)⟩)
        exact none (brings_iff.mpr
          ⟨all earlier isEarlierRoom, rfl, Or.inr ⟨furnishing, isFurnishing, isNamed⟩⟩)
    | some early =>
        rw [first, Option.some_or, Option.some.injEq] at found
        subst found
        rcases List.mem_flatMap.mp (List.mem_of_find?_eq_some first) with
          ⟨another, isAnother, isStep⟩
        rcases List.mem_map.mp isStep with ⟨timeslot, _, rfl⟩
        exact apart before rest rooms another isAnother sameName
  · rintro ⟨isolated, earlier⟩
    rcases List.append_of_mem isRoom with ⟨before, rest, rooms⟩
    rw [split before rest rooms, List.find?_append]
    have none : (before.flatMap fun room =>
        (request.newTimeslots store room).map fun timeslot => (room.resource, timeslot)).find?
          (store.brings request room.name slots.2) = none := by
      rw [List.find?_eq_none]
      intro step isStep isBrought
      rcases List.mem_flatMap.mp isStep with ⟨other, isOther, isStep⟩
      rcases List.mem_map.mp isStep with ⟨timeslot, isTimeslot, rfl⟩
      have isOtherRoom : other ∈ store.groupedClassrooms request.pastProgram := by
        rw [rooms]
        exact List.mem_append_left _ isOther
      rcases brings_iff.mp isBrought with ⟨_, sameEvent, sameName | ⟨furnishing, isFurnishing, isNamed⟩⟩
      · exact apart before rest rooms other isOther sameName
      · exact earlier before rest rooms other isOther
          (isolated_of other isOtherRoom timeslot isTimeslot sameEvent) furnishing isFurnishing
          isNamed
    have isOwn : (room.resource, slots.2) ∈
        (request.newTimeslots store room).map fun timeslot => (room.resource, timeslot) :=
      List.mem_map_of_mem (new_of room isRoom isolated)
    have brought : store.brings request room.name slots.2 (room.resource, slots.2) = true :=
      brings_iff.mpr ⟨all room isRoom, rfl, Or.inl rfl⟩
    rw [none, Option.none_or, List.find?_append]
    cases own : ((request.newTimeslots store room).map fun timeslot =>
        (room.resource, timeslot)).find? (store.brings request room.name slots.2) with
    | none => exact absurd brought (List.find?_eq_none.mp own _ isOwn)
    | some step =>
        rcases List.mem_map.mp (List.mem_of_find?_eq_some own) with ⟨timeslot, _, rfl⟩
        exact ⟨_, rfl, rfl⟩

theorem classroomsMatch_iff
    (all : ∀ room ∈ store.groupedClassrooms request.pastProgram,
      request.imports room.resource = true) :
    store.Matches request store.isClassroom (store.groupedClassrooms request.pastProgram)
        (store.resourcesClassroomImport request) ↔
      ∀ room ∈ store.groupedClassrooms request.pastProgram, ∀ slots ∈ request.tsMap store,
        Available store.isClassroom (ClassroomImportable request store) room slots store := by
  refine matches_iff (fun room isRoom slots isPair => ?_) fun room isRoom slots isPair importable =>
    isAt_of_isolated (isGrouped_groupedClassrooms store _) isRoom
      (fun resource isResource => ⟨(mem_getClassrooms.mp isResource).1,
        (mem_getClassrooms.mp isResource).2.2⟩) importable.isolated
  rw [resourcesClassroomImport,
    isClassroomAt_foldl linked.classroomType (known_classroomSteps linked),
    find_classroomSteps linked incomplete all isRoom isPair]
  exact or_congr_right ⟨fun ⟨unnamed, isolated, earlier⟩ => ⟨unnamed, isolated, earlier⟩,
    fun ⟨unnamed, isolated, earlier⟩ => ⟨unnamed, isolated, earlier⟩⟩

omit linked incomplete

theorem extends_resourcesClassroomImport :
    Extends {event | event ∈ store.timeSlots request.program} store
      (store.resourcesClassroomImport request) := by
  refine extends_foldl_importClassroom fun step isStep => ?_
  rcases mem_classroomSteps.mp isStep with ⟨room, _, _, isTimeslot⟩
  exact mem_timeSlots_of_mem_newTimeslots isTimeslot

/-- What is added to one program is nothing of another. -/
theorem Extends.getResources
    (later : Extends {event | event ∈ store.timeSlots request.program} store after) {program : ℕ} (different : program ≠ request.program) :
    after.getResources program = store.getResources program := by
  rcases later.resources with ⟨new, isNew, groups⟩
  rw [Store.getResources, Store.getResources, isNew, List.filter_append]
  refine (congrArg (_ ++ ·) (List.filter_eq_nil_iff.mpr fun resource isResource => ?_)).trans
    (List.append_nil _)
  rw [decide_eq_true_eq, (mem_timeSlots.mp (groups resource isResource).1).2.1, Option.some.injEq]
  exact different.symm

theorem Extends.timeSlots (later : Extends slotSet store after) (program : ℕ) :
    after.timeSlots program = store.timeSlots program := by
  rw [Store.timeSlots, Store.timeSlots, later.events]

theorem Extends.newTimeslots (later : Extends slotSet store after) (room : Room) :
    request.newTimeslots after room = request.newTimeslots store room := by
  unfold ImportRequest.newTimeslots ImportRequest.newTimeslot ImportRequest.tsMap
  rw [later.timeSlots, later.timeSlots]

theorem resources_resourcesClassroomImport_again (linked : store.Linked)
    (different : request.pastProgram ≠ request.program) :
    ((store.resourcesClassroomImport request).resourcesClassroomImport request).resources =
      (store.resourcesClassroomImport request).resources := by
  have later := @extends_resourcesClassroomImport store request
  have sameRooms : (store.resourcesClassroomImport request).groupedClassrooms request.pastProgram =
      store.groupedClassrooms request.pastProgram := by
    rw [groupedClassrooms, groupedClassrooms, getClassrooms, getClassrooms,
      later.getResources different, later.isClassroom]
  have sameSteps : (store.resourcesClassroomImport request).classroomSteps request =
      store.classroomSteps request := by
    rw [classroomSteps, classroomSteps, sameRooms]
    refine congrArg (List.flatMap · _) (funext fun room => ?_)
    rw [later.newTimeslots]
  refine resources_foldl fun step isStep => ?_
  rw [sameSteps] at isStep
  exact settled_foldl (known_classroomSteps linked) step isStep

end Classrooms

/-! ## Equipment -/

section Equipment

variable {store after : Store} {request : ImportRequest} {room : Room} {rooms : List Room}
  {name : String} {event : Event} {fields : Event → ResourceFields} {timeslots : List Event}
  {imports : Bool} {kind : Resource → Bool} {slotsOf : Room → List Event}

theorem isNamedAt_foldl_saveIfNew {other : String} (fields : Event → ResourceFields)
    (names : ∀ timeslot, (fields timeslot).name = name)
    (events : ∀ timeslot, (fields timeslot).event = timeslot) :
    (timeslots.foldl (fun store timeslot => (store.saveIfNew (fields timeslot) imports).2)
        store).isNamedAt other event = true ↔
      store.isNamedAt other event = true ∨
        imports = true ∧ name = other ∧ ∃ timeslot ∈ timeslots, timeslot.id = event.id := by
  induction timeslots generalizing store with
  | nil => simp
  | cons timeslot rest ih =>
      rw [List.foldl_cons, ih, isNamedAt_saveIfNew, names, events, List.exists_mem_cons_iff]
      tauto

/-- Resources with one name are saved at the timeslots at which nothing has the name. -/
theorem isAt_foldl_saveIfNew {other : String} (fields : Event → ResourceFields)
    (names : ∀ timeslot, (fields timeslot).name = name)
    (events : ∀ timeslot, (fields timeslot).event = timeslot)
    (kinds : ∀ store : Store, ∀ timeslot, kind (store.saveNew (fields timeslot)).1 = true) :
    (timeslots.foldl (fun store timeslot => (store.saveIfNew (fields timeslot) imports).2)
        store).isAt kind other event = true ↔
      store.isAt kind other event = true ∨ store.isNamedAt other event = false ∧
        imports = true ∧ name = other ∧ ∃ timeslot ∈ timeslots, timeslot.id = event.id := by
  induction timeslots generalizing store with
  | nil => simp
  | cons timeslot rest ih =>
      have first := @isAt_saveIfNew store (fields timeslot) other event kind imports
      have named := @isNamedAt_saveIfNew store (fields timeslot) other event imports
      rw [names, events, and_iff_right (kinds store timeslot)] at first
      rw [names, events] at named
      simp only [← Bool.not_eq_true] at first ih ⊢
      rw [List.foldl_cons, ih, List.exists_mem_cons_iff, first, named]
      by_cases own : name = other ∧ timeslot.id = event.id
      · have same : store.isNamedAt name timeslot = store.isNamedAt other event := by
          rw [isNamedAt, isNamedAt, own.1, own.2]
        rw [same]
        cases imports with
        | false => simp
        | true => simp [own.1, own.2]
      · have notNamed : ¬ (imports = true ∧ name = other ∧ timeslot.id = event.id) :=
          fun both => own both.2
        have notSaved : ¬ ((¬store.isNamedAt name timeslot = true ∧ imports = true) ∧
            name = other ∧ timeslot.id = event.id) := fun both => own both.2
        rw [or_iff_left notNamed, or_iff_left notSaved]
        refine or_congr_right (and_congr_right fun _ => and_congr_right fun _ =>
          and_congr_right fun sameName => ?_)
        rw [or_iff_right fun sameEvent => own ⟨sameName, sameEvent⟩]

theorem extends_foldl_saveIfNew {slots : Set Event} (areSlots : ∀ timeslot ∈ timeslots, timeslot ∈ slots)
    (events : ∀ timeslot, (fields timeslot).event = timeslot)
    (groups : ∀ timeslot, (fields timeslot).resGroup = none) :
    Extends slots store
      (timeslots.foldl (fun store timeslot => (store.saveIfNew (fields timeslot) imports).2)
        store) := by
  refine extends_foldl fun timeslot isTimeslot store => ?_
  have isSlot : (fields timeslot).event ∈ slots := by
    rw [events]
    exact areSlots timeslot isTimeslot
  exact (extends_saveIfNew isSlot (groups timeslot) (extends_refl slots store)).1

theorem resources_foldl_saveIfNew (isThere : imports = true → ∀ timeslot ∈ timeslots,
      store.isNamedAt (fields timeslot).name (fields timeslot).event = true) :
    (timeslots.foldl (fun store timeslot => (store.saveIfNew (fields timeslot) imports).2)
        store).resources = store.resources := by
  induction timeslots generalizing store with
  | nil => rfl
  | cons timeslot rest ih =>
      have spared : (store.saveIfNew (fields timeslot) imports).2 = store := by
        rw [saveIfNew, if_neg]
        intro saves
        rw [Bool.and_eq_true, Bool.not_eq_true'] at saves
        rw [isThere saves.2 timeslot List.mem_cons_self] at saves
        cases saves.1
      rw [List.foldl_cons, spared]
      exact ih fun imports other isOther => isThere imports other (List.mem_cons_of_mem _ isOther)

/-- A copy of a room of equipment at a timeslot, before it is saved. -/
def newEquipment (store : Store) (request : ImportRequest) (equipment : Room)
    (timeslot : Event) : ResourceFields :=
  { name := equipment.name,
    resType := (store.ensureType equipment.resource.resType request.program).1,
    numStudents := -1, isUnique := false, user := equipment.resource.user, event := timeslot,
    resGroup := none, attributeValue := equipment.resource.attributeValue }

theorem importEquipment_eq : store.importEquipment request slotsOf room =
    (slotsOf room).foldl (fun between timeslot =>
        (between.saveIfNew (store.newEquipment request room timeslot)
          (request.imports room.resource)).2)
      (if request.imports room.resource then
        (store.ensureType room.resource.resType request.program).2
      else store) := rfl

/-- What equipment is saved in, with the type for it. -/
theorem extends_typed {slots : Set Event} : Extends slots store
    (if request.imports room.resource then
      (store.ensureType room.resource.resType request.program).2
    else store) := by
  split
  next => exact (extends_ensureType (extends_refl slots store)).1
  next => exact extends_refl slots store

theorem resources_typed : (if request.imports room.resource then
    (store.ensureType room.resource.resType request.program).2 else store).resources =
      store.resources := by
  split
  next => exact resources_ensureType
  next => rfl

theorem extends_importEquipment {slots : Set Event}
    (areSlots : ∀ timeslot ∈ slotsOf room, timeslot ∈ slots) :
    Extends slots store (store.importEquipment request slotsOf room) := by
  rw [importEquipment_eq]
  exact extends_typed.trans
    (extends_foldl_saveIfNew areSlots (fun _ => rfl) fun _ => rfl)

theorem isNamedAt_importEquipment :
    (store.importEquipment request slotsOf room).isNamedAt name event = true ↔
      store.isNamedAt name event = true ∨ request.imports room.resource = true ∧
        room.name = name ∧ ∃ timeslot ∈ slotsOf room, timeslot.id = event.id := by
  rw [importEquipment_eq, isNamedAt_foldl_saveIfNew (store.newEquipment request room) (fun _ => rfl)
    fun _ => rfl, isNamedAt, resources_typed]
  rfl

theorem isFloatingAt_importEquipment (hasType : store.HasClassroomType) :
    (store.importEquipment request slotsOf room).isAt store.isFloating name event = true ↔
      store.isAt store.isFloating name event = true ∨ store.isNamedAt name event = false ∧
        request.imports room.resource = true ∧ room.name = name ∧
          ∃ timeslot ∈ slotsOf room, timeslot.id = event.id := by
  have kinds (between : Store) (timeslot : Event) : store.isFloating
      (between.saveNew (store.newEquipment request room timeslot)).1 = true := by
    have different : store.isClassroom
        (between.saveNew (store.newEquipment request room timeslot)).1 = false := by
      rw [isClassroom, decide_eq_false_iff_not]
      exact ensureType_ne hasType
    rw [isFloating, different]
    rfl
  rw [importEquipment_eq, isAt_foldl_saveIfNew (store.newEquipment request room) (fun _ => rfl)
    (fun _ => rfl) kinds, isAt, isNamedAt, resources_typed]
  rfl

theorem resources_importEquipment (isThere : request.imports room.resource = true →
      ∀ timeslot ∈ slotsOf room, store.isNamedAt room.name timeslot = true) :
    (store.importEquipment request slotsOf room).resources = store.resources := by
  rw [importEquipment_eq, resources_foldl_saveIfNew, resources_typed]
  intro imports timeslot isTimeslot
  rw [isNamedAt, resources_typed]
  exact isThere imports timeslot isTimeslot

theorem Extends.isFloating {slots : Set Event} (later : Extends slots store after) :
    after.isFloating = store.isFloating := by
  funext resource
  rw [Store.isFloating, Store.isFloating, later.isClassroom]

theorem isFloatingAt_importEquipments (hasType : store.HasClassroomType) :
    (rooms.foldl (importEquipment request slotsOf) store).isAt store.isFloating name event = true ↔
      store.isAt store.isFloating name event = true ∨ store.isNamedAt name event = false ∧
        ∃ room ∈ rooms, request.imports room.resource = true ∧ room.name = name ∧
          ∃ timeslot ∈ slotsOf room, timeslot.id = event.id := by
  induction rooms generalizing store with
  | nil => simp
  | cons room rest ih =>
      have later := @extends_importEquipment store request room slotsOf Set.univ
        fun _ _ => Set.mem_univ _
      have others := ih (later.hasClassroomType hasType)
      have first := @isFloatingAt_importEquipment store request room name event slotsOf hasType
      have named := @isNamedAt_importEquipment store request room name event slotsOf
      rw [later.isFloating] at others
      rw [List.foldl_cons, others, first, List.exists_mem_cons_iff]
      simp only [← Bool.not_eq_true] at named ⊢
      rw [named, not_or]
      by_cases own : request.imports room.resource = true ∧ room.name = name ∧
          ∃ timeslot ∈ slotsOf room, timeslot.id = event.id
      · simp only [own, not_true_eq_false, and_false, false_and, or_false, and_true, true_or]
      · simp only [own, not_false_eq_true, and_false, or_false, and_true, false_or]

theorem extends_importEquipments {slots : Set Event}
    (areSlots : ∀ room ∈ rooms, ∀ timeslot ∈ slotsOf room, timeslot ∈ slots) :
    Extends slots store (rooms.foldl (importEquipment request slotsOf) store) :=
  extends_foldl fun room isRoom _ => extends_importEquipment (areSlots room isRoom)

theorem isNamedAt_importEquipments : ∀ room ∈ rooms, request.imports room.resource = true →
    ∀ timeslot ∈ slotsOf room,
      (rooms.foldl (importEquipment request slotsOf) store).isNamedAt room.name timeslot = true := by
  induction rooms generalizing store with
  | nil => simp
  | cons first rest ih =>
      refine List.forall_mem_cons.mpr ⟨fun imports timeslot isTimeslot => ?_, ih⟩
      have isThere : (store.importEquipment request slotsOf first).isNamedAt first.name timeslot =
          true := isNamedAt_importEquipment.mpr (Or.inr ⟨imports, rfl, timeslot, isTimeslot, rfl⟩)
      rw [isNamedAt_eq] at isThere ⊢
      exact (@extends_importEquipments _ request rest slotsOf Set.univ
        fun _ _ _ _ => Set.mem_univ _).isAt isThere

theorem resources_importEquipments (isThere : ∀ room ∈ rooms, request.imports room.resource = true →
      ∀ timeslot ∈ slotsOf room, store.isNamedAt room.name timeslot = true) :
    (rooms.foldl (importEquipment request slotsOf) store).resources = store.resources := by
  induction rooms generalizing store with
  | nil => rfl
  | cons first rest ih =>
      rw [List.forall_mem_cons] at isThere
      have same := resources_importEquipment isThere.1
      rw [List.foldl_cons, ih, same]
      intro room isRoom imports timeslot isTimeslot
      rw [isNamedAt, same]
      exact isThere.2 room isRoom imports timeslot isTimeslot

theorem mem_floating {program : ℕ} {resource : Resource} :
    resource ∈ (store.getResources program).filter store.isFloating ↔
      resource ∈ store.resources.rows ∧ resource.event.program = some program ∧
        store.isFloating resource = true := by
  rw [getResources, List.mem_filter, List.mem_filter, decide_eq_true_eq, and_assoc]

theorem equipmentMatch_iff (linked : store.Linked)
    (incomplete : request.completeAvailability = false)
    (all : ∀ room ∈ store.getFloatingResources request.pastProgram,
      request.imports room.resource = true) :
    store.Matches request store.isFloating (store.getFloatingResources request.pastProgram)
        (store.resourcesEquipmentImport request) ↔
      ∀ room ∈ store.getFloatingResources request.pastProgram, ∀ slots ∈ request.tsMap store,
        Available store.isFloating (EquipmentImportable store) room slots store := by
  have grouped : IsGrouped (store.getFloatingResources request.pastProgram)
      ((store.getResources request.pastProgram).filter store.isFloating) :=
    isGrouped_collapsedDict _
  refine matches_iff (fun room isRoom slots isPair => ?_) fun room isRoom slots isPair importable =>
    isAt_of_isolated grouped isRoom (fun resource isResource =>
      ⟨(mem_floating.mp isResource).1, (mem_floating.mp isResource).2.2⟩) importable.isolated
  have areRows : ∀ event ∈ room.timeslots, event ∈ store.events.rows := by
    intro event isEvent
    rcases (mem_timeslots grouped isRoom).mp isEvent with ⟨resource, isResource, _, rfl⟩
    exact linked.events resource (mem_floating.mp isResource).1
  rw [resourcesEquipmentImport, isFloatingAt_importEquipments linked.classroomType]
  refine or_congr_right ⟨?_, fun importable => ⟨importable.unnamed, room, isRoom, all room isRoom,
    rfl, slots.2, (mem_newTimeslots incomplete areRows).mpr ⟨slots, isPair, rfl,
      importable.isolated⟩, rfl⟩⟩
  rintro ⟨unnamed, other, isOther, _, sameName, timeslot, isTimeslot, sameEvent⟩
  cases List.inj_on_of_nodup_map grouped.names isOther isRoom sameName
  rcases (mem_newTimeslots incomplete areRows).mp isTimeslot with ⟨others, isOthers, rfl, isolated⟩
  rw [eq_of_mem_tsMap isOthers isPair (Or.inr sameEvent)] at isolated
  exact ⟨unnamed, isolated⟩

theorem resources_resourcesEquipmentImport_again
    (different : request.pastProgram ≠ request.program) :
    ((store.resourcesEquipmentImport request).resourcesEquipmentImport request).resources =
      (store.resourcesEquipmentImport request).resources := by
  have later : Extends {event | event ∈ store.timeSlots request.program} store
      (store.resourcesEquipmentImport request) :=
    extends_importEquipments fun room _ _ isTimeslot => mem_timeSlots_of_mem_newTimeslots isTimeslot
  have sameRooms : (store.resourcesEquipmentImport request).getFloatingResources
      request.pastProgram = store.getFloatingResources request.pastProgram := by
    rw [getFloatingResources, getFloatingResources, later.getResources different, later.isFloating]
  refine resources_importEquipments fun room isRoom imports timeslot isTimeslot => ?_
  rw [sameRooms] at isRoom
  rw [later.newTimeslots] at isTimeslot
  exact isNamedAt_importEquipments room isRoom imports timeslot isTimeslot

end Equipment

/-- An import makes classrooms, or equipment, available where they were, and nothing twice, exactly
if each of them is available as before already, or can be imported, at every pair of timeslots. -/
theorem availability_imported_iff {store : Store} {request : ImportRequest} (linked : store.Linked)
    (incomplete : request.completeAvailability = false)
    (different : request.pastProgram ≠ request.program) :
    ((∀ room ∈ store.groupedClassrooms request.pastProgram,
        request.imports room.resource = true) →
      ((store.Matches request store.isClassroom (store.groupedClassrooms request.pastProgram)
          (store.resourcesClassroomImport request) ∧
        ((store.resourcesClassroomImport request).resourcesClassroomImport request).resources =
          (store.resourcesClassroomImport request).resources) ↔
        ∀ room ∈ store.groupedClassrooms request.pastProgram, ∀ slots ∈ request.tsMap store,
          Available store.isClassroom (ClassroomImportable request store) room slots store)) ∧
    ((∀ room ∈ store.getFloatingResources request.pastProgram,
        request.imports room.resource = true) →
      ((store.Matches request store.isFloating (store.getFloatingResources request.pastProgram)
          (store.resourcesEquipmentImport request) ∧
        ((store.resourcesEquipmentImport request).resourcesEquipmentImport request).resources =
          (store.resourcesEquipmentImport request).resources) ↔
        ∀ room ∈ store.getFloatingResources request.pastProgram, ∀ slots ∈ request.tsMap store,
          Available store.isFloating (EquipmentImportable store) room slots store)) := by
  constructor
  · intro all
    rw [and_iff_left (resources_resourcesClassroomImport_again linked different)]
    exact classroomsMatch_iff linked incomplete all
  · intro all
    rw [and_iff_left (resources_resourcesEquipmentImport_again different)]
    exact equipmentMatch_iff linked incomplete all

end Store

namespace Sample

def hour : ℤ := 3600000000

def classroomType : ResourceType := { id := 1, name := "Classroom", program := none }

def projectorType : ResourceType := { id := 2, name := "Projector", program := some 1 }

/-- A class timeslot of an hour. -/
def slot (id program : ℕ) (startTime : ℤ) : Event :=
  { id, program := some program, startTime, endTime := startTime + hour, isClassTime := true }

def classroom (id group : ℕ) (event : Event) : Resource :=
  { id, name := "26-100", resType := classroomType, numStudents := 30, isUnique := true,
    user := none, event, resGroup := some group, attributeValue := "" }

def projector (id group : ℕ) (event : Event) : Resource :=
  { id, name := "Projector 1", resType := projectorType, numStudents := -1, isUnique := true,
    user := none, event, resGroup := some group, attributeValue := "HDMI" }

/-- A classroom and a projector at both slots of the past program, which are this far apart. -/
def past (apart : ℤ) : Store where
  events :=
    { rows := [slot 1 1 0, slot 2 1 apart, slot 3 2 (100 * hour), slot 4 2 (102 * hour)]
      next := 5
      ordered := by simp [Keyed.key, slot]
      below := by simp [Keyed.key, slot] }
  resourceTypes :=
    { rows := [classroomType, projectorType], next := 3, ordered := by decide, below := by decide }
  resources :=
    { rows := [classroom 1 1 (slot 1 1 0), classroom 2 2 (slot 2 1 apart),
        projector 3 3 (slot 1 1 0), projector 4 4 (slot 2 1 apart)]
      next := 5
      ordered := by simp [Keyed.key, classroom, projector]
      below := by simp [Keyed.key, classroom, projector] }
  nextGroup := 5
  assignments := { rows := [], next := 1, ordered := by decide, below := by decide }
  classroomType

/-- All rooms are imported into the program 2. -/
def importAll : ImportRequest :=
  { program := 2, pastProgram := 1, toImport := [1, 2, 3, 4], completeAvailability := false,
    importFurnishings := true }

theorem linked_past (apart : ℤ) : (past apart).Linked where
  events := by simp [past, classroom, projector]
  groups := by simp [past, classroom, projector]
  classroomType := ⟨by simp [past], rfl⟩

/-- Between the slots of the past program there is an hour. -/
theorem apart_imported :
    ((past (2 * hour)).Matches importAll (past (2 * hour)).isClassroom
        ((past (2 * hour)).groupedClassrooms 1)
        ((past (2 * hour)).resourcesClassroomImport importAll)) ∧
      (past (2 * hour)).Matches importAll (past (2 * hour)).isFloating
        ((past (2 * hour)).getFloatingResources 1)
        ((past (2 * hour)).resourcesEquipmentImport importAll) := by
  have imported := @Store.availability_imported_iff (past (2 * hour)) importAll (linked_past _) rfl
    (by decide)
  have classrooms := (imported.1 (by decide)).mpr ?_
  have equipment := (imported.2 (by decide)).mpr ?_
  · exact ⟨classrooms.1, equipment.1⟩
  · have there : ∀ room ∈ (past (2 * hour)).getFloatingResources 1,
        ∀ slots ∈ importAll.tsMap (past (2 * hour)),
          (past (2 * hour)).isAt (past (2 * hour)).isFloating room.name slots.1 = true ∧
            (past (2 * hour)).isNamedAt room.name slots.2 = false ∧ room.Isolated slots.1 := by
      decide
    intro room isRoom slots isPair
    rcases there room isRoom slots isPair with ⟨old, unnamed, isolated⟩
    rw [Store.Available, if_pos old]
    exact Or.inr ⟨unnamed, isolated⟩
  · have there : ∀ room ∈ (past (2 * hour)).groupedClassrooms 1,
        ∀ slots ∈ importAll.tsMap (past (2 * hour)),
          (past (2 * hour)).isAt (past (2 * hour)).isClassroom room.name slots.1 = true ∧
            (past (2 * hour)).isNamedAt room.name slots.2 = false ∧ room.Isolated slots.1 := by
      decide
    have single : ((past (2 * hour)).groupedClassrooms 1).length = 1 := by decide
    intro room isRoom slots isPair
    rcases there room isRoom slots isPair with ⟨old, unnamed, isolated⟩
    rw [Store.Available, if_pos old]
    refine Or.inr ⟨unnamed, isolated, fun before rest rooms other isOther => ?_⟩
    rw [show importAll.pastProgram = 1 from rfl] at rooms
    rw [rooms, List.length_append, List.length_cons] at single
    cases List.length_eq_zero_iff.mp (by omega : before.length = 0)
    cases isOther

/-- One slot of the past program follows the other, and nothing is imported at either. -/
theorem contiguous_lost :
    ¬ (past hour).Matches importAll (past hour).isClassroom ((past hour).groupedClassrooms 1)
        ((past hour).resourcesClassroomImport importAll) ∧
      ¬ (past hour).Matches importAll (past hour).isFloating ((past hour).getFloatingResources 1)
        ((past hour).resourcesEquipmentImport importAll) := by
  unfold Store.Matches
  decide

end Sample

end EspWebsite.Rooms
