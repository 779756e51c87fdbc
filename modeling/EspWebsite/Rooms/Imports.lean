import EspWebsite.Rooms.DataModel

/-!
# Imports of rooms and equipment

`resources_classroom_import`, `furnishings_import` and `resources_equipment_import` of
`program/modules/handlers/resourcemodule.py`, in save mode.
-/

namespace EspWebsite.Rooms

open Tables

/-- The part of a POST that says what is imported into a program. -/
structure ImportRequest where
  program : ℕ
  pastProgram : ℕ
  toImport : List ℕ
  completeAvailability : Bool
  importFurnishings : Bool

namespace ImportRequest

variable (request : ImportRequest)

/-- `str(resource.id) in to_import`. -/
def imports (resource : Resource) : Bool := resource.id ∈ request.toImport

/-- `ts_map`: the class timeslots of both programs, in pairs. -/
def tsMap (store : Store) : List (Event × Event) :=
  (store.timeSlots request.pastProgram).zip (store.timeSlots request.program)

/-- The new timeslot for an event of the past program, if the event is a row. -/
def newTimeslot (store : Store) (event : Cal.Event) : Option Event :=
  ((request.tsMap store).find? fun slots => some slots.1.id = event.id).map Prod.snd

/-- The timeslots of a room of the past program in the new one. -/
def newTimeslots (store : Store) (room : Room) : List Event :=
  if request.completeAvailability then store.timeSlots request.program
  else room.timegroup.filterMap (request.newTimeslot store)

end ImportRequest

namespace Store

def isNamedAt (store : Store) (name : String) (event : Event) : Bool :=
  store.resources.rows.any fun resource => resource.name = name ∧ resource.event.id = event.id

/-- Whether one has a value of its attribute, too. -/
def isNamedWith (store : Store) (name : String) (event : Event) (attributeValue : String) : Bool :=
  store.resources.rows.any fun resource => resource.name = name ∧ resource.event.id = event.id ∧
    resource.attributeValue = attributeValue

def newResourceType (type : ResourceType) (program id : ℕ) : ResourceType :=
  { id, name := type.name, program := some program }

theorem id_newResourceType (type : ResourceType) (program id : ℕ) :
    (newResourceType type program id).id = id := rfl

def typesNamed (store : Store) (type : ResourceType) (program : ℕ) : List ResourceType :=
  store.resourceTypes.rows.filter fun other => other.name = type.name ∧ other.program = some program

/-- The type of a program with the name of a type, which is created if there is none. -/
def ensureType (store : Store) (type : ResourceType) (program : ℕ) : ResourceType × Store :=
  match store.typesNamed type program with
  | found :: _ => (found, store)
  | [] =>
      (newResourceType type program store.resourceTypes.next,
        { store with
          resourceTypes := store.resourceTypes.create (newResourceType type program)
            (id_newResourceType type program) })

/-- Saves a resource, unless one with its name is there at its event.  It only has a group once
it is saved. -/
def saveIfNew (store : Store) (fields : ResourceFields) (imports : Bool) : Option ℕ × Store :=
  if !store.isNamedAt fields.name fields.event && imports then
    let (saved, store) := store.saveNew fields
    (saved.resGroup, store)
  else (fields.resGroup, store)

def newClassroom (resource : Resource) (timeslot : Event) : ResourceFields :=
  { name := resource.name, resType := resource.resType, numStudents := resource.numStudents,
    isUnique := resource.isUnique, user := resource.user, event := timeslot, resGroup := none,
    attributeValue := "" }

/-- The loop body of `furnishings_import`. -/
def importFurnishing (imports : Bool) (program : ℕ) (timeslot : Event) (resGroup : Option ℕ)
    (store : Store) (furnishing : Resource) : Store :=
  let (newResType, store) := store.ensureType furnishing.resType program
  if !store.isNamedWith furnishing.name timeslot furnishing.attributeValue && imports then
    (store.saveNew
      { name := furnishing.name, resType := newResType, numStudents := -1, isUnique := false,
        user := none, event := timeslot, resGroup, attributeValue := furnishing.attributeValue }).2
  else store

def furnishingsImport (imports : Bool) (program : ℕ) (timeslot : Event) (resGroup : Option ℕ)
    (store : Store) (oldRes : Resource) : Store :=
  (store.associatedResources oldRes).foldl
    (importFurnishing imports program timeslot resGroup) store

/-- Imports a classroom at a timeslot, with its furnishings if they are asked for. -/
def importClassroom (request : ImportRequest) (store : Store) (step : Resource × Event) : Store :=
  let imports := request.imports step.1
  let (resGroup, store) := store.saveIfNew (newClassroom step.1 step.2) imports
  if request.importFurnishings then
    store.furnishingsImport imports request.program step.2 resGroup step.1
  else store

/-- The classrooms to be imported and the timeslots at which they are. -/
def classroomSteps (request : ImportRequest) (store : Store) : List (Resource × Event) :=
  (store.groupedClassrooms request.pastProgram).flatMap fun room =>
    (request.newTimeslots store room).map fun timeslot => (room.resource, timeslot)

def resourcesClassroomImport (request : ImportRequest) (store : Store) : Store :=
  (store.classroomSteps request).foldl (importClassroom request) store

/-- The part of the import of equipment, without complete availability, for one room of it. -/
def importEquipment (request : ImportRequest) (slots : Room → List Event) (store : Store)
    (equipment : Room) : Store :=
  let imports := request.imports equipment.resource
  let (newResType, withType) := store.ensureType equipment.resource.resType request.program
  (slots equipment).foldl
    (fun store timeslot => (store.saveIfNew
      { name := equipment.name, resType := newResType, numStudents := -1, isUnique := false,
        user := equipment.resource.user, event := timeslot, resGroup := none,
        attributeValue := equipment.resource.attributeValue } imports).2)
    (if imports then withType else store)

/-- `resources_equipment_import`, without complete availability. -/
def resourcesEquipmentImport (request : ImportRequest) (store : Store) : Store :=
  (store.getFloatingResources request.pastProgram).foldl
    (importEquipment request (request.newTimeslots store)) store

end Store

/-! ## What an import adds -/

namespace Store

variable {store between after : Store} {fields : ResourceFields} {name : String} {event : Event}
  {kind : Resource → Bool} {resource : Resource} {slots : Set Event}

/-- A store with further resources at some events, in new groups, and further types. -/
structure Extends (slots : Set Event) (store after : Store) : Prop where
  events : after.events = store.events
  classroomType : after.classroomType = store.classroomType
  assignments : after.assignments = store.assignments
  nextGroup : store.nextGroup ≤ after.nextGroup
  resources : ∃ new, after.resources.rows = store.resources.rows ++ new ∧ ∀ resource ∈ new,
    resource.event ∈ slots ∧ store.resources.next ≤ resource.id ∧
      ∃ group, resource.resGroup = some group ∧ store.nextGroup ≤ group ∧ group < after.nextGroup
  nextResource : store.resources.next ≤ after.resources.next
  resourceTypes : store.resourceTypes.rows <+: after.resourceTypes.rows

theorem extends_refl (slots : Set Event) (store : Store) : Extends slots store store where
  events := rfl
  classroomType := rfl
  assignments := rfl
  nextGroup := le_rfl
  resources := ⟨[], (List.append_nil _).symm, by simp⟩
  nextResource := le_rfl
  resourceTypes := List.prefix_rfl

theorem Extends.trans (first : Extends slots store between) (second : Extends slots between after) :
    Extends slots store after where
  events := second.events.trans first.events
  classroomType := second.classroomType.trans first.classroomType
  assignments := second.assignments.trans first.assignments
  nextGroup := first.nextGroup.trans second.nextGroup
  resources := by
    rcases first.resources with ⟨new, isNew, groups⟩
    rcases second.resources with ⟨newer, isNewer, newerGroups⟩
    refine ⟨new ++ newer, by rw [isNewer, isNew, List.append_assoc], fun resource isAdded => ?_⟩
    rcases List.mem_append.mp isAdded with isFirst | isSecond
    · rcases groups resource isFirst with ⟨isSlot, fresh, group, isGroup, above, below⟩
      exact ⟨isSlot, fresh, group, isGroup, above, below.trans_le second.nextGroup⟩
    · rcases newerGroups resource isSecond with ⟨isSlot, fresh, group, isGroup, above, below⟩
      exact ⟨isSlot, first.nextResource.trans fresh, group, isGroup, first.nextGroup.trans above, below⟩
  nextResource := first.nextResource.trans second.nextResource
  resourceTypes := first.resourceTypes.trans second.resourceTypes

theorem Extends.mem (later : Extends slots store after) (isRow : resource ∈ store.resources.rows) :
    resource ∈ after.resources.rows := by
  rcases later.resources with ⟨new, isNew, _⟩
  rw [isNew]
  exact List.mem_append_left _ isRow

theorem extends_foldl {Item : Type} {body : Store → Item → Store} {items : List Item}
    (each : ∀ item ∈ items, ∀ store, Extends slots store (body store item)) :
    Extends slots store (items.foldl body store) := by
  induction items generalizing store with
  | nil => exact extends_refl slots store
  | cons item rest ih =>
      rw [List.forall_mem_cons] at each
      exact (each.1 store).trans (ih each.2)

/-- The type of classrooms is a row, and belongs to no program. -/
structure HasClassroomType (store : Store) : Prop where
  isRow : store.classroomType ∈ store.resourceTypes.rows
  global : store.classroomType.program = none

theorem Extends.hasClassroomType (later : Extends slots store after)
    (hasType : store.HasClassroomType) : after.HasClassroomType where
  isRow := by
    rw [later.classroomType]
    exact later.resourceTypes.subset hasType.isRow
  global := by
    rw [later.classroomType]
    exact hasType.global

theorem resGroup_inGroup {newGroup : ℕ} :
    (fields.inGroup newGroup).resGroup = some (fields.resGroup.getD newGroup) := by
  rw [ResourceFields.inGroup]
  split
  next isGroup => rw [isGroup, Option.getD_some]
  next isGroup => rw [isGroup, Option.getD_none]

theorem event_inGroup {newGroup : ℕ} : (fields.inGroup newGroup).event = fields.event := by
  rw [ResourceFields.inGroup]
  split
  next => rfl
  next => rfl

theorem name_inGroup {newGroup : ℕ} : (fields.inGroup newGroup).name = fields.name := by
  rw [ResourceFields.inGroup]
  split
  next => rfl
  next => rfl

theorem resType_inGroup {newGroup : ℕ} : (fields.inGroup newGroup).resType = fields.resType := by
  rw [ResourceFields.inGroup]
  split
  next => rfl
  next => rfl

theorem attributeValue_inGroup {newGroup : ℕ} :
    (fields.inGroup newGroup).attributeValue = fields.attributeValue := by
  rw [ResourceFields.inGroup]
  split
  next => rfl
  next => rfl

theorem rows_saveNew : (store.saveNew fields).2.resources.rows =
    store.resources.rows ++ [(store.saveNew fields).1] := rfl

theorem extends_saveNew (isSlot : fields.event ∈ slots)
    (known : ∀ group ∈ fields.resGroup, between.nextGroup ≤ group ∧ group < store.nextGroup)
    (later : Extends slots between store) : Extends slots between (store.saveNew fields).2 where
  events := later.events
  classroomType := later.classroomType
  assignments := later.assignments
  nextGroup := by
    have grows := later.nextGroup
    change between.nextGroup ≤ if fields.resGroup = none then _ else _
    split
    next => omega
    next => exact grows
  resources := by
    rcases later.resources with ⟨new, isNew, groups⟩
    have grows : store.nextGroup ≤ (store.saveNew fields).2.nextGroup := by
      change store.nextGroup ≤ if fields.resGroup = none then _ else _
      split
      next => omega
      next => exact le_rfl
    refine ⟨new ++ [(store.saveNew fields).1], by rw [rows_saveNew, isNew, List.append_assoc], ?_⟩
    intro resource isAdded
    rcases List.mem_append.mp isAdded with isOld | isSaved
    · rcases groups resource isOld with ⟨isSlot, fresh, group, isGroup, above, below⟩
      exact ⟨isSlot, fresh, group, isGroup, above, below.trans_le grows⟩
    · cases List.mem_singleton.mp isSaved
      have sameEvent : (store.saveNew fields).1.event = fields.event := event_inGroup
      refine ⟨by rw [sameEvent]; exact isSlot, later.nextResource, _, resGroup_inGroup, ?_⟩
      cases isGroup : fields.resGroup with
      | none =>
          refine ⟨later.nextGroup, ?_⟩
          change store.nextGroup < if fields.resGroup = none then _ else _
          rw [if_pos isGroup]
          exact Nat.lt_succ_self _
      | some group =>
          rcases known group isGroup with ⟨above, below⟩
          exact ⟨above, below.trans_le grows⟩
  nextResource := later.nextResource.trans (Nat.le_succ _)
  resourceTypes := later.resourceTypes

/-- Whether a resource of a kind with a name is there at an event. -/
def isAt (store : Store) (kind : Resource → Bool) (name : String) (event : Event) : Bool :=
  store.resources.rows.any fun resource =>
    kind resource ∧ resource.name = name ∧ resource.event.id = event.id

theorem isAt_iff : store.isAt kind name event = true ↔
    ∃ resource ∈ store.resources.rows, kind resource = true ∧ resource.name = name ∧
      resource.event.id = event.id := by
  rw [isAt, List.any_eq_true]
  simp only [decide_eq_true_eq]

theorem isNamedAt_eq : store.isNamedAt name event = store.isAt (fun _ => true) name event := by
  simp [isNamedAt, isAt]

theorem Extends.isAt (later : Extends slots store after) (isAt : store.isAt kind name event = true) :
    after.isAt kind name event = true := by
  rcases isAt_iff.mp isAt with ⟨resource, isRow, isThere⟩
  exact isAt_iff.mpr ⟨resource, later.mem isRow, isThere⟩

theorem isAt_saveNew : (store.saveNew fields).2.isAt kind name event = true ↔
    store.isAt kind name event = true ∨
      kind (store.saveNew fields).1 = true ∧ fields.name = name ∧ fields.event.id = event.id := by
  have sameName : (store.saveNew fields).1.name = fields.name := name_inGroup
  have sameEvent : (store.saveNew fields).1.event = fields.event := event_inGroup
  rw [isAt_iff, isAt_iff, rows_saveNew]
  simp only [List.mem_append, List.mem_singleton, or_and_right, exists_or, exists_eq_left, sameName,
    sameEvent]

theorem isAt_saveIfNew {imports : Bool} :
    (store.saveIfNew fields imports).2.isAt kind name event = true ↔
      store.isAt kind name event = true ∨
        (store.isNamedAt fields.name fields.event = false ∧ imports = true) ∧
          kind (store.saveNew fields).1 = true ∧ fields.name = name ∧
            fields.event.id = event.id := by
  rw [saveIfNew]
  split
  next saves =>
    rw [Bool.and_eq_true, Bool.not_eq_true'] at saves
    rw [isAt_saveNew, and_iff_right saves]
  next spared =>
    rw [Bool.and_eq_true, Bool.not_eq_true'] at spared
    rw [or_iff_left fun both => spared both.1]

theorem isNamedAt_saveIfNew {imports : Bool} :
    (store.saveIfNew fields imports).2.isNamedAt name event = true ↔
      store.isNamedAt name event = true ∨
        imports = true ∧ fields.name = name ∧ fields.event.id = event.id := by
  simp only [isNamedAt_eq, isAt_saveIfNew]
  constructor
  · rintro (isThere | ⟨⟨_, imports⟩, _, both⟩)
    · exact Or.inl isThere
    · exact Or.inr ⟨imports, both⟩
  · rintro (isThere | ⟨imports, sameName, sameEvent⟩)
    · exact Or.inl isThere
    · cases isNamed : store.isAt (fun _ => true) fields.name fields.event with
      | false => exact Or.inr ⟨⟨rfl, imports⟩, trivial, sameName, sameEvent⟩
      | true =>
          left
          rcases isAt_iff.mp isNamed with ⟨resource, isRow, _, isName, isEvent⟩
          exact isAt_iff.mpr ⟨resource, isRow, rfl, isName.trans sameName, isEvent.trans sameEvent⟩

theorem extends_saveIfNew {imports : Bool} (isSlot : fields.event ∈ slots)
    (isNew : fields.resGroup = none) (later : Extends slots between store) :
    Extends slots between (store.saveIfNew fields imports).2 ∧
      ∀ group ∈ (store.saveIfNew fields imports).1,
        between.nextGroup ≤ group ∧ group < (store.saveIfNew fields imports).2.nextGroup := by
  rw [saveIfNew]
  split
  next =>
    refine ⟨extends_saveNew isSlot (by simp [isNew]) later, fun group isGroup => ?_⟩
    have isNext : (store.saveNew fields).1.resGroup = some (fields.resGroup.getD store.nextGroup) :=
      resGroup_inGroup
    rw [isNew, Option.getD_none] at isNext
    cases isNext.symm.trans isGroup
    refine ⟨later.nextGroup, ?_⟩
    change store.nextGroup < if fields.resGroup = none then _ else _
    rw [if_pos isNew]
    exact Nat.lt_succ_self _
  next =>
    refine ⟨later, fun group isGroup => ?_⟩
    cases isNew.symm.trans isGroup

/-! ### Types -/

section Types

variable {type : ResourceType} {program : ℕ}

theorem resources_ensureType : (store.ensureType type program).2.resources = store.resources := by
  rw [ensureType]
  split
  next => rfl
  next => rfl

theorem extends_ensureType (later : Extends slots between store) :
    Extends slots between (store.ensureType type program).2 ∧
      store.nextGroup = (store.ensureType type program).2.nextGroup := by
  rw [ensureType]
  split
  next => exact ⟨later, rfl⟩
  next =>
    exact ⟨{ later with
      resourceTypes := later.resourceTypes.trans (List.prefix_append _ _) }, rfl⟩

theorem ensureType_ne (hasType : store.HasClassroomType) :
    (store.ensureType type program).1.id ≠ store.classroomType.id := by
  rw [ensureType]
  split
  next found rest isFound =>
    have isType : found ∈ store.typesNamed type program := by
      rw [isFound]
      exact List.mem_cons_self
    rw [typesNamed, List.mem_filter, decide_eq_true_eq] at isType
    intro same
    have isClassroom := Table.eq_of_key_eq isType.1 hasType.isRow same
    rw [isClassroom, hasType.global] at isType
    cases isType.2.2
  next =>
    exact (store.resourceTypes.below store.classroomType hasType.isRow).ne'

end Types

/-! ### Furnishings -/

section Furnishings

variable {furnishing oldRes : Resource} {furnishings : List Resource} {imports : Bool}
  {program : ℕ} {timeslot : Event} {resGroup : Option ℕ}

def newFurnishing (store : Store) (program : ℕ) (timeslot : Event) (resGroup : Option ℕ)
    (furnishing : Resource) : ResourceFields :=
  { name := furnishing.name, resType := (store.ensureType furnishing.resType program).1,
    numStudents := -1, isUnique := false, user := none, event := timeslot, resGroup,
    attributeValue := furnishing.attributeValue }

theorem isNamedWith_iff {attributeValue : String} :
    store.isNamedWith name event attributeValue = true ↔ ∃ resource ∈ store.resources.rows,
      resource.name = name ∧ resource.event.id = event.id ∧
        resource.attributeValue = attributeValue := by
  rw [isNamedWith, List.any_eq_true]
  simp only [decide_eq_true_eq]

theorem importFurnishing_eq : store.importFurnishing imports program timeslot resGroup furnishing =
    if !store.isNamedWith furnishing.name timeslot furnishing.attributeValue && imports then
      ((store.ensureType furnishing.resType program).2.saveNew
        (store.newFurnishing program timeslot resGroup furnishing)).2
    else (store.ensureType furnishing.resType program).2 := by
  have same : (store.ensureType furnishing.resType program).2.isNamedWith furnishing.name timeslot
      furnishing.attributeValue =
        store.isNamedWith furnishing.name timeslot furnishing.attributeValue := by
    rw [isNamedWith, isNamedWith, resources_ensureType]
  rw [importFurnishing, ← same]
  rfl

theorem nextGroup_importFurnishing : store.nextGroup ≤
    (store.importFurnishing imports program timeslot resGroup furnishing).nextGroup := by
  have sameNext := (@extends_ensureType store store Set.univ furnishing.resType program
    (extends_refl Set.univ store)).2
  rw [importFurnishing_eq, sameNext]
  split
  next =>
    change _ ≤ if resGroup = none then _ else _
    split
    next => exact Nat.le_succ _
    next => exact le_rfl
  next => exact le_rfl

theorem extends_importFurnishing (isSlot : timeslot ∈ slots) (later : Extends slots between store)
    (known : ∀ group ∈ resGroup, between.nextGroup ≤ group ∧ group < store.nextGroup) :
    Extends slots between (store.importFurnishing imports program timeslot resGroup furnishing) := by
  rcases @extends_ensureType store between slots furnishing.resType program later with
    ⟨types, sameNext⟩
  rw [importFurnishing_eq]
  split
  next =>
    refine extends_saveNew isSlot (fun group isGroup => ?_) types
    rw [← sameNext]
    exact known group isGroup
  next => exact types

theorem isAt_importFurnishing (notKind : kind ((store.ensureType furnishing.resType program).2.saveNew
      (store.newFurnishing program timeslot resGroup furnishing)).1 = false) :
    (store.importFurnishing imports program timeslot resGroup furnishing).isAt kind name event =
      store.isAt kind name event := by
  have types : (store.ensureType furnishing.resType program).2.isAt kind name event =
      store.isAt kind name event := by
    rw [isAt, isAt, resources_ensureType]
  rw [importFurnishing_eq]
  split
  next =>
    rw [Bool.eq_iff_iff, isAt_saveNew, types, notKind]
    simp
  next => exact types

theorem isNamedAt_importFurnishing :
    (store.importFurnishing imports program timeslot resGroup furnishing).isNamedAt name event =
        true ↔
      store.isNamedAt name event = true ∨
        imports = true ∧ furnishing.name = name ∧ timeslot.id = event.id := by
  have types : (store.ensureType furnishing.resType program).2.isNamedAt name event =
      store.isNamedAt name event := by
    rw [isNamedAt, isNamedAt, resources_ensureType]
  rw [importFurnishing_eq]
  split
  next saves =>
    rw [Bool.and_eq_true] at saves
    rw [isNamedAt_eq, isAt_saveNew, ← isNamedAt_eq, types, and_iff_right saves.2]
    exact or_congr_right (and_iff_right rfl)
  next spared =>
    rw [types]
    refine ⟨Or.inl, ?_⟩
    rintro (isThere | ⟨imports, sameName, sameEvent⟩)
    · exact isThere
    · rw [imports, Bool.and_true, Bool.not_eq_true', Bool.not_eq_false, isNamedWith_iff] at spared
      rcases spared with ⟨resource, isRow, isName, isEvent, _⟩
      rw [isNamedAt_eq]
      exact isAt_iff.mpr ⟨resource, isRow, rfl, isName.trans sameName, isEvent.trans sameEvent⟩

theorem isNamedWith_importFurnishing (chosen : imports = true) :
    (store.importFurnishing imports program timeslot resGroup furnishing).isNamedWith
      furnishing.name timeslot furnishing.attributeValue = true := by
  rw [importFurnishing_eq]
  split
  next =>
    rw [isNamedWith_iff]
    refine ⟨_, List.mem_append_right _ List.mem_cons_self, name_inGroup, ?_,
      attributeValue_inGroup⟩
    exact congrArg Event.id event_inGroup
  next spared =>
    rw [chosen, Bool.and_true, Bool.not_eq_true', Bool.not_eq_false, isNamedWith_iff] at spared
    rw [isNamedWith_iff, resources_ensureType]
    exact spared

theorem resources_importFurnishing (isThere : imports = true →
      store.isNamedWith furnishing.name timeslot furnishing.attributeValue = true) :
    (store.importFurnishing imports program timeslot resGroup furnishing).resources =
      store.resources := by
  rw [importFurnishing_eq, if_neg, resources_ensureType]
  intro saves
  rw [Bool.and_eq_true, Bool.not_eq_true'] at saves
  rw [isThere saves.2] at saves
  cases saves.1

theorem extends_importFurnishings (isSlot : timeslot ∈ slots) (later : Extends slots between store)
    (known : ∀ group ∈ resGroup, between.nextGroup ≤ group ∧ group < store.nextGroup) :
    Extends slots between
      (furnishings.foldl (importFurnishing imports program timeslot resGroup) store) := by
  induction furnishings generalizing store with
  | nil => exact later
  | cons furnishing rest ih =>
      exact ih (extends_importFurnishing isSlot later known) fun group isGroup =>
        ⟨(known group isGroup).1, (known group isGroup).2.trans_le nextGroup_importFurnishing⟩

theorem isNamedAt_importFurnishings :
    (furnishings.foldl (importFurnishing imports program timeslot resGroup) store).isNamedAt name
        event = true ↔
      store.isNamedAt name event = true ∨ imports = true ∧ timeslot.id = event.id ∧
        ∃ furnishing ∈ furnishings, furnishing.name = name := by
  induction furnishings generalizing store with
  | nil => simp
  | cons furnishing rest ih =>
      rw [List.foldl_cons, ih, isNamedAt_importFurnishing, List.exists_mem_cons_iff]
      constructor
      · rintro ((isThere | ⟨imports, sameName, sameEvent⟩) | ⟨imports, sameEvent, isLater⟩)
        · exact Or.inl isThere
        · exact Or.inr ⟨imports, sameEvent, Or.inl sameName⟩
        · exact Or.inr ⟨imports, sameEvent, Or.inr isLater⟩
      · rintro (isThere | ⟨imports, sameEvent, sameName | isLater⟩)
        · exact Or.inl (Or.inl isThere)
        · exact Or.inl (Or.inr ⟨imports, sameName, sameEvent⟩)
        · exact Or.inr ⟨imports, sameEvent, isLater⟩

theorem isNamedWith_importFurnishings (isFurnishing : furnishing ∈ furnishings) :
    (furnishings.foldl (importFurnishing true program timeslot resGroup) store).isNamedWith
      furnishing.name timeslot furnishing.attributeValue = true := by
  have stays (rest : List Resource) (store : Store)
      (isThere : store.isNamedWith furnishing.name timeslot furnishing.attributeValue = true) :
      (rest.foldl (importFurnishing true program timeslot resGroup) store).isNamedWith
        furnishing.name timeslot furnishing.attributeValue = true := by
    induction rest generalizing store with
    | nil => exact isThere
    | cons other rest ih =>
        refine ih _ ?_
        rw [importFurnishing_eq]
        rcases isNamedWith_iff.mp isThere with ⟨resource, isRow, both⟩
        have isRow' : resource ∈ (store.ensureType other.resType program).2.resources.rows := by
          rw [resources_ensureType]
          exact isRow
        split
        next =>
          exact isNamedWith_iff.mpr ⟨resource, List.mem_append_left _ isRow', both⟩
        next => exact isNamedWith_iff.mpr ⟨resource, isRow', both⟩
  induction furnishings generalizing store with
  | nil => cases isFurnishing
  | cons other rest ih =>
      rcases List.mem_cons.mp isFurnishing with rfl | isRest
      · exact stays rest _ (isNamedWith_importFurnishing rfl)
      · exact ih isRest

theorem resources_importFurnishings (areThere : imports = true → ∀ furnishing ∈ furnishings,
      store.isNamedWith furnishing.name timeslot furnishing.attributeValue = true) :
    (furnishings.foldl (importFurnishing imports program timeslot resGroup) store).resources =
      store.resources := by
  induction furnishings generalizing store with
  | nil => rfl
  | cons furnishing rest ih =>
      have first := @resources_importFurnishing store furnishing imports program timeslot resGroup
        fun imports => areThere imports furnishing List.mem_cons_self
      rw [List.foldl_cons, ih, first]
      intro imports other isOther
      have isThere := areThere imports other (List.mem_cons_of_mem _ isOther)
      rw [isNamedWith] at isThere ⊢
      rw [first]
      exact isThere

theorem Extends.isClassroom (later : Extends slots store after) :
    after.isClassroom = store.isClassroom := by
  funext resource
  rw [Store.isClassroom, Store.isClassroom, later.classroomType]

theorem classroomType_importFurnishing (hasType : store.HasClassroomType) :
    (store.importFurnishing imports program timeslot resGroup furnishing).HasClassroomType ∧
      (store.importFurnishing imports program timeslot resGroup furnishing).isClassroom =
        store.isClassroom := by
  have later := (@extends_ensureType store store Set.univ furnishing.resType program
    (extends_refl Set.univ store)).1
  have types : (store.importFurnishing imports program timeslot resGroup furnishing).classroomType =
        store.classroomType ∧
      store.resourceTypes.rows <+: (store.importFurnishing imports program timeslot resGroup
        furnishing).resourceTypes.rows := by
    rw [importFurnishing_eq]
    split
    next => exact ⟨later.classroomType, later.resourceTypes⟩
    next => exact ⟨later.classroomType, later.resourceTypes⟩
  refine ⟨⟨?_, ?_⟩, ?_⟩
  · rw [types.1]
    exact types.2.subset hasType.isRow
  · rw [types.1]
    exact hasType.global
  · funext resource
    rw [isClassroom, isClassroom, types.1]

theorem isClassroom_newFurnishing (hasType : store.HasClassroomType) :
    store.isClassroom ((store.ensureType furnishing.resType program).2.saveNew
      (store.newFurnishing program timeslot resGroup furnishing)).1 = false := by
  have isType : ((store.ensureType furnishing.resType program).2.saveNew
      (store.newFurnishing program timeslot resGroup furnishing)).1.resType =
        (store.ensureType furnishing.resType program).1 := resType_inGroup
  rw [isClassroom, isType, decide_eq_false_iff_not]
  exact ensureType_ne hasType

theorem isClassroomAt_importFurnishings (hasType : store.HasClassroomType) :
    (furnishings.foldl (importFurnishing imports program timeslot resGroup) store).isAt
      store.isClassroom name event = store.isAt store.isClassroom name event := by
  induction furnishings generalizing store with
  | nil => rfl
  | cons furnishing rest ih =>
      rcases @classroomType_importFurnishing store furnishing imports program timeslot resGroup
        hasType with ⟨stillType, sameKind⟩
      have rest := ih stillType
      rw [sameKind] at rest
      rw [List.foldl_cons, rest, isAt_importFurnishing (isClassroom_newFurnishing hasType)]

/-- The furnishings of a resource stay the same: what is added has other groups. -/
theorem Extends.associatedResources (later : Extends slots store after)
    (known : ∀ group ∈ resource.resGroup, group < store.nextGroup) :
    after.associatedResources resource = store.associatedResources resource := by
  rcases later.resources with ⟨new, isNew, groups⟩
  rw [Store.associatedResources, Store.associatedResources, isNew, List.filter_append]
  refine (congrArg (_ ++ ·) (List.filter_eq_nil_iff.mpr fun other isOther => ?_)).trans
    (List.append_nil _)
  rw [decide_eq_true_eq, Resource.groups]
  rintro ⟨grouped, different, _⟩
  cases isGroup : resource.resGroup with
  | none =>
      rw [isGroup] at grouped
      exact different (of_decide_eq_true grouped)
  | some group =>
      rw [isGroup] at grouped
      rcases groups other isOther with ⟨_, _, newGroup, isNewGroup, above, _⟩
      have same := (of_decide_eq_true grouped).symm.trans isNewGroup
      cases same
      exact absurd (known group isGroup) above.not_gt

end Furnishings

/-! ### Classrooms -/

section Classrooms

variable {request : ImportRequest} {oldRes : Resource} {timeslot : Event} {furnishing : Resource}

theorem importClassroom_eq : store.importClassroom request (oldRes, timeslot) =
    if request.importFurnishings then
      ((store.saveIfNew (newClassroom oldRes timeslot)
          (request.imports oldRes)).2.associatedResources oldRes).foldl
        (importFurnishing (request.imports oldRes) request.program timeslot
          (store.saveIfNew (newClassroom oldRes timeslot) (request.imports oldRes)).1)
        (store.saveIfNew (newClassroom oldRes timeslot) (request.imports oldRes)).2
    else (store.saveIfNew (newClassroom oldRes timeslot) (request.imports oldRes)).2 := rfl

theorem extends_importClassroom (isSlot : timeslot ∈ slots) :
    Extends slots store (store.importClassroom request (oldRes, timeslot)) := by
  have fields : (newClassroom oldRes timeslot).event ∈ slots := isSlot
  rcases @extends_saveIfNew store store (newClassroom oldRes timeslot) slots
    (request.imports oldRes) fields rfl (extends_refl slots store) with ⟨later, known⟩
  rw [importClassroom_eq]
  split
  next => exact extends_importFurnishings isSlot later known
  next => exact later

def furnishingsOf (store : Store) (request : ImportRequest) (oldRes : Resource) : List Resource :=
  if request.importFurnishings then store.associatedResources oldRes else []

variable (known : ∀ group ∈ oldRes.resGroup, group < store.nextGroup)
include known

theorem importClassroom_eq_foldl : store.importClassroom request (oldRes, timeslot) =
    (store.furnishingsOf request oldRes).foldl
      (importFurnishing (request.imports oldRes) request.program timeslot
        (store.saveIfNew (newClassroom oldRes timeslot) (request.imports oldRes)).1)
      (store.saveIfNew (newClassroom oldRes timeslot) (request.imports oldRes)).2 := by
  have later := (@extends_saveIfNew store store (newClassroom oldRes timeslot) Set.univ
    (request.imports oldRes) (Set.mem_univ _) rfl (extends_refl Set.univ store)).1
  rw [importClassroom_eq, furnishingsOf]
  split
  next => rw [later.associatedResources known]
  next => rfl

theorem isNamedAt_importClassroom :
    (store.importClassroom request (oldRes, timeslot)).isNamedAt name event = true ↔
      store.isNamedAt name event = true ∨ request.imports oldRes = true ∧
        timeslot.id = event.id ∧ (oldRes.name = name ∨
          ∃ furnishing ∈ store.furnishingsOf request oldRes, furnishing.name = name) := by
  rw [importClassroom_eq_foldl known, isNamedAt_importFurnishings, isNamedAt_saveIfNew]
  have sameName : (newClassroom oldRes timeslot).name = oldRes.name := rfl
  have sameEvent : (newClassroom oldRes timeslot).event = timeslot := rfl
  rw [sameName, sameEvent]
  tauto

theorem isClassroomAt_importClassroom (hasType : store.HasClassroomType)
    (isClassroom : store.isClassroom oldRes = true) :
    (store.importClassroom request (oldRes, timeslot)).isAt store.isClassroom name event = true ↔
      store.isAt store.isClassroom name event = true ∨
        (store.isNamedAt oldRes.name timeslot = false ∧ request.imports oldRes = true) ∧
          oldRes.name = name ∧ timeslot.id = event.id := by
  have later := (@extends_saveIfNew store store (newClassroom oldRes timeslot) Set.univ
    (request.imports oldRes) (Set.mem_univ _) rfl (extends_refl Set.univ store)).1
  have isKind : store.isClassroom (store.saveNew (newClassroom oldRes timeslot)).1 = true :=
    isClassroom
  rw [importClassroom_eq_foldl known, ← later.isClassroom,
    isClassroomAt_importFurnishings (later.hasClassroomType hasType), later.isClassroom,
    isAt_saveIfNew, and_iff_right isKind]
  exact Iff.rfl

/-- Everything that is imported with a classroom is there. -/
structure Settled (request : ImportRequest) (oldRes : Resource) (timeslot : Event)
    (store : Store) : Prop where
  classroom : request.imports oldRes = true → store.isNamedAt oldRes.name timeslot = true
  furnishings : request.imports oldRes = true → ∀ furnishing ∈ store.furnishingsOf request oldRes,
    store.isNamedWith furnishing.name timeslot furnishing.attributeValue = true

theorem settled_importClassroom : Settled request oldRes timeslot
    (store.importClassroom request (oldRes, timeslot)) where
  classroom := by
    intro imports
    exact (isNamedAt_importClassroom known).mpr (Or.inr ⟨imports, rfl, Or.inl rfl⟩)
  furnishings := by
    intro imports furnishing isFurnishing
    have later := @extends_importClassroom store Set.univ request oldRes timeslot (Set.mem_univ _)
    rw [furnishingsOf, later.associatedResources known] at isFurnishing
    rw [importClassroom_eq_foldl known, imports]
    exact isNamedWith_importFurnishings isFurnishing

omit known

theorem Settled.congr (settled : Settled request oldRes timeslot store)
    (same : after.resources = store.resources) : Settled request oldRes timeslot after where
  classroom := by
    rw [isNamedAt, same]
    exact settled.classroom
  furnishings := by
    have furnishings : after.furnishingsOf request oldRes = store.furnishingsOf request oldRes := by
      rw [furnishingsOf, furnishingsOf, associatedResources, associatedResources, same]
    rw [furnishings]
    simp only [isNamedWith, same]
    exact settled.furnishings

theorem Settled.mono (settled : Settled request oldRes timeslot store)
    (later : Extends slots store after)
    (known : ∀ group ∈ oldRes.resGroup, group < store.nextGroup) :
    Settled request oldRes timeslot after where
  classroom := by
    intro imports
    have isThere := settled.classroom imports
    rw [isNamedAt_eq] at isThere ⊢
    exact later.isAt isThere
  furnishings := by
    intro imports furnishing isFurnishing
    rw [furnishingsOf, later.associatedResources known] at isFurnishing
    rcases isNamedWith_iff.mp (settled.furnishings imports furnishing isFurnishing) with
      ⟨resource, isRow, isThere⟩
    exact isNamedWith_iff.mpr ⟨resource, later.mem isRow, isThere⟩

theorem resources_importClassroom (settled : Settled request oldRes timeslot store) :
    (store.importClassroom request (oldRes, timeslot)).resources = store.resources := by
  have saves : (store.saveIfNew (newClassroom oldRes timeslot) (request.imports oldRes)).2 =
      store := by
    rw [saveIfNew, if_neg]
    intro saves
    rw [Bool.and_eq_true, Bool.not_eq_true'] at saves
    have isThere : store.isNamedAt (newClassroom oldRes timeslot).name
        (newClassroom oldRes timeslot).event = true := settled.classroom saves.2
    rw [isThere] at saves
    cases saves.1
  rw [importClassroom_eq, saves]
  split
  next asked =>
    refine resources_importFurnishings fun imports furnishing isFurnishing => ?_
    refine settled.furnishings imports furnishing ?_
    rw [furnishingsOf, if_pos asked]
    exact isFurnishing
  next => rfl

end Classrooms

end Store

end EspWebsite.Rooms
