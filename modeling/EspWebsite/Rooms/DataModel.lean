import EspWebsite.Cal.Collapse
import EspWebsite.Library.Tables

/-!
# Rooms and equipment

The rows of `resources/models.py` for the rooms and the floating equipment of programs, and the
methods of `Resource` and `Program` that read them.
-/

namespace EspWebsite.Rooms

open Tables

/-- A row of `Event`.  `isClassTime` tells whether its type is the class time block. -/
structure Event where
  id : ℕ
  program : Option ℕ
  startTime : DateTime
  endTime : DateTime
  isClassTime : Bool
  deriving DecidableEq

structure ResourceType where
  id : ℕ
  name : String
  program : Option ℕ
  deriving DecidableEq

structure ResourceFields where
  name : String
  resType : ResourceType
  numStudents : ℤ
  isUnique : Bool
  user : Option ℕ
  event : Event
  resGroup : Option ℕ
  attributeValue : String
  deriving DecidableEq

/-- A row of `Resource`. -/
structure Resource extends ResourceFields where
  id : ℕ
  deriving DecidableEq

/-- A row of `ResourceAssignment`: a resource, and the section that has it. -/
structure ResourceAssignment where
  id : ℕ
  resource : ℕ
  target : Option ℕ
  deriving DecidableEq

instance : Keyed Event := ⟨Event.id⟩
instance : Keyed ResourceType := ⟨ResourceType.id⟩
instance : Keyed Resource := ⟨Resource.id⟩
instance : Keyed ResourceAssignment := ⟨ResourceAssignment.id⟩

/-- The tables.  Of the resource groups there is only the next id, and `classroomType` is what
`ResourceType.get_or_create('Classroom')` has found. -/
structure Store where
  events : Table Event
  resourceTypes : Table ResourceType
  resources : Table Resource
  nextGroup : ℕ
  assignments : Table ResourceAssignment
  classroomType : ResourceType

def Event.toCal (event : Event) : Cal.Event := ⟨some event.id, event.startTime, event.endTime⟩

/-- The default tolerance of `collapse`, in microseconds. -/
def minute : ℤ := 60000000

/-- A resource in a group of its own, unless it has one. -/
def ResourceFields.inGroup (fields : ResourceFields) (newGroup : ℕ) : ResourceFields :=
  match fields.resGroup with
  | some _ => fields
  | none => { fields with resGroup := some newGroup, isUnique := true }

def Resource.ofFields (fields : ResourceFields) (id : ℕ) : Resource := { fields with id }

theorem Resource.id_ofFields (fields : ResourceFields) (id : ℕ) :
    (Resource.ofFields fields id).id = id := rfl

/-- Whether a resource is one of the `grouped_resources` of another. -/
def Resource.groups (resource other : Resource) : Bool :=
  match resource.resGroup with
  | none => other.id = resource.id
  | some group => other.resGroup = some group

namespace Store

variable (store : Store)

/-- `save` of a new resource: the row, and the tables with it. -/
def saveNew (fields : ResourceFields) : Resource × Store :=
  let saved := fields.inGroup store.nextGroup
  (Resource.ofFields saved store.resources.next,
    { store with
      resources := store.resources.create (Resource.ofFields saved) (Resource.id_ofFields saved)
      nextGroup := if fields.resGroup = none then store.nextGroup + 1 else store.nextGroup })

def associatedResources (resource : Resource) : List Resource :=
  store.resources.rows.filter fun other =>
    resource.groups other ∧ other.id ≠ resource.id ∧ other.resType.name ≠ "Classroom"

/-- `getTimeSlots`. -/
def timeSlots (program : ℕ) : List Event :=
  (store.events.rows.filter fun event => event.program = some program ∧ event.isClassTime).insertionSort
    fun event other => event.startTime ≤ other.startTime

def isClassroom (resource : Resource) : Bool := resource.resType.id = store.classroomType.id

def getResources (program : ℕ) : List Resource :=
  store.resources.rows.filter fun resource => resource.event.program = some program

def getClassrooms (program : ℕ) : List Resource :=
  ((store.getResources program).filter store.isClassroom).insertionSort
    fun resource other => resource.event.id ≤ other.event.id

def isFloating (resource : Resource) : Bool := resource.isUnique && !store.isClassroom resource

end Store

/-! ## Grouping by name -/

/-- The resources with a name, by the first of them: `timeslots` are the events of all of them. -/
structure Room where
  resource : Resource
  timeslots : List Event
  deriving DecidableEq

namespace Room

variable (room : Room)

def name : String := room.resource.name

def timegroup : List Cal.Event := Cal.Event.collapse minute (room.timeslots.map Event.toCal)

end Room

/-- A step of `collapsed_dict`. -/
def addResource : List Room → Resource → List Room
  | [], resource => [⟨resource, [resource.event]⟩]
  | room :: rest, resource =>
      if room.name = resource.name then
        { room with timeslots := room.timeslots ++ [resource.event] } :: rest
      else room :: addResource rest resource

/-- `collapsed_dict`, in the order in which the names come up. -/
def collapsedDict (resources : List Resource) : List Room := resources.foldl addResource []

/-- A part of a name that is a number, or has no digits. -/
inductive NamePart where
  | number (value : ℕ)
  | text (letters : List Char)
  deriving DecidableEq

/-- The parts of a name, as `natural_sort` compares them.  A text comes first, and texts and
numbers alternate. -/
def nameParts (letters digits : List Char) : List Char → List NamePart
  | [] =>
      if digits = [] then [.text letters]
      else [.text letters, .number (Nat.ofDigitChars 10 digits 0), .text []]
  | char :: rest =>
      if char.isDigit then nameParts letters (digits ++ [char]) rest
      else if digits = [] then nameParts (letters ++ [char.toLower]) [] rest
      else .text letters :: .number (Nat.ofDigitChars 10 digits 0) ::
        nameParts [char.toLower] [] rest

/-- Whether a part comes before another one at the same place. -/
def NamePart.lt : NamePart → NamePart → Bool
  | .number value, .number other => value < other
  | .text letters, .text others => letters < others
  | _, _ => false

/-- The order of the parts of names. -/
def naturalLe : List NamePart → List NamePart → Bool
  | [], _ => true
  | _ :: _, [] => false
  | part :: rest, other :: others =>
      part.lt other || (part = other && naturalLe rest others)

/-- `natural_sort` of the rooms by their names. -/
def naturalSort (rooms : List Room) : List Room :=
  rooms.insertionSort fun room other =>
    naturalLe (nameParts [] [] room.name.toList) (nameParts [] [] other.name.toList)

namespace Store

variable (store : Store)

def groupedClassrooms (program : ℕ) : List Room :=
  naturalSort (collapsedDict (store.getClassrooms program))

def getFloatingResources (program : ℕ) : List Room :=
  collapsedDict ((store.getResources program).filter store.isFloating)

end Store

/-! ## What is grouped -/

section Grouping

variable {rooms : List Room} {resources : List Resource} {resource : Resource} {room : Room}

structure IsGrouped (rooms : List Room) (resources : List Resource) : Prop where
  names : (rooms.map Room.name).Nodup
  timeslots : ∀ room ∈ rooms, room.timeslots =
    (resources.filter fun resource => resource.name = room.name).map fun resource => resource.event
  resource : ∀ room ∈ rooms, room.resource ∈ resources
  covers : ∀ resource ∈ resources, ∃ room ∈ rooms, room.name = resource.name

theorem addResource_of_absent (absent : ∀ room ∈ rooms, room.name ≠ resource.name) :
    addResource rooms resource = rooms ++ [⟨resource, [resource.event]⟩] := by
  induction rooms with
  | nil => rfl
  | cons room rest ih =>
      rw [List.forall_mem_cons] at absent
      rw [addResource, if_neg absent.1, ih absent.2, List.cons_append]

theorem addResource_of_present (names : (rooms.map Room.name).Nodup) (isRoom : room ∈ rooms)
    (sameName : room.name = resource.name) :
    addResource rooms resource = rooms.map fun room =>
      if room.name = resource.name then
        { room with timeslots := room.timeslots ++ [resource.event] }
      else room := by
  induction rooms with
  | nil => cases isRoom
  | cons first rest ih =>
      rw [List.map_cons, List.nodup_cons] at names
      rw [addResource, List.map_cons]
      split
      next isFirst =>
        have others : ∀ other ∈ rest, other.name ≠ resource.name := by
          intro other isOther same
          rw [isFirst, ← same] at names
          exact names.1 (List.mem_map_of_mem isOther)
        refine congrArg _ ((List.map_congr_left fun other isOther => ?_).trans (List.map_id' rest)).symm
        exact if_neg (others other isOther)
      next notFirst =>
        refine congrArg _ (ih names.2 ?_)
        rcases List.mem_cons.mp isRoom with rfl | isRest
        · exact absurd sameName notFirst
        · exact isRest

theorem IsGrouped.addResource (grouped : IsGrouped rooms resources) :
    IsGrouped (addResource rooms resource) (resources ++ [resource]) := by
  by_cases present : ∃ room ∈ rooms, room.name = resource.name
  · rcases present with ⟨room, isRoom, sameName⟩
    rw [addResource_of_present grouped.names isRoom sameName]
    have names : ∀ other : Room, (if other.name = resource.name then
        { other with timeslots := other.timeslots ++ [resource.event] } else other).name =
          other.name := by
      intro other
      split
      next => rfl
      next => rfl
    refine ⟨?_, ?_, ?_, ?_⟩
    · rw [List.map_map]
      exact (List.map_congr_left fun other _ => names other).symm ▸ grouped.names
    · intro other isOther
      rcases List.mem_map.mp isOther with ⟨old, isOld, rfl⟩
      rw [names, List.filter_append, List.map_append, ← grouped.timeslots old isOld]
      split
      next same => rw [List.filter_cons_of_pos (by simpa using same.symm)]; rfl
      next different =>
        rw [List.filter_cons_of_neg (by simpa using Ne.symm different), List.filter_nil, List.map_nil,
          List.append_nil]
    · intro other isOther
      rcases List.mem_map.mp isOther with ⟨old, isOld, rfl⟩
      have isResource := grouped.resource old isOld
      split
      next => exact List.mem_append_left _ isResource
      next => exact List.mem_append_left _ isResource
    · intro other isOther
      have covered : ∃ room ∈ rooms, room.name = other.name := by
        rcases List.mem_append.mp isOther with isOld | isNew
        · exact grouped.covers other isOld
        · rw [List.mem_singleton.mp isNew]
          exact ⟨room, isRoom, sameName⟩
      rcases covered with ⟨old, isOld, same⟩
      exact ⟨_, List.mem_map_of_mem isOld, (names old).trans same⟩
  · have absent : ∀ room ∈ rooms, room.name ≠ resource.name :=
      fun room isRoom same => present ⟨room, isRoom, same⟩
    have unnamed : ∀ other ∈ resources, other.name ≠ resource.name := by
      intro other isOther same
      rcases grouped.covers other isOther with ⟨room, isRoom, sameName⟩
      exact absent room isRoom (sameName.trans same)
    rw [addResource_of_absent absent]
    refine ⟨?_, ?_, ?_, ?_⟩
    · rw [List.map_append, List.nodup_append]
      refine ⟨grouped.names, List.nodup_singleton _, fun name isName other isOther => ?_⟩
      rcases List.mem_map.mp isName with ⟨room, isRoom, rfl⟩
      rw [List.mem_singleton.mp isOther]
      exact absent room isRoom
    · intro room isRoom
      rw [List.filter_append, List.map_append]
      rcases List.mem_append.mp isRoom with isOld | isNew
      · rw [← grouped.timeslots room isOld,
          List.filter_cons_of_neg (by simpa using Ne.symm (absent room isOld)), List.filter_nil,
          List.map_nil, List.append_nil]
      · rw [List.mem_singleton.mp isNew]
        have none : resources.filter (fun other => other.name =
            (Room.mk resource [resource.event]).name) = [] :=
          List.filter_eq_nil_iff.mpr fun other isOther => by
            rw [decide_eq_true_eq]
            exact unnamed other isOther
        rw [none, List.filter_cons_of_pos (by simp [Room.name])]
        rfl
    · intro room isRoom
      rcases List.mem_append.mp isRoom with isOld | isNew
      · exact List.mem_append_left _ (grouped.resource room isOld)
      · rw [List.mem_singleton.mp isNew]
        exact List.mem_append_right _ List.mem_cons_self
    · intro other isOther
      rcases List.mem_append.mp isOther with isOld | isNew
      · rcases grouped.covers other isOld with ⟨room, isRoom, same⟩
        exact ⟨room, List.mem_append_left _ isRoom, same⟩
      · rw [List.mem_singleton.mp isNew]
        exact ⟨_, List.mem_append_right _ List.mem_cons_self, rfl⟩

theorem isGrouped_collapsedDict (resources : List Resource) :
    IsGrouped (collapsedDict resources) resources := by
  induction resources using List.reverseRecOn with
  | nil => exact ⟨List.nodup_nil, by simp [collapsedDict], by simp [collapsedDict], by simp⟩
  | append_singleton resources resource ih =>
      rw [collapsedDict, List.foldl_append]
      exact ih.addResource

/-- Another order of the rooms and of the resources does not matter to most of it. -/
theorem perm_naturalSort : (naturalSort rooms).Perm rooms := List.perm_insertionSort _ _

theorem IsGrouped.perm {others : List Room} (grouped : IsGrouped rooms resources)
    (perm : others.Perm rooms) : IsGrouped others resources where
  names := (perm.map _).nodup_iff.mpr grouped.names
  timeslots := fun room isRoom => grouped.timeslots room (perm.mem_iff.mp isRoom)
  resource := fun room isRoom => grouped.resource room (perm.mem_iff.mp isRoom)
  covers := by
    intro resource isResource
    rcases grouped.covers resource isResource with ⟨room, isRoom, same⟩
    exact ⟨room, perm.mem_iff.mpr isRoom, same⟩

theorem isGrouped_groupedClassrooms (store : Store) (program : ℕ) :
    IsGrouped (store.groupedClassrooms program) (store.getClassrooms program) :=
  (isGrouped_collapsedDict _).perm perm_naturalSort

end Grouping

end EspWebsite.Rooms
