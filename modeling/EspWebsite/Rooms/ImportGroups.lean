import EspWebsite.Rooms.Matching

/-!
# Groups of imported classrooms

What a sequence of classroom imports creates, round after round of their loops: one classroom for
each room and timeslot at most, and furnishings in the group of their classroom, unless the
classroom was there before.
-/

namespace EspWebsite.Rooms

open Tables

/-- A round of the loops of an import: a room of the past program, a timeslot of the new one, and
the tables at the time. -/
structure Round where
  request : ImportRequest
  room : Resource
  timeslot : Event
  before : Store

namespace Round

variable (round : Round)

def after : Store := round.before.importClassroom round.request (round.room, round.timeslot)

def created : List Resource :=
  round.after.resources.rows.drop round.before.resources.rows.length

def furnishings : List Resource :=
  round.created.filter fun resource => !round.before.isClassroom resource

/-- A furnishing is one of the `associated_resources` of a classroom of the room at the timeslot. -/
def Groups (store : Store) (furnishing : Resource) : Prop :=
  ∃ classroom ∈ store.resources.rows, store.isClassroom classroom = true ∧
    classroom.name = round.room.name ∧ classroom.event.id = round.timeslot.id ∧
      furnishing ∈ store.associatedResources classroom

/-- Where something with the name of the room is there already, so are its furnishings. -/
def Fresh : Prop :=
  round.request.imports round.room = true →
    round.before.isNamedAt round.room.name round.timeslot = true →
      ∀ furnishing ∈ round.before.furnishingsOf round.request round.room,
        round.before.isNamedWith furnishing.name round.timeslot furnishing.attributeValue = true

end Round

namespace Store

def stepRounds (request : ImportRequest) : List (Resource × Event) → Store → List Round
  | [], _ => []
  | step :: rest, store =>
      ⟨request, step.1, step.2, store⟩ ::
        stepRounds request rest (store.importClassroom request step)

def rounds : List ImportRequest → Store → List Round
  | [], _ => []
  | request :: rest, store =>
      stepRounds request (store.classroomSteps request) store ++
        rounds rest (store.resourcesClassroomImport request)

def importClassrooms (store : Store) (requests : List ImportRequest) : Store :=
  requests.foldl (fun store request => store.resourcesClassroomImport request) store

/-- The classrooms with a name at an event that are there since an earlier time. -/
def newClassrooms (store after : Store) (name : String) (event : Event) : List Resource :=
  (after.resources.rows.drop store.resources.rows.length).filter fun resource =>
    store.isClassroom resource ∧ resource.name = name ∧ resource.event.id = event.id

end Store

/-- Rounds that go on from one another. -/
inductive Trail : Store → List Round → Store → Prop where
  | done (store : Store) : Trail store [] store
  | round (first : Round) {rest : List Round} {after : Store} (rounds : Trail first.after rest after) :
      Trail first.before (first :: rest) after

/-- The groups of resources were given away. -/
structure Store.Founded (store : Store) : Prop where
  groups : ∀ resource ∈ store.resources.rows, ∀ group ∈ resource.resGroup, group < store.nextGroup
  hasType : store.HasClassroomType

theorem Store.Founded.later {store after : Store} {slots : Set Event} (founded : store.Founded)
    (later : Store.Extends slots store after) : after.Founded where
  groups := by
    intro resource isRow group isGroup
    rcases later.resources with ⟨new, isNew, areNew⟩
    rw [isNew, List.mem_append] at isRow
    rcases isRow with isOld | isNew
    · exact (founded.groups resource isOld group isGroup).trans_le later.nextGroup
    · rcases areNew resource isNew with ⟨_, _, other, isOther, _, below⟩
      cases isOther.symm.trans isGroup
      exact below
  hasType := later.hasClassroomType founded.hasType

structure Round.Proper (round : Round) : Prop where
  founded : round.before.Founded
  known : ∀ group ∈ round.room.resGroup, group < round.before.nextGroup
  isClassroom : round.before.isClassroom round.room = true

/-! ## A round -/

namespace Store

section Loop

variable {store : Store} {furnishing : Resource} {furnishings : List Resource} {imports : Bool}
  {program : ℕ} {timeslot : Event} {resGroup : Option ℕ}

/-- A furnishing that is created for a classroom with some group, or none. -/
structure IsFurnishing (store : Store) (furnishings : List Resource) (timeslot : Event)
    (resGroup : Option ℕ) (resource : Resource) : Prop where
  notClassroom : store.isClassroom resource = false
  typeName : ∃ furnishing ∈ furnishings, resource.resType.name = furnishing.resType.name
  event : resource.event = timeslot
  group : ∀ group ∈ resGroup, resource.resGroup = some group
  ownGroup : resGroup = none → ∃ group, resource.resGroup = some group ∧ store.nextGroup ≤ group

theorem typeName_ensureType {type : ResourceType} :
    (store.ensureType type program).1.name = type.name := by
  rw [ensureType]
  split
  next found rest isFound =>
    have isType : found ∈ store.typesNamed type program := by
      rw [isFound]
      exact List.mem_cons_self
    rw [typesNamed, List.mem_filter, decide_eq_true_eq] at isType
    exact isType.2.1
  next => rfl

theorem rows_importFurnishing (hasType : store.HasClassroomType) : ∃ new,
    (store.importFurnishing imports program timeslot resGroup furnishing).resources.rows =
        store.resources.rows ++ new ∧
      ∀ resource ∈ new, store.IsFurnishing [furnishing] timeslot resGroup resource := by
  rw [importFurnishing_eq]
  split
  next =>
    refine ⟨[((store.ensureType furnishing.resType program).2.saveNew
      (store.newFurnishing program timeslot resGroup furnishing)).1], ?_, ?_⟩
    · rw [rows_saveNew, resources_ensureType]
    · intro resource isNew
      cases List.mem_singleton.mp isNew
      have sameNext := (@extends_ensureType store store Set.univ furnishing.resType program
        (extends_refl Set.univ store)).2
      have isGroup : ((store.ensureType furnishing.resType program).2.saveNew
          (store.newFurnishing program timeslot resGroup furnishing)).1.resGroup =
            some (resGroup.getD (store.ensureType furnishing.resType program).2.nextGroup) :=
        resGroup_inGroup
      refine ⟨isClassroom_newFurnishing hasType, ⟨furnishing, List.mem_cons_self, ?_⟩,
        event_inGroup, ?_, ?_⟩
      · exact (congrArg ResourceType.name resType_inGroup).trans typeName_ensureType
      · rintro group isSome
        rw [isGroup, isSome, Option.getD_some]
      · rintro rfl
        exact ⟨_, isGroup, sameNext.le⟩
  next =>
    refine ⟨[], ?_, by simp⟩
    rw [resources_ensureType, List.append_nil]

theorem rows_importFurnishings (hasType : store.HasClassroomType) : ∃ new,
    (furnishings.foldl (importFurnishing imports program timeslot resGroup) store).resources.rows =
        store.resources.rows ++ new ∧
      ∀ resource ∈ new, store.IsFurnishing furnishings timeslot resGroup resource := by
  induction furnishings generalizing store with
  | nil => exact ⟨[], (List.append_nil _).symm, by simp⟩
  | cons furnishing rest ih =>
      rcases @classroomType_importFurnishing store furnishing imports program timeslot resGroup
        hasType with ⟨stillType, sameKind⟩
      rcases @rows_importFurnishing store furnishing imports program timeslot resGroup hasType with
        ⟨first, isFirst, areFirst⟩
      rcases ih stillType with ⟨new, isNew, areNew⟩
      refine ⟨first ++ new, by rw [List.foldl_cons, isNew, isFirst, List.append_assoc], ?_⟩
      intro resource isAdded
      rcases List.mem_append.mp isAdded with isFirst | isNew
      · have isFurnishing := areFirst resource isFirst
        exact { isFurnishing with
          typeName := ⟨furnishing, List.mem_cons_self, by simpa using isFurnishing.typeName⟩ }
      · have isFurnishing := areNew resource isNew
        rcases isFurnishing.typeName with ⟨other, isOther, sameName⟩
        exact {
          notClassroom := by rw [← sameKind]; exact isFurnishing.notClassroom
          typeName := ⟨other, List.mem_cons_of_mem _ isOther, sameName⟩
          event := isFurnishing.event
          group := isFurnishing.group
          ownGroup := fun none => by
            rcases isFurnishing.ownGroup none with ⟨group, isGroup, above⟩
            exact ⟨group, isGroup, nextGroup_importFurnishing.trans above⟩ }

end Loop

end Store

namespace Round

variable {round : Round} {store : Store} {furnishing resource : Resource}
  {saved : Option Resource} {new : List Resource}

/-- A round creates the classroom, if nothing has its name, and furnishings in its group. -/
structure Creates (round : Round) (saved : Option Resource) (new : List Resource) : Prop where
  rows : round.after.resources.rows = round.before.resources.rows ++ (saved.toList ++ new)
  isSome : saved.isSome = true ↔ round.before.isNamedAt round.room.name round.timeslot = false ∧
    round.request.imports round.room = true
  classroom : ∀ created ∈ saved, round.before.isClassroom created = true ∧
    created.name = round.room.name ∧ created.event = round.timeslot ∧
      created.resGroup = some round.before.nextGroup
  furnishings : ∀ resource ∈ new, round.before.IsFurnishing
    (round.before.furnishingsOf round.request round.room) round.timeslot
      (saved.map fun _ => round.before.nextGroup) resource

theorem Proper.creates (proper : round.Proper) : ∃ saved new, round.Creates saved new := by
  have loop := @Store.importClassroom_eq_foldl round.before round.request round.room round.timeslot
    proper.known
  cases saves : !round.before.isNamedAt round.room.name round.timeslot &&
      round.request.imports round.room with
  | true =>
      have isSaved : round.before.saveIfNew (Store.newClassroom round.room round.timeslot)
          (round.request.imports round.room) =
            ((round.before.saveNew (Store.newClassroom round.room round.timeslot)).1.resGroup,
              (round.before.saveNew (Store.newClassroom round.room round.timeslot)).2) :=
        if_pos saves
      rw [isSaved] at loop
      have hasType : (round.before.saveNew
          (Store.newClassroom round.room round.timeslot)).2.HasClassroomType :=
        ⟨proper.founded.hasType.isRow, proper.founded.hasType.global⟩
      rcases @Store.rows_importFurnishings _
        (round.before.furnishingsOf round.request round.room) (round.request.imports round.room)
        round.request.program round.timeslot
        (round.before.saveNew (Store.newClassroom round.room round.timeslot)).1.resGroup hasType with
        ⟨new, isNew, areNew⟩
      refine ⟨some (round.before.saveNew (Store.newClassroom round.room round.timeslot)).1, new, ?_⟩
      rw [Bool.and_eq_true, Bool.not_eq_true'] at saves
      exact {
        rows := by
          rw [after, loop, isNew, Store.rows_saveNew, List.append_assoc]
          rfl
        isSome := ⟨fun _ => saves, fun _ => rfl⟩
        classroom := by
          rintro created isCreated
          cases Option.mem_some_iff.mp isCreated
          exact ⟨proper.isClassroom, rfl, rfl, rfl⟩
        furnishings := fun resource isResource => by
          have isFurnishing := areNew resource isResource
          exact {
            notClassroom := isFurnishing.notClassroom
            typeName := isFurnishing.typeName
            event := isFurnishing.event
            group := isFurnishing.group
            ownGroup := fun none => by cases none } }
  | false =>
      have spared : round.before.saveIfNew (Store.newClassroom round.room round.timeslot)
          (round.request.imports round.room) = (none, round.before) := by
        refine if_neg ?_
        rw [Bool.not_eq_true]
        exact saves
      rw [spared] at loop
      rcases @Store.rows_importFurnishings _
        (round.before.furnishingsOf round.request round.room) (round.request.imports round.room)
        round.request.program round.timeslot none proper.founded.hasType with ⟨new, isNew, areNew⟩
      refine ⟨none, new, ?_⟩
      rw [← Bool.not_eq_true, Bool.and_eq_true, Bool.not_eq_true'] at saves
      exact {
        rows := by
          rw [after, loop, isNew]
          rfl
        isSome := ⟨fun isSome => (Bool.false_ne_true isSome).elim, fun both => (saves both).elim⟩
        classroom := by simp
        furnishings := areNew }

namespace Creates

variable (creates : round.Creates saved new)
include creates

theorem created : round.created = saved.toList ++ new := by
  rw [Round.created, creates.rows, List.drop_left]

theorem furnishings_eq : round.furnishings = new := by
  have notClassroom : ∀ resource ∈ new, (!round.before.isClassroom resource) = true := by
    intro resource isNew
    rw [(creates.furnishings resource isNew).notClassroom]
    rfl
  rw [Round.furnishings, creates.created, List.filter_append, List.filter_eq_self.mpr notClassroom]
  cases saved with
  | none => rfl
  | some classroom =>
      rw [Option.toList_some, List.filter_cons_of_neg (by rw [(creates.classroom classroom rfl).1]; simp)]
      rfl

theorem classrooms (name : String) (event : Event) :
    (round.created.filter fun resource =>
        round.before.isClassroom resource ∧ resource.name = name ∧ resource.event.id = event.id) =
      saved.toList.filter fun resource =>
        resource.name = name ∧ resource.event.id = event.id := by
  have none : (new.filter fun resource => decide (round.before.isClassroom resource = true ∧
      resource.name = name ∧ resource.event.id = event.id)) = [] := by
    rw [List.filter_eq_nil_iff]
    intro resource isNew
    rw [decide_eq_true_eq, (creates.furnishings resource isNew).notClassroom]
    simp
  rw [creates.created, List.filter_append, none, List.append_nil]
  refine List.filter_congr fun resource isClassroom => ?_
  rw [(creates.classroom resource (Option.mem_toList.mp isClassroom)).1]
  simp

end Creates

theorem extends_after : Store.Extends Set.univ round.before round.after :=
  Store.extends_importClassroom (Set.mem_univ _)

/-- Where everything is there already, nothing is created. -/
theorem settled (fresh : round.Fresh)
    (spared : ¬ (round.before.isNamedAt round.room.name round.timeslot = false ∧
      round.request.imports round.room = true)) :
    Store.Settled round.request round.room round.timeslot round.before := by
  have named (imports : round.request.imports round.room = true) :
      round.before.isNamedAt round.room.name round.timeslot = true := by
    cases isNamed : round.before.isNamedAt round.room.name round.timeslot with
    | false => exact absurd ⟨isNamed, imports⟩ spared
    | true => rfl
  exact ⟨named, fun imports => fresh imports (named imports)⟩

theorem Proper.groups (proper : round.Proper) (fresh : round.Fresh)
    (isFurnishing : furnishing ∈ round.furnishings) : round.Groups round.after furnishing := by
  rcases proper.creates with ⟨saved, new, creates⟩
  have isNew : furnishing ∈ new := creates.furnishings_eq ▸ isFurnishing
  have spec := creates.furnishings furnishing isNew
  have isRow (resource : Resource) (isResource : resource ∈ saved.toList ++ new) :
      resource ∈ round.after.resources.rows := by
    rw [creates.rows]
    exact List.mem_append_right _ isResource
  cases isSaved : saved with
  | none =>
      have spared : ¬ (round.before.isNamedAt round.room.name round.timeslot = false ∧
          round.request.imports round.room = true) := by
        rw [← creates.isSome, isSaved]
        exact Bool.false_ne_true
      have same : round.after.resources = round.before.resources :=
        Store.resources_importClassroom (settled fresh spared)
      have rows := creates.rows
      rw [same, List.self_eq_append_right, isSaved, Option.toList_none, List.nil_append] at rows
      rw [rows] at isNew
      cases isNew
  | some classroom =>
      have isClassroom : classroom ∈ round.after.resources.rows :=
        isRow classroom (List.mem_append_left _ (by rw [isSaved]; exact List.mem_singleton_self _))
      rcases creates.classroom classroom isSaved with ⟨kind, sameName, sameEvent, isGroup⟩
      have sameKind : round.after.isClassroom = round.before.isClassroom :=
        extends_after.isClassroom
      refine ⟨classroom, isClassroom, by rw [sameKind]; exact kind, sameName,
        congrArg Event.id sameEvent, ?_⟩
      rw [Store.associatedResources, List.mem_filter, decide_eq_true_eq, Resource.groups, isGroup]
      refine ⟨isRow _ (List.mem_append_right _ isNew), ?_, ?_, ?_⟩
      · exact decide_eq_true (spec.group _ (by rw [isSaved]; rfl))
      · intro sameId
        have same := Table.eq_of_key_eq (isRow _ (List.mem_append_right _ isNew)) isClassroom sameId
        have notClassroom := spec.notClassroom
        rw [same, kind] at notClassroom
        cases notClassroom
      · rcases spec.typeName with ⟨old, isOld, sameType⟩
        rw [sameType]
        rw [Store.furnishingsOf] at isOld
        split at isOld
        next =>
          rw [Store.associatedResources, List.mem_filter, decide_eq_true_eq] at isOld
          exact isOld.2.2.2
        next => cases isOld

theorem Groups.mono {between after : Store} (groups : round.Groups between furnishing)
    (later : Store.Extends Set.univ between after) : round.Groups after furnishing := by
  rcases groups with ⟨classroom, isRow, isClassroom, sameName, sameEvent, isAssociated⟩
  refine ⟨classroom, later.mem isRow, by rw [later.isClassroom]; exact isClassroom, sameName,
    sameEvent, ?_⟩
  rw [Store.associatedResources, List.mem_filter] at isAssociated ⊢
  exact ⟨later.mem isAssociated.1, isAssociated.2⟩

/-- A furnishing that is created without its classroom gets a group of its own, in which there will
never be a classroom. -/
theorem Proper.fresh {after : Store} (proper : round.Proper)
    (later : Store.Extends Set.univ round.after after)
    (grouped : ∀ furnishing ∈ round.furnishings, round.Groups after furnishing) : round.Fresh := by
  intro imports isNamed furnishing isFurnishing
  by_contra absent
  rcases proper.creates with ⟨saved, new, creates⟩
  have none : saved = none := by
    rw [← Option.not_isSome_iff_eq_none, creates.isSome, isNamed]
    simp
  have isThere : round.after.isNamedWith furnishing.name round.timeslot
      furnishing.attributeValue = true := by
    have settled := @Store.settled_importClassroom round.before round.request round.room
      round.timeslot proper.known
    have stays : round.after.furnishingsOf round.request round.room =
        round.before.furnishingsOf round.request round.room :=
      extends_after.furnishingsOf proper.known
    exact settled.furnishings imports furnishing (stays.symm ▸ isFurnishing)
  cases new with
  | nil =>
      have rows := creates.rows
      rw [none, Option.toList_none, List.append_nil, List.append_nil] at rows
      rw [Store.isNamedWith, rows] at isThere
      exact absent isThere
  | cons orphan rest =>
      have spec := creates.furnishings orphan List.mem_cons_self
      rcases spec.ownGroup (by rw [none]; rfl) with ⟨group, isGroup, above⟩
      have isOrphan : orphan ∈ round.furnishings := creates.furnishings_eq ▸ List.mem_cons_self
      rcases grouped orphan isOrphan with ⟨classroom, isRow, isClassroom, _, _, isAssociated⟩
      rw [Store.associatedResources, List.mem_filter, decide_eq_true_eq, Resource.groups]
        at isAssociated
      rcases isAssociated with ⟨_, sameGroup, different, _⟩
      have isOrphanRow : orphan ∈ round.after.resources.rows := by
        rw [creates.rows]
        exact List.mem_append_right _ (List.mem_append_right _ List.mem_cons_self)
      have below := (proper.founded.later extends_after).groups orphan isOrphanRow group isGroup
      cases isOther : classroom.resGroup with
      | none =>
          rw [isOther] at sameGroup
          exact different (of_decide_eq_true sameGroup)
      | some other =>
          rw [isOther] at sameGroup
          cases isGroup.symm.trans (of_decide_eq_true sameGroup)
          rcases later.resources with ⟨more, isMore, areMore⟩
          rw [isMore, creates.rows, none, Option.toList_none, List.nil_append, List.append_assoc,
            List.mem_append, List.mem_append] at isRow
          rcases isRow with isOld | isNew | isLater
          · exact absurd (proper.founded.groups classroom isOld group isOther) above.not_gt
          · rw [later.isClassroom, extends_after.isClassroom,
              (creates.furnishings classroom isNew).notClassroom] at isClassroom
            cases isClassroom
          · rcases areMore classroom isLater with ⟨_, _, newer, isNewer, aboveAll, _⟩
            cases isOther.symm.trans isNewer
            exact absurd below aboveAll.not_gt

/-- What was created up to an end is what the round has created, and what came after it. -/
theorem newClassrooms_before {after : Store} (later : Store.Extends Set.univ round.after after)
    (name : String) (event : Event) :
    round.before.newClassrooms after name event =
      round.created.filter (fun resource => round.before.isClassroom resource ∧
        resource.name = name ∧ resource.event.id = event.id) ++
          round.after.newClassrooms after name event := by
  rcases (@extends_after round).resources with ⟨new, isNew, _⟩
  rcases later.resources with ⟨more, isMore, _⟩
  rw [Store.newClassrooms, Store.newClassrooms, Round.created, isMore, List.drop_left, isNew,
    List.drop_left, List.append_assoc, List.drop_left, List.filter_append,
    extends_after.isClassroom]

end Round

/-! ## Runs -/

section Runs

variable {store between after : Store} {request : ImportRequest} {requests : List ImportRequest}
  {rounds others : List Round} {steps : List (Resource × Event)} {name : String} {event : Event}

namespace Trail

theorem append (trail : Trail store rounds between) (others' : Trail between others after) :
    Trail store (rounds ++ others) after := by
  induction trail with
  | done store => exact others'
  | round first _ ih => exact .round first (ih others')

theorem later (trail : Trail store rounds after) : Store.Extends Set.univ store after := by
  induction trail with
  | done store => exact Store.extends_refl _ store
  | round first _ ih => exact Round.extends_after.trans ih

theorem newClassrooms_of_named (trail : Trail store rounds after)
    (proper : ∀ round ∈ rounds, round.Proper) (named : store.isNamedAt name event = true) :
    store.newClassrooms after name event = [] := by
  induction trail with
  | done store => simp [Store.newClassrooms]
  | round first rest ih =>
      rw [List.forall_mem_cons] at proper
      rw [Round.newClassrooms_before rest.later, List.append_eq_nil_iff]
      refine ⟨?_, ih proper.2 ?_⟩
      · rcases proper.1.creates with ⟨saved, new, creates⟩
        rw [creates.classrooms, List.filter_eq_nil_iff]
        intro resource isSaved
        rw [Option.mem_toList] at isSaved
        rcases creates.classroom resource isSaved with ⟨_, sameName, sameEvent, _⟩
        have absent := (creates.isSome.mp (Option.isSome_of_mem isSaved)).1
        rw [decide_eq_true_eq, sameName, sameEvent]
        rintro ⟨rfl, same⟩
        rw [Store.isNamedAt, ← same] at named
        exact Bool.false_ne_true (absent.symm.trans named)
      · rw [Store.isNamedAt_eq] at named ⊢
        exact Round.extends_after.isAt named

theorem length_newClassrooms (trail : Trail store rounds after)
    (proper : ∀ round ∈ rounds, round.Proper) (name : String) (event : Event) :
    (store.newClassrooms after name event).length ≤ 1 := by
  induction trail with
  | done store => simp [Store.newClassrooms]
  | round first rest ih =>
      rw [List.forall_mem_cons] at proper
      rcases proper.1.creates with ⟨saved, new, creates⟩
      rw [Round.newClassrooms_before rest.later, creates.classrooms, List.length_append]
      cases isSaved : saved.toList.filter fun resource =>
          decide (resource.name = name ∧ resource.event.id = event.id) with
      | nil =>
          rw [List.length_nil, Nat.zero_add]
          exact ih proper.2
      | cons classroom others =>
          have isClassroom : classroom ∈ saved.toList.filter fun resource =>
              decide (resource.name = name ∧ resource.event.id = event.id) := by
            rw [isSaved]
            exact List.mem_cons_self
          rw [List.mem_filter, decide_eq_true_eq] at isClassroom
          have isRow : classroom ∈ first.after.resources.rows := by
            rw [creates.rows]
            exact List.mem_append_right _ (List.mem_append_left _ isClassroom.1)
          have named : first.after.isNamedAt name event = true := by
            rw [Store.isNamedAt_eq]
            exact Store.isAt_iff.mpr ⟨classroom, isRow, rfl, isClassroom.2⟩
          rw [← isSaved, rest.newClassrooms_of_named proper.2 named, List.length_nil, Nat.add_zero]
          exact (List.length_filter_le _ _).trans (Option.length_toList_le)

theorem groups_iff (trail : Trail store rounds after) (proper : ∀ round ∈ rounds, round.Proper) :
    (∀ round ∈ rounds, ∀ furnishing ∈ round.furnishings, round.Groups after furnishing) ↔
      ∀ round ∈ rounds, round.Fresh := by
  induction trail with
  | done store => simp
  | round first rest ih =>
      rw [List.forall_mem_cons] at proper
      rw [List.forall_mem_cons, List.forall_mem_cons, ih proper.2]
      refine and_congr_left fun _ => ⟨proper.1.fresh rest.later, fun fresh furnishing isFurnishing => ?_⟩
      exact (proper.1.groups fresh isFurnishing).mono rest.later

end Trail

theorem trail_stepRounds (founded : store.Founded) (known : store.Known steps) :
    Trail store (Store.stepRounds request steps store)
        (steps.foldl (Store.importClassroom request) store) ∧
      ∀ round ∈ Store.stepRounds request steps store, round.Proper := by
  induction steps generalizing store with
  | nil => exact ⟨.done store, by simp [Store.stepRounds]⟩
  | cons step rest ih =>
      have later := @Store.extends_importClassroom store Set.univ request step.1 step.2
        (Set.mem_univ _)
      rcases ih (founded.later later) (known.tail later) with ⟨trail, proper⟩
      refine ⟨.round ⟨request, step.1, step.2, store⟩ trail, List.forall_mem_cons.mpr ⟨?_, proper⟩⟩
      exact {
        founded
        known := known.groups step List.mem_cons_self
        isClassroom := known.classroom step List.mem_cons_self }

theorem Store.Linked.resourcesClassroomImport (linked : store.Linked) :
    (store.resourcesClassroomImport request).Linked where
  events := by
    have later := @Store.extends_resourcesClassroomImport store request
    rcases later.resources with ⟨new, isNew, areNew⟩
    intro resource isRow
    rw [isNew, List.mem_append] at isRow
    rw [later.events]
    rcases isRow with isOld | isNew
    · exact linked.events resource isOld
    · exact (Store.mem_timeSlots.mp (areNew resource isNew).1).1
  groups := (Store.Founded.later ⟨linked.groups, linked.classroomType⟩
    Store.extends_resourcesClassroomImport).groups
  classroomType := Store.extends_resourcesClassroomImport.hasClassroomType linked.classroomType

theorem trail_rounds (linked : store.Linked) :
    Trail store (Store.rounds requests store) (store.importClassrooms requests) ∧
      ∀ round ∈ Store.rounds requests store, round.Proper := by
  induction requests generalizing store with
  | nil => exact ⟨.done store, by simp [Store.rounds]⟩
  | cons request rest ih =>
      rcases @trail_stepRounds store request (store.classroomSteps request)
        ⟨linked.groups, linked.classroomType⟩ (Store.known_classroomSteps linked) with
        ⟨first, properFirst⟩
      rcases ih linked.resourcesClassroomImport with ⟨others, properOthers⟩
      refine ⟨first.append others, fun round isRound => ?_⟩
      rcases List.mem_append.mp isRound with isFirst | isOther
      · exact properFirst round isFirst
      · exact properOthers round isOther

end Runs

/-- After any imports there is at most one imported classroom for a room and a timeslot, and every
furnishing is in the group of its classroom, exactly if no round found a room without some of its
furnishings. -/
theorem imports_grouped_iff {store : Store} (linked : store.Linked)
    (requests : List ImportRequest) :
    ((∀ name event,
        (store.newClassrooms (store.importClassrooms requests) name event).length ≤ 1) ∧
      ∀ round ∈ Store.rounds requests store, ∀ furnishing ∈ round.furnishings,
        round.Groups (store.importClassrooms requests) furnishing) ↔
      ∀ round ∈ Store.rounds requests store, round.Fresh := by
  rcases @trail_rounds store requests linked with ⟨trail, proper⟩
  rw [and_iff_right (trail.length_newClassrooms proper)]
  exact trail.groups_iff proper

namespace Sample

/-- A classroom of the past program with a projector in it. -/
def furnished : Store where
  events :=
    { rows := [slot 1 1 0, slot 2 2 (100 * hour)], next := 3
      ordered := by simp [Keyed.key, slot]
      below := by simp [Keyed.key, slot] }
  resourceTypes :=
    { rows := [classroomType, projectorType]
      next := 3
      ordered := (past 0).resourceTypes.ordered
      below := (past 0).resourceTypes.below }
  resources :=
    { rows := [classroom 1 1 (slot 1 1 0),
        { projector 2 1 (slot 1 1 0) with isUnique := false }]
      next := 3
      ordered := by simp [Keyed.key, classroom, projector]
      below := by simp [Keyed.key, classroom, projector] }
  nextGroup := 2
  assignments :=
    { rows := []
      next := 1
      ordered := (past 0).assignments.ordered
      below := (past 0).assignments.below }
  classroomType

/-- All rooms are imported at all timeslots, with their furnishings or without. -/
def importRooms (importFurnishings : Bool) : ImportRequest :=
  { program := 2, pastProgram := 1, toImport := [1], completeAvailability := true,
    importFurnishings }

theorem linked_furnished : furnished.Linked where
  events := by simp [furnished, classroom, projector]
  groups := by simp [furnished, classroom, projector]
  classroomType := ⟨by simp [furnished], rfl⟩

/-- The same import twice. -/
theorem furnished_twice :
    (∃ round ∈ Store.rounds [importRooms true, importRooms true] furnished,
        round.furnishings ≠ []) ∧
      ∀ round ∈ Store.rounds [importRooms true, importRooms true] furnished,
        ∀ furnishing ∈ round.furnishings,
          round.Groups (furnished.importClassrooms [importRooms true, importRooms true])
            furnishing :=
  ⟨by decide,
    ((imports_grouped_iff linked_furnished _).mpr (by unfold Round.Fresh; decide)).2⟩

/-- The classroom is imported without its furnishings first. -/
theorem furnished_later :
    ∃ round ∈ Store.rounds [importRooms false, importRooms true] furnished,
      ∃ furnishing ∈ round.furnishings,
        ¬ round.Groups (furnished.importClassrooms [importRooms false, importRooms true])
          furnishing := by
  unfold Round.Groups
  decide

end Sample

end EspWebsite.Rooms
