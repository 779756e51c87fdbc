import EspWebsite.Library.Numerals
import EspWebsite.Library.Python
import EspWebsite.Library.Runs
import EspWebsite.Library.Tables

/-!
# Sign-ups for interviews

`TeacherEventsModule.event_signup`: a request is validated, then the old choices of the teacher
are deleted, and then the new ones are created, one after another.  The steps of several
requests interleave. -/

namespace EspWebsite.TeacherEvents

open Python Runs Tables

/-- A row of `EventType` with `is_teacher_type`. -/
structure EventType where
  id : ℕ
  description : String
  deriving DecidableEq

structure Event where
  id : ℕ
  program : ℕ
  eventType : ℕ
  start : ℤ
  description : String
  deriving DecidableEq

/-- A row of `UserAvailability` for the role of teachers. -/
structure UserAvailability where
  id : ℕ
  user : ℕ
  event : ℕ
  deriving DecidableEq

instance : Keyed EventType := ⟨EventType.id⟩
instance : Keyed Event := ⟨Event.id⟩
instance : Keyed UserAvailability := ⟨UserAvailability.id⟩

/-- `event_type.description.lower()`. -/
def EventType.lowerDescription (eventType : EventType) : String :=
  String.ofList (eventType.description.toList.map Char.toLower)

def EventType.isInterview (eventType : EventType) : Bool :=
  decide ("interview".toList <:+: eventType.lowerDescription.toList)

/-- The event types for teachers, and the events. -/
structure Site where
  eventTypes : Table EventType
  events : Table Event

/-- A request that has been validated: the events that are still to be created, whether the old
choices are deleted, and the key of the sign-up that came next when it was validated. -/
structure Running where
  user : ℕ
  validatedAt : ℕ
  deleted : Bool
  remaining : List (Option Event)
  deriving DecidableEq

structure State where
  entries : Table UserAvailability
  running : List Running

def State.new : State := ⟨⟨[], 0, .nil, by simp⟩, []⟩

/-! ## Validation -/

section Form

variable (site : Site) (entries : Table UserAvailability) (user : ℕ) (now : ℤ)

def entriesBySlot (event : Event) : List UserAvailability :=
  entries.rows.filter fun entry => entry.event = event.id

def slotIsTaken (event : Event) : Bool := decide (0 < (entriesBySlot entries event).length)

def slotIsMine (event : Event) : Bool :=
  decide (0 < ((entriesBySlot entries event).filter fun entry => entry.user = user).length)

def slotTooLate (event : Event) : Bool := decide (event.start - now < 0)

def slotIsAvailable (event : Event) : Bool :=
  slotIsMine entries user event || (!slotIsTaken entries event && !slotTooLate now event)

/-- The events of a type in a program. -/
def getTimes (program : ℕ) (eventType : EventType) : List Event :=
  site.events.rows.filter fun event =>
    decide (event.program = program) && decide (event.eventType = eventType.id)

def choices (program : ℕ) (eventType : EventType) : List Event :=
  (getTimes site program eventType).filter fun event =>
    if eventType.isInterview then slotIsAvailable entries user now event else !slotTooLate now event

def selectValid (eventType : EventType) : String :=
  "Please select a valid " ++ eventType.lowerDescription ++ " option."

/-- What is wrong with a field. -/
def invalid (message : String) : PyError := .raised "ValidationError" message

/-- The event that is chosen in the field of an event type, or what is wrong with it. -/
def cleanField (program : ℕ) (value : List Char) (eventType : EventType) : Raises (Option Event) :=
  if value = [] then .ok none
  else if (choices site entries user now program eventType).any fun event =>
    numeral event.id = value then
    -- the form looks the event up again
    match (parseInt value).bind fun id => site.events.get? id.toNat with
    | none => .error (invalid (selectValid eventType))
    | some event =>
        if event ∉ getTimes site program eventType then .error (invalid (selectValid eventType))
        else if eventType.isInterview && !slotIsAvailable entries user now event then
          .error (invalid "That time is taken; please select a different one.")
        else .ok (some event)
  else
    .error (invalid ("Select a valid choice. " ++ String.ofList value ++
      " is not one of the available choices."))

/-- The events that are chosen for all event types, or what is wrong with the first one. -/
def cleanedData (program : ℕ) (post : ℕ → List Char) : Raises (List (Option Event)) :=
  site.eventTypes.rows.mapM fun eventType =>
    cleanField site entries user now program (post eventType.id) eventType

end Form

/-! ## Steps -/

/-- The sign-ups without those of a user for events for teachers. -/
def deleteOld (site : Site) (entries : Table UserAvailability)
    (user : ℕ) : Table UserAvailability :=
  entries.delete fun entry => decide (entry.user = user) &&
    site.events.rows.any fun event => decide (event.id = entry.event) &&
      site.eventTypes.rows.any fun eventType => eventType.id = event.eventType

/-- `UserAvailability.objects.get_or_create`, which fails if there are several. -/
def getOrCreate (entries : Table UserAvailability) (user : ℕ) (event : Event) :
    Raises (Table UserAvailability) :=
  match entries.rows.filter fun entry => entry.user = user ∧ entry.event = event.id with
  | [] => .ok (entries.create (fun id => ⟨id, user, event.id⟩) fun _ => rfl)
  | [_] => .ok entries
  | _ => .error (.raised "MultipleObjectsReturned" "UserAvailability")

/-- A request is sent and validated, or a request that has been validated goes on. -/
inductive Action where
  | submit (user program : ℕ) (post : ℕ → List Char) (now : ℤ)
  | advance (request : ℕ)

/-- What a request does next: it deletes the old choices, and then creates the new ones.  One
that fails stops. -/
def Running.advance (site : Site) (request : Running) (entries : Table UserAvailability) :
    Table UserAvailability × Running :=
  if request.deleted then
    match request.remaining with
    | [] => (entries, request)
    | none :: remaining => (entries, { request with remaining := remaining })
    | some event :: remaining =>
        match getOrCreate entries request.user event with
        | .ok entries => (entries, { request with remaining := remaining })
        | .error _ => (entries, { request with remaining := [] })
  else (deleteOld site entries request.user, { request with deleted := true })

def step (site : Site) (state : State) : Action → State
  | .submit user program post now =>
      match cleanedData site state.entries user now program post with
      | .error _ => state
      | .ok data =>
          { state with running := state.running ++ [⟨user, state.entries.next, false, data⟩] }
  | .advance index =>
      match state.running[index]? with
      | none => state
      | some request =>
          let (entries, after) := request.advance site state.entries
          { entries := entries, running := state.running.set index after }

/-! ## Who holds a slot -/

def InterviewSlot (site : Site) (id : ℕ) : Prop :=
  ∃ event ∈ site.events.rows, event.id = id ∧
    ∃ eventType ∈ site.eventTypes.rows, eventType.id = event.eventType ∧
      eventType.isInterview = true

/-- No slot for interviews is held by two teachers. -/
def NoneShared (site : Site) (state : State) : Prop :=
  ∀ entry ∈ state.entries.rows, ∀ other ∈ state.entries.rows, entry.event = other.event →
    InterviewSlot site entry.event → entry.user = other.user

/-- Before a request creates a sign-up for an interview, no other teacher has signed up for the slot
since the request was validated. -/
def Undisturbed (site : Site) (state : State) : Action → Prop
  | .submit .. => True
  | .advance index => ∀ request, state.running[index]? = some request → request.deleted = true →
      ∀ event remaining, request.remaining = some event :: remaining → InterviewSlot site event.id →
        ∀ entry ∈ state.entries.rows, entry.event = event.id → entry.user ≠ request.user →
          entry.id < request.validatedAt

/-- What has been checked for a request: the teachers who had signed up for its interview before
it was validated are the one who sent it. -/
structure Checked (site : Site) (entries : Table UserAvailability) (request : Running) : Prop where
  validatedAt : request.validatedAt ≤ entries.next
  isMine : ∀ event, some event ∈ request.remaining → InterviewSlot site event.id →
    ∀ entry ∈ entries.rows, entry.event = event.id → entry.id < request.validatedAt →
      entry.user = request.user

section Steps

variable {site : Site} {state : State} {entries later : Table UserAvailability} {user program : ℕ}
  {now : ℤ} {post : ℕ → List Char} {event : Event} {eventType : EventType} {value : List Char}
  {request : Running} {remaining : List (Option Event)} {data : List (Option Event)}

theorem mem_getTimes : event ∈ getTimes site program eventType ↔
    event ∈ site.events.rows ∧ event.program = program ∧ event.eventType = eventType.id := by
  rw [getTimes, List.mem_filter, Bool.and_eq_true, decide_eq_true_eq, decide_eq_true_eq]

/-- What is known of an event that has been chosen. -/
theorem of_cleanField
    (cleaned : cleanField site entries user now program value eventType = .ok (some event)) :
    event ∈ getTimes site program eventType ∧
      (eventType.isInterview = true → slotIsAvailable entries user now event = true) := by
  rw [cleanField] at cleaned
  split at cleaned
  next => cases cleaned
  next =>
  split at cleaned
  next =>
    split at cleaned
    next => cases cleaned
    next chosen found =>
    split at cleaned
    next => cases cleaned
    next isTime =>
    split at cleaned
    next => cases cleaned
    next available =>
      cases cleaned
      refine ⟨not_not.mp isTime, fun isInterview => ?_⟩
      simpa [isInterview] using available
  next => cases cleaned

theorem eq_of_slotIsAvailable (available : slotIsAvailable entries user now event = true)
    (shared : ∀ entry ∈ entries.rows, ∀ other ∈ entries.rows, entry.event = event.id →
      other.event = event.id → entry.user = other.user) :
    ∀ entry ∈ entries.rows, entry.event = event.id → entry.user = user := by
  intro entry isEntry atEvent
  have taken : entry ∈ entriesBySlot entries event :=
    List.mem_filter.mpr ⟨isEntry, decide_eq_true atEvent⟩
  rw [slotIsAvailable, Bool.or_eq_true, Bool.and_eq_true] at available
  cases available with
  | inl mine =>
      rw [slotIsMine, decide_eq_true_eq, List.length_pos_iff_exists_mem] at mine
      rcases mine with ⟨own, isOwn⟩
      have both := List.mem_filter.mp isOwn
      have slot := List.mem_filter.mp both.1
      rw [shared entry isEntry own slot.1 atEvent (of_decide_eq_true slot.2)]
      exact of_decide_eq_true both.2
  | inr free =>
      rw [slotIsTaken, Bool.not_eq_true', decide_eq_false_iff_not] at free
      exact absurd (List.length_pos_of_mem taken) free.1

/-- A sign-up of a later table was there before, or has a new key. -/
structure Later (entries later : Table UserAvailability) : Prop where
  next_le : entries.next ≤ later.next
  old_or_new : ∀ entry ∈ later.rows, entry ∈ entries.rows ∨ entries.next ≤ entry.id

theorem Later.refl : Later entries entries := ⟨le_rfl, fun _ isEntry => .inl isEntry⟩

theorem Checked.keep (checked : Checked site entries request) (after : Later entries later) :
    Checked site later request where
  validatedAt := checked.validatedAt.trans after.next_le
  isMine := by
    intro event isChosen isSlot entry isEntry atEvent earlier
    cases after.old_or_new entry isEntry with
    | inl old => exact checked.isMine event isChosen isSlot entry old atEvent earlier
    | inr new => exact absurd (earlier.trans_le checked.validatedAt) (not_lt.mpr new)

theorem later_deleteOld : Later entries (deleteOld site entries user) :=
  ⟨le_rfl, fun _ isEntry => .inl (List.mem_of_mem_filter isEntry)⟩

theorem later_create {make : ℕ → UserAvailability} {keyed : ∀ id, Keyed.key (make id) = id} :
    Later entries (entries.create make keyed) := by
  refine ⟨Nat.le_succ _, fun entry isEntry => ?_⟩
  rw [Table.rows_create, List.mem_append, List.mem_singleton] at isEntry
  cases isEntry with
  | inl old => exact .inl old
  | inr new =>
      have newKey := keyed entries.next
      rw [← new] at newKey
      exact .inr newKey.ge

/-- Getting or creating a sign-up leaves the others alone. -/
theorem getOrCreate_cases (done : getOrCreate entries user event = .ok later) :
    Later entries later ∧ (∃ entry ∈ later.rows, entry.user = user ∧ entry.event = event.id) ∧
      (∀ entry ∈ entries.rows, entry ∈ later.rows) ∧
      ∀ entry ∈ later.rows, entry ∈ entries.rows ∨
        (entry.user = user ∧ entry.event = event.id) := by
  rw [getOrCreate] at done
  split at done
  next none =>
    cases done
    refine ⟨later_create, ⟨_, List.mem_append_right _ (List.mem_singleton_self _), rfl, rfl⟩,
      fun entry isEntry => List.mem_append_left _ isEntry, fun entry isEntry => ?_⟩
    rw [Table.rows_create, List.mem_append, List.mem_singleton] at isEntry
    cases isEntry with
    | inl old => exact .inl old
    | inr new =>
        rw [new]
        exact .inr ⟨rfl, rfl⟩
  next entry found =>
    cases done
    have isEntry : entry ∈ entries.rows.filter fun entry =>
        decide (entry.user = user ∧ entry.event = event.id) := by
      rw [found]
      exact List.mem_singleton_self _
    have both := List.mem_filter.mp isEntry
    exact ⟨.refl, ⟨entry, both.1, of_decide_eq_true both.2⟩, fun _ old => old,
      fun _ old => .inl old⟩
  next => cases done

theorem exists_of_getOrCreate {raised : PyError}
    (failed : getOrCreate entries user event = .error raised) :
    ∃ entry ∈ entries.rows, entry.user = user ∧ entry.event = event.id := by
  rw [getOrCreate] at failed
  split at failed
  next => cases failed
  next => cases failed
  next found notNone _ =>
    rcases List.exists_mem_of_ne_nil _ notNone with ⟨entry, isEntry⟩
    have both := List.mem_filter.mp isEntry
    exact ⟨entry, both.1, of_decide_eq_true both.2⟩

/-- A request that goes on stays checked, and the sign-ups of others are none of its business. -/
theorem advance_cases :
    Later entries (request.advance site entries).1 ∧
      (request.advance site entries).2.user = request.user ∧
      (request.advance site entries).2.validatedAt = request.validatedAt ∧
      ∀ chosen ∈ (request.advance site entries).2.remaining, chosen ∈ request.remaining := by
  rw [Running.advance]
  split
  next =>
    split
    next => exact ⟨.refl, rfl, rfl, fun _ isChosen => isChosen⟩
    next remaining found =>
      rw [found]
      exact ⟨.refl, rfl, rfl, fun _ isChosen => List.mem_cons_of_mem _ isChosen⟩
    next event remaining found =>
      split
      next later done =>
        rw [found]
        exact ⟨(getOrCreate_cases done).1, rfl, rfl,
          fun _ isChosen => List.mem_cons_of_mem _ isChosen⟩
      next => exact ⟨.refl, rfl, rfl, fun _ isChosen => absurd isChosen List.not_mem_nil⟩
  next => exact ⟨later_deleteOld, rfl, rfl, fun _ isChosen => isChosen⟩

theorem NoneShared.checked (noneShared : NoneShared site state)
    (cleaned : cleanedData site state.entries user now program post = .ok data) :
    Checked site state.entries ⟨user, state.entries.next, false, data⟩ where
  validatedAt := le_rfl
  isMine := by
    intro event isChosen isSlot entry isEntry atEvent _
    rcases exists_of_forall₂ (mapM_eq_ok.mp cleaned) isChosen with ⟨eventType, isType, field⟩
    rcases of_cleanField field with ⟨isTime, available⟩
    have time := mem_getTimes.mp isTime
    have isInterview : eventType.isInterview = true := by
      rcases isSlot with ⟨other, isOther, sameEvent, otherType, isOtherType, sameType, isInterview⟩
      have equal := site.events.eq_of_key_eq isOther time.1 sameEvent
      rw [equal, time.2.2] at sameType
      rw [site.eventTypes.eq_of_key_eq isType isOtherType sameType.symm]
      exact isInterview
    refine eq_of_slotIsAvailable (available isInterview) ?_ entry isEntry atEvent
    intro first isFirst second isSecond atFirst atSecond
    refine noneShared first isFirst second isSecond (atFirst.trans atSecond.symm) ?_
    rw [atFirst]
    exact isSlot

theorem NoneShared.of_subset {other : State} (noneShared : NoneShared site state)
    (fewer : ∀ entry ∈ other.entries.rows, entry ∈ state.entries.rows) : NoneShared site other :=
  fun entry isEntry another isAnother => noneShared entry (fewer entry isEntry) another
    (fewer another isAnother)

def AllChecked (site : Site) (state : State) : Prop :=
  ∀ request ∈ state.running, Checked site state.entries request

theorem AllChecked.next (checked : AllChecked site state) (noneShared : NoneShared site state)
    (action : Action) : AllChecked site (step site state action) := by
  cases action with
  | submit user program post now =>
      rw [step]
      split
      next => exact checked
      next data cleaned =>
        intro request isRunning
        cases List.mem_append.mp isRunning with
        | inl old => exact checked request old
        | inr new =>
            rw [List.mem_singleton.mp new]
            exact noneShared.checked cleaned
  | advance index =>
      rw [step]
      split
      next => exact checked
      next request found =>
        have own := checked request (List.mem_of_getElem? found)
        have ⟨later, sameUser, sameTime, fewer⟩ := @advance_cases site state.entries request
        intro other isRunning
        cases List.mem_or_eq_of_mem_set isRunning with
        | inl old => exact (checked other old).keep later
        | inr new =>
            rw [new]
            have kept := own.keep later
            refine ⟨sameTime ▸ kept.validatedAt,
              fun event isChosen isSlot entry isEntry atEvent => ?_⟩
            rw [sameTime, sameUser]
            exact kept.isMine event (fewer _ isChosen) isSlot entry isEntry atEvent

theorem Checked.noneShared_next_iff (checked : Checked site state.entries request)
    (noneShared : NoneShared site state) (chosen : some event ∈ request.remaining)
    (done : getOrCreate state.entries request.user event = .ok later) (running : List Running) :
    NoneShared site ⟨later, running⟩ ↔ (InterviewSlot site event.id →
      ∀ entry ∈ state.entries.rows, entry.event = event.id → entry.user ≠ request.user →
        entry.id < request.validatedAt) := by
  rcases getOrCreate_cases done with ⟨_, ⟨own, isOwn, ownUser, atEvent⟩, kept, cases⟩
  constructor
  · intro still isSlot entry isEntry sameEvent different
    have same := still entry (kept entry isEntry) own isOwn (sameEvent.trans atEvent.symm) (by
      rw [sameEvent]
      exact isSlot)
    exact absurd (same.trans ownUser) different
  · intro undisturbed entry isEntry other isOther sameEvent isSlot
    -- all who hold the slot of the event are the teacher who sent the request
    have mine : ∀ entry ∈ later.rows, InterviewSlot site entry.event → entry.event = event.id →
        entry.user = request.user := by
      intro entry isEntry isSlot sameEvent
      rw [sameEvent] at isSlot
      cases cases entry isEntry with
      | inl old =>
          by_contra different
          have earlier := undisturbed isSlot entry old sameEvent different
          exact different (checked.isMine event chosen isSlot entry old sameEvent earlier)
      | inr new => exact new.1
    by_cases here : entry.event = event.id
    · have otherSlot := isSlot
      rw [sameEvent] at otherSlot
      exact (mine entry isEntry isSlot here).trans
        (mine other isOther otherSlot (sameEvent.symm.trans here)).symm
    · have before := (cases entry isEntry).resolve_right fun new => here new.2
      have otherBefore := (cases other isOther).resolve_right fun new =>
        here (sameEvent.trans new.2)
      exact noneShared entry before other otherBefore sameEvent isSlot

theorem AllChecked.noneShared_next_iff (checked : AllChecked site state)
    (noneShared : NoneShared site state) (action : Action) :
    NoneShared site (step site state action) ↔ Undisturbed site state action := by
  cases action with
  | submit user program post now =>
      refine iff_of_true ?_ trivial
      rw [step]
      split
      next => exact noneShared
      next => exact noneShared
  | advance index =>
      rw [step, Undisturbed]
      cases found : state.running[index]? with
      | none => exact iff_of_true noneShared fun request isRequest => by cases isRequest
      | some request =>
          have own := checked request (List.mem_of_getElem? found)
          simp only [Option.some.injEq, forall_eq', Running.advance]
          cases deleted : request.deleted with
          | false =>
              rw [if_neg Bool.false_ne_true]
              refine iff_of_true (noneShared.of_subset fun entry isEntry => ?_) ?_
              · exact List.mem_of_mem_filter isEntry
              · intro isDeleted
                cases isDeleted
          | true =>
          rw [if_pos rfl]
          cases remaining : request.remaining with
          | nil => exact iff_of_true noneShared fun _ event rest isNext => by cases isNext
          | cons chosen rest =>
          cases chosen with
          | none => exact iff_of_true noneShared fun _ event rest isNext => by cases isNext
          | some event =>
          have isNext : some event ∈ request.remaining := by
            rw [remaining]
            exact List.mem_cons_self
          have onlyThis {condition : Event → Prop} : (true = true → ∀ other others,
              some event :: rest = some other :: others → condition other) ↔ condition event := by
            constructor
            · intro all
              exact all rfl event rest rfl
            · intro this _ other others same
              cases same
              exact this
          rw [onlyThis]
          dsimp only
          cases done : getOrCreate state.entries request.user event with
          | ok later => exact own.noneShared_next_iff noneShared isNext done _
          | error raised =>
              refine iff_of_true noneShared fun isSlot entry isEntry atEvent different => ?_
              rcases exists_of_getOrCreate done with ⟨mine, isMine, mineUser, mineEvent⟩
              have same := noneShared entry isEntry mine isMine (atEvent.trans mineEvent.symm) (by
                rw [atEvent]
                exact isSlot)
              exact absurd (same.trans mineUser) different

/-- Slots for interviews are never shared exactly if no teacher signs up for one while another
request for it has been validated, and has yet to create its sign-up. -/
theorem noneShared_iff (site : Site) (actions : List Action) :
    Throughout (step site) (NoneShared site) State.new actions ↔
      AtEach (step site) (Undisturbed site) State.new actions := by
  have steps (state : State) (action : Action) (checked : AllChecked site state)
      (noneShared : NoneShared site state) (_ : True) :
      AllChecked site (step site state action) ∧
        (NoneShared site (step site state action) ↔ Undisturbed site state action) :=
    ⟨checked.next noneShared action, checked.noneShared_next_iff noneShared action⟩
  refine throughout_iff steps ?_ ?_ ?_
  · exact fun request isRunning => absurd isRunning List.not_mem_nil
  · exact fun entry isEntry => absurd isEntry List.not_mem_nil
  · exact fun _ _ _ => trivial

end Steps

/-- A site with one slot for interviews, which is the event 1 of the program 1. -/
def oneSlot : Site where
  eventTypes := ⟨[⟨1, "Teacher Interview"⟩], 2, by decide, by decide⟩
  events := ⟨[⟨1, 1, 1, 100, "Interview slot 1"⟩], 2, by decide, by decide⟩

/-- Two teachers who are validated before one of them signs up both get the slot. -/
theorem not_noneShared_oneSlot : ¬ Throughout (step oneSlot) (NoneShared oneSlot) State.new
    [.submit 1 1 (fun _ => ['1']) 0, .submit 2 1 (fun _ => ['1']) 0, .advance 0, .advance 0,
      .advance 1, .advance 1] := by
  intro throughout
  have after := throughout _ (List.prefix_refl _) ⟨0, 1, 1⟩ (by decide) ⟨1, 2, 1⟩ (by decide) rfl
    ⟨_, List.mem_singleton_self _, rfl, _, List.mem_singleton_self _, rfl, by decide⟩
  exact absurd after (by decide)

end EspWebsite.TeacherEvents
