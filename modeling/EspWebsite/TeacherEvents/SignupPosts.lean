import EspWebsite.TeacherEvents.EventSignup

/-!
# Posts to several programs

Whole requests to `event_signup`, one after another, to any programs.
-/

namespace EspWebsite.TeacherEvents

open Python Runs Tables

/-- A POST of a user to the page of a program. -/
structure Post where
  user : ℕ
  program : ℕ
  values : ℕ → List Char
  now : ℤ

variable (site : Site)

def createChosen (user : ℕ) (entries : Table UserAvailability) :
    Option Event → Raises (Table UserAvailability)
  | none => .ok entries
  | some event => getOrCreate entries user event

/-- `event_signup`: a form that is not valid is shown again. -/
def eventSignup (entries : Table UserAvailability) (post : Post) :
    Raises (Table UserAvailability) :=
  match cleanedData site entries post.user post.now post.program post.values with
  | .error _ => .ok entries
  | .ok data => data.foldlM (createChosen post.user) (deleteOld site entries post.user)

/-- The posts are valid when they are made. -/
def AllValid : Table UserAvailability → List Post → Prop
  | _, [] => True
  | entries, post :: rest =>
      (∃ data, cleanedData site entries post.user post.now post.program post.values = .ok data) ∧
        ∀ after, eventSignup site entries post = .ok after → AllValid after rest

/-- How often a user is signed up for an event. -/
def signups (entries : Table UserAvailability) (user : ℕ) (event : Event) : ℕ :=
  (entries.rows.map fun entry => (entry.user, entry.event)).count (user, event.id)

/-- An event is a slot of one of the types for teachers. -/
def IsSlot (event : Event) : Prop :=
  event ∈ site.events.rows ∧ ∃ eventType ∈ site.eventTypes.rows, eventType.id = event.eventType

def Post.Chooses (post : Post) (event : Event) : Prop :=
  event.program = post.program ∧ post.values event.eventType = numeral event.id

instance (post : Post) (event : Event) : Decidable (post.Chooses event) :=
  inferInstanceAs (Decidable (_ ∧ _))

def Post.IsBlank (post : Post) : Prop :=
  ∀ eventType ∈ site.eventTypes.rows, post.values eventType.id = []

def lastPost (posts : List Post) (user program : ℕ) : Option Post :=
  (posts.filter fun post => post.user = user ∧ post.program = program).getLast?

def lastOf (posts : List Post) (user : ℕ) : Option Post :=
  (posts.filter fun post => post.user = user).getLast?

/-- The user's sign-ups for each program are the choices of the last post to it. -/
def KeepsChoices (posts : List Post) (after : Table UserAvailability) (user : ℕ) : Prop :=
  ∀ program post, lastPost posts user program = some post →
    ∀ event, IsSlot site event → event.program = program →
      signups after user event = if post.Chooses event then 1 else 0

/-- Only the last post of a user chooses something, of the last posts to each program. -/
def OnlyLastChooses (posts : List Post) (user : ℕ) : Prop :=
  ∀ last, lastOf posts user = some last →
    ∀ program post, lastPost posts user program = some post → program ≠ last.program →
      post.IsBlank site

section Data

variable {site} {entries after : Table UserAvailability} {user program : ℕ} {now : ℤ}
  {values : ℕ → List Char} {data : List (Option Event)} {event other : Event} {value : List Char}
  {eventType : EventType}

theorem numeral_injective : Function.Injective numeral := by
  intro left right same
  have read := congrArg parseInt same
  rw [parseInt_numeral, parseInt_numeral] at read
  exact Int.ofNat_inj.mp (Option.some.inj read)

theorem value_of_cleanField
    (cleaned : cleanField site entries user now program value eventType = .ok (some event)) :
    value = numeral event.id := by
  rw [cleanField] at cleaned
  split at cleaned
  next => cases cleaned
  next =>
  split at cleaned
  next listed =>
    rcases List.any_eq_true.mp listed with ⟨choice, _, isValue⟩
    have same := of_decide_eq_true isValue
    split at cleaned
    next => cases cleaned
    next chosen found =>
    rw [← same, parseInt_numeral, Option.bind_some, Int.toNat_natCast] at found
    have key := (Table.get?_eq_some.mp found).2
    split at cleaned
    next => cases cleaned
    next =>
    split at cleaned
    next => cases cleaned
    next =>
      cases cleaned
      rw [← same, ← key]
      rfl
  next => cases cleaned

theorem cleanField_blank : cleanField site entries user now program [] eventType = .ok none := by
  rw [cleanField, if_pos rfl]

theorem eq_nil_of_cleanField
    (cleaned : cleanField site entries user now program value eventType = .ok none) :
    value = [] := by
  rw [cleanField] at cleaned
  split at cleaned
  next blank => exact blank
  next =>
  split at cleaned
  next =>
    split at cleaned
    next => cases cleaned
    next =>
    split at cleaned
    next => cases cleaned
    next =>
    split at cleaned <;> cases cleaned
  next => cases cleaned

/-- The chosen events have different types, in the order of the types. -/
theorem sublist_of_cleanedData {types : List EventType}
    (cleaned : List.Forall₂ (fun eventType chosen =>
      cleanField site entries user now program (values eventType.id) eventType = .ok chosen)
        types data) :
    ((data.filterMap id).map Event.eventType).Sublist (types.map EventType.id) := by
  induction cleaned with
  | nil => exact .slnil
  | @cons eventType chosen types data isField _ ih =>
      cases chosen with
      | none => exact ih.cons _
      | some event =>
          have isType := (mem_getTimes.mp (of_cleanField isField).1).2.2
          simpa [isType] using ih.cons_cons eventType.id

theorem nodup_of_cleanedData
    (cleaned : cleanedData site entries user now program values = .ok data) :
    ((data.filterMap id).map Event.id).Nodup := by
  have fields := mapM_eq_ok.mp cleaned
  have types := (sublist_of_cleanedData fields).nodup site.eventTypes.nodup_keys
  refine (List.Nodup.of_map _ types).map_on fun event isEvent other isOther same => ?_
  have isRow {event : Event} (isEvent : event ∈ data.filterMap id) : event ∈ site.events.rows := by
    rw [List.mem_filterMap] at isEvent
    rcases isEvent with ⟨chosen, isChosen, rfl⟩
    rcases exists_of_forall₂ fields isChosen with ⟨eventType, _, field⟩
    exact (mem_getTimes.mp (of_cleanField field).1).1
  exact site.events.eq_of_key_eq (isRow isEvent) (isRow isOther) same

/-- What a valid form chooses are the events of its program whose keys are in the fields. -/
theorem mem_of_cleanedData (cleaned : cleanedData site entries user now program values = .ok data)
    (isSlot : IsSlot site event) :
    event.id ∈ (data.filterMap id).map Event.id ↔
      event.program = program ∧ values event.eventType = numeral event.id := by
  have fields := mapM_eq_ok.mp cleaned
  rw [List.mem_map]
  constructor
  · rintro ⟨other, isOther, same⟩
    rw [List.mem_filterMap] at isOther
    rcases isOther with ⟨chosen, isChosen, rfl⟩
    rcases exists_of_forall₂ fields isChosen with ⟨eventType, _, field⟩
    have isTime := mem_getTimes.mp (of_cleanField field).1
    cases site.events.eq_of_key_eq isTime.1 isSlot.1 same
    rw [isTime.2.2]
    exact ⟨isTime.2.1, value_of_cleanField field⟩
  · rintro ⟨_, isValue⟩
    rcases isSlot.2 with ⟨eventType, isType, sameType⟩
    rw [← sameType] at isValue
    rcases List.forall₂_iff_get.mp fields with ⟨sameLength, each⟩
    rcases List.mem_iff_getElem.mp isType with ⟨index, inside, rfl⟩
    have field := each index inside (sameLength ▸ inside)
    have isChosen := List.get_mem data ⟨index, sameLength ▸ inside⟩
    change values (site.eventTypes.rows.get ⟨index, inside⟩).id = _ at isValue
    cases chosen : data.get ⟨index, sameLength ▸ inside⟩ with
    | none =>
        rw [chosen] at field
        rw [eq_nil_of_cleanField field] at isValue
        exact absurd isValue.symm numeral_ne_nil
    | some other =>
        rw [chosen] at field isChosen
        refine ⟨other, List.mem_filterMap.mpr ⟨_, isChosen, rfl⟩, ?_⟩
        exact numeral_injective ((value_of_cleanField field).symm.trans isValue)

end Data

section Posts

variable {site} {entries after : Table UserAvailability} {user other : ℕ} {data : List (Option Event)}
  {event : Event} {post : Post} {posts : List Post}

theorem getOrCreate_of_free (free : ∀ entry ∈ entries.rows, entry.user = user →
    entry.event ≠ event.id) :
    getOrCreate entries user event =
      .ok (entries.create (fun id => ⟨id, user, event.id⟩) fun _ => rfl) := by
  have none : entries.rows.filter (fun entry =>
      decide (entry.user = user ∧ entry.event = event.id)) = [] := by
    refine List.filter_eq_nil_iff.mpr fun entry isEntry => ?_
    simpa using free entry isEntry
  rw [getOrCreate, none]

theorem signups_congr
    (same : after.rows.filter (fun entry => entry.user = user) =
      entries.rows.filter fun entry => entry.user = user) :
    signups after user event = signups entries user event := by
  have own (table : Table UserAvailability) : signups table user event =
      ((table.rows.filter fun entry => entry.user = user).map
        fun entry => (entry.user, entry.event)).count (user, event.id) := by
    rw [signups, List.count_eq_countP, List.count_eq_countP, List.countP_map, List.countP_map, List.countP_filter]
    refine List.countP_congr fun entry _ => ?_
    simp +contextual
  rw [own, own, same]

theorem foldlM_createChosen (distinct : ((data.filterMap id).map Event.id).Nodup)
    (free : ∀ event ∈ data.filterMap id, ∀ entry ∈ entries.rows, entry.user = user →
      entry.event ≠ event.id) :
    ∃ after new, data.foldlM (createChosen user) entries = .ok after ∧
      after.rows = entries.rows ++ new ∧
        new.map (fun entry => (entry.user, entry.event)) =
          ((data.filterMap id).map Event.id).map fun event => (user, event) := by
  induction data generalizing entries with
  | nil => exact ⟨entries, [], rfl, (List.append_nil _).symm, rfl⟩
  | cons chosen rest ih =>
      cases chosen with
      | none => exact ih distinct free
      | some event =>
          have filtered : (some event :: rest).filterMap id = event :: rest.filterMap id := rfl
          rw [filtered] at distinct free ⊢
          rw [List.map_cons, List.nodup_cons] at distinct
          rw [List.forall_mem_cons] at free
          rcases @ih (entries.create (fun id => ⟨id, user, event.id⟩) fun _ => rfl) distinct.2 (by
            intro other isOther entry isEntry isUser
            rcases List.mem_append.mp isEntry with old | new
            · exact free.2 other isOther entry old isUser
            · rw [List.mem_singleton.mp new]
              intro same
              exact distinct.1 (List.mem_map.mpr ⟨other, isOther, same.symm⟩)) with
            ⟨after, new, returns, rows, pairs⟩
          refine ⟨after, ⟨entries.next, user, event.id⟩ :: new, ?_, ?_, ?_⟩
          · rw [List.foldlM_cons, createChosen, getOrCreate_of_free free.1]
            exact returns
          · rw [rows, Table.rows_create, List.append_assoc]
            rfl
          · rw [List.map_cons, pairs]
            rfl

/-- A valid post leaves its user signed up for its choices only, and others as they were. -/
theorem eventSignup_spec
    (cleaned : cleanedData site entries post.user post.now post.program post.values = .ok data) :
    ∃ after, eventSignup site entries post = .ok after ∧
      (∀ event, IsSlot site event →
        signups after post.user event = if post.Chooses event then 1 else 0) ∧
      ∀ other, other ≠ post.user →
        after.rows.filter (fun entry => entry.user = other) =
          entries.rows.filter fun entry => entry.user = other := by
  have isRow {event : Event} (isEvent : event ∈ data.filterMap id) : IsSlot site event := by
    rw [List.mem_filterMap] at isEvent
    rcases isEvent with ⟨chosen, isChosen, rfl⟩
    rcases exists_of_forall₂ (mapM_eq_ok.mp cleaned) isChosen with ⟨eventType, isType, field⟩
    have isTime := mem_getTimes.mp (of_cleanField field).1
    exact ⟨isTime.1, eventType, isType, isTime.2.2.symm⟩
  have deleted {event : Event} (isSlot : IsSlot site event) :
      ∀ entry ∈ (deleteOld site entries post.user).rows, entry.user = post.user →
        entry.event ≠ event.id := by
    intro entry isEntry isUser same
    have kept := (List.mem_filter.mp isEntry).2
    dsimp only at kept
    rw [isUser, decide_eq_true rfl, Bool.true_and, Bool.not_eq_true', List.any_eq_false] at kept
    have notAny := kept event isSlot.1
    rw [same, decide_eq_true rfl, Bool.true_and, List.any_eq_true] at notAny
    rcases isSlot.2 with ⟨eventType, isType, sameType⟩
    exact notAny ⟨eventType, isType, decide_eq_true sameType⟩
  rcases foldlM_createChosen (nodup_of_cleanedData cleaned)
    (fun event isEvent => deleted (isRow isEvent)) with ⟨after, new, returns, rows, pairs⟩
  refine ⟨after, by rw [eventSignup, cleaned]; exact returns, fun event isSlot => ?_,
    fun other different => ?_⟩
  · have none : ((deleteOld site entries post.user).rows.map
        fun entry => (entry.user, entry.event)).count (post.user, event.id) = 0 := by
      refine List.count_eq_zero.mpr fun isPair => ?_
      rcases List.mem_map.mp isPair with ⟨entry, isEntry, same⟩
      exact deleted isSlot entry isEntry (Prod.mk.inj same).1 (Prod.mk.inj same).2
    have injective : Function.Injective fun event : ℕ => (post.user, event) :=
      fun _ _ same => (Prod.mk.inj same).2
    rw [signups, rows, List.map_append, List.count_append, none, zero_add, pairs,
      List.count_map_of_injective _ _ injective,
      List.Nodup.count (nodup_of_cleanedData cleaned)]
    exact if_congr (mem_of_cleanedData cleaned isSlot) rfl rfl
  · have users : ∀ entry ∈ new, entry.user = post.user := by
      intro entry isNew
      have isPair := List.mem_map_of_mem (f := fun entry : UserAvailability =>
        (entry.user, entry.event)) isNew
      rw [pairs] at isPair
      rcases List.mem_map.mp isPair with ⟨_, _, same⟩
      exact (Prod.mk.inj same).1.symm
    have noneNew : new.filter (fun entry => decide (entry.user = other)) = [] :=
      List.filter_eq_nil_iff.mpr fun entry isNew => by
        simpa [users entry isNew] using different.symm
    rw [rows, List.filter_append, noneNew, List.append_nil, deleteOld, Table.rows_delete,
      List.filter_filter]
    refine List.filter_congr fun entry _ => ?_
    by_cases mine : entry.user = other
    · simp [mine, different]
    · simp [mine]

/-- After valid posts, each user with a post is signed up for the choices of the last one only,
and the others are as they were. -/
theorem posts_spec (valid : AllValid site entries posts) :
    ∃ after, posts.foldlM (eventSignup site) entries = .ok after ∧
      ∀ user,
        (∀ last, lastOf posts user = some last → ∀ event, IsSlot site event →
          signups after user event = if last.Chooses event then 1 else 0) ∧
        (lastOf posts user = none → after.rows.filter (fun entry => entry.user = user) =
          entries.rows.filter fun entry => entry.user = user) := by
  induction posts generalizing entries with
  | nil =>
      refine ⟨entries, rfl, fun user => ⟨fun last isLast => ?_, fun _ => rfl⟩⟩
      cases isLast
  | cons post rest ih =>
      rcases valid with ⟨⟨data, cleaned⟩, laterValid⟩
      rcases eventSignup_spec cleaned with ⟨between, returns, chosen, others⟩
      rcases ih (laterValid between returns) with ⟨after, runs, users⟩
      refine ⟨after, by rw [List.foldlM_cons, returns]; exact runs, fun user => ?_⟩
      rcases users user with ⟨lastly, unchanged⟩
      by_cases isUser : post.user = user
      · have cons : lastOf (post :: rest) user = (lastOf rest user).or (some post) := by
          rw [lastOf, List.filter_cons_of_pos (by simpa using isUser), List.getLast?_cons, lastOf]
          cases (rest.filter fun post => decide (post.user = user)).getLast? <;> rfl
        rw [cons]
        cases isLast : lastOf rest user with
        | some last =>
            refine ⟨fun other same => ?_, fun absent => by cases absent⟩
            cases same
            exact lastly last isLast
        | none =>
            refine ⟨fun other same event isSlot => ?_, fun absent => by cases absent⟩
            cases same
            rw [← chosen event isSlot, isUser]
            exact signups_congr (unchanged isLast)
      · have cons : lastOf (post :: rest) user = lastOf rest user := by
          rw [lastOf, List.filter_cons_of_neg (by simpa using isUser), lastOf]
        rw [cons]
        exact ⟨lastly, fun absent => (unchanged absent).trans (others user (Ne.symm isUser))⟩

theorem AllValid.cleaned (valid : AllValid site entries posts) (isPost : post ∈ posts) :
    ∃ earlier data,
      cleanedData site earlier post.user post.now post.program post.values = .ok data := by
  induction posts generalizing entries with
  | nil => cases isPost
  | cons first rest ih =>
      rcases valid with ⟨⟨data, cleaned⟩, later⟩
      rcases List.mem_cons.mp isPost with rfl | isRest
      · exact ⟨entries, data, cleaned⟩
      · rcases eventSignup_spec cleaned with ⟨after, returns, _⟩
        exact ih (later after returns) isRest

theorem mem_of_lastPost {program : ℕ} (isPost : lastPost posts user program = some post) :
    post ∈ posts ∧ post.user = user ∧ post.program = program := by
  have found := List.mem_filter.mp (List.mem_of_getLast? isPost)
  exact ⟨found.1, of_decide_eq_true found.2⟩

theorem lastPost_of_lastOf {last : Post} (isLast : lastOf posts user = some last) :
    lastPost posts user last.program = some last := by
  rcases List.getLast?_eq_some_iff.mp isLast with ⟨earlier, filtered⟩
  have both : posts.filter (fun post => decide (post.user = user ∧ post.program = last.program)) =
      (posts.filter fun post => post.user = user).filter fun post => post.program = last.program := by
    rw [List.filter_filter]
    exact List.filter_congr fun post _ => by rw [Bool.decide_and, Bool.and_comm]
  rw [lastPost, both, filtered, List.filter_append, List.filter_singleton, decide_eq_true rfl]
  exact List.getLast?_concat

theorem exists_chooses
    (cleaned : cleanedData site entries post.user post.now post.program post.values = .ok data)
    {eventType : EventType} (isType : eventType ∈ site.eventTypes.rows)
    (notBlank : post.values eventType.id ≠ []) :
    ∃ event, IsSlot site event ∧ post.Chooses event := by
  rcases List.forall₂_iff_get.mp (mapM_eq_ok.mp cleaned) with ⟨sameLength, each⟩
  rcases List.mem_iff_get.mp isType with ⟨index, rfl⟩
  have field := each index index.isLt (sameLength ▸ index.isLt)
  cases chosen : data.get ⟨index, sameLength ▸ index.isLt⟩ with
  | none =>
      rw [chosen] at field
      exact absurd (eq_nil_of_cleanField field) notBlank
  | some event =>
      rw [chosen] at field
      have isTime := mem_getTimes.mp (of_cleanField field).1
      refine ⟨event, ⟨isTime.1, _, isType, isTime.2.2.symm⟩, isTime.2.1, ?_⟩
      rw [isTime.2.2]
      exact value_of_cleanField field

/-- The choices of the last post to each program are kept exactly if only the last post of the user
chooses something.  Those of users without a post are never touched. -/
theorem keepsChoices_iff (valid : AllValid site entries posts) :
    ∃ after, posts.foldlM (eventSignup site) entries = .ok after ∧
      (∀ user, KeepsChoices site posts after user ↔ OnlyLastChooses site posts user) ∧
      ∀ user, (∀ post ∈ posts, post.user ≠ user) →
        after.rows.filter (fun entry => entry.user = user) =
          entries.rows.filter fun entry => entry.user = user := by
  rcases posts_spec valid with ⟨after, runs, users⟩
  refine ⟨after, runs, fun user => ⟨?_, ?_⟩, fun user noPost => (users user).2 ?_⟩
  · intro keeps last isLast program post isPost elsewhere eventType isType
    by_contra notBlank
    have found := mem_of_lastPost isPost
    rcases valid.cleaned found.1 with ⟨earlier, data, cleaned⟩
    rcases exists_chooses cleaned isType notBlank with ⟨event, isSlot, chooses⟩
    have here : event.program = program := chooses.1.trans found.2.2
    have kept := keeps program post isPost event isSlot here
    rw [if_pos chooses, (users user).1 last isLast event isSlot,
      if_neg fun also => elsewhere (here.symm.trans also.1)] at kept
    exact absurd kept zero_ne_one
  · intro onlyLast program post isPost event isSlot here
    have found := mem_of_lastPost isPost
    cases isLast : lastOf posts user with
    | none =>
        rw [lastOf, List.getLast?_eq_none_iff, List.filter_eq_nil_iff] at isLast
        exact absurd (decide_eq_true found.2.1) (isLast post found.1)
    | some last =>
        rw [(users user).1 last isLast event isSlot]
        by_cases same : program = last.program
        · rw [same, lastPost_of_lastOf isLast] at isPost
          cases isPost
          rfl
        · rcases isSlot.2 with ⟨eventType, isType, sameType⟩
          have blank := onlyLast last isLast program post isPost same eventType isType
          rw [if_neg fun chooses : last.Chooses event => same (here.symm.trans chooses.1),
            if_neg fun chooses : post.Chooses event =>
              numeral_ne_nil (chooses.2.symm.trans (sameType ▸ blank))]
  · rw [lastOf, List.getLast?_eq_none_iff, List.filter_eq_nil_iff]
    exact fun post isPost => by simpa using noPost post isPost

end Posts

namespace Sample

/-- Two programs with a training each. -/
def trainings : Site where
  eventTypes := ⟨[⟨1, "Teacher Training"⟩], 2, by decide, by decide⟩
  events :=
    ⟨[⟨1, 1, 1, 100, "Training"⟩, ⟨2, 2, 1, 200, "Training"⟩], 3, by decide,
      by decide⟩

def toFirst (value : List Char) : Post := { user := 7, program := 1, values := fun _ => value, now := 0 }

def toSecond : Post := { user := 7, program := 2, values := fun _ => ['2'], now := 0 }

theorem allValid_toSecond {value : List Char} {between : Table UserAvailability}
    {data later : List (Option Event)}
    (cleaned : cleanedData trainings State.new.entries 7 0 1 (fun _ => value) = .ok data)
    (returns : eventSignup trainings State.new.entries (toFirst value) = .ok between)
    (next : cleanedData trainings between 7 0 2 (fun _ => ['2']) = .ok later) :
    AllValid trainings State.new.entries [toFirst value, toSecond] := by
  refine ⟨⟨data, cleaned⟩, fun after same => ?_⟩
  cases returns.symm.trans same
  exact ⟨⟨later, next⟩, fun _ _ => trivial⟩

def second : Event := ⟨2, 2, 1, 200, "Training"⟩

theorem keepsChoices_blank :
    ∃ after, [toFirst [], toSecond].foldlM (eventSignup trainings) State.new.entries = .ok after ∧
      (∀ user, KeepsChoices trainings [toFirst [], toSecond] after user ↔
        OnlyLastChooses trainings [toFirst [], toSecond] user) ∧
      ∀ user, (∀ post ∈ [toFirst [], toSecond], post.user ≠ user) →
        after.rows.filter (fun entry => entry.user = user) =
          State.new.entries.rows.filter fun entry => entry.user = user :=
  keepsChoices_iff (@allValid_toSecond [] State.new.entries [none] [some second]
    (by decide) (by decide) (by decide))

/-- The sign-up for the training of the second program deletes the one for that of the first. -/
theorem not_keepsChoices :
    ∃ after, AllValid trainings State.new.entries [toFirst ['1'], toSecond] ∧
      [toFirst ['1'], toSecond].foldlM (eventSignup trainings) State.new.entries = .ok after ∧
        ¬ KeepsChoices trainings [toFirst ['1'], toSecond] after 7 := by
  refine ⟨⟨[⟨1, 7, 2⟩], 2, by simp, by simp [Keyed.key]⟩,
    @allValid_toSecond ['1'] ⟨[⟨0, 7, 1⟩], 1, by simp, by simp [Keyed.key]⟩
      [some ⟨1, 1, 1, 100, "Training"⟩] [some second] (by decide) (by decide)
      (by decide), by decide, fun keeps => ?_⟩
  have kept := keeps 1 (toFirst ['1']) rfl ⟨1, 1, 1, 100, "Training"⟩
    ⟨by simp [trainings], _, List.mem_singleton_self _, rfl⟩ rfl
  revert kept
  decide

end Sample

end EspWebsite.TeacherEvents
