import EspWebsite.Scheduling.Timeslots

/-!
# Viable times

`viable_times` of `ClassSection`: the timeslots at which all teachers of a class are available long
enough for a section.
-/

namespace EspWebsite.Scheduling

open ArgCache

/-- `in`, which compares events by their starts. -/
def inList (event : Event) (events : List Event) : Bool := events.any (sameStart event)

/-- The loop of `intersect_lists` over `base_list`, of which some events are `passed`.  When one is
removed, the next one takes its place and is passed over. -/
def removeMissing (otherList : List Event) : List Event → List Event → List Event
  | passed, [] => passed
  | passed, elt :: rest =>
      if inList elt otherList then removeMissing otherList (passed ++ [elt]) rest
      else match rest with
        | [] => (passed ++ [elt]).eraseP (sameStart elt)
        | next :: rest =>
            removeMissing otherList ((passed ++ [elt]).eraseP (sameStart elt) ++ [next]) rest

def intersectLists : List (List Event) → List Event
  | [] => []
  | baseList :: otherLists =>
      otherLists.foldl (fun baseList otherList => removeMissing otherList [] baseList) baseList

/-- The meeting times that are not among some events are added to them. -/
def addMeetingTimes (availableTimes meetingTimes : List Event) : List Event :=
  meetingTimes.foldl (fun times k => if inList k times then times else times ++ [k]) availableTimes

/-- The events of a group from which on enough time remains. -/
def viableIn (duration : Option ℚ) (timegroup : List Event) : List Event :=
  (List.range timegroup.length).filterMap fun i =>
    if sufficientLength duration (timegroup.drop i) then timegroup[i]? else none

/-- `viable_times`, for the available times of the teachers. -/
def viableTimes (tol : ℤ) (duration : Option ℚ) (timeslotList : List (List Event))
    (meetingTimes : List Event) : List Event :=
  (groupContiguous tol (addMeetingTimes (intersectLists timeslotList) meetingTimes)).flatMap
    (viableIn duration)

/-- All teachers are available at an event, or the section has it already. -/
def Available (timeslotList : List (List Event)) (meetingTimes : List Event) (event : Event) :
    Prop :=
  (∀ available ∈ timeslotList, event ∈ available) ∨ event ∈ meetingTimes

/-- The events that are taken out of a list because another list does not have them: none of them
comes right after one that is taken out. -/
def takenOut (otherList : List Event) : Bool → List Event → List Event
  | _, [] => []
  | afterTaken, elt :: rest =>
      if afterTaken || inList elt otherList then takenOut otherList false rest
      else elt :: takenOut otherList true rest

/-- What a list keeps when some events are taken out of it, for each the first one that is equal. -/
def without (baseList taken : List Event) : List Event :=
  taken.foldl (fun kept elt => kept.eraseP (sameStart elt)) baseList

/-- What is left of the first teacher's times when events are taken out for one other teacher after
the other. -/
def remaining : List (List Event) → List Event
  | [] => []
  | baseList :: otherLists => otherLists.foldl
      (fun baseList otherList => without baseList (takenOut otherList false baseList)) baseList

/-- An event remains, or the section has it already. -/
def Left (timeslotList : List (List Event)) (meetingTimes : List Event) (event : Event) : Prop :=
  event ∈ remaining timeslotList ∨ event ∈ meetingTimes

instance (timeslotList : List (List Event)) (meetingTimes : List Event) :
    DecidablePred (Available timeslotList meetingTimes) :=
  fun _ => inferInstanceAs (Decidable (_ ∨ _))

instance (timeslotList : List (List Event)) (meetingTimes : List Event) :
    DecidablePred (Left timeslotList meetingTimes) :=
  fun _ => inferInstanceAs (Decidable (_ ∨ _))

/-- The run of contiguous timeslots among some, from one of them on, is long enough. -/
def Timeline.LongEnough (line : Timeline) (tol : ℤ) (duration : Option ℚ) (among : Event → Prop)
    [DecidablePred among] (event : Event) : Prop :=
  sufficientLength duration (contiguousFrom tol
    ((line.timeslots.filter fun other => among other).dropWhile fun other => other ≠ event)) = true

instance (line : Timeline) (tol : ℤ) (duration : Option ℚ) (among : Event → Prop)
    [DecidablePred among] : DecidablePred (line.LongEnough tol duration among) :=
  fun _ => inferInstanceAs (Decidable (_ = true))

/-- `viable_times` returns the right events. -/
def FindsViable (line : Timeline) (tol : ℤ) (duration : Option ℚ)
    (timeslotList : List (List Event)) (meetingTimes : List Event) : Prop :=
  ∀ event, event ∈ viableTimes tol duration timeslotList meetingTimes ↔
    Available timeslotList meetingTimes event ∧
      line.LongEnough tol duration (Available timeslotList meetingTimes) event

/-- The events that remain although a teacher is not available begin no run that is long enough, and
make none long enough. -/
def NoneSlips (line : Timeline) (tol : ℤ) (duration : Option ℚ)
    (timeslotList : List (List Event)) (meetingTimes : List Event) : Prop :=
  (∀ event ∈ remaining timeslotList, ¬Available timeslotList meetingTimes event →
    ¬line.LongEnough tol duration (Left timeslotList meetingTimes) event) ∧
    ∀ event, Available timeslotList meetingTimes event →
      line.LongEnough tol duration (Left timeslotList meetingTimes) event →
        line.LongEnough tol duration (Available timeslotList meetingTimes) event

variable {line : Timeline} {tol : ℤ} {duration : Option ℚ} {event last other : Event}
  {events rest baseList otherList passed available meetingTimes : List Event}
  {timeslotList : List (List Event)}

/-! ## Timelines -/

namespace Timeline

theorem endTime_le (isEvent : event ∈ line.timeslots) (isLast : last ∈ line.timeslots)
    (before : event.startTime < last.startTime) : event.endTime ≤ last.startTime := by
  have either : event = last ∨ event.endTime ≤ last.startTime ∨ last.endTime ≤ event.startTime :=
    List.Pairwise.forall_of_forall_of_flip
      (R := fun event last : Event =>
        event = last ∨ event.endTime ≤ last.startTime ∨ last.endTime ≤ event.startTime)
      (fun _ _ => .inl rfl) (line.disjoint.imp fun apart => .inr (.inl apart))
      (line.disjoint.imp fun apart => .inr (.inr apart)) isEvent isLast
  rcases either with rfl | apart | apart
  · exact absurd before (lt_irrefl _)
  · exact apart
  · exact absurd (apart.trans_lt before) (not_lt.mpr (line.proper last isLast).le)

theorem eq_of_startTime_eq (isEvent : event ∈ line.timeslots) (isLast : last ∈ line.timeslots)
    (same : event.startTime = last.startTime) : event = last := by
  by_contra different
  have either := List.Pairwise.forall_of_forall_of_flip
      (R := fun event last : Event =>
        event ≠ last → event.endTime ≤ last.startTime ∨ last.endTime ≤ event.startTime)
      (fun _ _ different => absurd rfl different) (line.disjoint.imp fun apart _ => .inl apart)
      (line.disjoint.imp fun apart _ => .inr apart) isEvent isLast different
  rcases either with apart | apart
  · exact absurd (line.proper event isEvent) (not_lt.mpr (apart.trans same.ge))
  · exact absurd (line.proper last isLast) (not_lt.mpr (apart.trans same.le))

theorem endTime_mono (isEvent : event ∈ line.timeslots) (isLast : last ∈ line.timeslots)
    (before : event.startTime ≤ last.startTime) : event.endTime ≤ last.endTime := by
  rcases before.eq_or_lt with same | earlier
  · rw [eq_of_startTime_eq isEvent isLast same]
  · exact (endTime_le isEvent isLast earlier).trans (line.proper last isLast).le

theorem sorted_timeslots :
    line.timeslots.Pairwise fun event next => event.startTime ≤ next.startTime := by
  refine List.Pairwise.imp_of_mem (fun isEvent _ apart => ?_) line.disjoint
  exact (line.proper _ isEvent).le.trans apart

end Timeline

/-! ## Runs -/

/-- Each of some events between two of them is contiguous with a later one. -/
def Reaches (tol : ℤ) (events : List Event) (event last : Event) : Prop :=
  last ∈ events ∧ event.startTime ≤ last.startTime ∧
    ∀ between ∈ events, event.startTime ≤ between.startTime → between.startTime < last.startTime →
      ∃ next ∈ events, between.startTime < next.startTime ∧ contiguous tol between next = true

theorem reaches_self : Reaches tol (event :: rest) event event :=
  ⟨List.mem_cons_self, le_rfl, fun _ _ after before => absurd before (not_lt.mpr after)⟩

theorem reaches_cons_iff (onLine : ∀ member ∈ event :: other :: rest, member ∈ line.timeslots)
    (sorted : (event :: other :: rest).Pairwise
      fun event next => event.startTime ≤ next.startTime) :
    Reaches tol (event :: other :: rest) event last ↔
      last = event ∨ contiguous tol event other = true ∧ Reaches tol (other :: rest) other last := by
  have before := List.pairwise_cons.mp sorted
  have afterOther : ∀ later ∈ other :: rest, other.startTime ≤ later.startTime := by
    intro later isLater
    rcases List.mem_cons.mp isLater with rfl | isRest
    · exact le_rfl
    · exact (List.pairwise_cons.mp before.2).1 later isRest
  constructor
  · intro reaches
    by_cases same : last = event
    · exact .inl same
    · right
      have isLater : last ∈ other :: rest := List.mem_of_ne_of_mem same reaches.1
      have later : event.startTime < last.startTime := by
        refine lt_of_le_of_ne reaches.2.1 fun equal => same ?_
        exact (Timeline.eq_of_startTime_eq (onLine event List.mem_cons_self)
          (onLine last reaches.1) equal).symm
      rcases reaches.2.2 event List.mem_cons_self le_rfl later with ⟨next, isNext, after, follows⟩
      have nextLater : next ∈ other :: rest := by
        refine List.mem_of_ne_of_mem (fun same => ?_) isNext
        rw [same] at after
        exact lt_irrefl _ after
      refine ⟨?_, isLater, afterOther last isLater, fun between isBetween from' until' => ?_⟩
      · rw [contiguous_iff] at follows ⊢
        exact lt_of_le_of_lt (sub_le_sub_right (afterOther next nextLater) _) follows
      · have fromEvent := before.1 between isBetween
        rcases reaches.2.2 between (List.mem_cons_of_mem _ isBetween) fromEvent until' with
          ⟨next, isNext, after, follows⟩
        refine ⟨next, List.mem_of_ne_of_mem (fun same => ?_) isNext, after, follows⟩
        rw [same] at after
        exact absurd after (not_lt.mpr fromEvent)
  · intro either
    rcases either with rfl | ⟨follows, reaches⟩
    · exact reaches_self
    · refine ⟨List.mem_cons_of_mem _ reaches.1, (before.1 last reaches.1), ?_⟩
      intro between isBetween from' until'
      have ofLater : between ∈ other :: rest → ∃ next ∈ event :: other :: rest,
          between.startTime < next.startTime ∧ contiguous tol between next = true := by
        intro isLater
        rcases reaches.2.2 between isLater (afterOther between isLater) until' with
          ⟨next, isNext, after, goesOn⟩
        exact ⟨next, List.mem_cons_of_mem _ isNext, after, goesOn⟩
      rcases List.mem_cons.mp isBetween with rfl | isLater
      · rcases (before.1 other List.mem_cons_self).eq_or_lt with same | earlier
        · refine ofLater ?_
          rw [Timeline.eq_of_startTime_eq (onLine between List.mem_cons_self)
            (onLine other (List.mem_cons_of_mem _ List.mem_cons_self)) same]
          exact List.mem_cons_self
        · exact ⟨other, List.mem_cons_of_mem _ List.mem_cons_self, earlier, follows⟩
      · exact ofLater isLater

theorem mem_contiguousFrom_iff (onLine : ∀ other ∈ event :: rest, other ∈ line.timeslots)
    (sorted : (event :: rest).Pairwise fun event next => event.startTime ≤ next.startTime) :
    last ∈ contiguousFrom tol (event :: rest) ↔ Reaches tol (event :: rest) event last := by
  induction rest generalizing event with
  | nil =>
      rw [contiguousFrom, List.mem_singleton]
      constructor
      · rintro rfl
        exact reaches_self
      · intro reaches
        exact List.mem_singleton.mp reaches.1
  | cons other rest ih =>
      have later := ih (fun next isNext => onLine next (List.mem_cons_of_mem _ isNext)) sorted.of_cons
      rw [reaches_cons_iff onLine sorted, ← later, contiguousFrom]
      cases follows : contiguous tol event other with
      | true => simp
      | false => simp

/-- An event reaches another one until whose end it is long enough. -/
def Covers (tol : ℤ) (duration : Option ℚ) (events : List Event) (event : Event) : Prop :=
  ∃ last, Reaches tol events event last ∧ durationOf duration * 3600 ≤ lengthTo event last

theorem sufficientLength_contiguousFrom_iff
    (onLine : ∀ other ∈ event :: rest, other ∈ line.timeslots)
    (sorted : (event :: rest).Pairwise fun event next => event.startTime ≤ next.startTime) :
    sufficientLength duration (contiguousFrom tol (event :: rest)) = true ↔
      Covers tol duration (event :: rest) event := by
  have isPrefix := contiguousFrom_prefix tol (event :: rest)
  have members : ∀ last, last ∈ contiguousFrom tol (event :: rest) ↔
      Reaches tol (event :: rest) event last := fun last => mem_contiguousFrom_iff onLine sorted
  rcases head_contiguousFrom tol event rest with ⟨more, isRun⟩
  rw [isRun] at isPrefix members ⊢
  have sortedRun := sorted.sublist isPrefix.sublist
  rw [sufficientLength, totalLength_of_sorted sortedRun, Bool.not_eq_true', decide_eq_false_iff_not,
    not_lt]
  constructor
  · intro enough
    exact ⟨_, (members _).mp (List.getLast_mem _), enough⟩
  · intro covers
    rcases covers with ⟨last, reaches, enough⟩
    have isLast := (members last).mpr reaches
    have isFinal := List.getLast_mem (List.cons_ne_nil event more)
    have startsBefore := sortedRun.rel_getLast_of_rel_getLast_getLast isLast le_rfl
    have lastOn := onLine last (isPrefix.subset isLast)
    have finalOn := onLine _ (isPrefix.subset isFinal)
    refine enough.trans ?_
    exact_mod_cast lengthTo_mono (reaches.2.1.trans (line.proper last lastOn).le)
      (Timeline.endTime_mono lastOn finalOn startsBefore)

theorem Covers.congr (same : ∀ other, event.startTime ≤ other.startTime →
      (other ∈ events ↔ other ∈ rest)) (covers : Covers tol duration events event) :
    Covers tol duration rest event := by
  rcases covers with ⟨last, reaches, enough⟩
  refine ⟨last, ⟨(same last reaches.2.1).mp reaches.1, reaches.2.1, ?_⟩, enough⟩
  intro between isBetween after before
  rcases reaches.2.2 between ((same between after).mpr isBetween) after before with
    ⟨next, isNext, later, follows⟩
  exact ⟨next, (same next (after.trans later.le)).mp isNext, later, follows⟩

theorem exists_last_before {time : ℤ} (isEvent : event ∈ events) (before : event.startTime ≤ time) :
    ∃ earlier ∈ events, event.startTime ≤ earlier.startTime ∧ earlier.startTime ≤ time ∧
      ∀ other ∈ events, other.startTime ≤ time → other.startTime ≤ earlier.startTime := by
  have isSome : event ∈ events.filter fun other => other.startTime ≤ time :=
    List.mem_filter.mpr ⟨isEvent, decide_eq_true before⟩
  cases latest : (events.filter fun other => other.startTime ≤ time).argmax Event.startTime with
  | none =>
      rw [List.argmax_eq_none.mp latest] at isSome
      cases isSome
  | some earlier =>
      have isEarlier := List.mem_filter.mp (List.argmax_mem latest)
      refine ⟨earlier, isEarlier.1, List.le_of_mem_argmax isSome latest, ?_, ?_⟩
      · exact of_decide_eq_true isEarlier.2
      · intro other isOther otherBefore
        exact List.le_of_mem_argmax (List.mem_filter.mpr ⟨isOther, decide_eq_true otherBefore⟩) latest

theorem Covers.mono (onLine : ∀ other ∈ rest, other ∈ line.timeslots)
    (more : ∀ other ∈ events, other ∈ rest) (isEvent : event ∈ events)
    (covers : Covers tol duration events event) : Covers tol duration rest event := by
  rcases covers with ⟨last, reaches, enough⟩
  refine ⟨last, ⟨more last reaches.1, reaches.2.1, ?_⟩, enough⟩
  intro between isBetween after before
  rcases exists_last_before isEvent after with ⟨earlier, isEarlier, fromEvent, notLater, isLast⟩
  rcases reaches.2.2 earlier isEarlier fromEvent (notLater.trans_lt before) with
    ⟨next, isNext, later, follows⟩
  refine ⟨next, more next isNext, ?_, ?_⟩
  · by_contra notAfter
    exact absurd later (not_lt.mpr (isLast next isNext (not_lt.mp notAfter)))
  · have ends := Timeline.endTime_mono (onLine earlier (more earlier isEarlier))
      (onLine between isBetween) notLater
    rw [contiguous_iff] at follows ⊢
    exact lt_of_le_of_lt (sub_le_sub_left ends _) follows

/-! ## The loops -/

theorem sameStart_iff : sameStart event other = true ↔ event.startTime = other.startTime :=
  decide_eq_true_iff

theorem inList_congr (same : event.startTime = other.startTime) :
    inList event events = inList other events := by
  rw [inList, inList]
  congr 1
  funext next
  rw [sameStart, sameStart, same]

theorem inList_of_mem (isEvent : event ∈ events) : inList event events = true :=
  List.any_eq_true.mpr ⟨event, isEvent, sameStart_iff.mpr rfl⟩

theorem mem_of_mem_removeMissing (isLeft : event ∈ removeMissing otherList passed rest) :
    event ∈ passed ++ rest := by
  fun_induction removeMissing otherList passed rest with
  | case1 passed => simpa using isLeft
  | case2 passed elt rest found ih => simpa [List.append_assoc] using ih isLeft
  | case3 passed elt missing => exact List.mem_of_mem_eraseP isLeft
  | case4 passed elt missing next rest ih =>
      rcases List.mem_append.mp (ih isLeft) with isPassed | isRest
      · rcases List.mem_append.mp isPassed with isOld | isNext
        · have isOld := List.mem_of_mem_eraseP isOld
          simp only [List.mem_append, List.mem_singleton] at isOld
          rcases isOld with isOld | rfl
          · exact List.mem_append_left _ isOld
          · exact List.mem_append_right _ List.mem_cons_self
        · rw [List.mem_singleton.mp isNext]
          exact List.mem_append_right _ (List.mem_cons_of_mem _ List.mem_cons_self)
      · exact List.mem_append_right _ (List.mem_cons_of_mem _ (List.mem_cons_of_mem _ isRest))

theorem mem_removeMissing (isEvent : event ∈ passed ++ rest)
    (found : inList event otherList = true) : event ∈ removeMissing otherList passed rest := by
  have stays : ∀ elt, ¬inList elt otherList = true → ¬sameStart elt event = true := by
    intro elt missing same
    rw [inList_congr (sameStart_iff.mp same)] at missing
    exact missing found
  fun_induction removeMissing otherList passed rest with
  | case1 passed => simpa using isEvent
  | case2 passed elt rest isIn ih => exact ih (by simpa [List.append_assoc] using isEvent)
  | case3 passed elt missing =>
      exact (List.mem_eraseP_of_neg (stays elt missing)).mpr isEvent
  | case4 passed elt missing next rest ih =>
      refine ih ?_
      have kept : event ∈ passed ++ [elt] → event ∈ (passed ++ [elt]).eraseP (sameStart elt) :=
        fun isOld => (List.mem_eraseP_of_neg (stays elt missing)).mpr isOld
      simp only [List.mem_append, List.mem_cons, List.not_mem_nil, or_false] at isEvent kept ⊢
      tauto

theorem mem_foldl_removeMissing {otherLists : List (List Event)} (isBase : event ∈ baseList)
    (isOther : ∀ otherList ∈ otherLists, event ∈ otherList) :
    event ∈ otherLists.foldl
      (fun baseList otherList => removeMissing otherList [] baseList) baseList := by
  induction otherLists generalizing baseList with
  | nil => exact isBase
  | cons otherList otherLists ih =>
      rw [List.forall_mem_cons] at isOther
      exact ih (mem_removeMissing isBase (inList_of_mem isOther.1)) isOther.2

theorem mem_of_mem_foldl_removeMissing {otherLists : List (List Event)}
    (isLeft : event ∈ otherLists.foldl
      (fun baseList otherList => removeMissing otherList [] baseList) baseList) :
    event ∈ baseList := by
  induction otherLists generalizing baseList with
  | nil => exact isLeft
  | cons otherList otherLists ih => exact mem_of_mem_removeMissing (ih isLeft)

theorem removeMissing_eq : removeMissing otherList passed rest =
    without (passed ++ rest) (takenOut otherList false rest) := by
  fun_induction removeMissing otherList passed rest with
  | case1 passed => simp [without, takenOut]
  | case2 passed elt rest found ih =>
      rw [ih, takenOut, if_pos (by simp [found]), List.append_assoc, List.singleton_append]
  | case3 passed elt missing =>
      rw [takenOut, if_neg (by simp [missing])]
      simp [without, takenOut]
  | case4 passed elt missing next rest ih =>
      have isThere : ∃ other ∈ passed ++ [elt], sameStart elt other = true :=
        ⟨elt, List.mem_append_right _ List.mem_cons_self, sameStart_iff.mpr rfl⟩
      have erased : (passed ++ elt :: next :: rest).eraseP (sameStart elt) =
          (passed ++ [elt]).eraseP (sameStart elt) ++ next :: rest := by
        rw [← List.singleton_append (x := elt), ← List.append_assoc]
        rcases isThere with ⟨other, isOther, same⟩
        exact List.eraseP_append_left same _ isOther
      rw [ih, takenOut, if_neg (by simp [missing]), takenOut, if_pos (by simp), without, without,
        List.foldl_cons, erased, List.append_assoc, List.singleton_append]

theorem intersectLists_eq : intersectLists timeslotList = remaining timeslotList := by
  cases timeslotList with
  | nil => rfl
  | cons baseList otherLists =>
      rw [intersectLists, remaining]
      congr 1
      funext baseList otherList
      rw [removeMissing_eq, List.nil_append]

theorem left_of_available (teachers : timeslotList ≠ [])
    (isAvailable : Available timeslotList meetingTimes event) :
    Left timeslotList meetingTimes event := by
  rcases isAvailable with all | isMeeting
  · cases timeslotList with
    | nil => exact absurd rfl teachers
    | cons baseList otherLists =>
        rw [List.forall_mem_cons] at all
        have remains := mem_foldl_removeMissing all.1 all.2
        rw [Left, ← intersectLists_eq]
        exact .inl remains
  · exact .inr isMeeting

theorem mem_timeslots_of_left (onLine : ∀ available ∈ timeslotList, ∀ event ∈ available,
      event ∈ line.timeslots) (meetingOn : ∀ event ∈ meetingTimes, event ∈ line.timeslots)
    (isLeft : Left timeslotList meetingTimes event) : event ∈ line.timeslots := by
  rw [Left, ← intersectLists_eq] at isLeft
  rcases isLeft with isLeft | isMeeting
  · cases timeslotList with
    | nil => cases isLeft
    | cons baseList otherLists =>
        exact onLine baseList List.mem_cons_self event (mem_of_mem_foldl_removeMissing isLeft)
  · exact meetingOn event isMeeting

theorem mem_addMeetingTimes (availableOn : ∀ event ∈ available, event ∈ line.timeslots)
    (meetingOn : ∀ event ∈ meetingTimes, event ∈ line.timeslots) :
    event ∈ addMeetingTimes available meetingTimes ↔ event ∈ available ∨ event ∈ meetingTimes := by
  rw [addMeetingTimes]
  induction meetingTimes generalizing available with
  | nil => simp
  | cons k meetingTimes ih =>
      rw [List.forall_mem_cons] at meetingOn
      rw [List.foldl_cons]
      split
      next found =>
        rcases List.any_eq_true.mp found with ⟨other, isOther, same⟩
        have isK : k ∈ available := by
          rw [Timeline.eq_of_startTime_eq meetingOn.1 (availableOn other isOther)
            (sameStart_iff.mp same)]
          exact isOther
        rw [ih availableOn meetingOn.2, List.mem_cons]
        constructor
        · tauto
        · rintro (isAvailable | rfl | isMeeting)
          · exact .inl isAvailable
          · exact .inl isK
          · exact .inr isMeeting
      next =>
        have moreOn : ∀ event ∈ available ++ [k], event ∈ line.timeslots := by
          intro event isEvent
          rcases List.mem_append.mp isEvent with isOld | isNew
          · exact availableOn event isOld
          · rw [List.mem_singleton.mp isNew]
            exact meetingOn.1
        rw [ih moreOn meetingOn.2, List.mem_append, List.mem_singleton, List.mem_cons, or_assoc]

theorem mem_viableIn {timegroup : List Event} : event ∈ viableIn duration timegroup ↔
    ∃ after, event :: after <:+ timegroup ∧ sufficientLength duration (event :: after) = true := by
  rw [viableIn, List.mem_filterMap]
  constructor
  · intro some
    rcases some with ⟨i, _, isViable⟩
    split at isViable
    next enough =>
      rcases List.getElem?_eq_some_iff.mp isViable with ⟨inside, same⟩
      have remains : timegroup.drop i = event :: timegroup.drop (i + 1) := by
        rw [List.drop_eq_getElem_cons inside, same]
      rw [remains] at enough
      exact ⟨_, remains ▸ List.drop_suffix i timegroup, enough⟩
    next => cases isViable
  · intro some
    rcases some with ⟨after, isSuffix, enough⟩
    rcases isSuffix with ⟨before, rfl⟩
    refine ⟨before.length, by simp, ?_⟩
    rw [List.drop_left, if_pos enough]
    simp

/-! ## Viable events -/

theorem covers_suffix_iff (onLine : ∀ other ∈ events, other ∈ line.timeslots)
    (sorted : events.Pairwise fun event next => event.startTime ≤ next.startTime)
    (isSuffix : event :: rest <:+ events) :
    sufficientLength duration (contiguousFrom tol (event :: rest)) = true ↔
      Covers tol duration events event := by
  have restOn : ∀ other ∈ event :: rest, other ∈ line.timeslots :=
    fun other isOther => onLine other (isSuffix.subset isOther)
  rw [sufficientLength_contiguousFrom_iff restOn (sorted.sublist isSuffix.sublist)]
  have same : ∀ other, event.startTime ≤ other.startTime →
      (other ∈ event :: rest ↔ other ∈ events) := by
    intro other notBefore
    refine ⟨fun isOther => isSuffix.subset isOther, fun isOther => ?_⟩
    rcases isSuffix with ⟨before, rfl⟩
    rcases List.mem_append.mp isOther with isBefore | isRest
    · have notAfter := (List.pairwise_append.mp sorted).2.2 other isBefore event List.mem_cons_self
      rw [Timeline.eq_of_startTime_eq (onLine other isOther) (restOn event List.mem_cons_self)
        (le_antisymm notAfter notBefore)]
      exact List.mem_cons_self
    · exact isRest
  exact ⟨fun covers => covers.congr same,
    fun covers => covers.congr fun other notBefore => (same other notBefore).symm⟩

theorem dropWhile_ne_eq (isEvent : event ∈ events) :
    ∃ after, (events.dropWhile fun other => other ≠ event) = event :: after := by
  induction events with
  | nil => cases isEvent
  | cons first rest ih =>
      by_cases same : first = event
      · exact ⟨rest, by rw [List.dropWhile_cons_of_neg (by simp [same]), same]⟩
      · rw [List.dropWhile_cons_of_pos (by simp [same])]
        exact ih (List.mem_of_ne_of_mem (Ne.symm same) isEvent)

theorem longEnough_iff {among : Event → Prop} [DecidablePred among]
    (isEvent : event ∈ line.timeslots) (isAmong : among event) :
    line.LongEnough tol duration among event ↔
      Covers tol duration (line.timeslots.filter fun other => among other) event := by
  have isMember : event ∈ line.timeslots.filter fun other => among other :=
    List.mem_filter.mpr ⟨isEvent, decide_eq_true isAmong⟩
  rcases dropWhile_ne_eq isMember with ⟨after, from'⟩
  rw [Timeline.LongEnough, from']
  refine covers_suffix_iff (fun other isOther => List.mem_of_mem_filter isOther)
    (Timeline.sorted_timeslots.filter _) ?_
  rw [← from']
  exact List.dropWhile_suffix _

theorem mem_byStart : event ∈ byStart events ↔ event ∈ events := List.mem_insertionSort _

theorem mem_viableTimes_iff (onLine : ∀ available ∈ timeslotList, ∀ event ∈ available,
      event ∈ line.timeslots) (meetingOn : ∀ event ∈ meetingTimes, event ∈ line.timeslots) :
    event ∈ viableTimes tol duration timeslotList meetingTimes ↔
      Left timeslotList meetingTimes event ∧
        line.LongEnough tol duration (Left timeslotList meetingTimes) event := by
  have leftOn : ∀ other, Left timeslotList meetingTimes other → other ∈ line.timeslots :=
    fun other isLeft => mem_timeslots_of_left onLine meetingOn isLeft
  have members : ∀ other, other ∈ byStart (addMeetingTimes (remaining timeslotList)
      meetingTimes) ↔ Left timeslotList meetingTimes other := by
    intro other
    rw [mem_byStart, mem_addMeetingTimes (fun event isLeft => leftOn event (.inl isLeft)) meetingOn]
    rfl
  have sorted := List.pairwise_insertionSort
    (fun event other : Event => event.startTime ≤ other.startTime)
    (addMeetingTimes (remaining timeslotList) meetingTimes)
  have covers : (∃ after, event :: after <:+ byStart (addMeetingTimes (remaining timeslotList)
      meetingTimes) ∧ sufficientLength duration (contiguousFrom tol (event :: after)) = true) ↔
        Left timeslotList meetingTimes event ∧ Covers tol duration (byStart (addMeetingTimes
          (remaining timeslotList) meetingTimes)) event := by
    constructor
    · intro some
      rcases some with ⟨after, isSuffix, enough⟩
      exact ⟨(members event).mp (isSuffix.subset List.mem_cons_self), (covers_suffix_iff
        (fun other isOther => leftOn other ((members other).mp isOther)) sorted isSuffix).mp enough⟩
    · intro both
      rcases List.append_of_mem ((members event).mpr both.1) with ⟨before, after, split⟩
      have isSuffix : event :: after <:+ byStart (addMeetingTimes (remaining timeslotList)
          meetingTimes) := ⟨before, split.symm⟩
      exact ⟨after, isSuffix, (covers_suffix_iff
        (fun other isOther => leftOn other ((members other).mp isOther)) sorted isSuffix).mpr both.2⟩
  rw [viableTimes, intersectLists_eq, List.mem_flatMap]
  simp only [mem_viableIn]
  rw [exists_groupContiguous_iff fun events => sufficientLength duration events = true,
    covers]
  refine and_congr_right fun isLeft => ?_
  rw [longEnough_iff (leftOn event isLeft) isLeft]
  have same : ∀ other, event.startTime ≤ other.startTime →
      (other ∈ byStart (addMeetingTimes (remaining timeslotList) meetingTimes) ↔
        other ∈ line.timeslots.filter fun other => Left timeslotList meetingTimes other) := by
    intro other _
    rw [members, List.mem_filter, decide_eq_true_iff]
    exact ⟨fun isLeft => ⟨leftOn other isLeft, isLeft⟩, fun both => both.2⟩
  exact ⟨fun covers => covers.congr same,
    fun covers => covers.congr fun other notBefore => (same other notBefore).symm⟩

theorem longEnough_left (teachers : timeslotList ≠ [])
    (onLine : ∀ available ∈ timeslotList, ∀ event ∈ available, event ∈ line.timeslots)
    (meetingOn : ∀ event ∈ meetingTimes, event ∈ line.timeslots)
    (isAvailable : Available timeslotList meetingTimes event)
    (enough : line.LongEnough tol duration (Available timeslotList meetingTimes) event) :
    line.LongEnough tol duration (Left timeslotList meetingTimes) event := by
  have isLeft := left_of_available teachers isAvailable
  have isOn := mem_timeslots_of_left onLine meetingOn isLeft
  rw [longEnough_iff isOn isAvailable] at enough
  rw [longEnough_iff isOn isLeft]
  refine enough.mono (fun other isOther => List.mem_of_mem_filter isOther) (fun other isOther => ?_)
    (List.mem_filter.mpr ⟨isOn, decide_eq_true isAvailable⟩)
  rcases List.mem_filter.mp isOther with ⟨otherOn, otherAvailable⟩
  exact List.mem_filter.mpr ⟨otherOn, decide_eq_true
    (left_of_available teachers (of_decide_eq_true otherAvailable))⟩

/-- `viable_times` returns the right events exactly if those that remain by mistake begin no run that
is long enough, and make none long enough. -/
theorem findsViable_iff (line : Timeline) (tol : ℤ) (duration : Option ℚ)
    (timeslotList : List (List Event)) (meetingTimes : List Event) (teachers : timeslotList ≠ [])
    (onLine : ∀ available ∈ timeslotList, ∀ event ∈ available, event ∈ line.timeslots)
    (meetingOn : ∀ event ∈ meetingTimes, event ∈ line.timeslots) :
    FindsViable line tol duration timeslotList meetingTimes ↔
      NoneSlips line tol duration timeslotList meetingTimes := by
  rw [FindsViable]
  simp only [mem_viableTimes_iff onLine meetingOn]
  constructor
  · intro finds
    refine ⟨fun event isLeft slips enough => ?_, fun event isAvailable enough => ?_⟩
    · exact slips ((finds event).mp ⟨.inl isLeft, enough⟩).1
    · exact ((finds event).mp ⟨left_of_available teachers isAvailable, enough⟩).2
  · intro none event
    constructor
    · intro both
      have isAvailable : Available timeslotList meetingTimes event := by
        by_contra slips
        rcases both.1 with isLeft | isMeeting
        · exact none.1 event isLeft slips both.2
        · exact slips (.inr isMeeting)
      exact ⟨isAvailable, none.2 event isAvailable both.2⟩
    · intro both
      exact ⟨left_of_available teachers both.1,
        longEnough_left teachers onLine meetingOn both.1 both.2⟩

namespace Sample

/-- Three hours, one after the other. -/
def first : Event := ⟨1, 0, 3600000000⟩

def second : Event := ⟨2, 3600000000, 7200000000⟩

def third : Event := ⟨3, 7200000000, 10800000000⟩

def hours : Timeline where
  timeslots := [first, second, third]
  proper := by decide
  disjoint := by decide

/-- Two teachers are available for the third hour. -/
theorem finds_third : FindsViable hours 20 (some 1) [[third], [third]] [] := by
  have isThird : ∀ event, Available [[third], [third]] [] event → event = third := by
    intro event isAvailable
    rcases isAvailable with all | none
    · exact List.mem_singleton.mp (all [third] List.mem_cons_self)
    · cases none
  refine (findsViable_iff hours 20 (some 1) [[third], [third]] [] (by decide) (by decide)
    (by decide)).mpr ⟨fun event isLeft slips => ?_, fun event isAvailable _ => ?_⟩
  · have left : remaining [[third], [third]] = [third] := by decide
    rw [left, List.mem_singleton] at isLeft
    rw [isLeft] at slips
    exact absurd (by decide) slips
  · rw [isThird event isAvailable]
    decide +kernel

/-- One teacher is available for all three hours and the other one for the third: the second hour is
passed over when the first one is removed. -/
theorem finds_second : ¬FindsViable hours 20 (some 1) [[first, second, third], [third]] [] := by
  intro finds
  have isViable : second ∈ viableTimes 20 (some 1) [[first, second, third], [third]] [] := by
    decide +kernel
  exact absurd ((finds second).mp isViable).1 (by decide)

end Sample

end EspWebsite.Scheduling
