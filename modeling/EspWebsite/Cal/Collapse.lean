import EspWebsite.Utils.ExpirableModel

/-!
# Collapsing events

`collapse` of `Event`: events that follow one another closely become one.
-/

namespace EspWebsite.Cal

/-- `Event`.  One that is not saved has no id. -/
structure Event where
  id : Option ℕ
  startTime : DateTime
  endTime : DateTime
  deriving DecidableEq

namespace Event

/-- A time within the event. -/
def Contains (event : Event) (time : DateTime) : Prop :=
  event.startTime ≤ time ∧ time < event.endTime

/-- Whether an event begins at most so long after another one has ended. -/
def follows (tol : ℤ) (event next : Event) : Bool := next.startTime ≤ event.endTime + tol

/-- `sort` by start. -/
def byStart (events : List Event) : List Event :=
  events.insertionSort fun event other => event.startTime ≤ other.startTime

/-- The loop of `collapse`, with what has become of the event before. -/
def collapseFrom (tol : ℤ) : Event → List Event → List Event
  | last, [] => [last]
  | last, event :: rest =>
      if last.follows tol event then collapseFrom tol ⟨none, last.startTime, event.endTime⟩ rest
      else last :: collapseFrom tol event rest

def collapse (tol : ℤ) (events : List Event) : List Event :=
  match byStart events with
  | [] => []
  | first :: rest => collapseFrom tol first rest

/-- The events that follow one another closely, when they are sorted. -/
def runs (tol : ℤ) (events : List Event) : List (List Event) :=
  (byStart events).splitBy (follows tol)

/-- What collapsed events should be like. -/
structure Collapses (tol : ℤ) (events result : List Event) : Prop where
  sorted : result.Pairwise fun event next => event.startTime ≤ next.startTime
  apart : result.IsChain fun event next => event.endTime + tol < next.startTime
  covers : ∀ event ∈ events, ∀ time, event.Contains time → ∃ other ∈ result, other.Contains time
  starts : ∀ event ∈ result, ∃ other ∈ events, event.startTime = other.startTime
  ends : ∀ event ∈ result, ∃ other ∈ events, event.endTime = other.endTime
  again : collapse tol result = result

/-- An event extends from the start of the first event of a run to the end of the last one. -/
def Spans (event : Event) (run : List Event) : Prop :=
  (∃ first ∈ run.head?, event.startTime = first.startTime) ∧
    ∃ final ∈ run.getLast?, event.endTime = final.endTime

/-- A time from the start of the first event of a run to the end of the last one. -/
def Within (run : List Event) (time : DateTime) : Prop :=
  ∃ first ∈ run.head?, ∃ final ∈ run.getLast?, first.startTime ≤ time ∧ time < final.endTime

/-- Other runs cover what an event has left at the end of the last event of its run. -/
def NoneSticksOut (tol : ℤ) (events : List Event) : Prop :=
  ∀ run ∈ runs tol events, ∀ event ∈ run, ∀ final ∈ run.getLast?, ∀ time, event.Contains time →
    final.endTime ≤ time → ∃ other ∈ runs tol events, Within other time

variable {tol : ℤ} {last event : Event} {events rest run : List Event} {time : DateTime}

theorem follows_iff : last.follows tol event = true ↔
    event.startTime ≤ last.endTime + tol := decide_eq_true_iff

theorem mem_byStart : event ∈ byStart events ↔ event ∈ events := List.mem_insertionSort _

theorem pairwise_byStart (events : List Event) :
    (byStart events).Pairwise fun event next => event.startTime ≤ next.startTime :=
  List.pairwise_insertionSort (fun event other : Event => event.startTime ≤ other.startTime) events

/-! ## The loop -/

theorem head_collapseFrom (isHead : event ∈ (collapseFrom tol last rest).head?) :
    event.startTime = last.startTime := by
  induction rest generalizing last with
  | nil =>
      cases isHead
      rfl
  | cons next rest ih =>
      rw [collapseFrom] at isHead
      split at isHead
      next =>
        have merged := ih isHead
        exact merged
      next =>
        cases isHead
        rfl

theorem times_of_mem_collapseFrom (isEvent : event ∈ collapseFrom tol last rest) :
    (∃ first ∈ last :: rest, event.startTime = first.startTime) ∧
      ∃ final ∈ last :: rest, event.endTime = final.endTime := by
  induction rest generalizing last with
  | nil => exact ⟨⟨event, isEvent, rfl⟩, event, isEvent, rfl⟩
  | cons next rest ih =>
      rw [collapseFrom] at isEvent
      split at isEvent
      next =>
        rcases ih isEvent with ⟨⟨first, isFirst, sameStart⟩, final, isFinal, sameEnd⟩
        constructor
        · rcases List.mem_cons.mp isFirst with rfl | isRest
          · exact ⟨last, List.mem_cons_self, sameStart⟩
          · exact ⟨first, List.mem_cons_of_mem _ (List.mem_cons_of_mem _ isRest), sameStart⟩
        · rcases List.mem_cons.mp isFinal with rfl | isRest
          · exact ⟨next, List.mem_cons_of_mem _ List.mem_cons_self, sameEnd⟩
          · exact ⟨final, List.mem_cons_of_mem _ (List.mem_cons_of_mem _ isRest), sameEnd⟩
      next =>
        rcases List.mem_cons.mp isEvent with rfl | isLater
        · exact ⟨⟨event, List.mem_cons_self, rfl⟩, event, List.mem_cons_self, rfl⟩
        · rcases ih isLater with ⟨⟨first, isFirst, sameStart⟩, final, isFinal, sameEnd⟩
          exact ⟨⟨first, List.mem_cons_of_mem _ isFirst, sameStart⟩, final,
            List.mem_cons_of_mem _ isFinal, sameEnd⟩

theorem pairwise_collapseFrom
    (sorted : (last :: rest).Pairwise fun event next => event.startTime ≤ next.startTime) :
    (collapseFrom tol last rest).Pairwise fun event next => event.startTime ≤ next.startTime := by
  induction rest generalizing last with
  | nil => exact List.pairwise_singleton _ _
  | cons next rest ih =>
      rw [List.pairwise_cons] at sorted
      rw [collapseFrom]
      split
      next =>
        refine ih (List.pairwise_cons.mpr ⟨fun other isOther => ?_, sorted.2.of_cons⟩)
        exact sorted.1 other (List.mem_cons_of_mem _ isOther)
      next =>
        refine List.pairwise_cons.mpr ⟨fun event isEvent => ?_, ih sorted.2⟩
        rcases (times_of_mem_collapseFrom isEvent).1 with ⟨other, isOther, same⟩
        rw [same]
        exact sorted.1 other isOther

theorem isChain_collapseFrom : (collapseFrom tol last rest).IsChain
    fun event next => event.endTime + tol < next.startTime := by
  induction rest generalizing last with
  | nil => exact List.isChain_singleton _
  | cons next rest ih =>
      rw [collapseFrom]
      split
      next => exact ih
      next apart =>
        refine List.isChain_cons.mpr ⟨fun event isHead => ?_, ih⟩
        rw [head_collapseFrom isHead]
        exact not_le.mp fun follows => apart (follows_iff.mpr follows)

theorem collapseFrom_of_apart (apart : (last :: rest).IsChain
    fun event next => event.endTime + tol < next.startTime) :
    collapseFrom tol last rest = last :: rest := by
  induction rest generalizing last with
  | nil => rfl
  | cons next rest ih =>
      rw [List.isChain_cons_cons] at apart
      rw [collapseFrom, if_neg, ih apart.2]
      intro follows
      exact absurd (follows_iff.mp follows) (not_le.mpr apart.1)

theorem collapse_of_apart
    (sorted : events.Pairwise fun event next => event.startTime ≤ next.startTime)
    (apart : events.IsChain fun event next => event.endTime + tol < next.startTime) :
    collapse tol events = events := by
  have same : byStart events = events := List.Pairwise.insertionSort_eq sorted
  rw [collapse, same]
  cases events with
  | nil => rfl
  | cons first rest => exact collapseFrom_of_apart apart

/-! ## Runs -/

/-- An event that is left is the only one of its run, or was merged. -/
def Merges (event : Event) (run : List Event) : Prop :=
  run = [event] ∨ event.id = none ∧ 2 ≤ run.length

theorem forall₂_merges_collapseFrom (spans : last.Spans run) (merges : last.Merges run)
    (chain : run.IsChain fun event next => event.follows tol next = true) :
    List.Forall₂ (fun event run => Spans event run ∧ Merges event run) (collapseFrom tol last rest)
      ((run ++ rest).splitBy (follows tol)) := by
  have nonempty : run ≠ [] := by
    rintro rfl
    rcases spans.1 with ⟨first, isFirst, _⟩
    cases isFirst
  rcases spans.2 with ⟨final, isFinal, sameEnd⟩
  induction rest generalizing last run final with
  | nil =>
      rw [List.append_nil, List.splitBy_of_isChain nonempty chain]
      exact List.Forall₂.cons ⟨spans, merges⟩ List.Forall₂.nil
  | cons next rest ih =>
      have follows : last.follows tol next = final.follows tol next := by
        rw [follows, follows, sameEnd]
      have single : next.Spans [next] := ⟨⟨next, rfl, rfl⟩, next, rfl, rfl⟩
      rw [collapseFrom, follows]
      cases merged : final.follows tol next with
      | true =>
          rw [if_pos rfl, ← List.singleton_append (x := next), ← List.append_assoc]
          have isLast' : next ∈ (run ++ [next]).getLast? := by
            rw [List.getLast?_append]
            rfl
          refine ih ⟨?_, next, isLast', rfl⟩ (Or.inr ⟨rfl, ?_⟩) ?_
            (List.append_ne_nil_of_left_ne_nil nonempty _) next isLast' rfl
          · rcases spans.1 with ⟨first, isFirst, same⟩
            refine ⟨first, ?_, same⟩
            rw [List.head?_append, Option.mem_def.mp isFirst]
            rfl
          · have positive := List.length_pos_of_ne_nil nonempty
            rw [List.length_append, List.length_singleton]
            omega
          · refine List.isChain_append.mpr ⟨chain, List.isChain_singleton _, ?_⟩
            intro other isOther after isAfter
            rw [Option.mem_unique isOther isFinal]
            cases isAfter
            exact merged
      | false =>
          rw [if_neg Bool.false_ne_true, List.splitBy_append_cons, List.splitBy_of_isChain nonempty
            chain]
          · exact List.Forall₂.cons ⟨spans, merges⟩ (ih single (Or.inl rfl)
              (List.isChain_singleton _) (List.cons_ne_nil _ _) next rfl rfl)
          · intro other isOther
            rw [Option.mem_unique isOther isFinal]
            exact merged

theorem forall₂_merges_collapse (tol : ℤ) (events : List Event) :
    List.Forall₂ (fun event run => Spans event run ∧ Merges event run) (collapse tol events)
      (runs tol events) := by
  rw [collapse, runs]
  cases byStart events with
  | nil => exact List.Forall₂.nil
  | cons first rest =>
      have single : first.Spans [first] := ⟨⟨first, rfl, rfl⟩, first, rfl, rfl⟩
      exact forall₂_merges_collapseFrom single (Or.inl rfl) (List.isChain_singleton _)

theorem forall₂_collapse (tol : ℤ) (events : List Event) :
    List.Forall₂ Spans (collapse tol events) (runs tol events) :=
  (forall₂_merges_collapse tol events).imp fun _ _ both => both.1

theorem mem_collapse_of_saved (saved : event.id ≠ none) :
    event ∈ collapse tol events ↔ [event] ∈ runs tol events := by
  have merges := forall₂_merges_collapse tol events
  rcases List.forall₂_iff_get.mp merges with ⟨length, each⟩
  constructor
  · intro isEvent
    rcases List.mem_iff_get.mp isEvent with ⟨⟨index, inside⟩, rfl⟩
    rcases (each index inside (length ▸ inside)).2 with single | ⟨merged, _⟩
    · exact single ▸ List.get_mem _ _
    · exact absurd merged saved
  · intro isRun
    rcases List.mem_iff_get.mp isRun with ⟨⟨index, inside⟩, isSingle⟩
    have inside' : index < (collapse tol events).length := length.symm ▸ inside
    rcases (each index inside' inside).2 with single | ⟨_, long⟩
    · have same := isSingle.symm.trans single
      cases same
      exact List.get_mem _ ⟨index, inside'⟩
    · rw [isSingle] at long
      exact absurd long (by simp)

theorem exists_spans (isRun : run ∈ runs tol events) :
    ∃ event ∈ collapse tol events, event.Spans run := by
  have spans := forall₂_collapse tol events
  rcases List.forall₂_iff_get.mp spans with ⟨length, each⟩
  rcases List.mem_iff_get.mp isRun with ⟨⟨index, inside⟩, rfl⟩
  have inside' : index < (collapse tol events).length := length.symm ▸ inside
  exact ⟨_, List.get_mem _ ⟨index, inside'⟩, each index inside' inside⟩

theorem exists_run_of_mem_collapse (isEvent : event ∈ collapse tol events) :
    ∃ run ∈ runs tol events, event.Spans run := by
  have spans := forall₂_collapse tol events
  rcases List.forall₂_iff_get.mp spans with ⟨length, each⟩
  rcases List.mem_iff_get.mp isEvent with ⟨⟨index, inside⟩, rfl⟩
  have inside' : index < (runs tol events).length := length ▸ inside
  exact ⟨_, List.get_mem _ ⟨index, inside'⟩, each index inside inside'⟩

theorem within_iff (spans : last.Spans run) : Within run time ↔ last.Contains time := by
  rcases spans with ⟨⟨first, isFirst, sameStart⟩, final, isFinal, sameEnd⟩
  rw [Contains, sameStart, sameEnd]
  constructor
  · intro within
    rcases within with ⟨other, isOther, another, isAnother, both⟩
    rw [Option.mem_unique isOther isFirst, Option.mem_unique isAnother isFinal] at both
    exact both
  · intro both
    exact ⟨first, isFirst, final, isFinal, both⟩

theorem exists_collapse_iff : (∃ event ∈ collapse tol events, event.Contains time) ↔
    ∃ run ∈ runs tol events, Within run time := by
  constructor
  · intro covered
    rcases covered with ⟨event, isEvent, contains⟩
    rcases exists_run_of_mem_collapse isEvent with ⟨run, isRun, spans⟩
    exact ⟨run, isRun, (within_iff spans).mpr contains⟩
  · intro covered
    rcases covered with ⟨run, isRun, within⟩
    rcases exists_spans isRun with ⟨event, isEvent, spans⟩
    exact ⟨event, isEvent, (within_iff spans).mp within⟩

theorem mem_runs (isRun : run ∈ runs tol events) (isEvent : event ∈ run) : event ∈ events := by
  have flat : event ∈ (runs tol events).flatten := List.mem_flatten.mpr ⟨run, isRun, isEvent⟩
  rw [runs, List.flatten_splitBy, mem_byStart] at flat
  exact flat

theorem exists_run (tol : ℤ) (isEvent : event ∈ events) : ∃ run ∈ runs tol events, event ∈ run := by
  have flat : event ∈ (runs tol events).flatten := by
    rw [runs, List.flatten_splitBy, mem_byStart]
    exact isEvent
  exact List.mem_flatten.mp flat

theorem pairwise_of_mem_runs (isRun : run ∈ runs tol events) :
    run.Pairwise fun event next => event.startTime ≤ next.startTime := by
  have flat := List.pairwise_flatten.mp
    ((List.flatten_splitBy (follows tol) (byStart events)).symm ▸ pairwise_byStart events)
  exact flat.1 run isRun

theorem covers_iff : (∀ event ∈ events, ∀ time, event.Contains time →
      ∃ other ∈ collapse tol events, other.Contains time) ↔ NoneSticksOut tol events := by
  constructor
  · intro covers run isRun event isEvent final isFinal time contains _
    exact exists_collapse_iff.mp (covers event (mem_runs isRun isEvent) time contains)
  · intro none event isEvent time contains
    rw [exists_collapse_iff]
    rcases exists_run tol isEvent with ⟨run, isRun, inRun⟩
    have nonempty : run ≠ [] := List.ne_nil_of_mem inRun
    by_cases after : (run.getLast nonempty).endTime ≤ time
    · exact none run isRun event inRun _ (List.getLast?_eq_getLast_of_ne_nil nonempty) time contains
        after
    · refine ⟨run, isRun, run.head nonempty, List.head?_eq_some_head nonempty,
        run.getLast nonempty, List.getLast?_eq_getLast_of_ne_nil nonempty, ?_, not_le.mp after⟩
      cases run with
      | nil => cases inRun
      | cons first rest =>
          rcases List.mem_cons.mp inRun with rfl | later
          · exact contains.1
          · have sorted := List.pairwise_cons.mp (pairwise_of_mem_runs isRun)
            exact (sorted.1 event later).trans contains.1

theorem pairwise_collapse (tol : ℤ) (events : List Event) : (collapse tol events).Pairwise
    fun event next => event.startTime ≤ next.startTime := by
  have sorted := pairwise_byStart events
  rw [collapse]
  cases bySort : byStart events with
  | nil => exact List.Pairwise.nil
  | cons first rest =>
      rw [bySort] at sorted
      exact pairwise_collapseFrom sorted

theorem isChain_collapse : (collapse tol events).IsChain
    fun event next => event.endTime + tol < next.startTime := by
  rw [collapse]
  cases byStart events with
  | nil => exact List.isChain_nil
  | cons first rest => exact isChain_collapseFrom

theorem times_of_mem_collapse (isEvent : event ∈ collapse tol events) :
    (∃ other ∈ events, event.startTime = other.startTime) ∧
      ∃ other ∈ events, event.endTime = other.endTime := by
  have members : ∀ other, other ∈ byStart events → other ∈ events := fun _ => mem_byStart.mp
  rw [collapse] at isEvent
  cases bySort : byStart events with
  | nil =>
      rw [bySort] at isEvent
      cases isEvent
  | cons first rest =>
      rw [bySort] at isEvent members
      rcases times_of_mem_collapseFrom isEvent with
        ⟨⟨other, isOther, sameStart⟩, another, isAnother, sameEnd⟩
      exact ⟨⟨other, members other isOther, sameStart⟩, another, members another isAnother, sameEnd⟩

/-- Collapsed events are as they should be exactly if no event sticks out at the end of its run. -/
theorem collapses_collapse_iff (tol : ℤ) (events : List Event) :
    Collapses tol events (collapse tol events) ↔ NoneSticksOut tol events := by
  constructor
  · intro collapses
    exact covers_iff.mp collapses.covers
  · intro none
    exact {
      sorted := pairwise_collapse _ _
      apart := isChain_collapse
      covers := covers_iff.mpr none
      starts := fun event isEvent => (times_of_mem_collapse isEvent).1
      ends := fun event isEvent => (times_of_mem_collapse isEvent).2
      again := collapse_of_apart (pairwise_collapse _ _) isChain_collapse }

theorem pairwise_of_apart (nonneg : 0 ≤ tol)
    (sorted : events.Pairwise fun event next => event.startTime ≤ next.startTime)
    (apart : events.IsChain fun event next => event.endTime + tol < next.startTime) :
    events.Pairwise fun event next => event.endTime < next.startTime := by
  induction events with
  | nil => exact List.Pairwise.nil
  | cons first rest ih =>
      rw [List.pairwise_cons] at sorted
      rw [List.isChain_cons] at apart
      refine List.pairwise_cons.mpr ⟨fun next isNext => ?_, ih sorted.2 apart.2⟩
      cases rest with
      | nil => cases isNext
      | cons second rest =>
          have gap := apart.1 second rfl
          have before : second.startTime ≤ next.startTime := by
            rcases List.mem_cons.mp isNext with rfl | later
            · exact le_rfl
            · exact (List.pairwise_cons.mp sorted.2).1 next later
          exact lt_of_le_of_lt (le_add_of_nonneg_right nonneg) (gap.trans_le before)

theorem apart_of_mem_collapse (nonneg : 0 ≤ tol) (isLast : last ∈ collapse tol events)
    (isEvent : event ∈ collapse tol events) :
    last = event ∨ last.endTime < event.startTime ∨ event.endTime < last.startTime := by
  have apart := pairwise_of_apart nonneg (pairwise_collapse tol events) isChain_collapse
  exact List.Pairwise.forall_of_forall_of_flip
    (R := fun last event : Event =>
      last = event ∨ last.endTime < event.startTime ∨ event.endTime < last.startTime)
    (fun _ _ => .inl rfl) (apart.imp fun before => .inr (.inl before))
    (apart.imp fun before => .inr (.inr before)) isLast isEvent

theorem startTime_le_of_mem_runs (isRun : run ∈ runs tol events) (isEvent : event ∈ run)
    (isFinal : last ∈ run.getLast?) : event.startTime ≤ last.startTime := by
  have nonempty : run ≠ [] := List.ne_nil_of_mem isEvent
  rw [List.getLast?_eq_getLast_of_ne_nil nonempty, Option.mem_some_iff] at isFinal
  rw [← isFinal]
  exact (pairwise_of_mem_runs isRun).rel_getLast_of_rel_getLast_getLast isEvent le_rfl

theorem noneSticksOut_iff (wellFormed : ∀ event ∈ events, event.startTime ≤ event.endTime)
    (nonneg : 0 ≤ tol) : NoneSticksOut tol events ↔
      ∀ run ∈ runs tol events, ∀ event ∈ run, ∀ final ∈ run.getLast?,
        event.endTime ≤ final.endTime := by
  constructor
  · intro none run isRun event isEvent final isFinal
    by_contra later
    rw [not_le] at later
    have finalFormed := wellFormed final (mem_runs isRun (List.mem_of_getLast? isFinal))
    have startsBefore : ∀ other ∈ run, other.startTime ≤ final.endTime := fun other isOther =>
      (startTime_le_of_mem_runs isRun isOther isFinal).trans finalFormed
    -- the end of the last event would have to lie within another of the collapsed events
    rcases exists_collapse_iff.mpr (none run isRun event isEvent final isFinal final.endTime
      ⟨startsBefore event isEvent, later⟩ le_rfl) with ⟨covering, isCovering, contains⟩
    rcases exists_spans isRun with ⟨spanning, isSpanning, spans⟩
    rcases spans with ⟨⟨first, isFirst, sameStart⟩, other, isOther, sameEnd⟩
    rw [Option.mem_unique isOther isFinal] at sameEnd
    rcases apart_of_mem_collapse nonneg isSpanning isCovering with same | before | after
    · rw [← same, Contains, sameEnd] at contains
      exact lt_irrefl _ contains.2
    · rw [sameEnd] at before
      exact not_lt.mpr contains.1 before
    · rw [sameStart] at after
      have isFirst' := List.mem_of_head? isFirst
      exact lt_irrefl _ (contains.2.trans (after.trans_le (startsBefore first isFirst')))
  · intro inside run isRun event isEvent final isFinal time contains after
    exact absurd (contains.2.trans_le (inside run isRun event isEvent final isFinal))
      (not_lt.mpr after)

namespace Sample

/-- A long event and a short one within it. -/
def nested : List Event := [⟨some 1, 0, 10⟩, ⟨some 2, 1, 2⟩]

/-- The end of the long event is lost. -/
theorem nested_lost : ¬Collapses 0 nested (collapse 0 nested) := by
  intro collapses
  rcases collapses.covers ⟨some 1, 0, 10⟩ (by decide) 5 ⟨by decide, by decide⟩ with
    ⟨other, isOther, contains⟩
  have collapsed : collapse 0 nested = [⟨none, 0, 2⟩] := by decide
  rw [collapsed, List.mem_singleton] at isOther
  rw [isOther] at contains
  exact absurd contains.2 (by decide)

end Sample

end Event

end EspWebsite.Cal
