import EspWebsite.AjaxScheduling.Operations
import EspWebsite.AjaxScheduling.Polling

/-!
# Pages that follow the schedule

What a page shows that polls the change log, while operations on the server change the schedule
and the log is pruned.
-/

namespace EspWebsite.AjaxScheduling

open Python Resources Runs Transactions

/-! ## Indices of new entries -/

/-- Entries were appended with increasing indices, which come after those of all earlier ones. -/
def Numbers (before after : Database) : Prop :=
  ∃ entries, after.changeLog = before.changeLog ++ entries ∧
    (entries.Pairwise fun earlier later => earlier.index < later.index) ∧
    ∀ entry ∈ entries, 0 < entry.index ∧ ∀ old ∈ before.changeLog, old.index < entry.index

section Numbers

variable {tables : Tables} {before after db : Database} {cls : ℕ} {user : Option ℕ} {time : ℤ}
  {override : Bool} {cannotSchedule : CannotSchedule} {assignments : List SwapAssignment}
  {rows : Autoscheduler.DbInterface.SectionRows}
  {loaded : Autoscheduler.DbInterface.LoadedSchedule}

theorem Numbers.refl (db : Database) : Numbers db db :=
  ⟨[], (List.append_nil _).symm, List.Pairwise.nil, List.forall_mem_nil _⟩

theorem Numbers.of_log (numbers : Numbers before db) (sameLog : after.changeLog = db.changeLog) :
    Numbers before after := by
  rw [Numbers, sameLog]
  exact numbers

theorem maintains_clearRooms :
    (Action.change fun db => db.clearRooms tables cls).Maintains (Numbers before) :=
  fun _ numbers => numbers.of_log rfl

theorem maintains_clearMeetingTimes :
    (Action.change fun db => db.clearMeetingTimes cls).Maintains (Numbers before) :=
  fun _ numbers => numbers.of_log rfl

theorem maintains_assignMeetingTimes {times : List Resources.Event} :
    (Action.change fun db => db.assignMeetingTimes cls times).Maintains (Numbers before) :=
  fun _ numbers => numbers.of_log rfl

theorem maintains_assignRoom {name : List Char} {clearOthers : Bool} (numbers : Numbers before db) :
    (Action.change fun _ => (db.assignRoom tables cls name clearOthers false 0).2).Maintains
      (Numbers before) :=
  fun _ _ => numbers.of_log Database.frame_assignRoom.2

theorem maintains_appendScheduling (timeslots : List ℕ) (roomName : List Char) :
    (appendScheduling timeslots roomName cls user time).Maintains (Numbers before) := by
  intro after numbers
  rw [appendScheduling]
  split
  next =>
    rcases numbers with ⟨entries, appended, increasing, later⟩
    have isNew : ∀ old ∈ after.changeLog, old.index < after.changeLog.getLatestIndex + 1 :=
      fun old isOld => Nat.lt_succ_of_le (AJAXChangeLog.index_le_getLatestIndex isOld)
    rw [appended] at isNew
    refine ⟨_, by rw [Action.change_apply, appended, List.append_assoc], ?_, ?_⟩
    · refine List.pairwise_append.mpr ⟨increasing, List.pairwise_singleton _ _, ?_⟩
      intro old isOld entry isEntry
      rw [List.mem_singleton.mp isEntry]
      exact isNew old (List.mem_append_right _ isOld)
    · intro entry isEntry
      rcases List.mem_append.mp isEntry with isOld | isEntry
      · exact later entry isOld
      · rw [List.mem_singleton.mp isEntry]
        exact ⟨Nat.succ_pos _, fun old isOld => isNew old (List.mem_append_left _ isOld)⟩
  next => exact numbers

theorem maintains_ajaxScheduleDeletereg :
    (ajaxScheduleDeletereg tables cls user time).Maintains (Numbers before) :=
  maintains_clearRooms.bind fun _ => maintains_clearMeetingTimes.bind fun _ =>
    (maintains_appendScheduling _ _).bind fun _ => Action.maintains_pure _

theorem maintains_ajaxScheduleAssignreg {timeslotIds classroomIds : List (List Char)} :
    (ajaxScheduleAssignreg tables cls timeslotIds classroomIds user override cannotSchedule
      time).Maintains (Numbers before) := by
  refine Action.maintains_read_bind fun _ _ => (Action.maintains_lift _).bind fun checked => ?_
  cases checked with
  | error refused => exact Action.maintains_pure _
  | ok passed =>
      refine maintains_assignMeetingTimes.bind fun _ => Action.maintains_read_bind
        fun _ numbers => (maintains_assignRoom numbers).bind fun _ => ?_
      split
      next => exact (maintains_appendScheduling _ _).bind fun _ => Action.maintains_pure _
      next => exact maintains_clearMeetingTimes.bind fun _ => Action.maintains_pure _

theorem maintains_getSection :
    (getSection tables cls).Maintains (Numbers before) :=
  Action.Maintains.onlyIf fun _ numbers => numbers

theorem maintains_ajaxScheduleSwap :
    (ajaxScheduleSwap tables assignments user override cannotSchedule time).Maintains
      (Numbers before) := by
  have unschedules : ∀ assignments, (unscheduleAll tables user time assignments).Maintains
      (Numbers before) := by
    intro assignments
    induction assignments with
    | nil => exact Action.maintains_pure _
    | cons asmt rest ih =>
        exact maintains_getSection.bind fun _ => maintains_ajaxScheduleDeletereg.bind fun _ => ih
  refine (unschedules assignments).bind fun _ => ?_
  induction assignments with
  | nil => exact Action.maintains_pure _
  | cons asmt rest ih =>
      rw [rescheduleAll]
      split
      next => exact ih
      next =>
        refine maintains_getSection.bind fun _ => maintains_ajaxScheduleAssignreg.bind fun _ => ?_
        split
        next => exact ih
        next => exact Action.maintains_pure _

theorem maintains_save {checkConsistency checkConstraints : Bool} :
    (Autoscheduler.DbInterface.save tables rows loaded checkConsistency checkConstraints
      time).Maintains (Numbers before) := by
  refine (Action.maintains_lift _).onlyIf.bind fun _ =>
    (Action.maintains_lift _).onlyIf.bind fun _ => Action.Maintains.atomic ?_
  refine (Action.maintains_lift _).bind fun infos => Action.Maintains.bind ?_ fun _ =>
    Action.maintains_read_bind fun _ _ => (Action.maintains_lift _).bind fun _ =>
      Action.Maintains.bind ?_ fun _ => Action.maintains_read_bind fun _ _ =>
        (Action.maintains_lift _).bind fun _ => Action.maintains_lift _
  · rw [Autoscheduler.DbInterface.unscheduleChanged]
    split
    next => exact Action.maintains_pure _
    next sectionObj _ =>
      generalize Autoscheduler.DbInterface.sectionObjs tables loaded = sections
      induction sections with
      | nil => exact Action.maintains_pure _
      | cons classSection rest ih =>
          exact Action.maintains_read_bind fun _ _ => (Action.maintains_lift _).bind fun _ =>
            (maintains_clearMeetingTimes.bind fun _ => maintains_clearRooms.bind fun _ =>
              maintains_appendScheduling _ _).onlyIf.bind fun _ => ih
  · induction infos with
    | nil => exact Action.maintains_pure _
    | cons info rest ih =>
        refine Action.Maintains.bind (Action.Maintains.onlyIf ?_) fun _ => ih
        refine (Action.maintains_lift _).bind fun room =>
          maintains_assignMeetingTimes.bind fun _ => Action.maintains_read_bind
            fun _ numbers => (maintains_assignRoom numbers).bind fun _ => ?_
        split
        next => exact maintains_appendScheduling _ _
        next => exact maintains_clearMeetingTimes.bind fun _ _ numbers => numbers

theorem numbers_perform (operation : Operation) : Numbers db (perform tables db operation) := by
  have start := Numbers.refl db
  cases operation with
  | deletereg cls user time => exact maintains_ajaxScheduleDeletereg db start
  | assignreg cls timeslotIds classroomIds user override cannotSchedule time =>
      exact maintains_ajaxScheduleAssignreg db start
  | swap assignments user override cannotSchedule time =>
      exact maintains_ajaxScheduleSwap db start
  | cancel sec raises time =>
      exact Action.Maintains.atomic (maintains_clearRooms.bind fun _ =>
        maintains_clearMeetingTimes.bind fun _ => (maintains_appendScheduling _ _).bind fun _ =>
          Action.Maintains.onlyIf fun _ numbers => numbers) db start
  | save rows loaded checkConsistency checkConstraints time => exact maintains_save db start

end Numbers

/-! ## Following -/

/-- An index counts from this log: it is 0, or an entry has this index or a greater one. -/
def Anchored (log : AJAXChangeLog) (index : ℕ) : Prop :=
  index = 0 ∨ ∃ entry ∈ log, index ≤ entry.index

/-- The database, and a page that polls the change log. -/
structure Following (page : Page) where
  db : Database
  client : Client page

/-- What happens to the database and the page. -/
inductive FollowingAct where
  | perform (operation : Operation)
  | prune (now : ℤ)
  | poll (completes : AJAXChangeLogEntry → Bool)

namespace Following

variable {page : Page} (tables : Tables) (order : IndexOrder)

def step (system : Following page) : FollowingAct → Following page
  | .perform operation => { system with db := perform tables system.db operation }
  | .prune now => { system with db.changeLog := system.db.changeLog.prune now }
  | .poll completes => { system with
      client := system.client.getChanges order completes system.db.changeLog }

/-- A page that polls is told to reload, or it shows the schedule of the database. -/
def ShowsSchedule (system : Following page) : FollowingAct → Prop
  | .poll completes =>
      let after := (system.step tables order (.poll completes)).client
      after.reload = true ∨ ∀ sec, Shows tables system.db sec (after.board.assignments sec)
  | _ => True

/-- Operations are faithful.  After the log is pruned, the page will be told to reload, or its index
still counts from the log and no entry is deleted that it has yet to get.  The page does not throw
in the middle of its new entries. -/
def Careful (system : Following page) : FollowingAct → Prop
  | .perform operation => Faithful tables system.db operation
  | .prune now => system.client.reload = false →
      let pruned := system.db.changeLog.prune now
      pruned.outdated system.client.lastAppliedIndex = true ∨
        Anchored pruned system.client.lastAppliedIndex ∧
          ∀ entry ∈ system.db.changeLog.newEntries system.client.lastAppliedIndex, entry ∈ pruned
  | .poll completes => system.client.reload = false →
      system.db.changeLog.outdated system.client.lastAppliedIndex = false →
        (Board.applyChanges completes
          (system.db.changeLog.newEntries system.client.lastAppliedIndex)
          system.client.board).2 = true

/-- The page will be told to reload, or the entries that it has yet to get replay what it shows to
the schedule of the database. -/
def Sound (system : Following page) : Prop :=
  system.client.reload = false →
    system.db.changeLog.outdated system.client.lastAppliedIndex = true ∨
      Anchored system.db.changeLog system.client.lastAppliedIndex ∧
        ((system.db.changeLog.newEntries system.client.lastAppliedIndex).Pairwise
          fun earlier later => earlier.index < later.index) ∧
        ∀ sec, Shows tables system.db sec (replay system.client.board.assignments
          (system.db.changeLog.newEntries system.client.lastAppliedIndex) sec)

variable {tables : Tables} {order : IndexOrder} {system : Following page}

theorem Sound.perform {operation : Operation} (sound : system.Sound tables)
    (faithful : Faithful tables system.db operation) :
    (system.step tables order (.perform operation)).Sound tables := by
  intro reload
  rcases @numbers_perform tables system.db operation with ⟨entries, appended, increasing, later⟩
  rcases tracks_perform faithful with ⟨more, further, tracks⟩
  have same := List.append_cancel_left (appended.symm.trans further)
  rw [← same] at tracks
  rw [step]
  dsimp only
  rw [appended]
  have above : ∀ old ∈ system.db.changeLog, system.client.lastAppliedIndex ≤ old.index →
      ∀ entry ∈ entries, system.client.lastAppliedIndex < entry.index :=
    fun old isOld least entry isEntry => least.trans_lt ((later entry isEntry).2 old isOld)
  rcases sound reload with outdated | ⟨anchored, isIncreasing, shown⟩
  · left
    rw [AJAXChangeLog.outdated_iff] at outdated ⊢
    rcases outdated with ⟨nonempty, known, before⟩
    refine ⟨List.append_ne_nil_of_left_ne_nil nonempty _, known, fun entry isEntry => ?_⟩
    rcases List.mem_append.mp isEntry with isOld | isNew
    · exact before entry isOld
    · rcases List.exists_mem_of_ne_nil _ nonempty with ⟨old, isOld⟩
      exact above old isOld (before old isOld).le entry isNew
  · have isNew : ∀ entry ∈ entries, system.client.lastAppliedIndex < entry.index := by
      rcases anchored with unknown | ⟨old, isOld, least⟩
      · rw [unknown]
        exact fun entry isEntry => (later entry isEntry).1
      · exact above old isOld least
    have together : AJAXChangeLog.newEntries (system.db.changeLog ++ entries)
        system.client.lastAppliedIndex =
          system.db.changeLog.newEntries system.client.lastAppliedIndex ++ entries := by
      rw [AJAXChangeLog.newEntries, List.filter_append, @List.filter_eq_self _ _ entries |>.mpr
        fun entry isEntry => decide_eq_true (isNew entry isEntry)]
      rfl
    right
    rw [together, replay, List.foldl_append]
    have anchoredStill : Anchored (system.db.changeLog ++ entries)
        system.client.lastAppliedIndex := by
      rcases anchored with unknown | ⟨old, isOld, least⟩
      · exact .inl unknown
      · exact .inr ⟨old, List.mem_append_left _ isOld, least⟩
    refine ⟨anchoredStill, ?_, tracks _ shown⟩
    refine List.pairwise_append.mpr ⟨isIncreasing, increasing, fun old isOld entry isEntry => ?_⟩
    exact (later entry isEntry).2 old (AJAXChangeLog.mem_newEntries.mp isOld).1

theorem Sound.prune {now : ℤ} (sound : system.Sound tables)
    (careful : system.Careful tables (.prune now)) :
    (system.step tables order (.prune now)).Sound tables := by
  intro reload
  rcases careful reload with outdated | ⟨anchored, spared⟩
  · exact .inl outdated
  · rcases sound reload with outdated | ⟨-, increasing, shown⟩
    · exact .inl (AJAXChangeLog.outdated_filter outdated spared)
    · right
      have same := AJAXChangeLog.newEntries_filter spared
      rw [step]
      dsimp only
      rw [AJAXChangeLog.prune, same]
      refine ⟨anchored, increasing, fun sec => ?_⟩
      have unchanged : SameSchedule tables system.db
        { system.db with changeLog := system.db.changeLog.prune now } sec := ⟨rfl, rfl⟩
      exact unchanged.shows (shown sec)

theorem Sound.poll {completes : AJAXChangeLogEntry → Bool} (sound : system.Sound tables)
    (careful : system.Careful tables (.poll completes)) :
    (system.step tables order (.poll completes)).Sound tables ∧
      system.ShowsSchedule tables order (.poll completes) := by
  rw [ShowsSchedule, step]
  dsimp only
  rw [Client.getChanges]
  cases reload : system.client.reload with
  | true =>
      rw [if_pos rfl]
      exact ⟨fun stays => absurd (stays.symm.trans reload) Bool.false_ne_true, .inl reload⟩
  | false =>
      rw [if_neg (by decide), AJAXChangeLog.ajaxChangeLog]
      cases outdated : system.db.changeLog.outdated system.client.lastAppliedIndex with
      | true => exact ⟨fun stays => absurd stays.symm Bool.false_ne_true, .inl rfl⟩
      | false =>
          rcases (sound reload).resolve_left (by rw [outdated]; decide) with
            ⟨anchored, increasing, shown⟩
          have whole := careful reload outdated
          rw [if_neg (by decide), Client.applyChangeLog, AJAXChangeLog.getLog,
            AJAXChangeLog.orderBy_of_increasing order increasing,
            Client.receive_of_completes whole]
          have isShown := shown
          rw [← Board.assignments_applyChanges whole] at isShown
          refine ⟨fun _ => .inr ⟨?_, ?_, ?_⟩, .inr isShown⟩
          · dsimp only
            rw [AJAXChangeLog.lastIndexOf]
            cases final : (system.db.changeLog.newEntries
                system.client.lastAppliedIndex).getLast? with
            | none => exact anchored
            | some entry =>
                exact .inr ⟨entry,
                  (AJAXChangeLog.mem_newEntries.mp (List.mem_of_getLast? final)).1, le_rfl⟩
          · dsimp only
            rw [AJAXChangeLog.newEntries_lastIndexOf increasing]
            exact List.Pairwise.nil
          · dsimp only
            rw [AJAXChangeLog.newEntries_lastIndexOf increasing]
            exact isShown

end Following

namespace Sample

/-- The page of the two rooms in the morning. -/
def campusPage : Page where
  timeslots := [⟨1, 0, 3600, 1, 1⟩]
  lunchTimeslots := []
  minimumDifference := some 20
  rooms := [⟨10, [1]⟩, ⟨20, [1]⟩]
  sections := [1, 2]
  length := fun _ => 1

def opened : Following campusPage where
  db := opening
  client :=
    { board := ⟨fun _ _ => none, openingSchedule, fun _ _ occupied => by cases occupied⟩
      lastAppliedIndex := 0
      indexed := true
      reload := false
      applied := []
      appended := [] }

end Sample

end EspWebsite.AjaxScheduling
