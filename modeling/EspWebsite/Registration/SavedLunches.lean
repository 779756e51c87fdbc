import EspWebsite.Registration.LunchSelection

/-!
# What saved lunches leave

When `save_data` of `StudentLunchSelectionForm` leaves the lunches that were chosen, and what a
request with a choice for each date leaves.
-/

namespace EspWebsite.Registration.LunchCatalog

open Python Transactions Transactions.Action

section Saving

variable {catalog : LunchCatalog} {program user sec : ℕ} {day : Date} {later : DateTime}
  {isMorphed : Bool} {choice : Option ℕ} {occasion : Occasion} {db : Database}

/-! ## The rows after a save -/

theorem filter_map_eq_filter_iff {α : Type} {change : α → α} {selects : α → Bool} {rows : List α}
    (keeps : ∀ row, selects (change row) = selects row) :
    (rows.map change).filter selects = rows.filter selects ↔
      ∀ row ∈ rows, selects row = true → change row = row := by
  have same : (rows.map change).filter selects = (rows.filter selects).map change := by
    simp [List.filter_map, Function.comp_def, keeps]
  rw [same]
  nth_rewrite 2 [← List.map_id (rows.filter selects)]
  simp only [List.map_inj_left, List.mem_filter, id, and_imp]

theorem eq_toList_iff {values : List ℕ} {value : Option ℕ} (nodup : values.Nodup) :
    values = value.toList ↔ ∀ other, other ∈ values ↔ other ∈ value := by
  cases value with
  | none => simp [List.eq_nil_iff_forall_not_mem]
  | some value =>
      rw [Option.toList_some, ← List.perm_singleton,
        List.perm_ext_iff_of_nodup nodup (List.nodup_singleton value)]
      simp [eq_comm]

theorem nodup_lunchesOn : (catalog.lunchesOn program user day later db).Nodup :=
  (catalog.nodup.filter _).filter _

theorem mem_lunchesOn : sec ∈ catalog.lunchesOn program user day later db ↔
    sec ∈ catalog.lunchSections program ∧ catalog.firstDate sec = some day ∧
      ∃ row ∈ db.registrations, row.isValid later = true ∧ row.classSection = sec ∧
        row.user = user := by
  simp only [lunchesOn, List.mem_filter, Bool.and_eq_true, decide_eq_true_eq, Bool.not_eq_true',
    List.isEmpty_eq_false_iff_exists_mem, Database.mem_getRegistrations]

section Rows

variable {now : DateTime} {row : StudentRegistration} {between : Database}

theorem user_afterSaving : (catalog.afterSaving program user day now row).user = row.user := by
  rw [afterSaving]
  split <;> rfl

theorem classSection_afterSaving :
    (catalog.afterSaving program user day now row).classSection = row.classSection := by
  rw [afterSaving]
  split <;> rfl

theorem afterSaving_eq_self_iff : catalog.afterSaving program user day now row = row ↔
    ¬catalog.Loses program user day now row := by
  rw [afterSaving, Loses]
  split
  next cleared =>
    constructor
    · intro same lost
      exact lost.2 (congrArg (fun row => row.endDate) same).symm
    · intro kept
      have ended : row.endDate = some now := by simpa [cleared] using kept
      rw [← ended]
  next spared => simp [spared]

theorem elsewhere_iff : (db.registrations.map (catalog.afterSaving program user day now)).filter
      (catalog.isElsewhere day) = db.registrations.filter (catalog.isElsewhere day) ↔
    ∀ row ∈ db.registrations, catalog.Loses program user day now row →
      catalog.firstDate row.classSection = some day := by
  rw [filter_map_eq_filter_iff fun row => by
    rw [isElsewhere, isElsewhere, classSection_afterSaving]]
  refine forall₂_congr fun row _ => ?_
  rw [afterSaving_eq_self_iff, imp_not_comm]
  refine imp_congr_right fun lost => ?_
  have cleared := lost.1
  simp only [clears, lunchSections, looksAlike, Bool.and_eq_true, decide_eq_true_eq,
    List.mem_filter, Option.any_eq_true] at cleared
  rcases cleared with ⟨⟨_, _, _, lunch⟩, other, isDate, _⟩
  simp [isElsewhere, lunch, isDate]

theorem userRows_iff : ((db.registrations.map (catalog.afterSaving program user day now)).filter
      fun row => row.user = user) = (db.registrations.filter fun row => row.user = user) ↔
    ∀ row ∈ db.registrations, ¬catalog.Loses program user day now row := by
  rw [filter_map_eq_filter_iff fun row => by rw [user_afterSaving]]
  refine forall₂_congr fun row _ => ?_
  rw [afterSaving_eq_self_iff, decide_eq_true_eq]
  constructor
  · intro kept lost
    have cleared := lost.1
    simp only [clears, Bool.and_eq_true, decide_eq_true_eq] at cleared
    exact kept cleared.1.1.2 lost
  · intro kept _
    exact kept

theorem mem_lunchesOn_cleared (moves : now < later)
    (changed : between.registrations =
      db.registrations.map (catalog.afterSaving program user day now)) :
    sec ∈ catalog.lunchesOn program user day later between ↔
      ∃ row ∈ db.registrations, catalog.Begins program user day now later row ∧
        row.classSection = sec := by
  rw [mem_lunchesOn, changed]
  constructor
  · rintro ⟨isLunch, onDate, _, isMapped, valid, rfl, ofUser⟩
    rcases List.mem_map.mp isMapped with ⟨row, isRow, rfl⟩
    rw [isValid_afterSaving moves, Bool.and_eq_true, Bool.not_eq_true'] at valid
    rw [classSection_afterSaving] at isLunch onDate
    rw [user_afterSaving] at ofUser
    refine ⟨row, isRow, ⟨ofUser, isLunch, onDate, ?_, valid.1⟩, classSection_afterSaving.symm⟩
    simpa [clears, looksAlike, isLunch, onDate, ofUser] using valid.2
  · rintro ⟨row, isRow, ⟨ofUser, isLunch, onDate, invalid, valid⟩, rfl⟩
    have spared : catalog.afterSaving program user day now row = row := by
      simp [afterSaving, clears, invalid]
    exact ⟨isLunch, onDate, row, List.mem_map.mpr ⟨row, isRow, spared⟩, valid, rfl, ofUser⟩

theorem exists_row_of_signedUp
    (succeeds : (catalog.preregisterStudent db sec user later { isMorphed }).1 = true) :
    ∃ row ∈ (catalog.preregisterStudent db sec user later { isMorphed }).2.registrations,
      row.isValid later = true ∧ row.classSection = sec ∧ row.user = user := by
  rw [registrations_preregisterStudent succeeds]
  rcases @registrations_addRegistrations catalog.toSite db sec user later { isMorphed }
    rfl with ⟨⟨row, isRow, _⟩, same⟩ | ⟨_, added, _, appended⟩
  · rw [same]
    exact ⟨row, (Database.mem_getRegistrations.mp isRow)⟩
  · rw [appended]
    refine ⟨_, List.mem_append_right _ List.mem_cons_self, ?_, rfl, rfl⟩
    simp [ExpirableModel.isValid]

theorem mem_lunchesOn_signedUp {signed : ℕ} (isLunch : signed ∈ catalog.lunchSections program)
    (succeeds : (catalog.preregisterStudent db signed user later { isMorphed }).1 = true) :
    sec ∈ catalog.lunchesOn program user day later
        (catalog.preregisterStudent db signed user later { isMorphed }).2 ↔
      sec ∈ catalog.lunchesOn program user day later db ∨
        sec = signed ∧ catalog.firstDate signed = some day := by
  obtain ⟨signedRow, isSigned, signedValid⟩ := exists_row_of_signedUp succeeds
  simp only [mem_lunchesOn]
  constructor
  · rintro ⟨ofProgram, onDate, row, isRow, valid, ofSection, ofUser⟩
    rw [registrations_preregisterStudent succeeds] at isRow
    rcases mem_addRegistrations isRow with isOld | ⟨_, isNew, _⟩
    · exact .inl ⟨ofProgram, onDate, row, isOld, valid, ofSection, ofUser⟩
    · have same : sec = signed := ofSection.symm.trans isNew
      exact .inr ⟨same, same ▸ onDate⟩
  · rintro (⟨ofProgram, onDate, row, isOld, found⟩ | ⟨rfl, onDate⟩)
    · refine ⟨ofProgram, onDate, row, ?_, found⟩
      rw [registrations_preregisterStudent succeeds]
      exact mem_addRegistrations_of_mem isOld
    · exact ⟨isLunch, onDate, signedRow, isSigned, signedValid⟩

theorem elsewhere_signedUp (onDate : catalog.firstDate sec = some day)
    (succeeds : (catalog.preregisterStudent db sec user later { isMorphed }).1 = true) :
    (catalog.preregisterStudent db sec user later { isMorphed }).2.registrations.filter
        (catalog.isElsewhere day) = db.registrations.filter (catalog.isElsewhere day) := by
  rcases @exists_addRegistrations_append catalog.toSite db sec user later { isMorphed } with
    ⟨added, appended, isNew⟩
  have none : added.filter (catalog.isElsewhere day) = [] := by
    rw [List.filter_eq_nil_iff]
    intro row isAdded
    simp [isElsewhere, (isNew row isAdded).2.1, onDate]
  rw [registrations_preregisterStudent succeeds, appended, List.filter_append, none,
    List.append_nil]

end Rows

/-! ## Saving -/

theorem saveData_of_untimed (untimed : catalog.Untimed program user occasion.now db) :
    ∃ raised after,
      catalog.saveData program user day choice occasion db = (.error raised, after) := by
  obtain ⟨raised, after, stops⟩ := @clearSections_of_untimed catalog user day
    occasion.now _ db untimed
  refine ⟨raised, after, ?_⟩
  rw [saveData.eq_def, read_bind]
  exact bind_of_error stops

theorem saveData_cases (timed : ¬catalog.Untimed program user occasion.now db) :
    ∃ between, between.registrations =
        db.registrations.map (catalog.afterSaving program user day occasion.now) ∧
      ((choice = none ∧ catalog.saveData program user day choice occasion db =
          (.ok (true, "Lunch period declined."), between)) ∨
        (catalog.Refuses program user day choice occasion db ∧
          ∃ message, catalog.saveData program user day choice occasion db =
            (.ok (false, message), between)) ∨
        ∃ sec message, catalog.chosen program choice = some sec ∧
          catalog.Accepts program user sec day occasion db ∧
            (catalog.preregisterStudent between sec user occasion.later
              { isMorphed := occasion.isMorphed }).1 = true ∧
              catalog.saveData program user day choice occasion db = (.ok (true, message),
                (catalog.preregisterStudent between sec user occasion.later
                  { isMorphed := occasion.isMorphed }).2)) := by
  obtain ⟨between, clears, changed, kept⟩ := @exists_cleared catalog user day _ db program timed
  have same := sameAt_without occasion.moves changed kept
  refine ⟨between, changed, ?_⟩
  rw [saveData.eq_def, read_bind, bind_of_ok clears]
  cases choice with
  | none => exact .inl ⟨rfl, rfl⟩
  | some timeslot =>
      right
      have refuses (sec : Option ℕ)
          (isFirst : (catalog.lunchSectionsAt program timeslot).head? = sec)
          (refused : ∀ first ∈ sec,
            ¬catalog.Accepts program user first day occasion db) :
          catalog.Refuses program user day (some timeslot) occasion db := by
        refine ⟨Option.some_ne_none timeslot, ?_⟩
        rw [chosen, Option.bind_some, isFirst]
        exact refused
      dsimp only
      cases sections : catalog.lunchSectionsAt program timeslot with
      | nil =>
          refine .inl ⟨refuses none (by rw [sections, List.head?_nil]) (by simp), _, rfl⟩
      | cons sec rest =>
          have accepts : (catalog.ignoreConstraints.cannotAdd between user sec
              occasion.later true false = .ok "" ∧
                catalog.isFull between sec occasion.later false false = false) ↔
              catalog.Accepts program user sec day occasion db := by
            rw [Accepts, same.cannotAdd, isFull_congr (same.students sec) same.checkedIn]
          have signs := @signUp_eq catalog user sec occasion.later occasion.isMorphed between
          by_cases accepted : catalog.Accepts program user sec day occasion db
          · rw [if_pos (accepts.mpr accepted)] at signs
            refine .inr ⟨sec, _, ?_, accepted, ?_, bind_of_ok signs⟩
            · rw [chosen, Option.bind_some, sections, List.head?_cons]
            · rw [preregisterStudent_fst, (accepts.mpr accepted).2, Bool.not_false]
          · rw [if_neg (accepts.not.mpr accepted)] at signs
            refine .inl ⟨refuses (some sec) (by rw [sections, List.head?_cons]) ?_, _,
              bind_of_ok signs⟩
            simpa using accepted

theorem mem_lunchSections_of_chosen (isChosen : catalog.chosen program choice = some sec) :
    sec ∈ catalog.lunchSections program := by
  rw [chosen, Option.bind_eq_some_iff] at isChosen
  rcases isChosen with ⟨timeslot, _, isFirst⟩
  exact List.mem_of_mem_filter (List.mem_of_mem_head? isFirst)

end Saving

/-! ## Lunches that are lost -/

namespace Sample

/-- A program on the fifth of June and of July, with two lunches on the first date, of which the
second one is closed, and one on the other date. -/
def summer : LunchCatalog where
  parentClass := fun sec => sec
  classProgram := fun _ => 0
  meetingTimes := fun sec => [⟨sec, if sec = 2 then 100 else 40⟩]
  capacity := fun _ _ => 30
  usePriority := fun _ => false
  switchTime := fun _ => none
  switchLag := fun _ => none
  sections := [1, 2, 3]
  nodup := by decide
  title := fun _ => "Lunch"
  status := fun _ => 10
  registrationStatus := fun sec => if sec = 3 then 10 else 0
  assigned := fun _ => true
  classStatus := fun _ => 10
  gradeMin := fun _ => 7
  gradeMax := fun _ => 12
  timeSlots := fun _ => [1, 2, 3]
  scheduleConstraints := fun _ => []
  priorityLimit := fun _ => 1
  enforceMax := fun _ => true
  temporarilyFullText := fun _ => "Class temporarily full"
  isStudent := fun _ => true
  getGrade := fun _ _ => 10
  gradeOverride := fun _ _ => false
  userCanJoin := fun _ _ _ _ => true
  timeSlotList := fun _ => [⟨1, 40⟩, ⟨2, 100⟩]
  isLunch := fun _ => true
  date := fun time => if time < 50 then ⟨2026, 6, 5⟩ else ⟨2026, 7, 5⟩
  str := fun _ => "L1s1: Lunch"

def lunchIn (sec : ℕ) : Database where
  registrations := [⟨⟨some 0, none⟩, 7, sec, "Enrolled"⟩]
  members := ∅
  checkedIn := ∅

def today : Occasion := ⟨10, 11, by decide, false⟩

end Sample

end EspWebsite.Registration.LunchCatalog
