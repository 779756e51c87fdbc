import EspWebsite.ArgCache.Functions

/-!
# Students who are checked in

`isCheckedIn`, `checkedOutStudents` and `checkedInStudents` of `program/models/__init__.py`, which
read the same records in three ways.
-/

namespace EspWebsite.Program

open Tables ArgCache

section Methods

variable (records : Table Record) (program : ℕ)

/-- The records of a program by which users are checked in and out. -/
def statusRecords : List Record :=
  records.rows.filter fun row =>
    (row.event = some "attended" ∨ row.event = some "checked_out") ∧ row.program = some program

/-- What `order_by('user', '-time')` looks at; the records of nobody come last. -/
def userKey (row : Record) : WithTop ℕ ×ₗ ℤ :=
  toLex (row.user.elim ⊤ fun user => (user : WithTop ℕ), -row.time)

/-- `order_by('user', '-time')`. -/
def byUser (rows : List Record) : List Record :=
  rows.insertionSort fun row other => userKey row ≤ userKey other

/-- `distinct('user')`: the first record of each user. -/
def distinctUser (rows : List Record) : List Record :=
  rows.filter fun row => rows.find? (fun other => other.user = row.user) = some row

/-- The `recs` of `checkedOutStudents`. -/
def lastRecords (timeMax : ℤ) : List Record :=
  distinctUser (byUser ((statusRecords records program).filter fun row => row.time < timeMax))

/-- `checkedOutStudents`, by their ids. -/
def checkedOutStudents (timeMax : ℤ) : Finset ℕ :=
  ((records.rows.filter fun row =>
    row.id ∈ (lastRecords records program timeMax).map Record.id ∧
      row.event = some "checked_out").filterMap Record.user).toFinset

/-- `checkedInStudents`, by their ids. -/
def checkedInStudents (timeMax : ℤ) : Finset ℕ :=
  ((records.rows.filter fun row =>
    row.event = some "attended" ∧ row.program = some program).filterMap Record.user).toFinset \
      checkedOutStudents records program timeMax

/-- The `recs` of `isCheckedIn`. -/
def recordsOf (espuser : ℕ) : List Record :=
  ((statusRecords records program).filter fun row => row.user = some espuser).insertionSort
    fun row other => other.time ≤ row.time

/-- The `status` of `isCheckedIn`. -/
def checkInStatus (espuser : ℕ) : ℕ :=
  match recordsOf records program espuser with
  | [] => 0
  | latest :: earlier =>
      if (latest :: earlier).any fun row => row.event = some "attended" then
        if latest.event = some "checked_out" then 2 else 1
      else 0

def isCheckedIn (espuser : ℕ) : Bool := checkInStatus records program espuser = 1

/-- A record is the last one of its user before a time. -/
def IsLast (time : ℤ) (row : Record) : Prop :=
  row ∈ statusRecords records program ∧ row.time < time ∧
    ∀ other ∈ statusRecords records program, other.user = row.user → other.time < time →
      other.time ≤ row.time

def LastIs (time : ℤ) (user : ℕ) (event : String) : Prop :=
  ∃ row, IsLast records program time row ∧ row.user = some user ∧ row.event = some event

/-- The methods say of every user what the last record before a time says, and `isCheckedIn` says
the same at that time if no record is later. -/
structure Agree (time : ℤ) : Prop where
  checkedIn : ∀ user, user ∈ checkedInStudents records program time ↔
    LastIs records program time user "attended"
  checkedOut : ∀ user, user ∈ checkedOutStudents records program time ↔
    LastIs records program time user "checked_out"
  disjoint : Disjoint (checkedInStudents records program time)
    (checkedOutStudents records program time)
  isCheckedIn : (∀ row ∈ statusRecords records program, row.time ≤ time) → ∀ user,
    isCheckedIn records program user = true ↔ user ∈ checkedInStudents records program time

/-- Whoever has a record of attendance has a record before a time. -/
def BegunBefore (time : ℤ) : Prop :=
  ∀ row ∈ statusRecords records program, row.event = some "attended" → row.user.isSome →
    ∃ earlier ∈ statusRecords records program, earlier.user = row.user ∧ earlier.time < time

/-- A record at a time, if none is later, leaves its user checked in or not as before. -/
def UnchangedAt (time : ℤ) : Prop :=
  (∀ row ∈ statusRecords records program, row.time ≤ time) →
    ∀ row ∈ statusRecords records program, row.time = time → ∀ user, row.user = some user →
      (row.event = some "attended" ↔ LastIs records program time user "attended")

end Methods

section Lemmas

variable {records : Table Record} {program user : ℕ} {row other : Record} {time : ℤ}

theorem eq_or_of_find?_eq_some {α : Type*} {relation : α → α → Prop} {values : List α}
    {value other : α} {condition : α → Bool} (ordered : values.Pairwise relation)
    (found : values.find? condition = some value) (isOther : other ∈ values)
    (meets : condition other = true) : value = other ∨ relation value other := by
  rcases List.find?_eq_some_iff_append.mp found with ⟨_, before, after, rfl, none⟩
  rcases List.mem_append.mp isOther with isBefore | isAfter
  · have fails := none other isBefore
    rw [meets] at fails
    cases fails
  · rcases List.mem_cons.mp isAfter with same | isAfter
    · exact Or.inl same.symm
    · rw [List.pairwise_append, List.pairwise_cons] at ordered
      exact Or.inr (ordered.2.1.1 other isAfter)

theorem mem_statusRecords : row ∈ statusRecords records program ↔ row ∈ records.rows ∧
    (row.event = some "attended" ∨ row.event = some "checked_out") ∧
      row.program = some program := by
  rw [statusRecords, List.mem_filter, decide_eq_true_eq]

theorem pairwise_byUser {rows : List Record} :
    (byUser rows).Pairwise fun row other => userKey row ≤ userKey other :=
  List.pairwise_insertionSort (fun row other => userKey row ≤ userKey other) rows

theorem mem_byUser {rows : List Record} : row ∈ byUser rows ↔ row ∈ rows :=
  List.mem_insertionSort _

theorem time_le_of_userKey_le (same : row.user = other.user) (ordered : userKey row ≤ userKey other) :
    other.time ≤ row.time := by
  rw [userKey, userKey, same, Prod.Lex.toLex_le_toLex] at ordered
  rcases ordered with less | ⟨_, notLess⟩
  · exact absurd less (lt_irrefl _)
  · exact neg_le_neg_iff.mp notLess

theorem eq_of_time_eq (distinct : ((statusRecords records program).map Record.time).Nodup)
    (isRecord : row ∈ statusRecords records program)
    (isOther : other ∈ statusRecords records program) (same : row.time = other.time) :
    row = other :=
  List.inj_on_of_nodup_map distinct isRecord isOther same

theorem mem_lastRecords (distinct : ((statusRecords records program).map Record.time).Nodup) :
    row ∈ lastRecords records program time ↔ IsLast records program time row := by
  have mem_before {row : Record} :
      row ∈ byUser ((statusRecords records program).filter fun row => row.time < time) ↔
        row ∈ statusRecords records program ∧ row.time < time := by
    rw [mem_byUser, List.mem_filter, decide_eq_true_eq]
  rw [lastRecords, distinctUser, List.mem_filter, decide_eq_true_eq, mem_before]
  constructor
  · rintro ⟨⟨isRecord, before⟩, found⟩
    refine ⟨isRecord, before, fun other isOther sameUser otherBefore => ?_⟩
    rcases eq_or_of_find?_eq_some pairwise_byUser found (mem_before.mpr ⟨isOther, otherBefore⟩)
      (decide_eq_true sameUser) with rfl | ordered
    · exact le_rfl
    · exact time_le_of_userKey_le sameUser.symm ordered
  · rintro ⟨isRecord, before, isLast⟩
    refine ⟨⟨isRecord, before⟩, ?_⟩
    cases found : (byUser ((statusRecords records program).filter fun row => row.time < time)).find?
      fun other => other.user = row.user with
    | none =>
        have different := List.find?_eq_none.mp found row (mem_before.mpr ⟨isRecord, before⟩)
        exact absurd (decide_eq_true rfl) different
    | some first =>
        have isFirst := mem_before.mp (List.mem_of_find?_eq_some found)
        have sameUser : first.user = row.user := of_decide_eq_true
          (List.find?_some (p := fun other : Record => decide (other.user = row.user)) found)
        have notLater := isLast first isFirst.1 sameUser isFirst.2
        rcases eq_or_of_find?_eq_some pairwise_byUser found (mem_before.mpr ⟨isRecord, before⟩)
          (decide_eq_true rfl) with rfl | ordered
        · rfl
        · have notEarlier := time_le_of_userKey_le sameUser ordered
          rw [eq_of_time_eq distinct isFirst.1 isRecord (le_antisymm notLater notEarlier)]

theorem exists_isLast (isRecord : row ∈ statusRecords records program) (before : row.time < time) :
    ∃ last, IsLast records program time last ∧ last.user = row.user := by
  have isMember {other : Record} : other ∈ (statusRecords records program).filter
      (fun other => other.user = row.user ∧ other.time < time) ↔
        other ∈ statusRecords records program ∧ other.user = row.user ∧ other.time < time := by
    rw [List.mem_filter, decide_eq_true_eq]
  cases latest : ((statusRecords records program).filter fun other =>
      other.user = row.user ∧ other.time < time).argmax Record.time with
  | none =>
      have isRow := isMember.mpr ⟨isRecord, rfl, before⟩
      rw [List.argmax_eq_none.mp latest] at isRow
      exact absurd isRow List.not_mem_nil
  | some last =>
      have isLast := isMember.mp (List.argmax_mem latest)
      refine ⟨last, ⟨isLast.1, isLast.2.2, fun other isOther same otherBefore => ?_⟩, isLast.2.1⟩
      exact List.le_of_mem_argmax
        (isMember.mpr ⟨isOther, same.trans isLast.2.1, otherBefore⟩) latest

theorem IsLast.unique (distinct : ((statusRecords records program).map Record.time).Nodup)
    (isLast : IsLast records program time row) (isOther : IsLast records program time other)
    (same : row.user = other.user) : row = other :=
  eq_of_time_eq distinct isLast.1 isOther.1 (le_antisymm
    (isOther.2.2 row isLast.1 same isLast.2.1) (isLast.2.2 other isOther.1 same.symm isOther.2.1))

theorem IsLast.lastIs_iff (distinct : ((statusRecords records program).map Record.time).Nodup)
    (isLast : IsLast records program time row) (isUser : row.user = some user) {event : String} :
    LastIs records program time user event ↔ row.event = some event := by
  constructor
  · rintro ⟨other, isOther, sameUser, isEvent⟩
    rw [isLast.unique distinct isOther (isUser.trans sameUser.symm)]
    exact isEvent
  · exact fun isEvent => ⟨row, isLast, isUser, isEvent⟩

theorem IsLast.event (isLast : IsLast records program time row) :
    row.event = some "attended" ∨ row.event = some "checked_out" :=
  (mem_statusRecords.mp isLast.1).2.1

theorem mem_checkedOutStudents
    (distinct : ((statusRecords records program).map Record.time).Nodup) :
    user ∈ checkedOutStudents records program time ↔
      LastIs records program time user "checked_out" := by
  rw [checkedOutStudents, List.mem_toFinset, List.mem_filterMap]
  constructor
  · rintro ⟨row, isRow, isUser⟩
    rw [List.mem_filter, decide_eq_true_eq, List.mem_map] at isRow
    rcases isRow with ⟨isRow, ⟨last, isLast, same⟩, isEvent⟩
    have isLast := (mem_lastRecords distinct).mp isLast
    rw [Table.eq_of_key_eq (mem_statusRecords.mp isLast.1).1 isRow same] at isLast
    exact ⟨row, isLast, isUser, isEvent⟩
  · rintro ⟨row, isLast, isUser, isEvent⟩
    refine ⟨row, List.mem_filter.mpr ⟨(mem_statusRecords.mp isLast.1).1, ?_⟩, isUser⟩
    rw [decide_eq_true_eq]
    exact ⟨List.mem_map.mpr ⟨row, (mem_lastRecords distinct).mpr isLast, rfl⟩, isEvent⟩

theorem LastIs.not_checkedOut
    (distinct : ((statusRecords records program).map Record.time).Nodup)
    (checkedIn : LastIs records program time user "attended") :
    ¬LastIs records program time user "checked_out" := by
  rcases checkedIn with ⟨row, isLast, isUser, attended⟩
  rw [isLast.lastIs_iff distinct isUser, attended]
  decide

theorem mem_checkedInStudents
    (distinct : ((statusRecords records program).map Record.time).Nodup) :
    user ∈ checkedInStudents records program time ↔
      (∃ row ∈ statusRecords records program, row.event = some "attended" ∧
        row.user = some user) ∧ ¬LastIs records program time user "checked_out" := by
  rw [checkedInStudents, Finset.mem_sdiff, mem_checkedOutStudents distinct, List.mem_toFinset,
    List.mem_filterMap]
  refine and_congr_left fun _ => exists_congr fun row => ?_
  rw [List.mem_filter, decide_eq_true_eq, mem_statusRecords]
  constructor
  · rintro ⟨⟨isRow, isEvent, isProgram⟩, isUser⟩
    exact ⟨⟨isRow, Or.inl isEvent, isProgram⟩, isEvent, isUser⟩
  · rintro ⟨⟨isRow, _, isProgram⟩, isEvent, isUser⟩
    exact ⟨⟨isRow, isEvent, isProgram⟩, isUser⟩

theorem mem_checkedInStudents_of_lastIs
    (distinct : ((statusRecords records program).map Record.time).Nodup)
    (checkedIn : LastIs records program time user "attended") :
    user ∈ checkedInStudents records program time := by
  refine (mem_checkedInStudents distinct).mpr ⟨?_, checkedIn.not_checkedOut distinct⟩
  rcases checkedIn with ⟨row, isLast, isUser, isEvent⟩
  exact ⟨row, isLast.1, isEvent, isUser⟩

theorem begunBefore_iff (distinct : ((statusRecords records program).map Record.time).Nodup) :
    (∀ user, user ∈ checkedInStudents records program time ↔
      LastIs records program time user "attended") ↔ BegunBefore records program time := by
  constructor
  · intro same row isRecord attended isSome
    rcases Option.isSome_iff_exists.mp isSome with ⟨user, isUser⟩
    by_contra none
    push Not at none
    have noLast {event : String} : ¬LastIs records program time user event := by
      rintro ⟨last, isLast, sameUser, _⟩
      exact absurd isLast.2.1 (not_lt.mpr (none last isLast.1 (sameUser.trans isUser.symm)))
    exact noLast ((same user).mp ((mem_checkedInStudents distinct).mpr
      ⟨⟨row, isRecord, attended, isUser⟩, noLast⟩))
  · intro begun user
    refine ⟨fun found => ?_, mem_checkedInStudents_of_lastIs distinct⟩
    rcases (mem_checkedInStudents distinct).mp found with ⟨⟨row, isRecord, attended, isUser⟩, notOut⟩
    rcases begun row isRecord attended (isUser ▸ rfl) with ⟨earlier, isEarlier, sameUser, before⟩
    rcases exists_isLast isEarlier before with ⟨last, isLast, lastUser⟩
    have lastOf := lastUser.trans (sameUser.trans isUser)
    rcases isLast.event with isIn | isOut
    · exact ⟨last, isLast, lastOf, isIn⟩
    · exact absurd ⟨last, isLast, lastOf, isOut⟩ notOut

theorem mem_recordsOf : row ∈ recordsOf records program user ↔
    row ∈ statusRecords records program ∧ row.user = some user := by
  rw [recordsOf, List.mem_insertionSort, List.mem_filter, decide_eq_true_eq]

theorem isLast_of_sorted {rows earlier : List Record}
    (isMember : ∀ row, row ∈ rows ↔
      (row ∈ statusRecords records program ∧ row.user = some user) ∧ row.time < time)
    (sorted : rows.insertionSort (fun row other => other.time ≤ row.time) = row :: earlier) :
    IsLast records program time row ∧ row.user = some user := by
  have ordered := List.pairwise_insertionSort (fun row other : Record => other.time ≤ row.time) rows
  rw [sorted, List.pairwise_cons] at ordered
  have isListed (other : Record) : other ∈ row :: earlier ↔
      (other ∈ statusRecords records program ∧ other.user = some user) ∧ other.time < time := by
    rw [← sorted, List.mem_insertionSort, isMember]
  rcases (isListed row).mp List.mem_cons_self with ⟨⟨isRecord, isUser⟩, before⟩
  refine ⟨⟨isRecord, before, fun other isOther same otherBefore => ?_⟩, isUser⟩
  rcases List.mem_cons.mp ((isListed other).mpr ⟨⟨isOther, same.trans isUser⟩, otherBefore⟩) with
    rfl | isEarlier
  · exact le_rfl
  · exact ordered.1 other isEarlier

theorem isCheckedIn_iff (distinct : ((statusRecords records program).map Record.time).Nodup)
    (past : ∀ row ∈ statusRecords records program, row.time < time) :
    isCheckedIn records program user = true ↔ LastIs records program time user "attended" := by
  rw [isCheckedIn, decide_eq_true_eq, checkInStatus]
  cases sorted : recordsOf records program user with
  | nil =>
      refine ⟨fun impossible => absurd impossible (by decide), ?_⟩
      rintro ⟨row, isLast, isUser, _⟩
      have isListed := mem_recordsOf.mpr ⟨isLast.1, isUser⟩
      rw [sorted] at isListed
      exact absurd isListed List.not_mem_nil
  | cons latest earlier =>
      have isMember (row : Record) :
          row ∈ (statusRecords records program).filter (fun row => row.user = some user) ↔
            (row ∈ statusRecords records program ∧ row.user = some user) ∧ row.time < time := by
        rw [List.mem_filter, decide_eq_true_eq]
        exact (and_iff_left_of_imp fun isRecord => past row isRecord.1).symm
      rcases isLast_of_sorted isMember sorted with ⟨isLast, isUser⟩
      rw [isLast.lastIs_iff distinct isUser]
      rcases isLast.event with attended | isOut
      · have listed : (latest :: earlier).any (fun row => row.event = some "attended") = true :=
          List.any_eq_true.mpr ⟨latest, List.mem_cons_self, decide_eq_true attended⟩
        have stays : latest.event ≠ some "checked_out" := by
          rw [attended]
          decide
        simp only [listed, if_true, if_neg stays]
        exact iff_of_true trivial attended
      · have notIn : latest.event ≠ some "attended" := by
          rw [isOut]
          decide
        simp only [if_pos isOut, notIn, iff_false]
        split <;> decide

theorem isLast_succ (isRecord : row ∈ statusRecords records program) (now : row.time = time) :
    IsLast records program (time + 1) row :=
  ⟨isRecord, now ▸ Int.lt_succ _, fun _ _ _ before => now ▸ Int.lt_add_one_iff.mp before⟩

theorem lastIs_succ {event : String} (nothing : ∀ row ∈ statusRecords records program,
      row.time = time → row.user ≠ some user) :
    LastIs records program (time + 1) user event ↔ LastIs records program time user event := by
  have before {row : Record} (isRecord : row ∈ statusRecords records program)
      (isUser : row.user = some user) : row.time < time + 1 ↔ row.time < time := by
    have different : row.time ≠ time := fun now => nothing row isRecord now isUser
    rw [Int.lt_add_one_iff]
    exact ⟨fun notAfter => lt_of_le_of_ne notAfter different, le_of_lt⟩
  refine exists_congr fun row => and_congr_left fun isRow => ?_
  rw [IsLast, IsLast]
  refine and_congr_right fun isRecord => ?_
  rw [before isRecord isRow.1]
  refine and_congr_right fun _ => forall₂_congr fun other isOther => forall_congr' fun same => ?_
  rw [before isOther (same.trans isRow.1)]

/-- The three methods agree at a time exactly if whoever has a record of attendance has a record
before that time, and a record of just that time changes nothing. -/
theorem agree_iff (distinct : ((statusRecords records program).map Record.time).Nodup) :
    Agree records program time ↔
      BegunBefore records program time ∧ UnchangedAt records program time := by
  constructor
  · intro agree
    refine ⟨(begunBefore_iff distinct).mp agree.checkedIn, ?_⟩
    intro notLater row isRecord now user isUser
    have past : ∀ row ∈ statusRecords records program, row.time < time + 1 := fun row isRow =>
      Int.lt_add_one_iff.mpr (notLater row isRow)
    rw [← (isLast_succ isRecord now).lastIs_iff distinct isUser, ← isCheckedIn_iff distinct past,
      agree.isCheckedIn notLater, agree.checkedIn]
  · rintro ⟨begun, unchanged⟩
    have checkedIn := (begunBefore_iff distinct).mpr begun
    refine ⟨checkedIn, fun user => mem_checkedOutStudents distinct, ?_, fun notLater user => ?_⟩
    · exact Finset.sdiff_disjoint
    · have past : ∀ row ∈ statusRecords records program, row.time < time + 1 := fun row isRow =>
        Int.lt_add_one_iff.mpr (notLater row isRow)
      rw [isCheckedIn_iff distinct past, checkedIn]
      by_cases present : ∃ row ∈ statusRecords records program,
          row.time = time ∧ row.user = some user
      · rcases present with ⟨row, isRecord, now, isUser⟩
        rw [(isLast_succ isRecord now).lastIs_iff distinct isUser]
        exact unchanged notLater row isRecord now user isUser
      · push Not at present
        exact lastIs_succ present

end Lemmas

namespace Sample

/-- User 1 is checked in at time 5, when user 2 has been checked in and out. -/
def records : Table Record where
  rows := [⟨1, some "attended", some 8, some 2, 2⟩, ⟨2, some "checked_out", some 8, some 2, 4⟩,
    ⟨3, some "attended", some 8, some 1, 5⟩]
  next := 4
  ordered := by decide
  below := by decide

/-- Before that, at time 3, user 1 counts as checked in. -/
theorem one_checkedIn : ¬Agree records 8 3 := by
  intro agree
  rcases (agree.checkedIn 1).mp (by decide) with ⟨row, ⟨isRecord, before, _⟩, isUser, _⟩
  revert row
  decide

/-- Later all agree. -/
theorem agree_later : Agree records 8 9 := by
  refine (agree_iff (by decide)).mpr ⟨by rw [BegunBefore]; decide, fun _ row isRecord now => ?_⟩
  have never : ∀ row ∈ statusRecords records 8, row.time ≠ 9 := by decide
  exact absurd now (never row isRecord)

end Sample

end EspWebsite.Program
