import EspWebsite.Library.RowsOverTime
import EspWebsite.Library.Runs
import EspWebsite.PhaseZero.Requests

/-!
# The groups of the student lottery

Whatever is requested, a student is in one group at most, and no group is empty or too large.
-/

namespace EspWebsite.PhaseZero

open Python Runs Tables Transactions Action

/-- The groups are apart, nobody is missing in them, and there is room for all. -/
structure Sound (program : Program) (state : State) : Prop where
  once : ∀ record ∈ state.records.rows, ∀ other ∈ state.records.rows, ∀ user ∈ record.user,
    user ∈ other.user → record = other
  inhabited : ∀ record ∈ state.records.rows, record.user ≠ []
  bounded : ∀ record ∈ state.records.rows, record.user.length ≤ program.groupMax

def State.new (next : ℕ) (lotteryRun : Bool) (members : String → List ℕ) : State where
  records := ⟨[], next, .nil, by simp⟩
  lotteryRun := lotteryRun
  members := members

variable {program : Program} {state : State} {user id : ℕ} {record group : PhaseZeroRecord}

/-! ## Records -/

section Records

theorem mem_recordsOf :
    record ∈ state.recordsOf user ↔ record ∈ state.records.rows ∧ user ∈ record.user := by
  rw [State.recordsOf, List.mem_filter, decide_eq_true_eq]

theorem inLottery_iff :
    state.inLottery user = true ↔ ∃ record ∈ state.records.rows, user ∈ record.user := by
  simp only [State.inLottery, List.any_eq_true, decide_eq_true_eq]

theorem getRecord_eq_none :
    state.getRecord user = .ok none ↔ ∀ record ∈ state.records.rows, user ∉ record.user := by
  rw [State.getRecord]
  constructor
  · intro found record isRecord isMember
    have member := mem_recordsOf.mpr ⟨isRecord, isMember⟩
    split at found
    next none =>
      rw [none] at member
      cases member
    next => cases found
    next => cases found
  · intro absent
    have none : state.recordsOf user = [] := by
      refine List.filter_eq_nil_iff.mpr fun record isRecord => ?_
      rw [decide_eq_true_eq]
      exact absent record isRecord
    rw [none]

theorem mem_of_getRecord (found : state.getRecord user = .ok (some record)) :
    record ∈ state.records.rows ∧ user ∈ record.user := by
  rw [State.getRecord] at found
  split at found
  next => cases found
  next only single =>
    cases found
    refine mem_recordsOf.mp ?_
    rw [single]
    exact List.mem_singleton_self _
  next => cases found

theorem Sound.getRecord_of_mem (sound : Sound program state)
    (isRecord : record ∈ state.records.rows)
    (isMember : user ∈ record.user) : state.getRecord user = .ok (some record) := by
  have member := mem_recordsOf.mpr ⟨isRecord, isMember⟩
  have same : ∀ other ∈ state.recordsOf user, other = record := by
    intro other isOther
    have both := mem_recordsOf.mp isOther
    exact sound.once other both.1 record isRecord user both.2 isMember
  have distinct : (state.recordsOf user).Nodup := state.records.nodup_rows.filter _
  rw [State.getRecord]
  cases found : state.recordsOf user with
  | nil =>
      rw [found] at member
      cases member
  | cons first rest =>
      rw [found] at same distinct
      cases rest with
      | nil => rw [same first List.mem_cons_self]
      | cons second rest =>
          have isFirst := same first List.mem_cons_self
          have isSecond := same second (List.mem_cons_of_mem _ List.mem_cons_self)
          rw [isFirst, isSecond] at distinct
          exact absurd List.mem_cons_self (List.nodup_cons.mp distinct).1

theorem Sound.exists_getRecord (sound : Sound program state) (user : ℕ) :
    ∃ found, state.getRecord user = .ok found := by
  by_cases inGroup : ∃ record ∈ state.records.rows, user ∈ record.user
  · rcases inGroup with ⟨record, isRecord, isMember⟩
    exact ⟨_, sound.getRecord_of_mem isRecord isMember⟩
  · refine ⟨none, getRecord_eq_none.mpr fun record isRecord isMember => ?_⟩
    exact inGroup ⟨record, isRecord, isMember⟩

theorem mem_addTo {users : List ℕ} {member : ℕ} :
    member ∈ addTo users user ↔ member ∈ users ∨ member = user := by
  rw [addTo]
  split
  next isMember =>
    constructor
    · exact .inl
    · intro either
      cases either with
      | inl old => exact old
      | inr same =>
          rw [same]
          exact isMember
  next => rw [List.mem_append, List.mem_singleton]

theorem length_addTo_le {users : List ℕ} : (addTo users user).length ≤ users.length + 1 := by
  rw [addTo]
  split
  next => exact Nat.le_succ _
  next => rw [List.length_append, List.length_singleton]

end Records

/-! ## Changes of records -/

section Changes

theorem mem_enroll : record ∈ (state.enroll user).records.rows ↔
    record ∈ state.records.rows ∨ record = ⟨state.records.next, [user]⟩ := by
  rw [State.enroll, Table.rows_create, List.mem_append, List.mem_singleton]

theorem mem_changeUsers {update : List ℕ → List ℕ} :
    record ∈ (state.changeUsers id update).records.rows ↔
      ∃ old ∈ state.records.rows,
        record = if old.id = id then { old with user := update old.user } else old := by
  rw [State.changeUsers, Table.rows_mapRows, List.mem_map]
  exact exists_congr fun old => and_congr_right fun _ => eq_comm

theorem mem_leave : record ∈ (state.leave id user).records.rows ↔
    (∃ old ∈ state.records.rows, record = if old.id = id then
        { old with user := old.user.filter fun member => member ≠ user } else old) ∧
      (record.id = id → record.user ≠ []) := by
  rw [State.leave]
  dsimp only
  rw [Table.rows_delete, List.mem_filter, mem_changeUsers]
  refine and_congr_right fun _ => ?_
  rw [Bool.not_eq_true', Bool.and_eq_false_imp, decide_eq_true_eq, List.isEmpty_eq_false_iff]

/-- Who is in a record after a user has left one. -/
theorem leave_cases (isRecord : record ∈ (state.leave id user).records.rows) :
    ∃ old ∈ state.records.rows, old.id = record.id ∧
      (record.user.length ≤ old.user.length) ∧
      (∀ member, member ∈ record.user ↔ member ∈ old.user ∧ ¬ (old.id = id ∧ member = user)) ∧
      (old.id ≠ id → record = old) := by
  rcases (mem_leave.mp isRecord).1 with ⟨old, isOld, same⟩
  refine ⟨old, isOld, ?_⟩
  by_cases isLeft : old.id = id
  · rw [if_pos isLeft] at same
    rw [same]
    refine ⟨rfl, List.length_filter_le _ _, fun member => ?_, fun other => absurd isLeft other⟩
    rw [List.mem_filter, decide_eq_true_eq]
    exact and_congr_right fun _ => (not_congr (and_iff_right isLeft)).symm
  · rw [if_neg isLeft] at same
    rw [same]
    refine ⟨rfl, le_rfl, fun member => ?_, fun _ => rfl⟩
    exact (and_iff_left fun both => isLeft both.1).symm

theorem Sound.leave (sound : Sound program state) : Sound program (state.leave id user) := by
  constructor
  · intro record isRecord other isOther member isMember isOtherMember
    rcases (mem_leave.mp isRecord).1 with ⟨old, isOld, same⟩
    rcases (mem_leave.mp isOther).1 with ⟨oldOther, isOldOther, sameOther⟩
    have stays {old record : PhaseZeroRecord} (same : record = if old.id = id then
        { old with user := old.user.filter fun member => member ≠ user } else old)
        (isMember : member ∈ record.user) : member ∈ old.user := by
      rw [same] at isMember
      split at isMember
      next => exact List.mem_of_mem_filter isMember
      next => exact isMember
    have equal := sound.once old isOld oldOther isOldOther member (stays same isMember)
      (stays sameOther isOtherMember)
    rw [same, sameOther, equal]
  · intro record isRecord
    rcases mem_leave.mp isRecord with ⟨⟨old, isOld, same⟩, inhabited⟩
    by_cases isLeft : record.id = id
    · exact inhabited isLeft
    · have notLeft : old.id ≠ id := by
        intro isOld
        rw [same, if_pos isOld] at isLeft
        exact isLeft isOld
      rw [same, if_neg notLeft]
      exact sound.inhabited old isOld
  · intro record isRecord
    rcases leave_cases isRecord with ⟨old, isOld, _, shorter, _⟩
    exact shorter.trans (sound.bounded old isOld)

theorem Sound.enroll (sound : Sound program state)
    (absent : ∀ record ∈ state.records.rows, user ∉ record.user) :
    Sound program (state.enroll user) := by
  have apart : ∀ record ∈ state.records.rows, ∀ member ∈ record.user, member ∉ [user] := by
    intro record isRecord member isMember same
    rw [List.mem_singleton.mp same] at isMember
    exact absent record isRecord isMember
  constructor
  · intro record isRecord other isOther member isMember isOtherMember
    cases mem_enroll.mp isRecord with
    | inl old =>
        cases mem_enroll.mp isOther with
        | inl oldOther => exact sound.once record old other oldOther member isMember isOtherMember
        | inr new =>
            rw [new] at isOtherMember
            exact absurd isOtherMember (apart record old member isMember)
    | inr new =>
        cases mem_enroll.mp isOther with
        | inl oldOther =>
            rw [new] at isMember
            exact absurd isMember (apart other oldOther member isOtherMember)
        | inr newOther => rw [new, newOther]
  · intro record isRecord
    cases mem_enroll.mp isRecord with
    | inl old => exact sound.inhabited record old
    | inr new =>
        rw [new]
        exact List.cons_ne_nil _ _
  · intro record isRecord
    cases mem_enroll.mp isRecord with
    | inl old => exact sound.bounded record old
    | inr new =>
        rw [new]
        exact program.groupMax_pos

theorem mem_join : record ∈ (state.join id user).records.rows ↔ ∃ old ∈ state.records.rows,
    record = if old.id = id then { old with user := addTo old.user user } else old :=
  mem_changeUsers

theorem join_cases (isRecord : record ∈ (state.join id user).records.rows) :
    ∃ old ∈ state.records.rows, old.id = record.id ∧
      (∀ member, member ∈ record.user ↔ member ∈ old.user ∨ (old.id = id ∧ member = user)) ∧
      (old.id ≠ id → record = old) := by
  rcases mem_join.mp isRecord with ⟨old, isOld, same⟩
  refine ⟨old, isOld, ?_⟩
  by_cases isJoined : old.id = id
  · rw [if_pos isJoined] at same
    rw [same]
    refine ⟨rfl, fun member => ?_, fun other => absurd isJoined other⟩
    rw [mem_addTo]
    exact or_congr_right (and_iff_right isJoined).symm
  · rw [if_neg isJoined] at same
    rw [same]
    refine ⟨rfl, fun member => ?_, fun _ => rfl⟩
    exact (or_iff_left fun both => isJoined both.1).symm

theorem Sound.join (sound : Sound program state)
    (absent : ∀ record ∈ state.records.rows, user ∉ record.user)
    (isGroup : group ∈ state.records.rows) (room : group.user.length < program.groupMax) :
    Sound program (state.join group.id user) := by
  constructor
  · intro record isRecord other isOther member isMember isOtherMember
    rcases mem_join.mp isRecord with ⟨old, isOld, same⟩
    rcases mem_join.mp isOther with ⟨oldOther, isOldOther, sameOther⟩
    have origin {old record : PhaseZeroRecord} (same : record = if old.id = group.id then
        { old with user := addTo old.user user } else old) (isMember : member ∈ record.user) :
        member ∈ old.user ∨ (old.id = group.id ∧ member = user) := by
      rw [same] at isMember
      split at isMember
      next isJoined =>
        cases mem_addTo.mp isMember with
        | inl stays => exact .inl stays
        | inr new => exact .inr ⟨isJoined, new⟩
      next => exact .inl isMember
    have equal : old = oldOther := by
      cases origin same isMember with
      | inl stays =>
          cases origin sameOther isOtherMember with
          | inl staysOther => exact sound.once old isOld oldOther isOldOther member stays staysOther
          | inr new =>
              rw [new.2] at stays
              exact absurd stays (absent old isOld)
      | inr new =>
          cases origin sameOther isOtherMember with
          | inl staysOther =>
              rw [new.2] at staysOther
              exact absurd staysOther (absent oldOther isOldOther)
          | inr newOther =>
              exact state.records.eq_of_key_eq isOld isOldOther (new.1.trans newOther.1.symm)
    rw [same, sameOther, equal]
  · intro record isRecord none
    rcases join_cases isRecord with ⟨old, isOld, _, members, _⟩
    cases List.exists_mem_of_ne_nil _ (sound.inhabited old isOld) with
    | intro member isMember =>
        have still := (members member).mpr (.inl isMember)
        rw [none] at still
        cases still
  · intro record isRecord
    rcases mem_join.mp isRecord with ⟨old, isOld, same⟩
    rw [same]
    split
    next isJoined =>
      rw [state.records.eq_of_key_eq isOld isGroup isJoined]
      exact length_addTo_le.trans room
    next => exact sound.bounded old isOld

theorem join_of_mem (isGroup : group ∈ state.records.rows) (isMember : user ∈ group.user) :
    (state.join group.id user).records.rows = state.records.rows := by
  rw [State.join, State.changeUsers, Table.rows_mapRows]
  refine (List.map_congr_left fun record isRecord => ?_).trans (List.map_id' _)
  split
  next same =>
    have equal := state.records.eq_of_key_eq isRecord isGroup same
    rw [equal, addTo, if_pos isMember]
  next => rfl

theorem leave_join {joined : ℕ} (different : joined ≠ id) :
    ((state.join joined user).leave id user).records.rows =
      ((state.leave id user).join joined user).records.rows := by
  simp only [State.join, State.leave, State.changeUsers, Table.rows_delete, Table.rows_mapRows,
    List.map_map, List.filter_map]
  have first : ∀ record : PhaseZeroRecord, record.id = joined → record.id ≠ id := by
    intro record same
    rw [same]
    exact different
  congr 1
  · funext record
    simp only [Function.comp]
    by_cases isJoined : record.id = joined
    · simp [isJoined, different]
    · by_cases isLeft : record.id = id
      · simp [isLeft, different.symm]
      · simp [isJoined, isLeft]
  · congr 1
    funext record
    simp only [Function.comp]
    by_cases isJoined : record.id = joined
    · simp [isJoined, different]
    · by_cases isLeft : record.id = id
      · simp [isLeft, different.symm]
      · simp [isJoined, isLeft]

theorem Sound.congr {other : State} (sound : Sound program state)
    (same : other.records.rows = state.records.rows) : Sound program other := by
  constructor
  · rw [same]
    exact sound.once
  · rw [same]
    exact sound.inhabited
  · rw [same]
    exact sound.bounded

theorem Sound.move {old : Option PhaseZeroRecord} (sound : Sound program state)
    (found : state.getRecord user = .ok old) (isGroup : group ∈ state.records.rows)
    (room : group.user.length < program.groupMax) :
    Sound program (state.move group.id user old) := by
  cases old with
  | none => exact sound.join (getRecord_eq_none.mp found) isGroup room
  | some old =>
      have own := mem_of_getRecord found
      by_cases same : group = old
      · rw [same] at isGroup ⊢
        have joined := sound.congr (join_of_mem isGroup own.2)
        exact joined.leave
      · have different : group.id ≠ old.id := by
          intro sameId
          exact same (state.records.eq_of_key_eq isGroup own.1 sameId)
        have stays : group ∈ (state.leave old.id user).records.rows := by
          refine mem_leave.mpr ⟨⟨group, isGroup, (if_neg different).symm⟩, ?_⟩
          intro sameId
          exact absurd sameId different
        have absent : ∀ record ∈ (state.leave old.id user).records.rows, user ∉ record.user := by
          intro record isRecord isMember
          rcases leave_cases isRecord with ⟨before, isBefore, _, _, members, _⟩
          have was := (members user).mp isMember
          have isOld := sound.once before isBefore old own.1 user was.1 own.2
          rw [isOld] at was
          exact was.2 ⟨rfl, rfl⟩
        have left : Sound program (state.leave old.id user) := sound.leave
        exact (left.join absent stays room).congr (leave_join different)

end Changes

/-! ## Who is in which group -/

section Members

def State.IsIn (state : State) (user id : ℕ) : Prop :=
  ∃ record ∈ state.records.rows, record.id = id ∧ user ∈ record.user

instance : Decidable (state.IsIn user id) := inferInstanceAs (Decidable (∃ record ∈ _, _))

theorem isIn_enroll : (state.enroll user).IsIn user state.records.next :=
  ⟨_, mem_enroll.mpr (.inr rfl), rfl, List.mem_singleton_self _⟩

theorem isIn_join (isGroup : group ∈ state.records.rows) :
    (state.join group.id user).IsIn user group.id := by
  refine ⟨_, mem_join.mpr ⟨group, isGroup, rfl⟩, ?_⟩
  rw [if_pos rfl]
  exact ⟨rfl, mem_addTo.mpr (.inr rfl)⟩

theorem isIn_move {old : Option PhaseZeroRecord} (found : state.getRecord user = .ok old)
    (isGroup : group ∈ state.records.rows) :
    (state.move group.id user old).IsIn user group.id ↔ old ≠ some group := by
  cases old with
  | none => exact iff_of_true (isIn_join isGroup) (Option.some_ne_none group).symm
  | some old =>
      have own := mem_of_getRecord found
      constructor
      · intro isIn same
        cases same
        rcases isIn with ⟨record, isRecord, sameId, isMember⟩
        rcases leave_cases isRecord with ⟨before, isBefore, sameBefore, _, members, _⟩
        exact ((members user).mp isMember).2 ⟨sameBefore.trans sameId, rfl⟩
      · intro different
        have differentId : group.id ≠ old.id := by
          intro sameId
          exact different (congrArg some (state.records.eq_of_key_eq own.1 isGroup sameId.symm))
        have joined : (state.join group.id user).IsIn user group.id := isIn_join isGroup
        rcases joined with ⟨record, isRecord, sameId, isMember⟩
        have still : record.id ≠ old.id := by
          rw [sameId]
          exact differentId
        refine ⟨record, mem_leave.mpr ⟨⟨record, isRecord, (if_neg still).symm⟩, ?_⟩, sameId,
          isMember⟩
        intro same
        exact absurd same still

end Members

/-! ## What a request does -/

section Requests

def Adds (state : State) (student id : ℕ) : Request → Prop
  | .enter user _ _ _ => student = user ∧ id = state.records.next
  | .joingroup user selected => student = user ∧
      ∃ joinUser, selectedUser selected = .ok (some joinUser) ∧ state.IsIn joinUser id
  | .addnew addUser => student = addUser ∧ id = state.records.next
  | .addtoexisting addUser joinUser => student = addUser ∧ state.IsIn joinUser id
  | .remove _ | .run _ _ | .undo _ => False

/-- A request that reports success in adding a student leaves the student in the group. -/
def Honest (program : Program) (state : State) (request : Request) : Prop :=
  ∀ message, (request.serve program state).1 = .ok (.success message) →
    ∀ student id, Adds state student id request → (step program state request).IsIn student id

/-- An administrator does not add a student to the group in which the student is, while it has
room. -/
def Apart (program : Program) (state : State) : Request → Prop
  | .addtoexisting addUser joinUser => ∀ record ∈ state.records.rows,
      joinUser ∈ record.user → addUser ∈ record.user → program.groupMax ≤ record.user.length
  | _ => True

variable {selected : List Char} {canSkip lotteryPerm isPost : Bool}
  {addUser joinUser removeUser : ℕ}

/-- A request that changes nothing, and does not report success. -/
def Unchanged (program : Program) (state : State) (request : Request) : Prop :=
  step program state request = state ∧
    ∀ message, (request.serve program state).1 ≠ .ok (.success message)

theorem serve_enter :
    Unchanged program state (.enter user canSkip lotteryPerm isPost) ∨
      state.inLottery user = false ∧ canSkip = false ∧ state.lotteryRun = false ∧
        step program state (.enter user canSkip lotteryPerm isPost) = state.enroll user := by
  simp only [Unchanged, step, Request.serve, studentregphasezero, read_bind]
  split
  next => exact .inl ⟨rfl, fun message => by simp⟩
  next notSkip =>
  split
  next =>
    left
    cases own : state.ownRecord user with
    | error raised => exact ⟨rfl, fun message => by simp [bind, andThen, lift]⟩
    | ok record => exact ⟨rfl, fun message => by simp [bind, andThen, lift]⟩
  next isOut =>
  split
  next => exact .inl ⟨rfl, fun message => by simp⟩
  next notRun =>
  split
  next => exact .inl ⟨rfl, fun message => by simp⟩
  next =>
  split
  next =>
    right
    refine ⟨by simpa using isOut, by simpa using notSkip, by simpa using notRun, ?_⟩
    simp only [save, change_bind, read_bind]
    cases own : (state.enroll user).ownRecord user with
    | error raised => rfl
    | ok record => rfl
  next => exact .inl ⟨rfl, fun message => by simp⟩

theorem groupToJoin_eq_ok {old : Option PhaseZeroRecord}
    (found : groupToJoin program state user selected = .ok (.ok (group, old))) :
    ∃ joinUser, selectedUser selected = .ok (some joinUser) ∧
      state.getRecord joinUser = .ok (some group) ∧ state.getRecord user = .ok old ∧
      old ≠ some group ∧ group.user.length < program.groupMax := by
  rw [groupToJoin] at found
  split at found
  next => cases found
  cases isUser : selectedUser selected with
  | error raised =>
      rw [isUser] at found
      cases found
  | ok joinUser =>
  cases joinUser with
  | none =>
      rw [isUser] at found
      cases found
  | some joinUser =>
  refine ⟨joinUser, rfl, ?_⟩
  simp only [isUser, bind, Except.bind] at found
  cases joined : state.getRecord joinUser with
  | error raised =>
      rw [joined] at found
      cases found
  | ok record =>
  rw [joined] at found
  cases record with
  | none => cases found
  | some record =>
  dsimp only at found
  cases own : state.getRecord user with
  | error raised =>
      rw [own] at found
      cases found
  | ok oldGroup =>
  rw [own] at found
  dsimp only [pure, Except.pure] at found
  split at found
  next => cases found
  next =>
  split at found
  next => cases found
  next different =>
  split at found
  next room =>
    cases found
    exact ⟨rfl, rfl, different, room⟩
  next => cases found

theorem step_joingroup_of {old : Option PhaseZeroRecord}
    (found : groupToJoin program state user selected = .ok (.ok (group, old))) :
    step program state (.joingroup user selected) = state.move group.id user old := by
  simp only [step, Request.serve, joingroup, read_bind, found, lift_ok_bind, change_bind]
  cases after : (state.move group.id user old).ownRecord user with
  | error raised => rw [lift_error_bind]
  | ok record =>
      rw [lift_ok_bind]
      rfl

theorem serve_joingroup :
    Unchanged program state (.joingroup user selected) ∨
      ∃ joinUser group old, selectedUser selected = .ok (some joinUser) ∧
        state.getRecord joinUser = .ok (some group) ∧ state.getRecord user = .ok old ∧
        old ≠ some group ∧ group.user.length < program.groupMax ∧
        step program state (.joingroup user selected) = state.move group.id user old := by
  cases found : groupToJoin program state user selected with
  | error raised =>
      simp only [Unchanged, step, Request.serve, joingroup, read_bind, found, lift_error_bind]
      exact .inl ⟨trivial, fun message => by simp⟩
  | ok joined =>
  cases joined with
  | error joinError =>
      left
      simp only [Unchanged, step, Request.serve, joingroup, read_bind, found, lift_ok_bind]
      split
      next =>
        cases own : state.ownRecord user with
        | error raised =>
            simp only [lift_error_bind]
            exact ⟨trivial, fun message => by simp⟩
        | ok record =>
            simp only [lift_ok_bind]
            exact ⟨rfl, fun message => by simp⟩
      next => exact ⟨rfl, fun message => by simp⟩
  | ok target =>
      right
      rcases groupToJoin_eq_ok found with ⟨joinUser, isUser, joined, own, different, room⟩
      exact ⟨joinUser, target.1, target.2, isUser, joined, own, different, room,
        step_joingroup_of found⟩

theorem serve_addnew :
    Unchanged program state (.addnew addUser) ∨
      state.inLottery addUser = false ∧
        step program state (.addnew addUser) = state.enroll addUser := by
  simp only [Unchanged, step, Request.serve, addnew, read_bind]
  split
  next => exact .inl ⟨rfl, fun message => by simp⟩
  next isOut => exact .inr ⟨by simpa using isOut, rfl⟩

theorem serve_addtoexisting_of {old : Option PhaseZeroRecord}
    (joined : state.getRecord joinUser = .ok (some group))
    (own : state.getRecord addUser = .ok old) (room : group.user.length < program.groupMax) :
    (Request.addtoexisting addUser joinUser).serve program state =
      (.ok (.success (program.name addUser ++ " has been added to the lottery group.")),
        state.move group.id addUser old) := by
  simp only [Request.serve, addtoexisting, read_bind, joined, lift_ok_bind, own, if_pos room,
    change_bind]
  rfl

theorem serve_addtoexisting :
    Unchanged program state (.addtoexisting addUser joinUser) ∨
      ∃ group old, state.getRecord joinUser = .ok (some group) ∧
        state.getRecord addUser = .ok old ∧ group.user.length < program.groupMax ∧
        step program state (.addtoexisting addUser joinUser) =
          state.move group.id addUser old := by
  cases joined : state.getRecord joinUser with
  | error raised =>
      left
      simp only [Unchanged, step, Request.serve, addtoexisting, read_bind, joined, lift_error_bind]
      exact ⟨trivial, fun message => by simp⟩
  | ok record =>
  cases record with
  | none =>
      left
      simp only [Unchanged, step, Request.serve, addtoexisting, read_bind, joined, lift_ok_bind]
      exact ⟨rfl, fun message => by simp⟩
  | some group =>
  cases own : state.getRecord addUser with
  | error raised =>
      left
      simp only [Unchanged, step, Request.serve, addtoexisting, read_bind, joined,
        lift_ok_bind, own,
        lift_error_bind]
      exact ⟨trivial, fun message => by simp⟩
  | ok old =>
  by_cases room : group.user.length < program.groupMax
  · right
    refine ⟨group, old, rfl, rfl, room, ?_⟩
    rw [step, serve_addtoexisting_of joined own room]
  · left
    simp only [Unchanged, step, Request.serve, addtoexisting, read_bind, joined, lift_ok_bind, own,
      if_neg room]
    exact ⟨rfl, fun message => by simp⟩

theorem serve_remove :
    step program state (.remove removeUser) = state ∨
      ∃ record, state.getRecord removeUser = .ok (some record) ∧
        step program state (.remove removeUser) = state.leave record.id removeUser := by
  simp only [step, Request.serve, remove, read_bind]
  cases found : state.getRecord removeUser with
  | error raised => exact .inl rfl
  | ok record =>
  cases record with
  | none => exact .inl rfl
  | some record => exact .inr ⟨record, rfl, rfl⟩

theorem records_run {role : String} {mode : Mode} :
    (step program state (.run role mode)).records = state.records := by
  simp only [step, Request.serve, PhaseZero.run, lottery]
  cases errors : (draw program state mode).errors with
  | nil =>
      rw [if_pos rfl]
      split
      next => rfl
      next => rfl
  | cons message messages =>
      rw [if_neg (List.cons_ne_nil _ _)]
      split
      next => rfl
      next => rfl

theorem records_undo {role : String} :
    (step program state (.undo role)).records = state.records := by
  simp only [step, Request.serve, undo]
  split
  next => rfl
  next => rfl

theorem Sound.step (sound : Sound program state) (request : Request) :
    Sound program (step program state request) := by
  have enrolled {user : ℕ} (isOut : state.inLottery user = false) :
      Sound program (state.enroll user) := by
    refine sound.enroll fun record isRecord isMember => ?_
    rw [inLottery_iff.mpr ⟨record, isRecord, isMember⟩] at isOut
    cases isOut
  cases request with
  | enter user canSkip lotteryPerm isPost =>
      cases serve_enter with
      | inl unchanged =>
          rw [unchanged.1]
          exact sound
      | inr entered =>
          rw [entered.2.2.2]
          exact enrolled entered.1
  | joingroup user selected =>
      cases serve_joingroup with
      | inl unchanged =>
          rw [unchanged.1]
          exact sound
      | inr joined =>
          rcases joined with ⟨joinUser, group, old, _, isGroup, own, _, room, after⟩
          rw [after]
          exact sound.move own (mem_of_getRecord isGroup).1 room
  | addnew addUser =>
      cases serve_addnew with
      | inl unchanged =>
          rw [unchanged.1]
          exact sound
      | inr added =>
          rw [added.2]
          exact enrolled added.1
  | addtoexisting addUser joinUser =>
      cases serve_addtoexisting with
      | inl unchanged =>
          rw [unchanged.1]
          exact sound
      | inr added =>
          rcases added with ⟨group, old, isGroup, own, room, after⟩
          rw [after]
          exact sound.move own (mem_of_getRecord isGroup).1 room
  | remove removeUser =>
      cases serve_remove with
      | inl unchanged =>
          rw [unchanged]
          exact sound
      | inr removed =>
          rcases removed with ⟨record, _, after⟩
          rw [after]
          exact sound.leave
  | run role mode => exact sound.congr (congrArg Table.rows records_run)
  | undo role => exact sound.congr (congrArg Table.rows records_undo)

theorem Sound.isIn_iff (sound : Sound program state)
    (found : state.getRecord user = .ok (some group)) : state.IsIn user id ↔ group.id = id := by
  have own := mem_of_getRecord found
  constructor
  · intro isIn
    rcases isIn with ⟨record, isRecord, same, isMember⟩
    rw [sound.once group own.1 record isRecord user own.2 isMember]
    exact same
  · intro same
    exact ⟨group, own.1, same, own.2⟩

theorem Sound.honest_iff (sound : Sound program state) (request : Request) :
    Honest program state request ↔ Apart program state request := by
  have quiet {request : Request} (unchanged : Unchanged program state request) :
      Honest program state request := fun message success => absurd success (unchanged.2 message)
  cases request with
  | enter user canSkip lotteryPerm isPost =>
      refine iff_of_true ?_ trivial
      cases serve_enter with
      | inl unchanged => exact quiet unchanged
      | inr entered =>
          intro message success student id added
          rw [entered.2.2.2, added.1, added.2]
          exact isIn_enroll
  | joingroup user selected =>
      refine iff_of_true ?_ trivial
      cases serve_joingroup with
      | inl unchanged => exact quiet unchanged
      | inr joined =>
          rcases joined with ⟨joinUser, group, old, isUser, isGroup, own, different, _, after⟩
          intro message success student id added
          rcases added with ⟨same, other, isOther, isIn⟩
          rw [isUser] at isOther
          cases isOther
          rw [after, same, ← (sound.isIn_iff isGroup).mp isIn]
          exact (isIn_move own (mem_of_getRecord isGroup).1).mpr different
  | addnew addUser =>
      refine iff_of_true ?_ trivial
      cases serve_addnew with
      | inl unchanged => exact quiet unchanged
      | inr entered =>
          intro message success student id added
          rw [entered.2, added.1, added.2]
          exact isIn_enroll
  | addtoexisting addUser joinUser =>
      constructor
      · intro honest record isRecord isJoined isAdded
        by_contra room
        have joined := sound.getRecord_of_mem isRecord isJoined
        have own := sound.getRecord_of_mem isRecord isAdded
        have served := serve_addtoexisting_of joined own (not_le.mp room)
        have isIn := honest _ (congrArg Prod.fst served) addUser record.id
          ⟨rfl, record, isRecord, rfl, isJoined⟩
        rw [PhaseZero.step, served] at isIn
        exact (isIn_move own isRecord).mp isIn rfl
      · intro apart
        cases serve_addtoexisting with
        | inl unchanged => exact quiet unchanged
        | inr joined =>
            rcases joined with ⟨group, old, isGroup, own, room, after⟩
            have found := mem_of_getRecord isGroup
            intro message success student id added
            rw [after, added.1, ← (sound.isIn_iff isGroup).mp added.2]
            refine (isIn_move own found.1).mpr fun same => ?_
            rw [same] at own
            have full := apart group found.1 found.2 (mem_of_getRecord own).2
            exact absurd room (not_lt.mpr full)
  | remove removeUser => exact iff_of_true (fun _ _ _ _ added => added.elim) trivial
  | run role mode => exact iff_of_true (fun _ _ _ _ added => added.elim) trivial
  | undo role => exact iff_of_true (fun _ _ _ _ added => added.elim) trivial

end Requests

/-! ## Runs -/

section Runs

variable {next : ℕ} {lotteryRun : Bool} {members : String → List ℕ}

theorem sound_new : Sound program (State.new next lotteryRun members) where
  once := fun _ isRecord => (List.not_mem_nil isRecord).elim
  inhabited := fun _ isRecord => (List.not_mem_nil isRecord).elim
  bounded := fun _ isRecord => (List.not_mem_nil isRecord).elim

theorem throughout_sound (requests : List Request) :
    Throughout (step program) (Sound program) (State.new next lotteryRun members) requests := by
  have steps : ∀ state request, Sound program state → True →
      Sound program (step program state request) := fun _ request sound _ => sound.step request
  exact throughout_of_steps steps sound_new fun _ _ _ => trivial

/-- The groups are sound after all requests, and the requests are all honest exactly if
administrators add no student to the group in which the student is, while it has room. -/
theorem sound_and_honest_iff (program : Program) (next : ℕ) (lotteryRun : Bool)
    (members : String → List ℕ) (requests : List Request) :
    (Throughout (step program) (Sound program) (State.new next lotteryRun members) requests ∧
        AtEach (step program) (Honest program) (State.new next lotteryRun members) requests) ↔
      AtEach (step program) (Apart program) (State.new next lotteryRun members) requests := by
  have each (before : List Request) (request : Request)
    (isPrefix : before ++ [request] <+: requests) :
      Honest program (Runs.run (step program) (State.new next lotteryRun members) before) request ↔
        Apart program (Runs.run (step program) (State.new next lotteryRun members) before)
          request := by
    refine Sound.honest_iff (throughout_sound requests before ?_) request
    exact (List.prefix_append before [request]).trans isPrefix
  constructor
  · intro meets before request isPrefix
    exact (each before request isPrefix).mp (meets.2 before request isPrefix)
  · intro apart
    refine ⟨throughout_sound requests, fun before request isPrefix => ?_⟩
    exact (each before request isPrefix).mpr (apart before request isPrefix)

def fours : Program where
  groupMax := 4
  groupMax_pos := by decide
  name := fun _ => "Student"
  urlBase := "Splash/2020"
  getGrade := fun _ => 9
  gradeCaps := [([9], 100)]
  userByName := fun _ => none
  isStudent := fun _ => true

/-- A student who is alone in a group, and is added to it, is in no group any more. -/
theorem not_sound_and_honest_alone :
    ¬ (Throughout (step fours) (Sound fours) (State.new 0 false fun _ => [])
          [.addnew 1, .addtoexisting 1 1] ∧
        AtEach (step fours) (Honest fours) (State.new 0 false fun _ => [])
          [.addnew 1, .addtoexisting 1 1]) := by
  intro meets
  have isIn := meets.2 [.addnew 1] (.addtoexisting 1 1) (List.prefix_refl _) _ rfl 1 0
    ⟨rfl, by decide⟩
  revert isIn
  decide

end Runs

end EspWebsite.PhaseZero
