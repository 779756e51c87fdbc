import EspWebsite.PhaseZero.Groups

/-!
# The winners of the student lottery

The lottery is drawn for whole groups.  Whether they stay whole depends on who joins them
afterwards. -/

namespace EspWebsite.PhaseZero

open Python Runs Tables Transactions Action

variable {program : Program} {state : State} {user : ℕ} {record group : PhaseZeroRecord}

/-! ## The draw -/

section Draw

variable {records rows : List PhaseZeroRecord} {students : List ℕ}

/-- Who is among the students is so with a whole group. -/
def WithGroup (rows : List PhaseZeroRecord) (students : List ℕ) : Prop :=
  ∀ student ∈ students, ∃ record ∈ rows, student ∈ record.user ∧
    ∀ sib ∈ record.user, sib ∈ students

theorem WithGroup.append (whole : WithGroup rows students) (isRecord : record ∈ rows) :
    WithGroup rows (students ++ record.user) := by
  intro student isStudent
  cases List.mem_append.mp isStudent with
  | inl old =>
      rcases whole student old with ⟨other, isOther, isMember, sibs⟩
      exact ⟨other, isOther, isMember, fun sib isSib => List.mem_append_left _ (sibs sib isSib)⟩
  | inr new => exact ⟨record, isRecord, new, fun sib isSib => List.mem_append_right _ isSib⟩

theorem withGroup_drawGroups (program : Program) {counts : Counts} {drawn : Draw}
    (some : ∀ record ∈ records, record ∈ rows) (whole : WithGroup rows drawn.students) :
    WithGroup rows (drawGroups program records counts drawn).students := by
  induction records generalizing counts drawn with
  | nil => exact whole
  | cons record records ih =>
      have rest : ∀ other ∈ records, other ∈ rows :=
        fun other isOther => some other (List.mem_cons_of_mem _ isOther)
      rw [drawGroups]
      dsimp only
      split
      next => exact ih rest (whole.append (some record List.mem_cons_self))
      next => exact ih rest whole

theorem withGroup_draw {shuffle : Shuffle} :
    WithGroup state.records.rows (draw program state (.default shuffle)).students := by
  have none : WithGroup state.records.rows [] := fun _ isStudent =>
    absurd isStudent List.not_mem_nil
  rw [draw]
  split
  next => exact none
  next =>
    refine withGroup_drawGroups program (fun record isRecord => ?_) none
    exact (shuffle.perm state.records.rows).mem_iff.mp isRecord

theorem mem_foldl_addTo {users : List ℕ} :
    user ∈ students.foldl addTo users ↔ user ∈ users ∨ user ∈ students := by
  induction students generalizing users with
  | nil => simp
  | cons student students ih => rw [List.foldl_cons, ih, mem_addTo, List.mem_cons, or_assoc]

end Draw

/-! ## All or nothing -/

/-- Each group is in a role as a whole or not at all. -/
def Whole (role : String) (state : State) : Prop :=
  ∀ record ∈ state.records.rows, (∀ user ∈ record.user, user ∈ state.members role) ∨
    ∀ user ∈ record.user, user ∉ state.members role

/-- Each group is in a role as a whole or not at all, and consists of entrants. -/
def AllOrNothing (role : String) (entrants : State) (state : State) : Prop :=
  Whole role state ∧
    ∀ record ∈ state.records.rows, ∀ user ∈ record.user, entrants.inLottery user = true

def Request.IsStudents : Request → Prop
  | .enter .. | .joingroup .. => True
  | .addnew _ | .addtoexisting .. | .remove _ | .run .. | .undo _ => False

/-- A student joins a group that has room only as an entrant, and wins exactly if its students
do. -/
def JoinsAlike (program : Program) (role : String) (entrants : State) (state : State) :
    Request → Prop
  | .joingroup user selected => ∀ joinUser, selectedUser selected = .ok (some joinUser) →
      ∀ group ∈ state.records.rows, joinUser ∈ group.user → user ∉ group.user →
        group.user.length < program.groupMax →
          entrants.inLottery user = true ∧
            (user ∈ state.members role ↔ joinUser ∈ state.members role)
  | _ => True

section Whole

variable {role : String} {entrants : State} {old : Option PhaseZeroRecord} {selected : List Char}
  {joinUser : ℕ}

theorem whole_iff : Whole role state ↔ ∀ record ∈ state.records.rows, ∀ user ∈ record.user,
    ∀ sib ∈ record.user, user ∈ state.members role ↔ sib ∈ state.members role := by
  refine forall₂_congr fun record _ => ?_
  constructor
  · intro either user isMember sib isSib
    cases either with
    | inl inside => exact iff_of_true (inside user isMember) (inside sib isSib)
    | inr outside => exact iff_of_false (outside user isMember) (outside sib isSib)
  · intro same
    by_cases won : ∃ user ∈ record.user, user ∈ state.members role
    · rcases won with ⟨user, isMember, won⟩
      exact .inl fun sib isSib => (same user isMember sib isSib).mp won
    · exact .inr fun user isMember isWinner => won ⟨user, isMember, isWinner⟩

theorem members_run {shuffle : Shuffle} {message : String}
    (success : ((Request.run role (.default shuffle)).serve program state).1 =
      .ok (.success message)) :
    (step program state (.run role (.default shuffle))).lotteryRun = true ∧
      (step program state (.run role (.default shuffle))).members role =
        (draw program state (.default shuffle)).students.foldl addTo (state.members role) := by
  simp only [step, Request.serve, PhaseZero.run, lottery] at success ⊢
  split at success
  next => cases success
  next notRun =>
  rw [if_neg notRun]
  cases errors : (draw program state (.default shuffle)).errors with
  | nil =>
      rw [if_pos rfl]
      exact ⟨rfl, Function.update_self ..⟩
  | cons message messages =>
      rw [errors, if_neg (List.cons_ne_nil _ _)] at success
      split at success
      next wrong => cases wrong
      next => cases success

theorem Sound.whole_run {shuffle : Shuffle} {message : String} (sound : Sound program state)
    (noMembers : state.members role = [])
    (success : ((Request.run role (.default shuffle)).serve program state).1 =
      .ok (.success message)) :
    Whole role (PhaseZero.step program state (.run role (.default shuffle))) := by
  have same : (PhaseZero.step program state (.run role (.default shuffle))).records.rows =
      state.records.rows :=
    congrArg Table.rows records_run
  rw [whole_iff, same, (members_run success).2, noMembers]
  have won {record : PhaseZeroRecord} (isRecord : record ∈ state.records.rows) {user sib : ℕ}
      (isMember : user ∈ record.user) (isSib : sib ∈ record.user)
      (isWinner : user ∈ (draw program state (.default shuffle)).students.foldl addTo []) :
      sib ∈ (draw program state (.default shuffle)).students.foldl addTo [] := by
    have drawn := (mem_foldl_addTo.mp isWinner).resolve_left List.not_mem_nil
    rcases withGroup_draw user drawn with ⟨other, isOther, isOtherMember, sibs⟩
    rw [← sound.once record isRecord other isOther user isMember isOtherMember] at sibs
    exact mem_foldl_addTo.mpr (.inr (sibs sib isSib))
  intro record isRecord user isMember sib isSib
  exact ⟨won isRecord isMember isSib, won isRecord isSib isMember⟩

/-! ## After the lottery -/

theorem move_cases (isRecord : record ∈ (state.move group.id user old).records.rows) :
    ∃ before ∈ state.records.rows, before.id = record.id ∧
      ∀ member ∈ record.user, member ∈ before.user ∨ (before.id = group.id ∧ member = user) := by
  cases old with
  | none =>
      rcases join_cases isRecord with ⟨before, isBefore, same, members, _⟩
      exact ⟨before, isBefore, same, fun member isMember => (members member).mp isMember⟩
  | some old =>
      rcases leave_cases isRecord with ⟨between, isBetween, sameBetween, _, membersBetween, _⟩
      rcases join_cases isBetween with ⟨before, isBefore, same, members, _⟩
      refine ⟨before, isBefore, same.trans sameBetween, fun member isMember => ?_⟩
      exact (members member).mp ((membersBetween member).mp isMember).1

theorem mem_move (found : state.getRecord user = .ok old) (isGroup : group ∈ state.records.rows)
    (different : old ≠ some group) :
    { group with user := addTo group.user user } ∈ (state.move group.id user old).records.rows := by
  have joined : { group with user := addTo group.user user } ∈
      (state.join group.id user).records.rows :=
    mem_join.mpr ⟨group, isGroup, (if_pos rfl).symm⟩
  cases old with
  | none => exact joined
  | some old =>
      have own := mem_of_getRecord found
      have differentId : group.id ≠ old.id := by
        intro sameId
        exact different (congrArg some (state.records.eq_of_key_eq own.1 isGroup sameId.symm))
      refine mem_leave.mpr ⟨⟨_, joined, (if_neg differentId).symm⟩, ?_⟩
      intro same
      exact absurd same differentId

theorem members_move : (state.move group.id user old).members = state.members := by
  cases old <;> rfl

theorem lotteryRun_move : (state.move group.id user old).lotteryRun = state.lotteryRun := by
  cases old <;> rfl

/-- A student who joins another group keeps all groups whole exactly if he is an entrant, and as
lucky as its students. -/
theorem Sound.allOrNothing_move (sound : Sound program state)
    (holds : AllOrNothing role entrants state)
    (isGroup : state.getRecord joinUser = .ok (some group))
    (own : state.getRecord user = .ok old) (different : old ≠ some group) :
    AllOrNothing role entrants (state.move group.id user old) ↔
      entrants.inLottery user = true ∧
        (user ∈ state.members role ↔ joinUser ∈ state.members role) := by
  have joined := mem_of_getRecord isGroup
  have whole := whole_iff.mp holds.1
  rw [AllOrNothing, whole_iff, members_move]
  constructor
  · intro after
    have still := mem_move own joined.1 different
    have isMember : user ∈ addTo group.user user := mem_addTo.mpr (.inr rfl)
    exact ⟨after.2 _ still user isMember,
      after.1 _ still user isMember joinUser (mem_addTo.mpr (.inl joined.2))⟩
  · intro alike
    constructor
    · intro record isRecord
      rcases move_cases isRecord with ⟨before, isBefore, _, members⟩
      -- all are as lucky as some student who was in the group before
      have lucky : ∃ first, ∀ member ∈ record.user,
          member ∈ state.members role ↔ first ∈ state.members role := by
        by_cases isJoined : before.id = group.id
        · have same := state.records.eq_of_key_eq isBefore joined.1 isJoined
          refine ⟨joinUser, fun member isMember => ?_⟩
          cases members member isMember with
          | inl stays =>
              rw [same] at stays
              exact whole group joined.1 member stays joinUser joined.2
          | inr new =>
              rw [new.2]
              exact alike.2
        · rcases List.exists_mem_of_ne_nil _ (sound.inhabited before isBefore) with ⟨first, isFirst⟩
          refine ⟨first, fun member isMember => ?_⟩
          cases members member isMember with
          | inl stays => exact whole before isBefore member stays first isFirst
          | inr new => exact absurd new.1 isJoined
      rcases lucky with ⟨first, same⟩
      intro member isMember sib isSib
      exact (same member isMember).trans (same sib isSib).symm
    · intro record isRecord member isMember
      rcases move_cases isRecord with ⟨before, isBefore, _, members⟩
      cases members member isMember with
      | inl stays => exact holds.2 before isBefore member stays
      | inr new =>
          rw [new.2]
          exact alike.1

theorem groupToJoin_of {group : PhaseZeroRecord}
    (isUser : selectedUser selected = .ok (some joinUser))
    (isGroup : state.getRecord joinUser = .ok (some group))
    (own : state.getRecord user = .ok old) (isOut : user ∉ group.user)
    (room : group.user.length < program.groupMax) :
    groupToJoin program state user selected = .ok (.ok (group, old)) := by
  have isJoined := (mem_of_getRecord isGroup).2
  have notBlank : strip selected ≠ [] := by
    intro blank
    simp [selectedUser, parseInt, blank, signed, unsignedInt, digitPart] at isUser
  have notSelf : selected ≠ numeral user := by
    intro same
    rw [same, selectedUser, parseInt_numeral] at isUser
    cases isUser
    exact isOut isJoined
  have different : old ≠ some group := by
    intro same
    rw [same] at own
    exact isOut (mem_of_getRecord own).2
  simp only [groupToJoin, if_neg notBlank, isUser, isGroup, own, bind, Except.bind, if_neg notSelf,
    if_neg different, if_pos room]
  rfl

/-- What holds after the lottery. -/
structure After (program : Program) (role : String) (winners : List ℕ) (state : State) : Prop where
  sound : Sound program state
  lotteryRun : state.lotteryRun = true
  members : state.members role = winners

theorem After.step {winners : List ℕ} {request : Request} (after : After program role winners state)
    (holds : AllOrNothing role entrants state) (isStudents : request.IsStudents) :
    After program role winners (step program state request) ∧
      (AllOrNothing role entrants (step program state request) ↔
        JoinsAlike program role entrants state request) := by
  cases request with
  | enter user canSkip lotteryPerm isPost =>
      have unchanged : PhaseZero.step program state (.enter user canSkip lotteryPerm isPost) =
          state := by
        cases serve_enter with
        | inl unchanged => exact unchanged.1
        | inr entered => exact absurd entered.2.2.1 (by rw [after.lotteryRun]; decide)
      rw [unchanged]
      exact ⟨after, iff_of_true holds trivial⟩
  | joingroup user selected =>
      have lotteryRun :
          (PhaseZero.step program state (.joingroup user selected)).lotteryRun = true ∧
          (PhaseZero.step program state (.joingroup user selected)).members role = winners := by
        cases @serve_joingroup program state user selected with
        | inl unchanged =>
            rw [unchanged.1]
            exact ⟨after.lotteryRun, after.members⟩
        | inr joined =>
            rcases joined with ⟨_, group, old, _, _, _, _, _, moved⟩
            rw [moved, lotteryRun_move, members_move]
            exact ⟨after.lotteryRun, after.members⟩
      refine ⟨⟨after.sound.step _, lotteryRun.1, lotteryRun.2⟩, ?_⟩
      constructor
      · intro still joinUser isUser group isGroup isJoined isOut room
        have joined := after.sound.getRecord_of_mem isGroup isJoined
        rcases after.sound.exists_getRecord user with ⟨old, own⟩
        have different : old ≠ some group := by
          intro same
          rw [same] at own
          exact isOut (mem_of_getRecord own).2
        rw [step_joingroup_of (groupToJoin_of isUser joined own isOut room)] at still
        exact (after.sound.allOrNothing_move holds joined own different).mp still
      · intro alike
        cases @serve_joingroup program state user selected with
        | inl unchanged =>
            rw [unchanged.1]
            exact holds
        | inr joined =>
            rcases joined with ⟨joinUser, group, old, isUser, isGroup, own, different, room, moved⟩
            have found := mem_of_getRecord isGroup
            have isOut : user ∉ group.user := by
              intro isMember
              rw [after.sound.getRecord_of_mem found.1 isMember] at own
              cases own
              exact different rfl
            rw [moved]
            exact (after.sound.allOrNothing_move holds isGroup own different).mpr
              (alike joinUser isUser group found.1 found.2 isOut room)
  | addnew addUser => exact isStudents.elim
  | addtoexisting addUser joinUser => exact isStudents.elim
  | remove removeUser => exact isStudents.elim
  | run role mode => exact isStudents.elim
  | undo role => exact isStudents.elim

/-- After a lottery whose role had no members, and while only students make requests, the groups
stay whole, without newcomers, exactly if students only join groups that are as lucky as they
are. -/
theorem allOrNothing_iff (program : Program) (next : ℕ) (lotteryRun : Bool)
    (members : String → List ℕ) (earlier : List Request) (role : String) (shuffle : Shuffle)
    (message : String) (later : List Request) (entrants : State)
    (isEntrants : entrants =
      Runs.run (PhaseZero.step program) (State.new next lotteryRun members) earlier)
    (noMembers : entrants.members role = [])
    (success : ((Request.run role (.default shuffle)).serve program entrants).1 =
      .ok (.success message))
    (students : ∀ request ∈ later, request.IsStudents) :
    Throughout (PhaseZero.step program) (AllOrNothing role entrants)
        (PhaseZero.step program entrants (.run role (.default shuffle))) later ↔
      AtEach (PhaseZero.step program) (JoinsAlike program role entrants)
        (PhaseZero.step program entrants (.run role (.default shuffle))) later := by
  have sound : Sound program entrants := by
    rw [isEntrants]
    exact throughout_sound earlier earlier (List.prefix_refl _)
  have records : (PhaseZero.step program entrants (.run role (.default shuffle))).records.rows =
      entrants.records.rows :=
    congrArg Table.rows records_run
  have initially : AllOrNothing role entrants
      (PhaseZero.step program entrants (.run role (.default shuffle))) := by
    refine ⟨sound.whole_run noMembers success, fun record isRecord user isMember => ?_⟩
    rw [records] at isRecord
    exact inLottery_iff.mpr ⟨record, isRecord, isMember⟩
  have after : After program role _
      (PhaseZero.step program entrants (.run role (.default shuffle))) :=
    ⟨sound.step _, (members_run success).1, rfl⟩
  have allows : AtEach (PhaseZero.step program) (fun _ request => request.IsStudents)
      (PhaseZero.step program entrants (.run role (.default shuffle))) later := by
    intro before request isPrefix
    refine students request (isPrefix.subset (List.mem_append_right _ (List.mem_singleton_self _)))
  exact throughout_iff (fun state request after holds isStudents => after.step holds isStudents)
    after initially allows

/-- A program that admits one student. -/
def single : Program := { fours with gradeCaps := [([9], 1)] }

/-- Students who enter the lottery, and an order in which they are drawn. -/
def entering : List Request :=
  [.enter 1 false true true, .enter 2 false true true, .enter 3 false true true]

def inOrder : Shuffle := ⟨id, fun records => List.Perm.refl records⟩

def entered : State := Runs.run (PhaseZero.step single) (State.new 0 false fun _ => []) entering

/-- Two students who both lose the lottery may be in one group. -/
theorem allOrNothing_iff_losers :
    Throughout (PhaseZero.step single) (AllOrNothing "Winner" entered)
        (PhaseZero.step single entered (.run "Winner" (.default inOrder))) [.joingroup 3 ['2']] ↔
      AtEach (PhaseZero.step single) (JoinsAlike single "Winner" entered)
        (PhaseZero.step single entered (.run "Winner" (.default inOrder))) [.joingroup 3 ['2']] :=
  allOrNothing_iff single 0 false (fun _ => []) entering "Winner" inOrder
    "The student lottery has been run successfully" [.joingroup 3 ['2']] entered rfl rfl rfl
    (by simp [Request.IsStudents])

/-- A student who lost the lottery joins the group of the one who won it. -/
theorem not_allOrNothing_loser :
    entered.members "Winner" = [] ∧
      ((Request.run "Winner" (.default inOrder)).serve single entered).1 =
        .ok (.success "The student lottery has been run successfully") ∧
      ¬ Throughout (PhaseZero.step single) (AllOrNothing "Winner" entered)
        (PhaseZero.step single entered (.run "Winner" (.default inOrder)))
        [.joingroup 2 ['1']] := by
  refine ⟨rfl, rfl, fun throughout => ?_⟩
  have after := throughout [.joingroup 2 ['1']] (List.prefix_refl _)
  cases after.1 ⟨0, [1, 2]⟩ (by decide) with
  | inl inside => exact absurd (inside 2 (by decide)) (by decide)
  | inr outside => exact outside 1 (by decide) (by decide)

end Whole

end EspWebsite.PhaseZero
