import EspWebsite.Library.Numerals
import EspWebsite.Library.Transactions
import EspWebsite.Registration.ClassSection

/-!
# Unenrolling students

`UnenrollModule.unenroll_students`: an administrator ends registrations, or undoes that, and the
mailing lists, which contain addresses, are updated.
-/

namespace EspWebsite.Registration.Unenroll

open Python Transactions Transactions.Action

/-- A row of `StudentRegistration` with its key. -/
structure Enrollment extends StudentRegistration where
  id : ℕ
  deriving DecidableEq

/-- The registrations, and the addresses on the mailing lists. -/
structure State where
  registrations : List Enrollment
  members : Finset (MailingList × String)
  deriving DecidableEq

/-- What is shown. -/
inductive Result where
  | noEnrollments
  | expired (ids : List ℤ)
  | unexpired (ids : List ℤ)
  deriving DecidableEq

def selectedIds (text : List Char) : Raises (List ℤ) :=
  (text.splitOn ',').mapM fun id =>
    match parseInt id with
    | none => .error .valueError
    | some id => .ok id

section View

variable (site : Site) (email : ℕ → String) (program : ℕ) (ids : List ℤ) (state : State)

/-- `StudentRegistration.objects.filter(id__in=ids)`. -/
def regList : List Enrollment := state.registrations.filter fun row => (row.id : ℤ) ∈ ids

/-- `qs.update(end_date=end_date)`. -/
def updateEndDate (endDate : Option DateTime) : List Enrollment :=
  state.registrations.map fun row =>
    if (row.id : ℤ) ∈ ids then { row with endDate := endDate } else row

/-- The student has a valid registration as enrolled in the program. -/
def isEnrolled (registrations : List Enrollment) (user : ℕ) (now : DateTime) : Bool :=
  registrations.any fun row =>
    row.isValid now && row.user = user && site.parentProgram row.classSection = program &&
      row.relationship = "Enrolled"

/-- Registrations are expired.  Their students are taken off the lists of the sections and of
the classes, and off the list of the program if they have no valid registration. -/
def expire (now : DateTime) : State :=
  let expired := updateEndDate ids state (some now)
  let removals : List (MailingList × String) := (regList ids state).flatMap fun reg =>
    [(.ofSection reg.classSection, email reg.user),
      (.ofClass (site.parentClass reg.classSection), email reg.user)]
  let members := removals.foldl Finset.erase state.members
  { registrations := expired
    members := ((regList ids state).map fun reg => reg.user).foldl
      (fun members user =>
        if isEnrolled site program expired user now then members
        else members.erase (.ofProgram program, email user)) members }

/-- Registrations are unexpired, and their students put on the lists. -/
def unexpire : State :=
  let adds : List (MailingList × String) := (regList ids state).flatMap fun reg =>
    [(.ofSection reg.classSection, email reg.user),
      (.ofClass (site.parentClass reg.classSection), email reg.user),
      (.ofProgram program, email reg.user)]
  { registrations := updateEndDate ids state none
    members := adds.foldl (fun members add => insert add members) state.members }

/-- `unenroll_students`, for a form that is sent. -/
def unenrollStudents (selected : List Char) (undo : Bool) (now : DateTime) :
    Transactions.Action State Result := do
  if strip selected = [] then return .noEnrollments
  let ids ← lift (selectedIds (strip selected))
  if undo then do
    change fun state => unexpire site email program ids state
    return .unexpired ids
  else do
    change fun state => expire site email program ids state now
    return .expired ids

end View

/-! ## Who is on which list -/

/-- A registration by which a student belongs on a list from some time on. -/
def Lasts (site : Site) (user : ℕ) (list : MailingList) (now : DateTime)
    (row : Enrollment) : Prop :=
  row.user = user ∧ row.relationship = "Enrolled" ∧ list ∈ site.mailingLists row.classSection ∧
    row.isValid now = true ∧ row.isValid (now + 1) = true

section Lists

variable (site : Site) (email : ℕ → String) (program : ℕ) (ids : List ℤ) (state : State) (user : ℕ)
  (list : MailingList) (now later : DateTime)

def Listed (row : Enrollment) : Prop := row ∈ state.registrations ∧ (row.id : ℤ) ∈ ids

/-- A student belongs on a list. -/
def Belongs : Prop := ∃ row ∈ state.registrations, Lasts site user list now row

/-- A student belongs on a list by a registration that is not listed. -/
def Keeps : Prop := ∃ row ∈ state.registrations, (row.id : ℤ) ∉ ids ∧ Lasts site user list now row

def HasListed : Prop :=
  ∃ row, Listed ids state row ∧ row.user = user ∧ list ∈ site.mailingLists row.classSection

/-- An address is removed from a list of a section or a class, since a listed registration has
it. -/
def Removes (address : String) : Prop :=
  ∃ row, Listed ids state row ∧ email row.user = address ∧
    (list = .ofSection row.classSection ∨ list = .ofClass (site.parentClass row.classSection))

def ConcernsStudent : Prop := ∃ row, Listed ids state row ∧ row.user = user

def ConcernsList : Prop := ∃ row, Listed ids state row ∧ list ∈ site.mailingLists row.classSection

/-- All students and lists that are concerned agree. -/
def Agrees : Prop := ∀ user, ConcernsStudent ids state user →
    ∀ list, ConcernsList site ids state list →
  ((list, email user) ∈ state.members ↔ Belongs site state user list now)

/-- Students whose registrations end keep another one in the program, but none on a list from
which their address is removed. -/
def Apart : Prop := ∀ user, ConcernsStudent ids state user →
  ((∃ row, Listed ids state row ∧ row.user = user ∧ row.isValid (now + 1) = true) →
    Keeps site ids state user (.ofProgram program) now) ∧
  ∀ list, ConcernsList site ids state list → Removes site email ids state list (email user) →
    ¬ Keeps site ids state user list now

/-- Students without a listed registration for a list belong on it later exactly if they did
before, or have the address of somebody who is put back on it. -/
def Steady : Prop := ∀ user, ConcernsStudent ids state user →
  ∀ list, ConcernsList site ids state list → ¬ HasListed site ids state user list →
    ((Keeps site ids state user list now ∨ Removes site email ids state list (email user)) ↔
      Keeps site ids state user list later)

end Lists

section Rows

variable {site : Site} {email : ℕ → String} {program user : ℕ} {ids : List ℤ} {state : State}
  {list : MailingList} {now later : DateTime} {row : Enrollment} {address : String}

theorem mem_regList : row ∈ regList ids state ↔ Listed ids state row := by
  rw [regList, List.mem_filter, decide_eq_true_eq, Listed]

theorem mem_foldl_erase {removals : List (MailingList × String)}
    {members : Finset (MailingList × String)} {entry : MailingList × String} :
    entry ∈ removals.foldl Finset.erase members ↔ entry ∈ members ∧ entry ∉ removals := by
  induction removals generalizing members with
  | nil => simp
  | cons removal removals ih =>
      rw [List.foldl_cons, ih, Finset.mem_erase, List.mem_cons, not_or,
        and_comm (a := entry ≠ removal),
        and_assoc]

theorem mem_foldl_insert {adds : List (MailingList × String)}
    {members : Finset (MailingList × String)} {entry : MailingList × String} :
    entry ∈ adds.foldl (fun members add => insert add members) members ↔
      entry ∈ members ∨ entry ∈ adds := by
  induction adds generalizing members with
  | nil => simp
  | cons add adds ih =>
      rw [List.foldl_cons, ih, Finset.mem_insert, List.mem_cons, or_assoc, or_left_comm]

theorem mem_removals : (list, address) ∈ (regList ids state).flatMap (fun reg =>
    [(MailingList.ofSection reg.classSection, email reg.user),
      (.ofClass (site.parentClass reg.classSection), email reg.user)]) ↔
    Removes site email ids state list address := by
  simp only [List.mem_flatMap, mem_regList, List.mem_cons, List.not_mem_nil, or_false,
    Prod.mk.injEq,
    Removes]
  refine exists_congr fun row => and_congr_right fun _ => ?_
  rw [← or_and_right, and_comm, @eq_comm _ address]

theorem foldl_of_isEnrolled {users : List ℕ} {expired : List Enrollment}
    {members : Finset (MailingList × String)}
    (enrolled : ∀ user ∈ users, isEnrolled site program expired user now = true) :
    users.foldl (fun members user =>
      if isEnrolled site program expired user now then members
      else members.erase (.ofProgram program, email user)) members = members := by
  induction users with
  | nil => rfl
  | cons user users ih =>
      rw [List.forall_mem_cons] at enrolled
      rw [List.foldl_cons, if_pos enrolled.1, ih enrolled.2]

/-- The registrations that may be listed. -/
def Proper (site : Site) (program : ℕ) (ids : List ℤ) (now : DateTime) (state : State) : Prop :=
  ∀ row, Listed ids state row → row.relationship = "Enrolled" ∧
    site.parentProgram row.classSection = program ∧ row.isValid now = true

theorem mem_expire (proper : Proper site program ids now state) :
    (list, address) ∈ (expire site email program ids state now).members ↔
      (list, address) ∈ state.members ∧ ¬ Removes site email ids state list address := by
  rw [expire]
  dsimp only
  rw [foldl_of_isEnrolled, mem_foldl_erase, mem_removals]
  intro user isUser
  rcases List.mem_map.mp isUser with ⟨row, isRow, same⟩
  have listed := mem_regList.mp isRow
  rcases proper row listed with ⟨enrolled, inProgram, valid⟩
  have still : (ExpirableModel.expire row.toExpirableModel now).isValid now = true :=
    ExpirableModel.isValid_expire_iff.mpr ⟨(ExpirableModel.isValid_iff.mp valid).1, le_rfl⟩
  refine List.any_eq_true.mpr ⟨{ row with endDate := some now }, ?_, ?_⟩
  · exact List.mem_map.mpr ⟨row, listed.1, if_pos listed.2⟩
  · simp only [Bool.and_eq_true, decide_eq_true_eq]
    exact ⟨⟨⟨still, same⟩, inProgram⟩, enrolled⟩

/-- A state after the end dates of listed registrations have been changed. -/
def Updated (ids : List ℤ) (state after : State) (endDate : Option DateTime) : Prop :=
  after.registrations = updateEndDate ids state endDate

section Updated

variable {after : State} {endDate : Option DateTime}

theorem updated_expire : Updated ids state (expire site email program ids state now)
    (some now) := rfl

theorem Updated.listed_iff (updated : Updated ids state after endDate) :
    Listed ids after row ↔ ∃ old, Listed ids state old ∧ row = { old with endDate := endDate } := by
  rw [Listed, updated, updateEndDate, List.mem_map]
  constructor
  · intro both
    rcases both with ⟨⟨old, isOld, same⟩, isListed⟩
    split at same
    next listed => exact ⟨old, ⟨isOld, listed⟩, same.symm⟩
    next unlisted =>
      rw [same] at unlisted
      exact absurd isListed unlisted
  · intro found
    rcases found with ⟨old, listed, same⟩
    rw [same]
    exact ⟨⟨old, listed.1, if_pos listed.2⟩, listed.2⟩

theorem Updated.exists_listed_iff (updated : Updated ids state after endDate)
    {property : Enrollment → Prop}
    (same : ∀ row : Enrollment, property { row with endDate := endDate } ↔ property row) :
    (∃ row, Listed ids after row ∧ property row) ↔ ∃ row, Listed ids state row ∧ property row := by
  simp only [updated.listed_iff]
  constructor
  · intro found
    rcases found with ⟨row, ⟨old, listed, rfl⟩, holds⟩
    exact ⟨old, listed, (same old).mp holds⟩
  · intro found
    rcases found with ⟨old, listed, holds⟩
    exact ⟨_, ⟨old, listed, rfl⟩, (same old).mpr holds⟩

theorem Updated.concernsStudent_iff (updated : Updated ids state after endDate) :
    ConcernsStudent ids after user ↔ ConcernsStudent ids state user :=
  updated.exists_listed_iff fun _ => Iff.rfl

theorem Updated.concernsList_iff (updated : Updated ids state after endDate) :
    ConcernsList site ids after list ↔ ConcernsList site ids state list :=
  updated.exists_listed_iff fun _ => Iff.rfl

theorem Updated.removes_iff (updated : Updated ids state after endDate) :
    Removes site email ids after list address ↔ Removes site email ids state list address :=
  updated.exists_listed_iff fun _ => Iff.rfl

theorem Updated.belongs_iff (updated : Updated ids state after endDate) :
    Belongs site after user list later ↔
      (∃ old, Listed ids state old ∧ Lasts site user list later { old with endDate := endDate }) ∨
        Keeps site ids state user list later := by
  rw [Belongs, updated, updateEndDate]
  constructor
  · intro belongs
    rcases belongs with ⟨row, isRow, lasts⟩
    rcases List.mem_map.mp isRow with ⟨old, isOld, same⟩
    split at same
    next listed =>
      rw [← same] at lasts
      exact .inl ⟨old, ⟨isOld, listed⟩, lasts⟩
    next unlisted =>
      rw [← same] at lasts
      exact .inr ⟨old, isOld, unlisted, lasts⟩
  · intro either
    cases either with
    | inl found =>
        rcases found with ⟨old, listed, lasts⟩
        exact ⟨_, List.mem_map.mpr ⟨old, listed.1, if_pos listed.2⟩, lasts⟩
    | inr keeps =>
        rcases keeps with ⟨old, isOld, unlisted, lasts⟩
        exact ⟨old, List.mem_map.mpr ⟨old, isOld, if_neg unlisted⟩, lasts⟩

end Updated

theorem belongs_iff : Belongs site state user list now ↔
    (∃ row, Listed ids state row ∧ Lasts site user list now row) ∨
      Keeps site ids state user list now := by
  constructor
  · intro belongs
    rcases belongs with ⟨row, isRow, lasts⟩
    by_cases listed : (row.id : ℤ) ∈ ids
    · exact .inl ⟨row, ⟨isRow, listed⟩, lasts⟩
    · exact .inr ⟨row, isRow, listed, lasts⟩
  · intro either
    cases either with
    | inl found =>
        rcases found with ⟨row, listed, lasts⟩
        exact ⟨row, listed.1, lasts⟩
    | inr keeps =>
        rcases keeps with ⟨row, isRow, _, lasts⟩
        exact ⟨row, isRow, lasts⟩

theorem belongs_expire : Belongs site (expire site email program ids state now) user list now ↔
    Keeps site ids state user list now := by
  rw [updated_expire.belongs_iff]
  refine or_iff_right fun found => ?_
  rcases found with ⟨old, _, _, _, _, _, valid⟩
  have ended := (ExpirableModel.isValid_iff.mp valid).2 now rfl
  exact absurd ended (not_le.mpr (Int.lt_succ now))

/-- An end date that is changed twice is the last one. -/
theorem updated_undo : Updated ids state
    (unexpire site email program ids (expire site email program ids state now)) none := by
  rw [Updated, unexpire, expire, updateEndDate, updateEndDate, List.map_map, updateEndDate]
  refine List.map_congr_left fun row _ => ?_
  rw [Function.comp]
  by_cases listed : (row.id : ℤ) ∈ ids
  · simp only [if_pos listed]
  · simp only [if_neg listed]

theorem belongs_undo (proper : Proper site program ids now state) (after : now ≤ later) :
    Belongs site (unexpire site email program ids (expire site email program ids state now))
      user list
        later ↔
      HasListed site ids state user list ∨ Keeps site ids state user list later := by
  rw [updated_undo.belongs_iff]
  refine or_congr_left (exists_congr fun row => and_congr_right fun listed => ?_)
  rcases proper row listed with ⟨enrolled, _, valid⟩
  have started := (ExpirableModel.isValid_iff.mp valid).1
  have still (time : DateTime) (since : now ≤ time) :
      ({ row with endDate := none } : Enrollment).isValid time = true := by
    refine ExpirableModel.isValid_iff.mpr ⟨fun start isStart => ?_, fun finish isFinish => ?_⟩
    · exact (started start isStart).trans since
    · cases isFinish
  constructor
  · intro lasts
    exact ⟨lasts.1, lasts.2.2.1⟩
  · intro both
    exact ⟨both.1, enrolled, both.2, still later after,
      still (later + 1) (after.trans (Int.lt_succ later).le)⟩

theorem mem_undo (proper : Proper site program ids now state) :
    (list, address) ∈
        (unexpire site email program ids (expire site email program ids state now)).members ↔
      (list, address) ∈ state.members ∨ Removes site email ids state list address ∨
        (list = .ofProgram program ∧ ∃ row, Listed ids state row ∧ email row.user = address) := by
  have adds : (list, address) ∈ (regList ids (expire site email program ids state now)).flatMap
      (fun reg => [(MailingList.ofSection reg.classSection, email reg.user),
        (.ofClass (site.parentClass reg.classSection), email reg.user),
        (.ofProgram program, email reg.user)]) ↔ Removes site email ids state list address ∨
        (list = .ofProgram program ∧ ∃ row, Listed ids state row ∧ email row.user = address) := by
    have updated : Updated ids state (expire site email program ids state now) (some now) :=
      updated_expire
    rw [← updated.removes_iff]
    simp only [List.mem_flatMap, mem_regList, List.mem_cons, List.not_mem_nil, or_false,
      Prod.mk.injEq, Removes]
    constructor
    · intro added
      rcases added with ⟨row, listed, section' | class' | program'⟩
      · exact .inl ⟨row, listed, section'.2.symm, .inl section'.1⟩
      · exact .inl ⟨row, listed, class'.2.symm, .inr class'.1⟩
      · rcases updated_expire.listed_iff.mp listed with ⟨old, isOld, rfl⟩
        exact .inr ⟨program'.1, old, isOld, program'.2.symm⟩
    · intro either
      rcases either with ⟨row, listed, same, section' | class'⟩ | ⟨program', old, isOld, same⟩
      · exact ⟨row, listed, .inl ⟨section', same.symm⟩⟩
      · exact ⟨row, listed, .inr (.inl ⟨class', same.symm⟩)⟩
      · exact ⟨_, updated_expire.listed_iff.mpr ⟨old, isOld, rfl⟩,
          .inr (.inr ⟨program', same.symm⟩)⟩
  rw [unexpire]
  dsimp only
  rw [mem_foldl_insert, adds, mem_expire proper]
  constructor
  · intro either
    cases either with
    | inl stays => exact .inl stays.1
    | inr added => exact .inr added
  · intro either
    by_cases removes : Removes site email ids state list address
    · exact .inr (.inl removes)
    · cases either with
      | inl old => exact .inl ⟨old, removes⟩
      | inr added => exact .inr added

/-! ## Requests -/

theorem mem_mailingLists {sec : ℕ} : list ∈ site.mailingLists sec ↔
    (list = .ofSection sec ∨ list = .ofClass (site.parentClass sec)) ∨
      list = .ofProgram (site.parentProgram sec) := by
  rw [Site.mailingLists, List.mem_cons, List.mem_cons, List.mem_singleton, or_assoc]

theorem agrees_expire_iff (proper : Proper site program ids now state)
    (agrees : Agrees site email ids state now) :
    Agrees site email ids (expire site email program ids state now) now ↔
      Apart site email program ids state now := by
  rw [Agrees, Apart]
  refine forall_congr' fun user => ?_
  rw [updated_expire.concernsStudent_iff]
  refine forall_congr' fun concerned => ?_
  have updated : Updated ids state (expire site email program ids state now) (some now) :=
    updated_expire
  simp only [updated.concernsList_iff, mem_expire proper, belongs_expire]
  have belongs (list : MailingList) (isConcerned : ConcernsList site ids state list) :
      (list, email user) ∈ state.members ↔
        (∃ row, Listed ids state row ∧ Lasts site user list now row) ∨
          Keeps site ids state user list now :=
    (agrees user concerned list isConcerned).trans belongs_iff
  constructor
  · intro all
    constructor
    · intro found
      rcases found with ⟨row, listed, same, valid⟩
      rcases proper row listed with ⟨enrolled, inProgram, validNow⟩
      have ofProgram : .ofProgram program ∈ site.mailingLists row.classSection := by
        rw [← inProgram]
        exact mem_mailingLists.mpr (.inr rfl)
      have isConcerned : ConcernsList site ids state (.ofProgram program) :=
        ⟨row, listed, ofProgram⟩
      refine (all _ isConcerned).mp ⟨?_, fun removes => ?_⟩
      · exact (belongs _ isConcerned).mpr
          (.inl ⟨row, listed, same, enrolled, ofProgram, validNow, valid⟩)
      · rcases removes with ⟨_, _, _, wrong | wrong⟩
        · cases wrong
        · cases wrong
    · intro list isConcerned removes keeps
      exact ((all list isConcerned).mpr keeps).2 removes
  · intro apart list isConcerned
    constructor
    · intro stays
      cases (belongs list isConcerned).mp stays.1 with
      | inr keeps => exact keeps
      | inl found =>
          rcases found with ⟨row, listed, same, _, onList, _, valid⟩
          cases mem_mailingLists.mp onList with
          | inl removed => exact absurd ⟨row, listed, congrArg email same, removed⟩ stays.2
          | inr ofProgram =>
              rw [ofProgram, (proper row listed).2.1]
              exact apart.1 ⟨row, listed, same, valid⟩
    · intro keeps
      exact ⟨(belongs list isConcerned).mpr (.inr keeps),
        fun removes => apart.2 list isConcerned removes keeps⟩

theorem agrees_undo_iff (proper : Proper site program ids now state) (after : now ≤ later)
    (agrees : Agrees site email ids state now) :
    Agrees site email ids
        (unexpire site email program ids (expire site email program ids state now)) later ↔
      Steady site email ids state now later := by
  rw [Agrees, Steady]
  refine forall_congr' fun user => ?_
  rw [updated_undo.concernsStudent_iff]
  refine forall_congr' fun concerned => ?_
  refine forall_congr' fun list => ?_
  rw [updated_undo.concernsList_iff]
  refine forall_congr' fun isConcerned => ?_
  rw [mem_undo proper, belongs_undo proper after]
  by_cases hasListed : HasListed site ids state user list
  · refine iff_of_true (iff_of_true (.inr ?_) (.inl hasListed)) fun none => absurd hasListed none
    rcases hasListed with ⟨row, listed, same, onList⟩
    cases mem_mailingLists.mp onList with
    | inl removed => exact .inl ⟨row, listed, congrArg email same, removed⟩
    | inr ofProgram =>
        rw [(proper row listed).2.1] at ofProgram
        exact .inr ⟨ofProgram, row, listed, congrArg email same⟩
  · have notProgram : list ≠ .ofProgram program := by
      intro ofProgram
      rcases concerned with ⟨row, listed, same⟩
      refine hasListed ⟨row, listed, same, mem_mailingLists.mpr (.inr ?_)⟩
      rw [(proper row listed).2.1]
      exact ofProgram
    have before : (list, email user) ∈ state.members ↔ Keeps site ids state user list now := by
      rw [agrees user concerned list isConcerned, belongs_iff]
      refine or_iff_right fun found => ?_
      rcases found with ⟨row, listed, same, _, onList, _⟩
      exact hasListed ⟨row, listed, same, onList⟩
    rw [imp_iff_right hasListed, before, or_iff_right hasListed,
      or_iff_left (a := Removes site email ids state list (email user))
        fun ofProgram => notProgram ofProgram.1]

/-- What a request does to the registrations that are listed. -/
theorem unenrollStudents_of {selected : List Char} {undo : Bool} (nonempty : strip selected ≠ [])
    (listing : selectedIds (strip selected) = .ok ids) :
    (unenrollStudents site email program selected undo now state).2 =
      if undo then unexpire site email program ids state
      else expire site email program ids state now := by
  rw [unenrollStudents, if_neg nonempty, listing, lift_ok_bind]
  cases undo <;> rfl

/-- The lists agree after a request and after its undo exactly if the students keep what they
need, nothing that they are taken off, and nothing else has changed meanwhile. -/
theorem agrees_iff (site : Site) (email : ℕ → String) (program : ℕ) (selected : List Char)
    (ids : List ℤ) (state : State) (now later : DateTime) (nonempty : strip selected ≠ [])
    (listing : selectedIds (strip selected) = .ok ids) (proper : Proper site program ids now state)
    (agrees : Agrees site email ids state now) (after : now ≤ later) :
    (Agrees site email ids (unenrollStudents site email program selected false now state).2 now ∧
        Agrees site email ids (unenrollStudents site email program selected true later
          (unenrollStudents site email program selected false now state).2).2 later) ↔
      Apart site email program ids state now ∧ Steady site email ids state now later := by
  rw [unenrollStudents_of nonempty listing, unenrollStudents_of nonempty listing]
  exact and_congr (agrees_expire_iff proper agrees) (agrees_undo_iff proper after agrees)

/-! ## A student who leaves a program -/

def oneProgram : Site where
  parentClass := fun sec => sec
  classProgram := fun _ => 0
  meetingTimes := fun _ => []
  capacity := fun _ _ => 10
  usePriority := fun _ => false
  switchTime := fun _ => none
  switchLag := fun _ => none

/-- The student 7 in a section, by a registration with a key. -/
def inSection (id sec : ℕ) : Enrollment := ⟨⟨⟨none, none⟩, 7, sec, "Enrolled"⟩, id⟩

def student (registrations : List Enrollment) : State where
  registrations := registrations
  members := (registrations.flatMap fun row =>
    (oneProgram.mailingLists row.classSection).map fun list => (list, "student@example.org")).toFinset

theorem agrees_student {ids : List ℤ} {rows : List (ℕ × ℕ)} :
    Agrees oneProgram (fun _ => "student@example.org") ids
      (student (rows.map fun row => inSection row.1 row.2)) 5 := by
  intro user concerned list _
  have isStudent : user = 7 := by
    rcases concerned with ⟨row, listed, same⟩
    rcases List.mem_map.mp listed.1 with ⟨pair, _, rfl⟩
    exact same.symm
  rw [isStudent, student, List.mem_toFinset, List.mem_flatMap]
  constructor
  · intro isMember
    rcases isMember with ⟨row, isRow, onList⟩
    refine ⟨row, isRow, ?_⟩
    rcases List.mem_map.mp isRow with ⟨pair, _, rfl⟩
    rcases List.mem_map.mp onList with ⟨other, isOther, same⟩
    cases same
    exact ⟨rfl, rfl, isOther, rfl, rfl⟩
  · intro belongs
    rcases belongs with ⟨row, isRow, lasts⟩
    exact ⟨row, isRow, List.mem_map.mpr ⟨list, lasts.2.2.1, rfl⟩⟩

theorem proper_student {ids : List ℤ} {rows : List (ℕ × ℕ)} :
    Proper oneProgram 0 ids 5 (student (rows.map fun row => inSection row.1 row.2)) := by
  intro row listed
  rcases List.mem_map.mp listed.1 with ⟨pair, _, rfl⟩
  exact ⟨rfl, rfl, rfl⟩

theorem agrees_iff_two_sections :
    (Agrees oneProgram (fun _ => "student@example.org") [1]
        (unenrollStudents oneProgram (fun _ => "student@example.org") 0 ['1'] false 5
          (student [inSection 1 0, inSection 2 1])).2 5 ∧
      Agrees oneProgram (fun _ => "student@example.org") [1]
        (unenrollStudents oneProgram (fun _ => "student@example.org") 0 ['1'] true 6
          (unenrollStudents oneProgram (fun _ => "student@example.org") 0 ['1'] false 5
            (student [inSection 1 0, inSection 2 1])).2).2 6) ↔
      Apart oneProgram (fun _ => "student@example.org") 0 [1] (student [inSection 1 0, inSection 2 1]) 5 ∧
        Steady oneProgram (fun _ => "student@example.org") [1]
          (student [inSection 1 0, inSection 2 1]) 5 6 :=
  agrees_iff oneProgram _ 0 ['1'] [1] _ 5 6 (by decide) (by decide)
    (@proper_student _ [(1, 0), (2, 1)]) (@agrees_student _ [(1, 0), (2, 1)]) (by decide)

/-- A student who is unenrolled from the only section stays on the list of the program. -/
theorem not_agrees_only_section :
    Proper oneProgram 0 [1] 5 (student [inSection 1 0]) ∧
      Agrees oneProgram (fun _ => "student@example.org") [1] (student [inSection 1 0]) 5 ∧
      ¬ Agrees oneProgram (fun _ => "student@example.org") [1]
        (unenrollStudents oneProgram (fun _ => "student@example.org") 0 ['1'] false 5
          (student [inSection 1 0])).2 5 := by
  refine ⟨@proper_student _ [(1, 0)], @agrees_student _ [(1, 0)], fun agrees => ?_⟩
  have listed : Listed [1] (unenrollStudents oneProgram (fun _ => "student@example.org") 0 ['1'] false 5
      (student [inSection 1 0])).2 { inSection 1 0 with endDate := some 5 } := by
    constructor
    · decide
    · decide
  have onList := (agrees 7 ⟨_, listed, rfl⟩ (.ofProgram 0) ⟨_, listed, by decide⟩).mp (by decide)
  rcases onList with ⟨row, isRow, lasts⟩
  have single : (unenrollStudents oneProgram (fun _ => "student@example.org") 0 ['1'] false 5
      (student [inSection 1 0])).2.registrations = [{ inSection 1 0 with endDate := some 5 }] := by
    decide
  rw [single] at isRow
  rw [List.mem_singleton.mp isRow] at lasts
  exact absurd lasts.2.2.2.2 (by decide)

end Rows

end EspWebsite.Registration.Unenroll
