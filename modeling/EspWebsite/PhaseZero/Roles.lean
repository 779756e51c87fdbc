import EspWebsite.PhaseZero.Winners
import EspWebsite.Users.Permissions

/-!
# The role of the winners

`lottery` and `phasezero` of `StudentRegPhaseZeroManage` with the role that the winners get and the
permissions of this role.
-/

namespace EspWebsite.PhaseZero

open Python Tables Transactions Action

/-! ## Roles and permissions -/

/-- A row of `auth.Group`. -/
structure Group extends Users.Group where
  userSet : List ℕ
  deriving DecidableEq

instance : Keyed Group := ⟨fun group => group.id⟩

/-- The groups, whose names are unique. -/
structure Groups where
  table : Table Group
  unique : table.rows.Pairwise fun earlier later => earlier.name ≠ later.name

/-- A row of `Permission`. -/
structure PermissionRow extends Users.Permission where
  id : ℕ
  deriving DecidableEq

instance : Keyed PermissionRow := ⟨PermissionRow.id⟩

namespace Groups

variable (groups : Groups)

/-- The group with a name. -/
def find (name : String) : Option Group := groups.table.rows.find? fun group => group.name = name

/-- A new group, whose name no other one has. -/
def create (name : String) (absent : groups.find name = none) : Groups where
  table := groups.table.create (fun id => ⟨⟨id, name⟩, []⟩) fun _ => rfl
  unique := by
    refine List.pairwise_append.mpr ⟨groups.unique, List.pairwise_singleton .., ?_⟩
    intro earlier isRow later isNew
    rw [List.mem_singleton.mp isNew]
    exact of_decide_eq_false (Bool.eq_false_iff.mpr (List.find?_eq_none.mp absent earlier isRow))

def add (id : ℕ) (users : List ℕ) : Groups where
  table := groups.table.mapRows
    (fun group => if group.id = id then { group with userSet := users.foldl addTo group.userSet }
      else group) (by intro group; split <;> rfl)
  unique := by
    refine List.pairwise_map.mpr (groups.unique.imp ?_)
    intro earlier later different
    split <;> split <;> exact different

/-- `Group.objects.filter(name=name).delete()`, apart from what else is deleted. -/
def delete (name : String) : Groups where
  table := groups.table.delete fun group => group.name = name
  unique := groups.unique.filter _

end Groups

section Find

variable {groups : Groups} {name : String} {group : Group}

theorem Groups.find_eq_some :
    groups.find name = some group ↔ group ∈ groups.table.rows ∧ group.name = name := by
  constructor
  · intro found
    exact ⟨List.mem_of_find?_eq_some found, by simpa using List.find?_some found⟩
  · rintro ⟨isGroup, rfl⟩
    cases found : groups.find group.name with
    | none => simpa using List.find?_eq_none.mp found group isGroup
    | some other =>
        have isOther := List.mem_of_find?_eq_some found
        have same : other.name = group.name := by simpa using List.find?_some found
        have symmetric : Std.Symm fun left right : Group => left.name ≠ right.name :=
          ⟨fun _ _ => Ne.symm⟩
        by_contra different
        refine groups.unique.forall isOther isGroup (fun equal => different ?_) same
        rw [equal]

end Find

/-! ## The page -/

structure NamedProgram extends Program where
  id : ℕ
  str : String

def NamedProgram.winner (program : NamedProgram) : String := program.str ++ " Winner"

/-- A request that runs the lottery or undoes it, at a time. -/
structure Post where
  mode : Mode
  rolename : Option String
  perms : Bool
  confirm : Bool
  now : DateTime

/-- The records of a program, its tag `student_lottery_run`, the groups, and the permissions. -/
structure Site where
  records : Table PhaseZeroRecord
  lotteryRun : Bool
  groups : Groups
  permissions : Table PermissionRow

namespace Site

variable (program : NamedProgram) (site : Site)

/-- What the requests of students work with. -/
def state : State where
  records := site.records
  lotteryRun := site.lotteryRun
  members name := ((site.groups.find name).map Group.userSet).getD []

/-- `Group.objects.get_or_create(name=name)`. -/
def getOrCreate (name : String) : ℕ × Site :=
  match found : site.groups.find name with
  | some group => (group.id, site)
  | none => (site.groups.table.next, { site with groups := site.groups.create name found })

/-- `group.user_set.add(*users)`. -/
def addUsers (id : ℕ) (users : List ℕ) : Site := { site with groups := site.groups.add id users }

/-- A permission for a role and a program is saved. -/
def grant (permissionType : String) (role program : ℕ) (now : DateTime) : Site :=
  { site with
    permissions := site.permissions.create
      (fun id =>
        { id, permissionType, role := some role, program := some program, startDate := some now,
          endDate := none, user := none, userFilter := none })
      fun _ => rfl }

/-- `lottery`, with the messages of errors. -/
def lottery (role : String) (post : Post) : List String × Site :=
  let (winners, site) := site.getOrCreate role
  let drawn := draw program.toProgram site.state post.mode
  if drawn.errors = [] then
    let added := site.addUsers winners drawn.students
    let granted := added.grant "OverridePhaseZero" winners program.id post.now
    let all :=
      if post.perms then granted.grant "Student/All" winners program.id post.now else granted
    ([], { all with lotteryRun := true })
  else (drawn.errors, site)

/-- `Group.objects.filter(name=role).delete()`, which deletes the permissions of the role, too. -/
def deleteGroups (name : String) : Site :=
  { site with
    groups := site.groups.delete name
    permissions := site.permissions.delete fun perm =>
      site.groups.table.rows.any fun group => group.name = name && perm.role = some group.id }

/-- The requests of `phasezero` that run the lottery or undo it. -/
def phasezero (post : Post) : Action Site Answer := fun site =>
  if site.lotteryRun then
    match post.mode with
    | .other "undo" =>
        if post.confirm then
          (.ok (.success "The student lottery has been undone."),
            { site.deleteGroups program.winner with lotteryRun := false })
        else
          (.ok (.error "You did not confirm that you would like to undo the lottery."), site)
    | _ => (.ok (.error "You've already run the student lottery!"), site)
  else if post.confirm then
    match post.rolename with
    | none => (.error (.raised "MultiValueDictKeyError" "rolename"), site)
    | some role =>
        match site.lottery program role post with
        | ([], site) => (.ok (.success "The student lottery has been run successfully"), site)
        | (errors, site) => (.ok (.error (String.intercalate "\n" errors)), site)
  else (.ok (.error "You did not confirm that you would like to run the lottery"), site)

/-! ## Members -/

/-- What is drawn depends on the groups of the students alone. -/
theorem drawUsernames_congr {program : Program} {state other : State} {groups : Bool}
    {usernames : List String} {drawn : Draw} (same : state.records = other.records) :
    drawUsernames program state groups usernames drawn =
      drawUsernames program other groups usernames drawn := by
  induction usernames generalizing drawn with
  | nil => rfl
  | cons username usernames ih =>
      simp only [drawUsernames, State.recordsOf, same, ih]

theorem draw_congr {program : Program} {state other : State} {mode : Mode}
    (same : state.records = other.records) : draw program state mode = draw program other mode := by
  cases mode with
  | default shuffle => simp only [draw, same]
  | manual usernames groups => exact drawUsernames_congr same
  | other name => rfl

def IsMember (name : String) (user : ℕ) : Prop :=
  ∃ group ∈ site.groups.table.rows, group.name = name ∧ user ∈ group.userSet

variable {program site} {role name : String} {group : Group} {post : Post} {user : ℕ}
  {users : List ℕ}

theorem mem_getOrCreate : group ∈ (site.getOrCreate role).2.groups.table.rows ↔
    group ∈ site.groups.table.rows ∨
      site.groups.find role = none ∧ group = ⟨⟨site.groups.table.next, role⟩, []⟩ := by
  rw [getOrCreate]
  split
  next found => simp [found]
  next absent => simp [absent, Groups.create]

/-- The group that is got is the one with the name. -/
theorem exists_getOrCreate : ∃ group ∈ (site.getOrCreate role).2.groups.table.rows,
    group.id = (site.getOrCreate role).1 ∧ group.name = role := by
  rw [getOrCreate]
  split
  next group found =>
    obtain ⟨isGroup, isRole⟩ := Groups.find_eq_some.mp found
    exact ⟨group, isGroup, rfl, isRole⟩
  next absent => exact ⟨⟨⟨site.groups.table.next, role⟩, []⟩, by simp [Groups.create]⟩

theorem id_getOrCreate (isGroup : group ∈ (site.getOrCreate role).2.groups.table.rows) :
    group.id = (site.getOrCreate role).1 ↔ group.name = role := by
  obtain ⟨winners, isWinners, isId, isRole⟩ := @exists_getOrCreate site role
  constructor
  · intro same
    rw [Table.eq_of_key_eq isGroup isWinners (same.trans isId.symm), isRole]
  · intro same
    have found := Groups.find_eq_some.mpr ⟨isWinners, isRole⟩
    have alsoFound := Groups.find_eq_some.mpr ⟨isGroup, same⟩
    rw [Option.some.inj (alsoFound.symm.trans found), isId]

@[simp] theorem permissions_getOrCreate :
    (site.getOrCreate role).2.permissions = site.permissions := by
  rw [getOrCreate]
  split <;> rfl

@[simp] theorem records_getOrCreate : (site.getOrCreate role).2.records = site.records := by
  rw [getOrCreate]
  split <;> rfl

@[simp] theorem lotteryRun_getOrCreate :
    (site.getOrCreate role).2.lotteryRun = site.lotteryRun := by
  rw [getOrCreate]
  split <;> rfl

@[simp] theorem draw_getOrCreate {program : Program} {mode : Mode} :
    draw program (site.getOrCreate role).2.state mode = draw program site.state mode :=
  draw_congr records_getOrCreate

theorem isMember_getOrCreate :
    (site.getOrCreate role).2.IsMember name user ↔ site.IsMember name user := by
  simp only [IsMember, mem_getOrCreate]
  constructor
  · rintro ⟨group, isGroup | ⟨-, rfl⟩, isName, isUser⟩
    · exact ⟨group, isGroup, isName, isUser⟩
    · cases isUser
  · rintro ⟨group, isGroup, isMember⟩
    exact ⟨group, .inl isGroup, isMember⟩

theorem mem_addUsers {id : ℕ} : group ∈ (site.addUsers id users).groups.table.rows ↔
    ∃ old ∈ site.groups.table.rows, group =
      if old.id = id then { old with userSet := users.foldl addTo old.userSet } else old := by
  simp [addUsers, Groups.add, eq_comm]

theorem toGroup_addUsers {id : ℕ} {row : Users.Group} :
    (∃ group ∈ (site.addUsers id users).groups.table.rows, group.toGroup = row) ↔
      ∃ group ∈ site.groups.table.rows, group.toGroup = row := by
  simp only [mem_addUsers]
  constructor
  · rintro ⟨_, ⟨old, isOld, rfl⟩, rfl⟩
    exact ⟨old, isOld, by split <;> rfl⟩
  · rintro ⟨old, isOld, rfl⟩
    exact ⟨_, ⟨old, isOld, rfl⟩, by split <;> rfl⟩

theorem isMember_addUsers {id : ℕ} : (site.addUsers id users).IsMember name user ↔
    site.IsMember name user ∨
      (∃ group ∈ site.groups.table.rows, group.id = id ∧ group.name = name) ∧ user ∈ users := by
  simp only [IsMember, mem_addUsers]
  constructor
  · rintro ⟨_, ⟨old, isOld, rfl⟩, isName, isUser⟩
    by_cases isId : old.id = id
    · rw [if_pos isId] at isName isUser
      rcases mem_foldl_addTo.mp isUser with isUser | isUser
      · exact .inl ⟨old, isOld, isName, isUser⟩
      · exact .inr ⟨⟨old, isOld, isId, isName⟩, isUser⟩
    · rw [if_neg isId] at isName isUser
      exact .inl ⟨old, isOld, isName, isUser⟩
  · rintro (⟨old, isOld, isName, isUser⟩ | ⟨⟨old, isOld, isId, isName⟩, isUser⟩)
    · refine ⟨_, ⟨old, isOld, rfl⟩, ?_⟩
      split
      · exact ⟨isName, mem_foldl_addTo.mpr (.inl isUser)⟩
      · exact ⟨isName, isUser⟩
    · refine ⟨_, ⟨old, isOld, rfl⟩, ?_⟩
      rw [if_pos isId]
      exact ⟨isName, mem_foldl_addTo.mpr (.inr isUser)⟩

theorem isMember_addWinners :
    ((site.getOrCreate role).2.addUsers (site.getOrCreate role).1 users).IsMember name user ↔
      site.IsMember name user ∨ name = role ∧ user ∈ users := by
  rw [isMember_addUsers, isMember_getOrCreate]
  refine or_congr Iff.rfl (and_congr_left fun _ => ?_)
  constructor
  · rintro ⟨group, isGroup, isId, rfl⟩
    exact (id_getOrCreate isGroup).mp isId
  · rintro rfl
    exact exists_getOrCreate

/-- Permissions with more of them for a role. -/
structure GrantedTo (role : ℕ) (before after : Table PermissionRow) : Prop where
  subset : before.rows ⊆ after.rows
  forRole : ∀ perm ∈ after.rows, perm ∈ before.rows ∨ perm.role = some role

theorem grantedTo_grant (site : Site) (permissionType : String) (role program : ℕ)
    (now : DateTime) :
    GrantedTo role site.permissions (site.grant permissionType role program now).permissions where
  subset := by simp [grant]
  forRole perm isPerm := by
    rw [grant, Table.rows_create, List.mem_append, List.mem_singleton] at isPerm
    rcases isPerm with isOld | rfl
    · exact .inl isOld
    · exact .inr rfl

theorem GrantedTo.trans {role : ℕ} {first second third : Table PermissionRow}
    (granted : GrantedTo role first second) (more : GrantedTo role second third) :
    GrantedTo role first third where
  subset _ isPerm := more.subset (granted.subset isPerm)
  forRole perm isPerm := (more.forRole perm isPerm).elim (granted.forRole perm) .inr

theorem lottery_of_errors
    (some : (draw program.toProgram site.state post.mode).errors ≠ []) :
    site.lottery program role post =
      ((draw program.toProgram site.state post.mode).errors,
        (site.getOrCreate role).2) := by
  rw [lottery]
  dsimp only
  rw [draw_getOrCreate, if_neg some]

theorem lottery_of_no_errors
    (none : (draw program.toProgram site.state post.mode).errors = []) :
    ∃ permissions, site.lottery program role post =
      ([], { (site.getOrCreate role).2.addUsers (site.getOrCreate role).1
          (draw program.toProgram site.state post.mode).students with
        permissions, lotteryRun := true }) ∧
      GrantedTo (site.getOrCreate role).1 site.permissions permissions := by
  rw [lottery]
  dsimp only
  rw [draw_getOrCreate, if_pos none]
  have granted := grantedTo_grant ((site.getOrCreate role).2.addUsers (site.getOrCreate role).1
      (draw program.toProgram site.state post.mode).students)
    "OverridePhaseZero" (site.getOrCreate role).1 program.id post.now
  rw [show (addUsers (site.getOrCreate role).2 _ _).permissions = site.permissions from
    permissions_getOrCreate] at granted
  cases post.perms with
  | false => exact ⟨_, rfl, granted⟩
  | true => exact ⟨_, rfl, granted.trans (grantedTo_grant ..)⟩

theorem isMember_lottery :
    (site.lottery program role post).2.IsMember name user ↔ site.IsMember name user ∨
      (site.lottery program role post).1 = [] ∧ name = role ∧
        user ∈ (draw program.toProgram site.state post.mode).students := by
  by_cases none : (draw program.toProgram site.state post.mode).errors = []
  · obtain ⟨permissions, same, -⟩ := lottery_of_no_errors none
    rw [same]
    simp only [true_and]
    exact isMember_addWinners
  · rw [lottery_of_errors none]
    simp only [none, false_and, or_false]
    exact isMember_getOrCreate

end Site

end EspWebsite.PhaseZero
