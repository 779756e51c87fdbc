import EspWebsite.Library.Runs
import EspWebsite.PhaseZero.FairLottery

/-!
# Undoing the lottery

The lottery gives its permissions to the role that is asked for, and undoing it deletes the role
that is the default.
-/

namespace EspWebsite.PhaseZero

open Python Runs Tables Transactions Action

/-- A step: a request of an administrator, or the groups of the students change. -/
inductive Event where
  | post (post : Post)
  | entries (records : Table PhaseZeroRecord)

namespace Site

variable (program : NamedProgram) (initial site : Site)

def step : Event → Site
  | .post post => (phasezero program post site).2
  | .entries records => { site with records := records }

def espUser (id : ℕ) : Users.ESPUser where
  id := id
  groups := (site.groups.table.rows.filter fun group => id ∈ group.userSet).map Group.toGroup

def InForce (perm : PermissionRow) (user : ℕ) (now : DateTime) : Prop :=
  Users.Database.quser (site.espUser user) perm.toPermission = true ∧ perm.isValid now = true

/-- No permission that was granted later is in force, and what there was is as it was. -/
structure Undone : Prop where
  notInForce : ∀ perm ∈ site.permissions.rows, perm ∉ initial.permissions.rows →
    ∀ user now, ¬site.InForce perm user now
  permissions : initial.permissions.rows ⊆ site.permissions.rows
  members : ∀ name user, initial.IsMember name user ↔ site.IsMember name user

/-- If the lottery is undone by an event, it is undone indeed. -/
def UndoHolds : Event → Prop
  | .post post => post.mode = .other "undo" → post.confirm = true → site.lotteryRun = true →
      initial.Undone (site.step program (.post post))
  | .entries _ => True

/-- The lottery is run with the default role, or with an error. -/
def UsesDefault : Event → Prop
  | .post post => site.lotteryRun = false → post.confirm = true → ∀ role ∈ post.rolename,
      role = program.winner ∨ (draw program.toProgram site.state post.mode).errors ≠ []
  | .entries _ => True

/-- Nothing belongs to the default role, and the roles of permissions have been created. -/
structure Unused : Prop where
  created : ∀ perm ∈ site.permissions.rows, ∀ role ∈ perm.role, role < site.groups.table.next
  noMembers : ∀ user, ¬site.IsMember program.winner user
  noPermissions : ∀ perm ∈ site.permissions.rows, ∀ group ∈ site.groups.table.rows,
    group.name = program.winner → perm.role ≠ some group.id

/-- Whatever the lottery has done is for the default role. -/
structure Kept : Prop where
  forDefault : ∀ perm ∈ site.permissions.rows, perm ∈ initial.permissions.rows ∨
    ∃ group ∈ site.groups.table.rows, group.name = program.winner ∧ perm.role = some group.id
  permissions : initial.permissions.rows ⊆ site.permissions.rows
  created : ∀ perm ∈ initial.permissions.rows, ∀ role ∈ perm.role, role < site.groups.table.next
  noPermissions : ∀ perm ∈ initial.permissions.rows, ∀ group ∈ site.groups.table.rows,
    group.name = program.winner → perm.role ≠ some group.id
  members : ∀ name user, name ≠ program.winner →
    (initial.IsMember name user ↔ site.IsMember name user)

variable {program initial site} {role : String} {post : Post}

theorem Unused.kept (unused : site.Unused program) : site.Kept program site where
  forDefault _ isPerm := .inl isPerm
  permissions := List.Subset.refl _
  created := unused.created
  noPermissions := unused.noPermissions
  members _ _ _ := Iff.rfl

theorem next_getOrCreate_le :
    site.groups.table.next ≤ (site.getOrCreate role).2.groups.table.next := by
  rw [getOrCreate]
  split
  · exact le_rfl
  · exact Nat.le_succ _

theorem Kept.getOrCreate (kept : initial.Kept program site) :
    initial.Kept program (site.getOrCreate role).2 where
  forDefault perm isPerm := by
    rw [permissions_getOrCreate] at isPerm
    rcases kept.forDefault perm isPerm with isOld | ⟨group, isGroup, isDefault⟩
    · exact .inl isOld
    · exact .inr ⟨group, mem_getOrCreate.mpr (.inl isGroup), isDefault⟩
  permissions := by
    rw [permissions_getOrCreate]
    exact kept.permissions
  created perm isPerm role' isRole :=
    (kept.created perm isPerm role' isRole).trans_le next_getOrCreate_le
  noPermissions perm isPerm group isGroup isDefault isRole := by
    rcases mem_getOrCreate.mp isGroup with isOld | ⟨-, rfl⟩
    · exact kept.noPermissions perm isPerm group isOld isDefault isRole
    · exact absurd (kept.created perm isPerm _ isRole) (lt_irrefl _)
  members name user other := (kept.members name user other).trans isMember_getOrCreate.symm

theorem Kept.lottery (kept : initial.Kept program site)
    (isDefault : role = program.winner ∨
      (draw program.toProgram site.state post.mode).errors ≠ []) :
    initial.Kept program (site.lottery program role post).2 := by
  have got := @Kept.getOrCreate program initial site role kept
  by_cases none : (draw program.toProgram site.state post.mode).errors = []
  · obtain rfl := isDefault.resolve_right (not_not_intro none)
    obtain ⟨permissions, same, granted⟩ := lottery_of_no_errors none
    rw [same]
    refine ⟨fun perm isPerm => ?_, ?_, got.created, fun perm isPerm group isGroup isDefault => ?_,
      fun name user other => ?_⟩
    · rcases granted.forRole perm isPerm with isOld | isNew
      · rcases kept.forDefault perm isOld with isOld | ⟨group, isGroup, isDefault, isRole⟩
        · exact .inl isOld
        · obtain ⟨row, isRow, same⟩ := toGroup_addUsers.mpr
            ⟨group, mem_getOrCreate.mpr (.inl isGroup), rfl⟩
          exact .inr ⟨row, isRow, by rw [same, isDefault], by rw [same, isRole]⟩
      · obtain ⟨winners, isWinners, isId, isDefault⟩ := @exists_getOrCreate site program.winner
        obtain ⟨row, isRow, same⟩ := toGroup_addUsers.mpr ⟨winners, isWinners, rfl⟩
        exact .inr ⟨row, isRow, by rw [same, isDefault], by rw [same, isNew, isId]⟩
    · exact fun perm isPerm => granted.subset (kept.permissions isPerm)
    · obtain ⟨row, isRow, same⟩ := toGroup_addUsers.mp ⟨group, isGroup, rfl⟩
      rw [← same] at isDefault ⊢
      exact got.noPermissions perm isPerm row isRow isDefault
    · refine (kept.members name user other).trans (Iff.symm ?_)
      exact isMember_addWinners.trans (or_iff_left fun both => other both.1)
  · rw [lottery_of_errors none]
    exact got

theorem isMember_deleteGroups {name other : String} {user : ℕ} :
    (site.deleteGroups name).IsMember other user ↔ site.IsMember other user ∧ other ≠ name := by
  simp only [IsMember, deleteGroups, Groups.delete, Table.rows_delete, List.mem_filter,
    Bool.not_eq_true', decide_eq_false_iff_not]
  constructor
  · rintro ⟨group, ⟨isGroup, kept⟩, rfl, isUser⟩
    exact ⟨⟨group, isGroup, rfl, isUser⟩, kept⟩
  · rintro ⟨⟨group, isGroup, rfl, isUser⟩, kept⟩
    exact ⟨group, ⟨isGroup, kept⟩, rfl, isUser⟩

/-- Deleting the default role leaves what there was. -/
theorem Kept.permissions_deleteGroups (kept : initial.Kept program site) (perm : PermissionRow) :
    perm ∈ (site.deleteGroups program.winner).permissions.rows ↔
      perm ∈ initial.permissions.rows := by
  simp only [deleteGroups, Table.rows_delete, List.mem_filter, Bool.not_eq_true',
    List.any_eq_false, Bool.and_eq_true, decide_eq_true_eq, not_and]
  constructor
  · rintro ⟨isPerm, apart⟩
    refine (kept.forDefault perm isPerm).resolve_right ?_
    rintro ⟨group, isGroup, isDefault, isRole⟩
    exact apart group isGroup isDefault isRole
  · intro isOld
    exact ⟨kept.permissions isOld, kept.noPermissions perm isOld⟩

theorem Kept.members_deleteGroups (kept : initial.Kept program site)
    (unused : initial.Unused program) (name : String) (user : ℕ) :
    initial.IsMember name user ↔ (site.deleteGroups program.winner).IsMember name user := by
  rw [isMember_deleteGroups]
  by_cases isDefault : name = program.winner
  · subst isDefault
    exact iff_of_false (unused.noMembers user) fun both => both.2 rfl
  · rw [kept.members name user isDefault, and_iff_left isDefault]

theorem Kept.deleteGroups (kept : initial.Kept program site) (unused : initial.Unused program) :
    initial.Kept program (site.deleteGroups program.winner) where
  forDefault perm isPerm := .inl ((kept.permissions_deleteGroups perm).mp isPerm)
  permissions perm isPerm := (kept.permissions_deleteGroups perm).mpr isPerm
  created := kept.created
  noPermissions perm isPerm group isGroup :=
    kept.noPermissions perm isPerm group (List.mem_of_mem_filter isGroup)
  members name user _ := kept.members_deleteGroups unused name user

theorem Kept.undone (kept : initial.Kept program site) (unused : initial.Unused program) :
    initial.Undone (site.deleteGroups program.winner) where
  notInForce perm isPerm isNew := absurd ((kept.permissions_deleteGroups perm).mp isPerm) isNew
  permissions perm isPerm := (kept.permissions_deleteGroups perm).mpr isPerm
  members := kept.members_deleteGroups unused

/-- What a request does: it deletes the default role, runs the lottery, or does nothing. -/
theorem step_post_cases (program : NamedProgram) (site : Site) (post : Post) :
    site.step program (.post post) =
        { site.deleteGroups program.winner with lotteryRun := false } ∨
      (site.lotteryRun = false ∧ post.confirm = true ∧
        ∃ role ∈ post.rolename,
          site.step program (.post post) = (site.lottery program role post).2) ∨
      site.step program (.post post) = site := by
  rw [step, phasezero]
  split
  · split
    · split
      · exact .inl rfl
      · exact .inr (.inr rfl)
    · exact .inr (.inr rfl)
  next notRun =>
    split
    next confirmed =>
      split
      next => exact .inr (.inr rfl)
      next role isRole =>
        refine .inr (.inl ⟨by simpa using notRun, confirmed, role, isRole, ?_⟩)
        split <;> simp_all
    next => exact .inr (.inr rfl)

theorem Kept.congr {other : Site} (kept : initial.Kept program site)
    (groups : site.groups = other.groups) (permissions : site.permissions = other.permissions) :
    initial.Kept program other := by
  rcases site with ⟨_, _, _, _⟩
  rcases other with ⟨_, _, _, _⟩
  cases groups
  cases permissions
  exact ⟨kept.forDefault, kept.permissions, kept.created, kept.noPermissions, kept.members⟩

theorem Undone.congr {other : Site} (undone : initial.Undone site)
    (groups : site.groups = other.groups) (permissions : site.permissions = other.permissions) :
    initial.Undone other := by
  rcases site with ⟨_, _, _, _⟩
  rcases other with ⟨_, _, _, _⟩
  cases groups
  cases permissions
  exact ⟨undone.notInForce, undone.permissions, undone.members⟩

theorem Kept.step (kept : initial.Kept program site) (unused : initial.Unused program)
    {event : Event} (usesDefault : site.UsesDefault program event) :
    initial.Kept program (site.step program event) ∧ initial.UndoHolds program site event := by
  cases event with
  | entries records => exact ⟨kept.congr rfl rfl, trivial⟩
  | post post =>
      refine ⟨?_, fun isUndo confirmed isRun => ?_⟩
      · obtain same | ⟨notRun, confirmed, role, isRole, same⟩ | same :=
          step_post_cases program site post
        · rw [same]
          exact (kept.deleteGroups unused).congr rfl rfl
        · rw [same]
          exact kept.lottery (usesDefault notRun confirmed role isRole)
        · rwa [same]
      · have same : site.step program (.post post) =
            { site.deleteGroups program.winner with lotteryRun := false } := by
          simp [Site.step, phasezero, isUndo, confirmed, isRun]
        rw [same]
        exact (kept.undone unused).congr rfl rfl

end Site

/-- Where every lottery is run with the default role, and nothing belonged to it before, undoing a
lottery leaves nothing of it. -/
theorem undone_of_usesDefault (program : NamedProgram) (initial : Site)
    (unused : initial.Unused program) (events : List Event)
    (meets : AtEach (Site.step program) (Site.UsesDefault program) initial events) :
    AtEach (Site.step program) (Site.UndoHolds program initial) initial events :=
  @atEach_of_steps _ _ _ _ _ _ _ (initial.Kept program)
    (fun _ _ kept usesDefault => kept.step unused usesDefault) unused.kept meets

namespace Sample

def undo : Post where
  mode := .other "undo"
  rolename := none
  perms := false
  confirm := true
  now := 1

/-- A lottery with the default role is undone, and run again. -/
theorem undone_of_usesDefault_site :
    AtEach (Site.step splash) (Site.UndoHolds splash site) site
      [.post (byLot splash.winner), .post undo, .post (byLot splash.winner), .post undo] := by
  refine undone_of_usesDefault splash site ⟨by simp [site], ?_, by simp [site]⟩ _ ?_
  · rintro user ⟨group, isGroup, -⟩
    cases isGroup
  · simp [atEach_cons, atEach_nil, Site.UsesDefault, byLot, undo]

/-- The permission of the winners of a lottery with another role. -/
def champion : PermissionRow where
  id := 0
  permissionType := "OverridePhaseZero"
  role := some 0
  program := some 1
  startDate := some 0
  endDate := none
  user := none
  userFilter := none

/-- A lottery with another role is undone, and its winner keeps the permissions. -/
theorem not_undone_champions :
    ¬AtEach (Site.step splash) (Site.UndoHolds splash site) site
      [.post (byLot "Champions"), .post undo] := by
  intro undone
  have holds := undone [.post (byLot "Champions")] (.post undo) List.prefix_rfl rfl rfl rfl
  exact holds.notInForce champion (by decide) (by decide) 1 1 ⟨by decide, by decide⟩

end Sample

end EspWebsite.PhaseZero
