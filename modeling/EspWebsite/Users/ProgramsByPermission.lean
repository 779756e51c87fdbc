import EspWebsite.Users.Permissions

/-!
# Programs by permission

`program_by_perm` lists the programs on which a user has a permission; `user_has_perm` tells
whether a user has a permission on one program.  When they agree.
-/

namespace EspWebsite.Users

variable {db : Database} {user : ESPUser} {now : DateTime} {name : String} {program : ℕ}

namespace Database

/-- A permission that is valid now grants a permission on a program, or without one, to
those who satisfy a condition. -/
def Grants (db : Database) (now : DateTime) (who : Permission → Bool) (name : String)
    (program : Option ℕ) : Prop :=
  ∃ perm ∈ db.permissions, who perm = true ∧ perm.program = program ∧
    perm.permissionType ∈ implies name ∧ perm.isValid now = true

theorem Grants.of_implies {who : Permission → Bool} {between : String} {program : Option ℕ}
    (isBetween : between ∈ implies name) (grants : db.Grants now who between program) :
    db.Grants now who name program := by
  rcases grants with ⟨perm, isPerm, holds, onProgram, isType, valid⟩
  exact ⟨perm, isPerm, holds, onProgram, implies_trans isBetween isType, valid⟩

theorem isAdministrator_some_iff :
    db.isAdministrator user now (some program) = true ↔
      db.isAdministrator user now none = true ∨
        ∃ perm ∈ db.permissions, quser user perm = true ∧ perm.program = some program ∧
          perm.isValid now = true ∧ perm.permissionType = "Administer" := by
  simp only [isAdministrator, Bool.or_eq_true, List.any_eq_true, Bool.and_eq_true,
    decide_eq_true_eq, or_self, or_assoc]
  refine or_congr_right ?_
  rw [← exists_or]
  refine exists_congr fun perm => ?_
  tauto

theorem qPermissionsOnProgram_iff {permQ condition : Permission → Bool} {on : Option ℕ} :
    (db.qPermissionsOnProgram now permQ name on false).any condition = true ↔
      db.Grants now (fun perm => permQ perm && condition perm) name on := by
  simp only [qPermissionsOnProgram, Grants, List.any_eq_true, List.mem_filter, Bool.and_eq_true,
    Bool.or_eq_true, decide_eq_true_eq, Bool.false_and, Bool.false_eq_true, or_false]
  refine exists_congr fun perm => ?_
  tauto

theorem userHasPerm_iff {on : Option ℕ} :
    db.userHasPerm user now name on false = true ↔
      db.isAdministrator user now on = true ∨ db.Grants now (quser user) name on ∨
        db.Grants now (db.isFiltered user) name on := by
  have direct : (!(db.qPermissionsOnProgram now (quser user) name on false).isEmpty) = true ↔
      db.Grants now (quser user) name on := by
    have any : (!(db.qPermissionsOnProgram now (quser user) name on false).isEmpty) =
        (db.qPermissionsOnProgram now (quser user) name on false).any fun _ => true := by
      cases db.qPermissionsOnProgram now (quser user) name on false <;> rfl
    rw [any, qPermissionsOnProgram_iff]
    simp only [Bool.and_true]
  have filtered : (db.qPermissionsOnProgram now (fun perm => perm.userFilter.isSome) name on
      false).any (db.isFiltered user) = true ↔ db.Grants now (db.isFiltered user) name on := by
    have same : (fun perm : Permission => perm.userFilter.isSome && db.isFiltered user perm) =
        db.isFiltered user := by
      funext perm
      rw [isFiltered]
      cases perm.userFilter <;> rfl
    rw [qPermissionsOnProgram_iff, same]
  rw [userHasPerm]
  split
  next isAdmin => exact iff_of_true rfl (Or.inl isAdmin)
  next notAdmin =>
    split
    next isDirect => exact iff_of_true rfl (Or.inr (Or.inl (direct.mp isDirect)))
    next notDirect =>
      rw [filtered]
      constructor
      · exact fun grants => Or.inr (Or.inr grants)
      · intro either
        rcases either with isAdmin | isDirect | grants
        · exact absurd isAdmin notAdmin
        · exact absurd (direct.mpr isDirect) notDirect
        · exact grants

theorem mem_programByPerm_iff (isProgram : program ∈ db.programs) :
    program ∈ db.programByPerm user now name ↔
      db.isAdministrator user now none = true ∨ db.Grants now (quser user) name none ∨
        db.Grants now (db.isFiltered user) name none ∨
          db.Grants now (quser user) name (some program) := by
  have everywhere : (implies name).any (fun name => db.userHasPerm user now name none false) =
      true ↔ db.isAdministrator user now none = true ∨ db.Grants now (quser user) name none ∨
        db.Grants now (db.isFiltered user) name none := by
    rw [List.any_eq_true]
    constructor
    · intro some
      rcases some with ⟨between, isBetween, has⟩
      rcases userHasPerm_iff.mp has with isAdmin | grants | grants
      · exact Or.inl isAdmin
      · exact Or.inr (Or.inl (grants.of_implies isBetween))
      · exact Or.inr (Or.inr (grants.of_implies isBetween))
    · intro either
      exact ⟨name, List.mem_cons_self .., userHasPerm_iff.mpr either⟩
  have own : (db.permissions.any fun permission =>
        permission.program = some program && permission.isValid now &&
          permission.user = some user.id && permission.permissionType ∈ implies name) ||
      (db.permissions.any fun permission =>
        permission.program = some program && permission.isValid now &&
          permission.permissionType ∈ implies name && permission.user = none &&
          permission.role.any fun role => role ∈ user.groups.map Group.id) ↔
      db.Grants now (quser user) name (some program) := by
    simp only [Grants, quser, Bool.or_eq_true, List.any_eq_true, Bool.and_eq_true,
      decide_eq_true_eq, Option.any_eq_true, Option.mem_def]
    rw [← exists_or]
    refine exists_congr fun perm => ?_
    tauto
  rw [programByPerm]
  split
  next grants =>
    refine iff_of_true isProgram ?_
    rcases everywhere.mp grants with isAdmin | grants | grants
    · exact Or.inl isAdmin
    · exact Or.inr (Or.inl grants)
    · exact Or.inr (Or.inr (Or.inl grants))
  next nowhere =>
    rw [everywhere, not_or, not_or] at nowhere
    rw [List.mem_filter, own]
    constructor
    · exact fun isListed => Or.inr (Or.inr (Or.inr isListed.2))
    · intro either
      rcases either with isAdmin | grants | grants | grants
      · exact absurd isAdmin nowhere.1
      · exact absurd grants nowhere.2.1
      · exact absurd grants nowhere.2.2
      · exact ⟨isProgram, grants⟩

/-- The list of programs and the check of one program agree for administrators of the site,
and where the user or a role of the user has a grant on the program.  Elsewhere they agree
exactly if the user has a grant without a program when the user has one by a saved filter on
the program, or administers it for a name that does not imply. -/
theorem mem_programByPerm_iff_userHasPerm_iff (isProgram : program ∈ db.programs) :
    (program ∈ db.programByPerm user now name ↔
        db.userHasPerm user now name (some program) false = true) ↔
      db.isAdministrator user now none = true ∨
        db.Grants now (quser user) name (some program) ∨
        ((db.Grants now (quser user) name none ∨ db.Grants now (db.isFiltered user) name none) ↔
          (db.Grants now (db.isFiltered user) name (some program) ∨
            ∃ perm ∈ db.permissions, quser user perm = true ∧ perm.program = some program ∧
              perm.isValid now = true ∧ perm.permissionType = "Administer")) := by
  rw [mem_programByPerm_iff isProgram, userHasPerm_iff, isAdministrator_some_iff]
  by_cases isAdmin : db.isAdministrator user now none = true
  · exact iff_of_true (iff_of_true (Or.inl isAdmin) (Or.inl (Or.inl isAdmin))) (Or.inl isAdmin)
  · by_cases own : db.Grants now (quser user) name (some program)
    · exact iff_of_true
        (iff_of_true (Or.inr (Or.inr (Or.inr own))) (Or.inr (Or.inl own))) (Or.inr (Or.inl own))
    · simp only [isAdmin, own, Bool.false_eq_true, false_or, or_false]
      rw [or_comm (a := ∃ perm ∈ db.permissions, _)]

end Database

/-! ## A saved filter -/

namespace Sample

def student : ESPUser := { id := 7, groups := [] }

/-- The students of a saved filter may register for the classes of the program. -/
def filtered : Database where
  programs := [1]
  permissions := [{
    startDate := none, endDate := none, user := none, role := none, userFilter := some 3,
    permissionType := "Student/Classes", program := some 1 }]
  getList := fun userFilter => if userFilter = 3 then some [7] else none

/-- Nothing grants the student a permission for the volunteers. -/
theorem mem_programByPerm_volunteer :
    1 ∈ filtered.programs ∧
      ((1 ∈ filtered.programByPerm student 0 "Volunteer" ↔
          filtered.userHasPerm student 0 "Volunteer" (some 1) false = true) ↔
        filtered.isAdministrator student 0 none = true ∨
          filtered.Grants 0 (Database.quser student) "Volunteer" (some 1) ∨
          ((filtered.Grants 0 (Database.quser student) "Volunteer" none ∨
              filtered.Grants 0 (filtered.isFiltered student) "Volunteer" none) ↔
            (filtered.Grants 0 (filtered.isFiltered student) "Volunteer" (some 1) ∨
              ∃ perm ∈ filtered.permissions, Database.quser student perm = true ∧
                perm.program = some 1 ∧ perm.isValid 0 = true ∧
                perm.permissionType = "Administer"))) :=
  ⟨by decide, Database.mem_programByPerm_iff_userHasPerm_iff (by decide)⟩

/-- The student has the permission on the program, which is not listed. -/
theorem programByPerm_misses_filter :
    ¬ ∀ (db : Database) (user : ESPUser) (now : DateTime) (name : String),
      ∀ program ∈ db.programs, program ∈ db.programByPerm user now name ↔
        db.userHasPerm user now name (some program) false = true := by
  intro agree
  have isListed := (agree filtered student 0 "Student/Classes" 1 (by decide)).mpr (by decide)
  rw [Database.mem_programByPerm_iff (by decide)] at isListed
  simp only [Database.Grants] at isListed
  exact absurd isListed (by decide)

end Sample

end EspWebsite.Users
