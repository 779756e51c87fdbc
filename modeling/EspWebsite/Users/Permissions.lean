import EspWebsite.Library.Python
import EspWebsite.Utils.ExpirableModel

/-!
# Permissions

`Permission` of `users/models/__init__.py`: what implies what, what a user may do on a
program, and the programs on which a user may do something.
-/

namespace EspWebsite.Users

open Python

/-- An entry of `PERMISSION_CHOICES`: a permission or a group of them. -/
inductive Choice where
  | permission (name : String)
  | group (names : List String)

def flatten (choices : List Choice) : List String :=
  choices.flatMap fun choice =>
    match choice with
    | .permission name => [name]
    | .group names => names

def permissionChoices : List Choice := [
  .permission "Administer",
  .permission "View",
  .permission "Onsite",
  .permission "GradeOverride",
  .permission "OverrideFull",
  .permission "OverridePhaseZero",
  .group [
    "Student/All",
    "Student",
    "Student/MainPage",
    "Student/Profile",
    "Student/Acknowledgement",
    "Student/FormstackMedliab",
    "Student/PhaseZero",
    "Student/Applications",
    "Student/Catalog",
    "Student/Classes",
    "Student/Classes/Lunch",
    "Student/Classes/Lottery",
    "Student/Classes/Lottery/View",
    "Student/Confirm",
    "Student/Cancel",
    "Student/Removal",
    "Student/Finaid",
    "Student/ExtraCosts",
    "Student/Payment",
    "Student/Webapp",
    "Student/Survey"],
  .group [
    "Teacher/All",
    "Teacher",
    "Teacher/MainPage",
    "Teacher/Profile",
    "Teacher/Acknowledgement",
    "Teacher/Availability",
    "Teacher/Moderate",
    "Teacher/Events",
    "Teacher/Quiz",
    "Teacher/Catalog",
    "Teacher/Classes/All",
    "Teacher/Classes/View",
    "Teacher/Classes/Edit",
    "Teacher/Classes/CancelReq",
    "Teacher/Classes/Schedule",
    "Teacher/Classes/Coteachers",
    "Teacher/Classes/Create",
    "Teacher/Classes/Create/Class",
    "Teacher/Classes/Create/OpenClass",
    "Teacher/AppReview",
    "Teacher/Webapp",
    "Teacher/Survey"],
  .group [
    "Volunteer",
    "Volunteer/Signup"]]

def permissionChoicesFlat : List String := flatten permissionChoices

def startingWith (start : String) : List String :=
  permissionChoicesFlat.filter fun name => startswith name start

def implications : List (String × List String) := [
  ("Administer", permissionChoicesFlat),
  ("Student/All", startingWith "Student"),
  ("Teacher/All", startingWith "Teacher"),
  ("Teacher/Classes/All", startingWith "Teacher/Classes"),
  ("Teacher/Classes/Create", startingWith "Teacher/Classes/Create")]

def deadlineTypes : List String :=
  permissionChoicesFlat.filter fun name =>
    startswith name "Teacher" || startswith name "Student" || startswith name "Volunteer"

/-- The permission types that grant a permission: itself and those that imply it. -/
def implies (name : String) : List String :=
  name :: (implications.filter fun entry => name ∈ entry.2).map Prod.fst

theorem startingWith_subset {start longer : String}
    (isLonger : startswith longer start = true) : startingWith longer ⊆ startingWith start := by
  intro name isName
  rcases List.mem_filter.mp isName with ⟨isChoice, begins⟩
  have further : start.toList <+: name.toList :=
    (List.isPrefixOf_iff_prefix.mp isLonger).trans (List.isPrefixOf_iff_prefix.mp begins)
  exact List.mem_filter.mpr ⟨isChoice, List.isPrefixOf_iff_prefix.mpr further⟩

/-- The permissions that imply others, with the start of the names of those. -/
def impliedStarts : List (String × String) := [
  ("Administer", ""),
  ("Student/All", "Student"),
  ("Teacher/All", "Teacher"),
  ("Teacher/Classes/All", "Teacher/Classes"),
  ("Teacher/Classes/Create", "Teacher/Classes/Create")]

theorem implications_eq :
    implications = impliedStarts.map fun entry => (entry.1, startingWith entry.2) := by
  have all : startingWith "" = permissionChoicesFlat :=
    List.filter_eq_self.mpr fun name _ => List.isPrefixOf_iff_prefix.mpr List.nil_prefix
  simp only [impliedStarts, List.map_cons, List.map_nil, all, implications]

/-- The permissions that something implies are implied by all that implies it. -/
theorem implications_closed {first second : String × List String} (isFirst : first ∈ implications)
    (isSecond : second ∈ implications) (contains : second.1 ∈ first.2) :
    second.2 ⊆ first.2 := by
  rw [implications_eq] at isFirst isSecond
  rcases List.mem_map.mp isFirst with ⟨first, listed1, rfl⟩
  rcases List.mem_map.mp isSecond with ⟨second, listed2, rfl⟩
  have isLonger : ∀ first ∈ impliedStarts, ∀ second ∈ impliedStarts,
      startswith second.1 first.2 = true → startswith second.2 first.2 = true := by decide
  exact startingWith_subset
    (isLonger first listed1 second listed2 (List.mem_filter.mp contains).2)

theorem implies_trans {name between outer : String} (isBetween : between ∈ implies name)
    (isOuter : outer ∈ implies between) : outer ∈ implies name := by
  rcases List.mem_cons.mp isOuter with same | isOuter
  · rw [same]
    exact isBetween
  · rcases List.mem_cons.mp isBetween with same | isBetween
    · rw [← same]
      exact List.mem_cons_of_mem _ isOuter
    · simp only [List.mem_map, List.mem_filter, decide_eq_true_eq] at isOuter isBetween
      rcases isOuter with ⟨first, ⟨isFirst, contains⟩, rfl⟩
      rcases isBetween with ⟨second, ⟨isSecond, isName⟩, rfl⟩
      have isNamed := implications_closed isFirst isSecond contains isName
      exact List.mem_cons_of_mem _ (List.mem_map.mpr
        ⟨first, List.mem_filter.mpr ⟨isFirst, decide_eq_true isNamed⟩, rfl⟩)

structure Group where
  id : ℕ
  name : String
  deriving DecidableEq

structure ESPUser where
  id : ℕ
  groups : List Group
  deriving DecidableEq

structure Permission extends ExpirableModel where
  user : Option ℕ
  role : Option ℕ
  userFilter : Option ℕ
  permissionType : String
  program : Option ℕ
  deriving DecidableEq

/-- The tables.  `getList` are the users that a saved filter selects, if it is not
invalid. -/
structure Database where
  programs : List ℕ
  permissions : List Permission
  getList : ℕ → Option (List ℕ)

namespace Database

variable (db : Database) (user : ESPUser) (now : DateTime)

/-- A permission is given to the user or to one of the user's roles. -/
def quser (perm : Permission) : Bool :=
  perm.user = some user.id ∨
    (perm.user = none ∧ ∃ role ∈ perm.role, role ∈ user.groups.map Group.id)

def isAdministrator (program : Option ℕ) : Bool :=
  user.groups.any (fun group => group.name = "Administrator") ||
    db.permissions.any fun perm =>
      quser user perm && (perm.program = none || perm.program = program) &&
        perm.isValid now && perm.permissionType = "Administer"

/-- `q_permissions_on_program`, for permissions that are valid. -/
def qPermissionsOnProgram (permQ : Permission → Bool) (name : String) (program : Option ℕ)
    (programIsNoneImpliesAll : Bool) : List Permission :=
  let programIsNoneImpliesAll := programIsNoneImpliesAll && !decide (name ∈ deadlineTypes)
  db.permissions.filter fun perm =>
    permQ perm && (perm.program = program || programIsNoneImpliesAll && perm.program = none) &&
      perm.permissionType ∈ implies name && perm.isValid now

/-- A saved filter selects the user; an invalid one selects nobody. -/
def isMember (userFilter : ℕ) : Bool :=
  match db.getList userFilter with
  | some users => user.id ∈ users
  | none => false

/-- A permission is given by a saved filter that selects the user. -/
def isFiltered (perm : Permission) : Bool :=
  match perm.userFilter with
  | some userFilter => db.isMember user userFilter
  | none => false

def userHasPerm (name : String) (program : Option ℕ) (programIsNoneImpliesAll : Bool) : Bool :=
  if db.isAdministrator user now program then true
  else if !(db.qPermissionsOnProgram now (quser user) name program
      programIsNoneImpliesAll).isEmpty then true
  else
    let filterQs := db.qPermissionsOnProgram now (fun perm => perm.userFilter.isSome) name program
      programIsNoneImpliesAll
    filterQs.any (db.isFiltered user)

def programByPerm (perm : String) : List ℕ :=
  if (implies perm).any fun name => db.userHasPerm user now name none false then db.programs
  else
    let direct (program : ℕ) := db.permissions.any fun permission =>
      permission.program = some program && permission.isValid now &&
        permission.user = some user.id && permission.permissionType ∈ implies perm
    let role (program : ℕ) := db.permissions.any fun permission =>
      permission.program = some program && permission.isValid now &&
        permission.permissionType ∈ implies perm && permission.user = none &&
        permission.role.any fun role => role ∈ user.groups.map Group.id
    db.programs.filter fun program => direct program || role program

end Database

end EspWebsite.Users
