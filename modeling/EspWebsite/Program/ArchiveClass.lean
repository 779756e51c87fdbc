import EspWebsite.Library.Delimited
import EspWebsite.Library.Numerals
import EspWebsite.Library.Python
import EspWebsite.Library.Tables

/-!
# Archived classes

`ArchiveClass` of `program/models/__init__.py`, which keeps the ids of the teachers and the
students of a class in texts, and `getArchiveClass` of `program/models/class_.py`, which makes one.
-/

namespace EspWebsite.Program

open Python Delimited Tables

structure ESPUser where
  id : ℕ
  firstName : List Char
  lastName : List Char
  deriving DecidableEq

instance : Keyed ESPUser := ⟨ESPUser.id⟩

structure ArchiveClass where
  id : ℕ
  program : List Char
  year : List Char
  date : List Char
  category : List Char
  teacher : List Char
  title : List Char
  description : List Char
  teacherIds : Option (List Char)
  studentIds : Option (List Char)
  originalId : Option ℕ
  numOldStudents : ℤ
  deriving DecidableEq

instance : Keyed ArchiveClass := ⟨ArchiveClass.id⟩

/-- What of a class is archived: `teachers` are those of `get_teachers()`, and `students` those of
`students()`. -/
structure ClassSubject where
  id : ℕ
  programUrl : List Char
  category : List Char
  title : List Char
  classInfo : List Char
  prereqs : Option (List Char)
  teachers : List ESPUser
  students : List ESPUser

/-- `'|'.join([str(u.id) for u in users])`. -/
def joinIds (users : List ESPUser) : List Char :=
  ['|'].intercalate (users.map fun user => numeral user.id)

/-- What `add_students` and `add_teachers` do to a text. -/
def addIds (users : List ESPUser) : Option (List Char) → List Char
  | some ids => ids ++ (joinIds users ++ ['|'])
  | none => '|' :: (joinIds users ++ ['|'])

/-- `ids.strip('|').split('|')`. -/
def splitIds (ids : List Char) : List (List Char) := (strip '|' ids).splitOn '|'

/-- `[int(x) for x in ids.strip('|').split('|')]`. -/
def readIds : Option (List Char) → Raises (List ℤ)
  | none => .error .attributeError
  | some ids => (splitIds ids).mapM fun part =>
      match parseInt part with
      | some id => .ok id
      | none => .error .valueError

def icontains (part text : List Char) : Bool :=
  part.map Char.toUpper <:+: text.map Char.toUpper

namespace ArchiveClass

def numStudents (archive : ArchiveClass) : ℤ :=
  match archive.studentIds with
  | some ids => (splitIds ids).length + archive.numOldStudents
  | none => archive.numOldStudents

def addStudents (users : List ESPUser) (archive : ArchiveClass) : ArchiveClass :=
  { archive with studentIds := addIds users archive.studentIds }

def addTeachers (users : List ESPUser) (archive : ArchiveClass) : ArchiveClass :=
  { archive with teacherIds := addIds users archive.teacherIds }

/-- `ESPUser.objects.filter(id__in = useridlist)`. -/
def usersIn (users : Table ESPUser) (useridlist : List ℤ) : List ESPUser :=
  users.rows.filter fun user => (user.id : ℤ) ∈ useridlist

def students (users : Table ESPUser) (archive : ArchiveClass) : Raises (List ESPUser) :=
  (readIds archive.studentIds).map (usersIn users)

def teachers (users : Table ESPUser) (archive : ArchiveClass) : Raises (List ESPUser) :=
  (readIds archive.teacherIds).map (usersIn users)

/-- What `getForUser` finds, in some order. -/
def getForUser (archives : Table ArchiveClass) (user : ESPUser) : List ArchiveClass :=
  archives.rows.filter fun archive =>
    archive.teacherIds.any (icontains ('|' :: (numeral user.id ++ ['|'])))

/-- The texts are not longer than their columns. -/
structure Fits (archive : ArchiveClass) : Prop where
  program : archive.program.length ≤ 256
  year : archive.year.length ≤ 4
  date : archive.date.length ≤ 128
  category : archive.category.length ≤ 32
  teacher : archive.teacher.length ≤ 1024
  title : archive.title.length ≤ 1024
  teacherIds : ∀ ids ∈ archive.teacherIds, ids.length ≤ 256

theorem fits_iff (archive : ArchiveClass) : archive.Fits ↔
    archive.program.length ≤ 256 ∧ archive.year.length ≤ 4 ∧ archive.date.length ≤ 128 ∧
      archive.category.length ≤ 32 ∧ archive.teacher.length ≤ 1024 ∧ archive.title.length ≤ 1024 ∧
      ∀ ids ∈ archive.teacherIds, ids.length ≤ 256 :=
  ⟨fun fits => ⟨fits.program, fits.year, fits.date, fits.category, fits.teacher, fits.title,
    fits.teacherIds⟩, fun ⟨program, year, date, category, teacher, title, ids⟩ =>
    ⟨program, year, date, category, teacher, title, ids⟩⟩

instance (archive : ArchiveClass) : Decidable archive.Fits :=
  decidable_of_iff' _ archive.fits_iff

/-- `save`, of an archive that is in the database. -/
def save (archives : Table ArchiveClass) (archive : ArchiveClass) : Raises (Table ArchiveClass) :=
  if archive.Fits then .ok (archives.save archive)
  else .error (.raised "DataError" "value too long for type character varying")

end ArchiveClass

namespace ClassSubject

def programType (cls : ClassSubject) : List Char := (cls.programUrl.splitOn '/').headD []

def programInstance (cls : ClassSubject) : List Char :=
  ['/'].intercalate (cls.programUrl.splitOn '/').tail

def newArchive (cls : ClassSubject) (id : ℕ) : ArchiveClass :=
  let dateDir := cls.programInstance.splitOn '_'
  { id := id
    program := cls.programType
    year := (dateDir.headD []).take 4
    date := dateDir.tail.headD []
    category := cls.category.take 32
    teacher := " and ".toList.intercalate
      (cls.teachers.map fun teacher => teacher.firstName ++ ' ' :: teacher.lastName)
    title := cls.title
    description :=
      match cls.prereqs with
      | some (char :: prereqs) =>
          cls.classInfo ++ "\n\nThe prerequisites for this class were: ".toList ++ char :: prereqs
      | _ => cls.classInfo
    teacherIds := some ('|' :: (joinIds cls.teachers ++ ['|']))
    studentIds := some ('|' :: (joinIds cls.students ++ ['|']))
    originalId := some cls.id
    numOldStudents := 0 }

theorem key_newArchive (cls : ClassSubject) (id : ℕ) : Keyed.key (cls.newArchive id) = id := rfl

def getArchiveClass (archives : Table ArchiveClass) (cls : ClassSubject) :
    Raises (ArchiveClass × Table ArchiveClass) :=
  match archives.rows.find? fun archive => archive.originalId = some cls.id with
  | some archive => .ok (archive, archives)
  | none =>
      let result := cls.newArchive archives.next
      if result.Fits then .ok (result, archives.create cls.newArchive cls.key_newArchive)
      else .error (.raised "DataError" "value too long for type character varying")

end ClassSubject

inductive Call where
  | addStudents (users : List ESPUser)
  | addTeachers (users : List ESPUser)

namespace Call

def perform (archive : ArchiveClass) : Call → ArchiveClass
  | addStudents users => archive.addStudents users
  | addTeachers users => archive.addTeachers users

def students? : Call → Option (List ESPUser)
  | addStudents users => some users
  | addTeachers _ => none

def teachers? : Call → Option (List ESPUser)
  | addStudents _ => none
  | addTeachers users => some users

end Call

/-- The archive that is left after some calls. -/
def performAll (archive : ArchiveClass) (calls : List Call) : ArchiveClass :=
  calls.foldl Call.perform archive

def Returns (listed : List ESPUser) (read : Raises (List ESPUser)) : Prop :=
  ∃ found, read = .ok found ∧ ∀ user, user ∈ found ↔ user ∈ listed

/-- An archive has exactly these students and teachers. -/
structure ReadsBack (users : Table ESPUser) (archives : Table ArchiveClass)
    (archive : ArchiveClass) (studied taught : List ESPUser) : Prop where
  students : Returns studied (archive.students users)
  teachers : Returns taught (archive.teachers users)
  numStudents : archive.numStudents = studied.length + archive.numOldStudents
  getForUser : ∀ user ∈ users.rows,
    archive ∈ ArchiveClass.getForUser archives user ↔ user ∈ taught

def studentLists (cls : ClassSubject) (calls : List Call) : List (List ESPUser) :=
  cls.students :: calls.filterMap Call.students?

def teacherLists (cls : ClassSubject) (calls : List Call) : List (List ESPUser) :=
  cls.teachers :: calls.filterMap Call.teachers?

/-- An archive is saved after some calls, and has then exactly the users that it was given. -/
def KeepsUsers (users : Table ESPUser) (archives : Table ArchiveClass) (cls : ClassSubject)
    (archive : ArchiveClass) (calls : List Call) : Prop :=
  ∃ saved, (performAll archive calls).save archives = .ok saved ∧
    ReadsBack users saved (performAll archive calls) (studentLists cls calls).flatten
      (teacherLists cls calls).flatten

/-- The length of the text for the ids of some lists of users. -/
def textLength (lists : List (List ESPUser)) : ℕ :=
  1 + (lists.map fun users =>
    if users = [] then 1 else (users.map fun user => (numeral user.id).length + 1).sum).sum

def fieldsOf (users : List ESPUser) : List (List Char) :=
  if users = [] then [[]] else users.map fun user => numeral user.id

/-- The text for the ids of some lists of users. -/
def written (lists : List (List ESPUser)) : List Char := enclosed '|' (lists.flatMap fieldsOf)

section Texts

variable {users : List ESPUser} {lists : List (List ESPUser)} {user : ESPUser} {id : ℕ}

theorem bar_notMem_numeral : '|' ∉ numeral id := fun isChar =>
  absurd (isDigit_of_mem_numeral isChar) (by decide)

theorem numeral_injective : Function.Injective numeral := by
  intro id other same
  have read := congrArg parseInt same
  rw [parseInt_numeral, parseInt_numeral, Option.some.injEq] at read
  exact_mod_cast read

theorem bar_notMem_of_mem (isField : ∃ users ∈ lists, field ∈ fieldsOf users) : '|' ∉ field := by
  rcases isField with ⟨users, _, isField⟩
  rw [fieldsOf] at isField
  split at isField
  next => rw [List.mem_singleton.mp isField]; exact List.not_mem_nil
  next =>
    rcases List.mem_map.mp isField with ⟨user, _, rfl⟩
    exact bar_notMem_numeral

theorem bar_notMem_fields : ∀ field ∈ lists.flatMap fieldsOf, '|' ∉ field := fun _ isField =>
  bar_notMem_of_mem (List.mem_flatMap.mp isField)

theorem filled_fieldsOf (some : users ≠ []) : fieldsOf users ≠ [] ∧ [] ∉ fieldsOf users := by
  rw [fieldsOf, if_neg some]
  refine ⟨by simpa using some, fun isField => ?_⟩
  rcases List.mem_map.mp isField with ⟨user, _, empty⟩
  exact numeral_ne_nil empty

theorem joinIds_append : joinIds users ++ ['|'] = ended '|' (fieldsOf users) := by
  rw [joinIds, fieldsOf]
  split
  next none => rw [none]; rfl
  next some => exact intercalate_append (by simpa using some)

theorem written_singleton : '|' :: (joinIds users ++ ['|']) = written [users] := by
  rw [joinIds_append, written, List.flatMap_singleton]
  rfl

theorem addIds_written : addIds users (some (written lists)) = written (lists ++ [users]) := by
  rw [addIds, joinIds_append, written, written, List.flatMap_append, List.flatMap_singleton,
    enclosed, enclosed, ended_append]
  rfl

theorem splitIds_written : splitIds (written lists) =
    if trim lists = [] then [[]] else (trim lists).flatMap fieldsOf := by
  have someField : (trim lists).flatMap fieldsOf = [] ↔ trim lists = [] := by
    rw [List.flatMap_eq_nil_iff]
    refine ⟨fun none => List.eq_nil_iff_forall_not_mem.mpr fun users isList => ?_, fun none => ?_⟩
    · have empty := none users isList
      rw [fieldsOf] at empty
      split at empty
      next => cases empty
      next some => exact some (List.map_eq_nil_iff.mp empty)
    · rw [none]
      exact fun users isList => absurd isList List.not_mem_nil
  rw [splitIds, written, splitOn_strip bar_notMem_fields,
    @trim_flatMap _ _ _ fieldsOf rfl fun users => filled_fieldsOf]
  simp only [someField]

theorem splitIds_of_together (together : Together lists) :
    splitIds (written lists) = lists.flatten.map fun user => numeral user.id := by
  rw [splitIds_written, if_neg together.1]
  exact flatMap_trim (fun users some => if_neg some) together.2

theorem readIds_of_together (together : Together lists) :
    readIds (some (written lists)) = .ok (lists.flatten.map fun user => (user.id : ℤ)) := by
  rw [readIds, splitIds_of_together together, mapM_eq_ok, List.forall₂_map_left_iff,
    List.forall₂_map_right_iff, List.forall₂_same]
  intro user _
  rw [parseInt_numeral]

theorem together_of_readIds {ids : List ℤ} (read : readIds (some (written lists)) = .ok ids) :
    Together lists := by
  have noField : [] ∉ splitIds (written lists) := by
    intro isField
    rcases List.getElem_of_mem isField with ⟨index, inside, isEmpty⟩
    have each := List.forall₂_iff_get.mp (mapM_eq_ok.mp read)
    have number := each.2 index inside (each.1 ▸ inside)
    rw [List.get_eq_getElem, isEmpty] at number
    cases number
  rw [splitIds_written] at noField
  split at noField
  next => exact absurd (List.mem_singleton_self _) noField
  next some =>
    refine ⟨some, fun isList => noField (List.mem_flatMap.mpr ⟨[], isList, ?_⟩)⟩
    exact List.mem_singleton_self _

theorem mem_fields : numeral id ∈ lists.flatMap fieldsOf ↔ ∃ user ∈ lists.flatten, user.id = id := by
  constructor
  · intro isField
    rcases List.mem_flatMap.mp isField with ⟨users, isList, isField⟩
    rw [fieldsOf] at isField
    split at isField
    next => exact absurd (List.mem_singleton.mp isField) numeral_ne_nil
    next =>
      rcases List.mem_map.mp isField with ⟨user, isUser, same⟩
      exact ⟨user, List.mem_flatten.mpr ⟨users, isList, isUser⟩, numeral_injective same⟩
  · rintro ⟨user, isUser, rfl⟩
    rcases List.mem_flatten.mp isUser with ⟨users, isList, isUser⟩
    refine List.mem_flatMap.mpr ⟨users, isList, ?_⟩
    rw [fieldsOf, if_neg (List.ne_nil_of_mem isUser)]
    exact List.mem_map.mpr ⟨user, isUser, rfl⟩

theorem map_toUpper {text : List Char} (plain : ∀ char ∈ text, char = '|' ∨ char.isDigit = true) :
    text.map Char.toUpper = text := by
  refine (List.map_congr_left fun char isChar => ?_).trans (List.map_id' text)
  rcases plain char isChar with rfl | digit
  · rfl
  · have range := Char.isDigit_iff_toNat.mp digit
    refine dif_neg fun lower => ?_
    have above : 97 ≤ char.toNat := UInt32.le_iff_toNat_le.mp lower.1
    exact absurd (above.trans range.2) (by decide)

theorem plain_of_mem_written {char : Char} (isChar : char ∈ written lists) :
    char = '|' ∨ char.isDigit = true := by
  rw [written, enclosed, List.mem_cons, ended, List.mem_flatMap] at isChar
  rcases isChar with bar | ⟨field, isField, isChar⟩
  · exact Or.inl bar
  · rcases List.mem_append.mp isChar with isChar | bar
    · rcases List.mem_flatMap.mp isField with ⟨users, _, isField⟩
      rw [fieldsOf] at isField
      split at isField
      next =>
        rw [List.mem_singleton.mp isField] at isChar
        exact absurd isChar List.not_mem_nil
      next =>
        rcases List.mem_map.mp isField with ⟨user, _, rfl⟩
        exact Or.inr (isDigit_of_mem_numeral isChar)
    · exact Or.inl (List.mem_singleton.mp bar)

/-- The search for an id finds the users with it. -/
theorem icontains_written :
    icontains ('|' :: (numeral id ++ ['|'])) (written lists) = true ↔
      ∃ user ∈ lists.flatten, user.id = id := by
  rw [icontains, map_toUpper fun _ => plain_of_mem_written, map_toUpper, decide_eq_true_eq, written,
    isInfix_enclosed bar_notMem_numeral bar_notMem_fields, mem_fields]
  intro char isChar
  rw [List.mem_cons, List.mem_append, List.mem_singleton] at isChar
  rcases isChar with bar | digit | bar
  · exact Or.inl bar
  · exact Or.inr (isDigit_of_mem_numeral digit)
  · exact Or.inl bar

theorem length_written : (written lists).length = textLength lists := by
  rw [written, enclosed, textLength, List.length_cons, add_comm]
  congr 1
  induction lists with
  | nil => rfl
  | cons users lists ih =>
      rw [List.flatMap_cons, ended_append, List.length_append, ih, List.map_cons, List.sum_cons]
      congr 1
      rw [fieldsOf, ended, List.length_flatMap]
      split
      next => rfl
      next => 
        rw [List.map_map]
        simp only [Function.comp_def, List.length_append, List.length_singleton]

theorem returns_iff {users : Table ESPUser} {read : Raises (List ESPUser)}
    (known : ∀ user ∈ lists.flatten, user ∈ users.rows)
    (isRead : read = (readIds (some (written lists))).map (ArchiveClass.usersIn users)) :
    Returns lists.flatten read ↔ Together lists := by
  constructor
  · rintro ⟨found, returned, _⟩
    rw [isRead, map_eq_ok] at returned
    rcases returned with ⟨ids, isIds, _⟩
    exact together_of_readIds isIds
  · intro together
    refine ⟨_, by rw [isRead, readIds_of_together together]; rfl, fun user => ?_⟩
    rw [ArchiveClass.usersIn, List.mem_filter, decide_eq_true_eq, List.mem_map]
    constructor
    · rintro ⟨isUser, other, isOther, same⟩
      rw [← Table.eq_of_key_eq (known other isOther) isUser (by exact_mod_cast same)]
      exact isOther
    · intro isUser
      exact ⟨known user isUser, user, isUser, rfl⟩

end Texts

section Calls

variable {archive : ArchiveClass} {archives : Table ArchiveClass} {calls : List Call}
  {studied taught : List (List ESPUser)}

theorem performAll_frame : performAll archive calls =
    { archive with
      studentIds := (performAll archive calls).studentIds
      teacherIds := (performAll archive calls).teacherIds } := by
  induction calls generalizing archive with
  | nil => rfl
  | cons call calls ih =>
      rw [performAll, List.foldl_cons, ← performAll, ih]
      cases call <;> rfl

theorem performAll_written (studentIds : archive.studentIds = some (written studied))
    (teacherIds : archive.teacherIds = some (written taught)) :
    (performAll archive calls).studentIds =
        some (written (studied ++ calls.filterMap Call.students?)) ∧
      (performAll archive calls).teacherIds =
        some (written (taught ++ calls.filterMap Call.teachers?)) := by
  induction calls generalizing archive studied taught with
  | nil =>
      rw [List.filterMap_nil, List.filterMap_nil, List.append_nil, List.append_nil]
      exact ⟨studentIds, teacherIds⟩
  | cons call calls ih =>
      rw [performAll, List.foldl_cons, ← performAll]
      cases call with
      | addStudents users =>
          have added : (archive.addStudents users).studentIds =
              some (written (studied ++ [users])) := by
            rw [ArchiveClass.addStudents, studentIds, addIds_written]
          have both := ih added teacherIds
          rw [List.append_assoc] at both
          exact both
      | addTeachers users =>
          have added : (archive.addTeachers users).teacherIds =
              some (written (taught ++ [users])) := by
            rw [ArchiveClass.addTeachers, teacherIds, addIds_written]
          have same : (archive.addTeachers users).studentIds = some (written studied) := studentIds
          have both := ih same added
          rw [List.append_assoc] at both
          exact both

theorem getArchiveClass_eq_ok {cls : ClassSubject} {created : Table ArchiveClass}
    (new : ∀ archive ∈ archives.rows, archive.originalId ≠ some cls.id) :
    cls.getArchiveClass archives = .ok (archive, created) ↔
      (cls.newArchive archives.next).Fits ∧ archive = cls.newArchive archives.next ∧
        created = archives.create cls.newArchive cls.key_newArchive := by
  have none : archives.rows.find? (fun archive => archive.originalId = some cls.id) = none :=
    List.find?_eq_none.mpr fun archive isArchive => by simpa using new archive isArchive
  rw [ClassSubject.getArchiveClass, none]
  simp only
  split
  next fits =>
    rw [Except.ok.injEq, Prod.mk.injEq]
    exact ⟨fun same => ⟨fits, same.1.symm, same.2.symm⟩, fun same => ⟨same.2.1.symm, same.2.2.symm⟩⟩
  next long => exact ⟨(by intro same; cases same), fun same => absurd same.1 long⟩

/-- An archive that was just made reads back exactly the users that it was given, if and only if
there are students and no call without any comes between two with some, likewise the teachers, and
the text of the teachers' ids fits in its column. -/
theorem keepsUsers_iff {users : Table ESPUser} {created : Table ArchiveClass} {cls : ClassSubject}
    (new : ∀ archive ∈ archives.rows, archive.originalId ≠ some cls.id)
    (archived : cls.getArchiveClass archives = .ok (archive, created))
    (knownStudents : ∀ user ∈ (studentLists cls calls).flatten, user ∈ users.rows)
    (knownTeachers : ∀ user ∈ (teacherLists cls calls).flatten, user ∈ users.rows) :
    KeepsUsers users created cls archive calls ↔
      Together (studentLists cls calls) ∧ Together (teacherLists cls calls) ∧
        textLength (teacherLists cls calls) ≤ 256 := by
  rcases (getArchiveClass_eq_ok new).mp archived with ⟨fits, rfl, rfl⟩
  have texts : (performAll (cls.newArchive archives.next) calls).studentIds =
        some (written (studentLists cls calls)) ∧
      (performAll (cls.newArchive archives.next) calls).teacherIds =
        some (written (teacherLists cls calls)) :=
    @performAll_written _ calls [cls.students] [cls.teachers] (congrArg some written_singleton)
      (congrArg some written_singleton)
  have frame := @performAll_frame (cls.newArchive archives.next) calls
  rw [KeepsUsers]
  generalize performAll (cls.newArchive archives.next) calls = performed at texts frame ⊢
  have fitsIff : performed.Fits ↔ textLength (teacherLists cls calls) ≤ 256 := by
    rw [← length_written]
    constructor
    · intro fits
      exact fits.teacherIds _ texts.2
    · intro short
      rw [frame]
      refine { fits with teacherIds := fun ids isIds => ?_ }
      rw [texts.2, Option.mem_some] at isIds
      rw [← isIds]
      exact short
  have students : Returns (studentLists cls calls).flatten (performed.students users) ↔
      Together (studentLists cls calls) :=
    returns_iff knownStudents (by rw [ArchiveClass.students, texts.1])
  have teachers : Returns (teacherLists cls calls).flatten (performed.teachers users) ↔
      Together (teacherLists cls calls) :=
    returns_iff knownTeachers (by rw [ArchiveClass.teachers, texts.2])
  constructor
  · rintro ⟨saved, isSaved, back⟩
    refine ⟨students.mp back.students, teachers.mp back.teachers, ?_⟩
    rw [ArchiveClass.save] at isSaved
    split at isSaved
    next fits => exact fitsIff.mp fits
    next => cases isSaved
  · rintro ⟨studentsTogether, teachersTogether, short⟩
    have isSaved :
        performed ∈ ((archives.create cls.newArchive cls.key_newArchive).save performed).rows := by
      rw [Table.rows_save, Table.rows_create, List.map_append]
      refine List.mem_append_right _ (List.mem_singleton.mpr (if_pos ?_).symm)
      rw [frame]
      rfl
    refine ⟨_, if_pos (fitsIff.mpr short), students.mpr studentsTogether,
      teachers.mpr teachersTogether, ?_, fun user isUser => ?_⟩
    · rw [ArchiveClass.numStudents, texts.1]
      simp only [splitIds_of_together studentsTogether, List.length_map]
    · rw [ArchiveClass.getForUser, List.mem_filter, and_iff_right isSaved, texts.2,
        Option.any_some, icontains_written]
      constructor
      · rintro ⟨other, isOther, same⟩
        rw [← Table.eq_of_key_eq (knownTeachers other isOther) isUser same]
        exact isOther
      · intro isTeacher
        exact ⟨user, isTeacher, rfl⟩

end Calls

namespace Sample

def ada : ESPUser := ⟨1, "Ada".toList, "Lee".toList⟩

def ben : ESPUser := ⟨2, "Ben".toList, "Moss".toList⟩

def eve : ESPUser := ⟨13, "Eve".toList, "Roy".toList⟩

def users : Table ESPUser := ⟨[ada, ben, eve], 14, by decide, by decide⟩

def noArchives : Table ArchiveClass := ⟨[], 1, List.Pairwise.nil, by decide⟩

/-- A class that Ada teaches. -/
def algebra (students : List ESPUser) : ClassSubject where
  id := 7
  programUrl := "Splash/2007_Fall".toList
  category := "Math".toList
  title := "Algebra".toList
  classInfo := "Groups.".toList
  prereqs := none
  teachers := [ada]
  students := students

/-- Ben is enrolled, and Eve is added to the archive as a student and as a teacher. -/
theorem ben_and_eve : KeepsUsers users
    (noArchives.create (algebra [ben]).newArchive (algebra [ben]).key_newArchive) (algebra [ben])
    ((algebra [ben]).newArchive 1) [.addStudents [eve], .addTeachers [eve]] :=
  have new : ∀ archive ∈ noArchives.rows, archive.originalId ≠ some (algebra [ben]).id := by decide
  (keepsUsers_iff new rfl (by decide) (by decide)).mpr (by decide)

/-- Nobody is enrolled, and the students of the archive cannot be read. -/
theorem none_enrolled : ¬∀ archive created,
    (algebra []).getArchiveClass noArchives = .ok (archive, created) →
      KeepsUsers users created (algebra []) archive [] := by
  intro all
  rcases all ((algebra []).newArchive 1) _ rfl with ⟨saved, _, back⟩
  rcases back.students with ⟨found, returned, _⟩
  have raises : ((algebra []).newArchive 1).students users = .error .valueError := by decide
  rw [performAll, List.foldl_nil, raises] at returned
  cases returned

end Sample

end EspWebsite.Program
