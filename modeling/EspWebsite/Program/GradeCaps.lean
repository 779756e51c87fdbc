import EspWebsite.Library.Numerals
import EspWebsite.Library.Python
import EspWebsite.Library.Runs

/-!
# Caps on the size of a program

`user_can_join` of `program/models/__init__.py`, with the caps for grades that the tag
`program_size_by_grade` gives.
-/

namespace EspWebsite.Program

open Python

/-- `dict[key] = value`. -/
def setItem {Key Value : Type} [DecidableEq Key] (dict : List (Key × Value)) (key : Key)
    (value : Value) : List (Key × Value) :=
  if dict.any fun item => item.1 = key then
    dict.map fun item => if item.1 = key then (key, value) else item
  else dict ++ [(key, value)]

/-- `int(text)`. -/
def int (text : List Char) : Raises ℤ :=
  match parseInt text with
  | some number => .ok number
  | none => .error .valueError

/-- `tuple(range(low, high + 1))`. -/
def gradeRange (low high : ℤ) : List ℤ :=
  (List.range (high + 1 - low).toNat).map fun offset : ℕ => low + offset

def gradesOfKey (key : List Char) : Raises (List ℤ) :=
  if '-' ∈ key then do
    let (low, high) ← unpackPair (← (key.splitOn '-').mapM int)
    return gradeRange low high
  else do
    return [← int key]

/-- A program: the object of its tag, if the tag is set, and its size, with the grades of users and
their `OverrideFull` permissions. -/
structure SizedProgram where
  sizeTag : Option (List (List Char × ℤ))
  programSizeMax : Option ℤ
  getGrade : ℕ → ℤ
  overrideFull : ℕ → Bool

namespace SizedProgram

variable (program : SizedProgram) (students : Finset ℕ)

def gradeCaps : Raises (List (List ℤ × ℤ)) :=
  (program.sizeTag.getD []).foldlM (fun sizeDict item => do
    return setItem sizeDict (← gradesOfKey item.1) item.2) []

def studentsInProgramInGrades (grades : List ℤ) : ℕ :=
  (students.filter fun student => program.getGrade student ∈ grades).card

def userCanJoinByGrade (user : ℕ) : Raises Bool := do
  if program.overrideFull user then return true
  if user ∈ students then return true
  let caps ← program.gradeCaps
  return !caps.any fun (grades, cap) =>
    program.getGrade user ∈ grades ∧ cap ≤ program.studentsInProgramInGrades students grades

def userCanJoinAtAll (sizeMax : ℤ) (user : ℕ) : Bool :=
  program.overrideFull user || decide (user ∈ students) || decide ((students.card : ℤ) < sizeMax)

/-- `user_can_join`, of a program with these students. -/
def userCanJoin (user : ℕ) : Raises Bool :=
  match program.sizeTag with
  | some _ => program.userCanJoinByGrade students user
  | none =>
      match program.programSizeMax with
      | none => .ok true
      | some sizeMax =>
          if sizeMax = 0 then .ok true else .ok (program.userCanJoinAtAll students sizeMax user)

def join (user : ℕ) : Finset ℕ :=
  if program.userCanJoin students user = .ok true then insert user students else students

end SizedProgram

/-- A key of the tag is a grade, or two grades with a hyphen between them. -/
inductive Names : List Char → ℤ → ℤ → Prop where
  | grade {key : List Char} {grade : ℤ} (single : '-' ∉ key) (read : parseInt key = some grade) :
      Names key grade grade
  | range {first last : List Char} {low high : ℤ} (noFirst : '-' ∉ first) (noLast : '-' ∉ last)
      (readFirst : parseInt first = some low) (readLast : parseInt last = some high)
      (ordered : low ≤ high) : Names (first ++ '-' :: last) low high

structure CapEntry where
  key : List Char
  cap : ℤ
  low : ℤ
  high : ℤ
  names : Names key low high

namespace CapEntry

/-- A grade is one of those of the entry. -/
def Includes (entry : CapEntry) (grade : ℤ) : Prop := entry.low ≤ grade ∧ grade ≤ entry.high

instance (entry : CapEntry) : DecidablePred entry.Includes :=
  fun _ => inferInstanceAs (Decidable (_ ∧ _))

/-- The students in the grades of an entry. -/
def count (entry : CapEntry) (getGrade : ℕ → ℤ) (students : Finset ℕ) : ℕ :=
  (students.filter fun student => entry.Includes (getGrade student)).card

/-- Of the entries for the same grades, the last one has the smallest cap. -/
def LastIsSmallest (entries : List CapEntry) : Prop :=
  entries.Pairwise fun earlier later =>
    earlier.low = later.low → earlier.high = later.high → later.cap ≤ earlier.cap

/-- What `grade_caps` makes of the entries. -/
def dictOf (entries : List CapEntry) : List (List ℤ × ℤ) :=
  entries.foldl (fun dict entry => setItem dict (gradeRange entry.low entry.high) entry.cap) []

end CapEntry

def SizedProgram.Tagged (program : SizedProgram) (entries : List CapEntry) : Prop :=
  program.sizeTag = some (entries.map fun entry => (entry.key, entry.cap))

section Dictionary

variable {Key Value : Type} [DecidableEq Key] {dict : List (Key × Value)} {key : Key}
  {value : Value} {item : Key × Value}

theorem mem_setItem (isItem : item ∈ setItem dict key value) :
    item = (key, value) ∨ item ∈ dict ∧ item.1 ≠ key := by
  rw [setItem] at isItem
  split at isItem
  next =>
    rcases List.mem_map.mp isItem with ⟨old, isOld, rfl⟩
    split
    next => exact Or.inl rfl
    next different => exact Or.inr ⟨isOld, different⟩
  next absent =>
    rcases List.mem_append.mp isItem with isOld | isNew
    · refine Or.inr ⟨isOld, fun same => absent ?_⟩
      exact List.any_eq_true.mpr ⟨item, isOld, decide_eq_true same⟩
    · exact Or.inl (List.mem_singleton.mp isNew)

theorem mem_setItem_self : (key, value) ∈ setItem dict key value := by
  rw [setItem]
  split
  next present =>
    rcases List.any_eq_true.mp present with ⟨old, isOld, same⟩
    exact List.mem_map.mpr ⟨old, isOld, if_pos (of_decide_eq_true same)⟩
  next => exact List.mem_append_right _ (List.mem_singleton_self _)

theorem mem_setItem_of_ne (isItem : item ∈ dict) (different : item.1 ≠ key) :
    item ∈ setItem dict key value := by
  rw [setItem]
  split
  next => exact List.mem_map.mpr ⟨item, isItem, if_neg different⟩
  next => exact List.mem_append_left _ isItem

end Dictionary

section Keys

variable {low high otherLow otherHigh grade : ℤ} {key : List Char}

theorem mem_gradeRange : grade ∈ gradeRange low high ↔ low ≤ grade ∧ grade ≤ high := by
  rw [gradeRange, List.mem_map]
  constructor
  · rintro ⟨offset, isOffset, rfl⟩
    have small := List.mem_range.mp isOffset
    omega
  · rintro ⟨above, below⟩
    exact ⟨(grade - low).toNat, List.mem_range.mpr (by omega), by omega⟩

/-- Nonempty ranges are the same only if their ends are. -/
theorem gradeRange_inj (ordered : low ≤ high) (otherOrdered : otherLow ≤ otherHigh)
    (same : gradeRange low high = gradeRange otherLow otherHigh) :
    low = otherLow ∧ high = otherHigh := by
  have iff (grade : ℤ) :
      (low ≤ grade ∧ grade ≤ high) ↔ (otherLow ≤ grade ∧ grade ≤ otherHigh) := by
    rw [← mem_gradeRange, same, mem_gradeRange]
  have lowIn := (iff low).mp ⟨le_rfl, ordered⟩
  have highIn := (iff high).mp ⟨ordered, le_rfl⟩
  have otherLowIn := (iff otherLow).mpr ⟨le_rfl, otherOrdered⟩
  have otherHighIn := (iff otherHigh).mpr ⟨otherOrdered, le_rfl⟩
  omega

theorem Names.ordered (names : Names key low high) : low ≤ high := by
  cases names with
  | grade => exact le_rfl
  | range _ _ _ _ ordered => exact ordered

theorem gradesOfKey_of_names (names : Names key low high) :
    gradesOfKey key = .ok (gradeRange low high) := by
  cases names with
  | grade single read =>
      rw [gradesOfKey, if_neg single, int, read, gradeRange]
      simp
  | @range first last _ _ noFirst noLast readFirst readLast ordered =>
      have hyphen : '-' ∈ first ++ '-' :: last :=
        List.mem_append_right _ List.mem_cons_self
      have parts : (first ++ '-' :: last).splitOn '-' = [first, last] := by
        rw [List.splitOn_append_cons_self_of_not_mem noFirst, List.splitOn_eq_singleton noLast]
      rw [gradesOfKey, if_pos hyphen, parts]
      simp [int, readFirst, readLast, unpackPair]

end Keys

namespace SizedProgram

variable {program : SizedProgram} {students : Finset ℕ} {user : ℕ} {entries : List CapEntry}
  {entry : CapEntry}

open CapEntry

theorem gradeCaps_of_tagged (tagged : program.Tagged entries) :
    program.gradeCaps = .ok (dictOf entries) := by
  have loop (dict : List (List ℤ × ℤ)) :
      (entries.map fun entry => (entry.key, entry.cap)).foldlM (fun sizeDict item => do
        return setItem sizeDict (← gradesOfKey item.1) item.2) dict =
      (Except.ok (entries.foldl (fun dict entry =>
        setItem dict (gradeRange entry.low entry.high) entry.cap) dict) : Raises _) := by
    clear tagged
    induction entries generalizing dict with
    | nil => rfl
    | cons entry entries ih =>
        rw [List.map_cons, List.foldlM_cons, gradesOfKey_of_names entry.names]
        exact ih _
  rw [gradeCaps, tagged, Option.getD_some]
  exact loop []

theorem exists_of_mem_dictOf {item : List ℤ × ℤ} (isItem : item ∈ dictOf entries) :
    ∃ entry ∈ entries, item = (gradeRange entry.low entry.high, entry.cap) := by
  induction entries using List.reverseRecOn with
  | nil => cases isItem
  | append_singleton entries entry ih =>
      rw [dictOf, List.foldl_append] at isItem
      rcases mem_setItem isItem with rfl | ⟨isOld, _⟩
      · exact ⟨entry, List.mem_append_right _ (List.mem_singleton_self _), rfl⟩
      · rcases ih isOld with ⟨old, isEntry, same⟩
        exact ⟨old, List.mem_append_left _ isEntry, same⟩

/-- An entry is in the dictionary, or a later one for its grades, with no larger cap, is. -/
theorem exists_mem_dictOf (smallest : LastIsSmallest entries) (isEntry : entry ∈ entries) :
    ∃ cap ≤ entry.cap, (gradeRange entry.low entry.high, cap) ∈ dictOf entries := by
  induction entries using List.reverseRecOn with
  | nil => cases isEntry
  | append_singleton entries last ih =>
      rw [LastIsSmallest, List.pairwise_append] at smallest
      rw [dictOf, List.foldl_append]
      rcases List.mem_append.mp isEntry with isOld | isNew
      · by_cases same : gradeRange entry.low entry.high = gradeRange last.low last.high
        · have ends := gradeRange_inj entry.names.ordered last.names.ordered same
          refine ⟨last.cap, smallest.2.2 entry isOld last (List.mem_singleton_self _) ends.1
            ends.2, ?_⟩
          rw [same]
          exact mem_setItem_self
        · rcases ih smallest.1 isOld with ⟨cap, notLarger, isItem⟩
          exact ⟨cap, notLarger, mem_setItem_of_ne isItem same⟩
      · rw [List.mem_singleton.mp isNew]
        exact ⟨last.cap, le_rfl, mem_setItem_self⟩

theorem studentsInProgramInGrades_eq : program.studentsInProgramInGrades students
    (gradeRange entry.low entry.high) = entry.count program.getGrade students := by
  rw [studentsInProgramInGrades, CapEntry.count]
  congr 1
  refine Finset.filter_congr fun student _ => ?_
  rw [mem_gradeRange, Includes]

/-- Some entry for the grade of a user has reached its cap. -/
def Full (program : SizedProgram) (entries : List CapEntry) (students : Finset ℕ) (user : ℕ) :
    Prop :=
  ∃ entry ∈ entries, entry.Includes (program.getGrade user) ∧
    entry.cap ≤ entry.count program.getGrade students

theorem any_dictOf_iff (smallest : LastIsSmallest entries) :
    ((dictOf entries).any fun (grades, cap) => program.getGrade user ∈ grades ∧
      cap ≤ program.studentsInProgramInGrades students grades) = true ↔
      program.Full entries students user := by
  rw [List.any_eq_true]
  constructor
  · rintro ⟨item, isItem, binds⟩
    rcases exists_of_mem_dictOf isItem with ⟨entry, isEntry, rfl⟩
    rw [decide_eq_true_eq, mem_gradeRange, studentsInProgramInGrades_eq] at binds
    exact ⟨entry, isEntry, binds⟩
  · rintro ⟨entry, isEntry, included, reached⟩
    rcases exists_mem_dictOf smallest isEntry with ⟨cap, notLarger, isItem⟩
    refine ⟨_, isItem, ?_⟩
    rw [decide_eq_true_eq, mem_gradeRange, studentsInProgramInGrades_eq]
    exact ⟨included, notLarger.trans reached⟩

theorem userCanJoin_of_tagged (tagged : program.Tagged entries)
    (smallest : LastIsSmallest entries) (students : Finset ℕ) (user : ℕ) :
    ∃ answer, program.userCanJoin students user = .ok answer ∧ (answer = false ↔
      program.overrideFull user = false ∧ user ∉ students ∧
        program.Full entries students user) := by
  rw [userCanJoin, tagged]
  simp only [userCanJoinByGrade]
  split
  next isOverride => exact ⟨true, rfl, by simp [isOverride]⟩
  next noOverride =>
    split
    next joined => exact ⟨true, rfl, by simp [joined]⟩
    next notJoined =>
      rw [gradeCaps_of_tagged tagged]
      refine ⟨_, rfl, ?_⟩
      rw [Bool.not_eq_false', any_dictOf_iff smallest]
      simp [noOverride, notJoined]

theorem count_insert_le :
    entry.count program.getGrade (insert user students) ≤
      entry.count program.getGrade students + 1 := by
  rw [CapEntry.count, Finset.filter_insert]
  split
  next => exact Finset.card_insert_le _ _
  next => exact Nat.le_succ _

theorem count_insert_of_not_includes (other : ¬entry.Includes (program.getGrade user)) :
    entry.count program.getGrade (insert user students) =
      entry.count program.getGrade students := by
  rw [CapEntry.count, Finset.filter_insert, if_neg other, CapEntry.count]

theorem count_join_le (tagged : program.Tagged entries) (smallest : LastIsSmallest entries)
    (isEntry : entry ∈ entries) (noOverride : program.overrideFull user = false) :
    (entry.count program.getGrade (program.join students user) : ℤ) ≤
      max entry.cap (entry.count program.getGrade students) := by
  rw [join]
  split
  next can =>
    rcases userCanJoin_of_tagged tagged smallest students user with ⟨answer, isAnswer, full⟩
    rw [can, Except.ok.injEq] at isAnswer
    by_cases joined : user ∈ students
    · rw [Finset.insert_eq_of_mem joined]
      exact le_max_right _ _
    by_cases included : entry.Includes (program.getGrade user)
    · have open_ : (entry.count program.getGrade students : ℤ) < entry.cap := by
        by_contra reached
        have isFull := full.mpr ⟨noOverride, joined, entry, isEntry, included, not_lt.mp reached⟩
        rw [← isAnswer] at isFull
        cases isFull
      refine le_max_of_le_left ?_
      have once := @count_insert_le program students user entry
      omega
    · rw [count_insert_of_not_includes included]
      exact le_max_right _ _
  next => exact le_max_right _ _

theorem count_join_le_succ : entry.count program.getGrade (program.join students user) ≤
    entry.count program.getGrade students + 1 := by
  rw [join]
  split
  next => exact count_insert_le
  next => exact Nat.le_succ _

/-- Users who want to join one after the other exceed no cap, apart from those who may. -/
theorem count_run_le (tagged : program.Tagged entries) (smallest : LastIsSmallest entries)
    (isEntry : entry ∈ entries) (joining : List ℕ) :
    (entry.count program.getGrade (Runs.run program.join students joining) : ℤ) ≤
      max entry.cap (entry.count program.getGrade students) +
        (joining.filter program.overrideFull).length := by
  induction joining generalizing students with
  | nil =>
      rw [Runs.run, List.foldl_nil, List.filter_nil, List.length_nil, Nat.cast_zero, add_zero]
      exact le_max_right _ _
  | cons user joining ih =>
      have later := @ih (program.join students user)
      rw [Runs.run, List.foldl_cons, ← Runs.run]
      cases may : program.overrideFull user with
      | false =>
          rw [List.filter_cons_of_neg (by simp [may])]
          have step := @count_join_le program students user _ _ tagged smallest isEntry may
          omega
      | true =>
          rw [List.filter_cons_of_pos may, List.length_cons]
          have step := @count_join_le_succ program students user entry
          omega

/-- With a tag in which the last entry for some grades has the smallest cap, `user_can_join` is
false exactly for users without the permission who are not in the program when an entry for their
grade has reached its cap; and those who join one after the other exceed no cap, unless by users
with the permission. -/
theorem capped_of_lastIsSmallest (program : SizedProgram) (entries : List CapEntry)
    (tagged : program.Tagged entries) (smallest : LastIsSmallest entries) :
    (∀ students user, ∃ answer, program.userCanJoin students user = .ok answer ∧
      (answer = false ↔ program.overrideFull user = false ∧ user ∉ students ∧
        program.Full entries students user)) ∧
      ∀ students joining, ∀ entry ∈ entries,
        (entry.count program.getGrade (Runs.run program.join students joining) : ℤ) ≤
          max entry.cap (entry.count program.getGrade students) +
            (joining.filter program.overrideFull).length :=
  ⟨userCanJoin_of_tagged tagged smallest,
    fun _ joining _ isEntry => count_run_le tagged smallest isEntry joining⟩

end SizedProgram

namespace Sample

/-- `"9": cap`. -/
def ninth (cap : ℤ) : CapEntry :=
  ⟨"9".toList, cap, 9, 9, .grade (by decide) (by decide)⟩

/-- `"9-9": cap`. -/
def onlyNinth (cap : ℤ) : CapEntry :=
  ⟨"9-9".toList, cap, 9, 9, @Names.range "9".toList "9".toList 9 9 (by decide) (by decide)
    (by decide) (by decide) (by decide)⟩

/-- A program of ninth graders in which user 3 may register although it is full. -/
def capped (entries : List CapEntry) : SizedProgram where
  sizeTag := some (entries.map fun entry => (entry.key, entry.cap))
  programSizeMax := none
  getGrade := fun _ => 9
  overrideFull := fun user => user = 3

/-- The entry for `9` counts no more after that for `9-9`, and user 3 exceeds the cap of a full
program. -/
theorem cap_exceeded :
    ((capped [ninth 1, onlyNinth 5]).Full [ninth 1, onlyNinth 5] {1} 2 ∧
      (capped [ninth 1, onlyNinth 5]).userCanJoin {1} 2 = .ok true) ∧
    max (ninth 1).cap ((ninth 1).count (capped [ninth 1]).getGrade {1}) <
      (ninth 1).count (capped [ninth 1]).getGrade
        (Runs.run (capped [ninth 1]).join {1} [3]) := by
  refine ⟨⟨⟨ninth 1, List.mem_cons_self, ?_, ?_⟩, ?_⟩, ?_⟩ <;> decide

/-- A tag with two entries that share a grade. -/
theorem capped_two :
    (∀ students user, ∃ answer,
      (capped [ninth 1, onlyNinth 1]).userCanJoin students user = .ok answer ∧
      (answer = false ↔ (capped [ninth 1, onlyNinth 1]).overrideFull user = false ∧
        user ∉ students ∧
          (capped [ninth 1, onlyNinth 1]).Full [ninth 1, onlyNinth 1] students user)) ∧
      ∀ students joining, ∀ entry ∈ [ninth 1, onlyNinth 1],
        (entry.count (capped [ninth 1, onlyNinth 1]).getGrade
          (Runs.run (capped [ninth 1, onlyNinth 1]).join students joining) : ℤ) ≤
          max entry.cap (entry.count (capped [ninth 1, onlyNinth 1]).getGrade students) +
            (joining.filter (capped [ninth 1, onlyNinth 1]).overrideFull).length :=
  SizedProgram.capped_of_lastIsSmallest _ _ rfl
    (List.pairwise_pair.mpr fun _ _ => by decide)

end Sample

end EspWebsite.Program
