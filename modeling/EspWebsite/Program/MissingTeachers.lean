import EspWebsite.ArgCache.Functions

/-!
# Teachers who are missing

`getMissingTeachers` of `program/modules/handlers/teachercheckinmodule.py`: the sections that meet
on a day or start at a time, those first whose teachers and moderators are not there yet.
-/

namespace EspWebsite.Program

open Tables ArgCache

/-- `ClassStatus.DRAFT`. -/
def DRAFT : ℤ := -5

/-- `ClassStatus.ACCEPTED`. -/
def ACCEPTED : ℤ := 10

/-- A section with what the query and the loop read, its teachers and moderators by their ids, and
the starts of its meeting times in microseconds. -/
structure StaffedSection where
  id : ℕ
  program : ℕ
  status : ℤ
  parentStatus : ℤ
  meetingTimes : List ℤ
  teachers : List ℕ
  moderators : List ℕ
  deriving DecidableEq

def dayOf (time : ℤ) : ℤ := time / (24 * 60 * 60 * 1000000)

/-- What is asked for: a program with its dates, a date and a start time if they are given, and
the time at which the check-ins are looked at. -/
structure MissingQuery where
  prog : ℕ
  progDates : List ℤ
  date : Option ℤ
  starttime : Option ℤ
  when : ℤ
  deriving DecidableEq

namespace StaffedSection

def beginTime (sec : StaffedSection) : Option ℤ := sec.meetingTimes.min?

/-- The filters of the query. -/
def isEligible (query : MissingQuery) (sec : StaffedSection) : Bool :=
  sec.program = query.prog && sec.status ≠ DRAFT &&
    sec.status = ACCEPTED && sec.parentStatus = ACCEPTED &&
    sec.beginTime.isSome &&
    (query.date.all fun date => sec.meetingTimes.any fun start => dayOf start = date) &&
    query.starttime.all fun start => sec.beginTime = some start

end StaffedSection

section Query

variable (records : Table Record) (classSections : List StaffedSection) (query : MissingQuery)

/-- The users with a record of a check-in for which a condition on the time holds. -/
def checkedInUsers (atTime : ℤ → Bool) : Finset ℕ :=
  ((records.rows.filter fun row => row.program = some query.prog &&
    row.event = some "teacher_checked_in" && atTime row.time).filterMap Record.user).toFinset

/-- The sections of the query, of sections in the order of their ids. -/
def eligibleSections : List StaffedSection :=
  classSections.filter fun sec => sec.isEligible query

/-- The keys of `arrived`: the teachers and the moderators of the sections who have arrived. -/
def arrivedUsers : Finset ℕ :=
  ((eligibleSections classSections query).flatMap fun sec =>
      sec.teachers ++ sec.moderators).toFinset ∩
    checkedInUsers records query fun time =>
      time ≤ query.when && dayOf time = dayOf query.when

def previouslyCheckedIn : Finset ℕ :=
  let checkDate := query.date.getD (dayOf query.when)
  let progDates := query.progDates.mergeSort
  match progDates.idxOf? checkDate with
  | some (idx + 1) =>
      match progDates[idx]? with
      | some prevDate =>
          (checkedInUsers records query fun time => dayOf time = prevDate) \
            checkedInUsers records query fun time => dayOf time = checkDate && time ≤ query.when
      | none => ∅
  | _ => ∅

end Query

namespace StaffedSection

variable (arrived : Finset ℕ) (sec : StaffedSection)

/-- `all_teachers_arrived` and `all_moderators_arrived`. -/
def allOf (users : List ℕ) : Bool := users.all (· ∈ arrived) && 0 < users.length

/-- `any_teachers_arrived` and `any_moderators_arrived`. -/
def anyOf (users : List ℕ) : Bool := users.any (· ∈ arrived) && 0 < users.length

def allArrived : Bool :=
  allOf arrived sec.teachers && allOf arrived sec.moderators

def anyArrived : Bool :=
  anyOf arrived sec.moderators && anyOf arrived sec.teachers

end StaffedSection

/-- The `sections` that are returned: three lists, one after the other. -/
def arrange (arrived : Finset ℕ) (sections : List StaffedSection) : List StaffedSection :=
  (sections.filter fun sec => !sec.anyArrived arrived) ++
      (sections.filter fun sec =>
        sec.anyArrived arrived && !sec.allArrived arrived) ++
      sections.filter fun sec => sec.allArrived arrived

def getMissingTeachers (records : Table Record) (classSections : List StaffedSection)
    (query : MissingQuery) : List StaffedSection × Finset ℕ × Finset ℕ :=
  let arrived := arrivedUsers records classSections query
  let sections := eligibleSections classSections query
  (arrange arrived sections, arrived, previouslyCheckedIn records query)

/-! ## The order of the sections -/

namespace StaffedSection

variable (arrived : Finset ℕ) (sec : StaffedSection)

/-- None of the teachers and moderators has arrived. -/
def NoneArrived : Prop := ∀ user ∈ sec.teachers ++ sec.moderators, user ∉ arrived

/-- There are teachers or moderators, and all of them have arrived. -/
def Complete : Prop :=
  sec.teachers ++ sec.moderators ≠ [] ∧
    ∀ user ∈ sec.teachers ++ sec.moderators, user ∈ arrived

/-- Some teachers or some moderators have arrived, but not some of both. -/
def OneSided : Prop :=
  ¬sec.NoneArrived arrived ∧
    ((∀ user ∈ sec.teachers, user ∉ arrived) ∨
      ∀ user ∈ sec.moderators, user ∉ arrived)

instance : Decidable (sec.NoneArrived arrived) := by
  unfold NoneArrived
  infer_instance

instance : Decidable (sec.Complete arrived) := by
  unfold Complete
  infer_instance

instance : Decidable (sec.OneSided arrived) := by
  unfold OneSided
  infer_instance

end StaffedSection

open StaffedSection

/-- Sections of whose teachers and moderators none has arrived come before those of whom some
have, and the sections of whom all have arrived come last. -/
def MissingFirst (arrived : Finset ℕ) (sections : List StaffedSection) : Prop :=
  sections.Pairwise fun earlier later =>
    (later.NoneArrived arrived → earlier.NoneArrived arrived) ∧
      (earlier.Complete arrived → later.Complete arrived)

instance (arrived : Finset ℕ) (sections : List StaffedSection) :
    Decidable (MissingFirst arrived sections) := by
  unfold MissingFirst
  infer_instance

/-- What the sections of the query have to be like, in the order of their ids: after a section with
arrivals on one side only there is none without arrivals, and after a complete one there is no
incomplete one with arrivals on one side; and beside a complete section with one side there is no
incomplete section with arrivals on both sides. -/
structure SidesInOrder (arrived : Finset ℕ) (sections : List StaffedSection) : Prop where
  noneAfter : sections.Pairwise fun earlier later =>
    earlier.OneSided arrived → ¬later.NoneArrived arrived
  incompleteAfter : sections.Pairwise fun earlier later =>
    earlier.OneSided arrived → earlier.Complete arrived → later.OneSided arrived →
      later.Complete arrived
  bothSides : ∀ sec ∈ sections, sec.OneSided arrived →
    sec.Complete arrived → ∀ other ∈ sections, ¬other.NoneArrived arrived →
      ¬other.OneSided arrived → other.Complete arrived

variable {arrived : Finset ℕ} {sec : StaffedSection} {sections : List StaffedSection}

theorem anyOf_iff {users : List ℕ} :
    anyOf arrived users = true ↔ ∃ user ∈ users, user ∈ arrived := by
  cases users <;> simp [anyOf]

theorem allOf_iff {users : List ℕ} :
    allOf arrived users = true ↔ users ≠ [] ∧ ∀ user ∈ users, user ∈ arrived := by
  cases users <;> simp [allOf]

theorem anyArrived_iff : sec.anyArrived arrived = true ↔
    ¬sec.NoneArrived arrived ∧ ¬sec.OneSided arrived := by
  simp only [anyArrived, Bool.and_eq_true, anyOf_iff, OneSided, NoneArrived, List.mem_append]
  push Not
  constructor
  · rintro ⟨⟨moderator, isModerator, here⟩, teacher, isTeacher, alsoHere⟩
    have some : ∃ user, (user ∈ sec.teachers ∨ user ∈ sec.moderators) ∧
        user ∈ arrived := ⟨teacher, .inl isTeacher, alsoHere⟩
    exact ⟨some, fun _ => ⟨⟨teacher, isTeacher, alsoHere⟩, moderator, isModerator, here⟩⟩
  · rintro ⟨some, both⟩
    exact (both some).symm

theorem allArrived_iff : sec.allArrived arrived = true ↔
    sec.anyArrived arrived = true ∧ sec.Complete arrived := by
  simp only [allArrived, anyArrived, Bool.and_eq_true, allOf_iff, anyOf_iff, Complete,
    List.mem_append, ne_eq, List.append_eq_nil_iff]
  constructor
  · rintro ⟨⟨hasTeachers, teachers⟩, hasModerators, moderators⟩
    obtain ⟨teacher, isTeacher⟩ := List.exists_mem_of_ne_nil _ hasTeachers
    obtain ⟨moderator, isModerator⟩ := List.exists_mem_of_ne_nil _ hasModerators
    refine ⟨⟨⟨moderator, isModerator, moderators _ isModerator⟩, teacher, isTeacher,
      teachers _ isTeacher⟩, fun both => hasTeachers both.1, ?_⟩
    rintro user (isTeacher | isModerator)
    · exact teachers user isTeacher
    · exact moderators user isModerator
  · rintro ⟨⟨⟨moderator, isModerator, -⟩, teacher, isTeacher, -⟩, -, all⟩
    exact ⟨⟨List.ne_nil_of_mem isTeacher, fun user isUser => all user (.inl isUser)⟩,
      List.ne_nil_of_mem isModerator, fun user isUser => all user (.inr isUser)⟩

theorem StaffedSection.Complete.not_noneArrived (complete : sec.Complete arrived) :
    ¬sec.NoneArrived arrived := by
  intro none
  obtain ⟨user, isUser⟩ := List.exists_mem_of_ne_nil _ complete.1
  exact none user isUser (complete.2 user isUser)

theorem oneSided_of_notAny (notAny : ¬sec.anyArrived arrived = true)
    (some : ¬sec.NoneArrived arrived) : sec.OneSided arrived := by
  by_contra notOneSided
  exact notAny (anyArrived_iff.mpr ⟨some, notOneSided⟩)

/-- No section gets lost, and none is listed twice. -/
theorem arrange_perm : (arrange arrived sections).Perm sections := by
  let some := sections.filter fun sec => sec.anyArrived arrived
  have complete : (some.filter fun sec => sec.allArrived arrived) =
      sections.filter fun sec => sec.allArrived arrived := by
    rw [List.filter_filter]
    refine List.filter_congr fun sec _ => ?_
    have implies := (@allArrived_iff arrived sec).mp
    cases all : sec.allArrived arrived
    · rfl
    · simp [(implies all).1]
  have incomplete : (some.filter fun sec => !sec.allArrived arrived) =
      sections.filter fun sec =>
        sec.anyArrived arrived && !sec.allArrived arrived := by
    rw [List.filter_filter]
    exact List.filter_congr fun sec _ => Bool.and_comm _ _
  rw [arrange, ← complete, ← incomplete, List.append_assoc]
  have split := List.perm_append_comm.trans
    (List.filter_append_perm (fun sec => sec.allArrived arrived) some)
  have both := List.perm_append_comm.trans
    (List.filter_append_perm (fun sec => sec.anyArrived arrived) sections)
  exact (split.append_left _).trans both

theorem missingFirst_arrange_iff :
    MissingFirst arrived (arrange arrived sections) ↔ SidesInOrder arrived sections := by
  rw [MissingFirst, arrange, List.pairwise_append, List.pairwise_append, List.pairwise_filter]
  simp only [List.mem_append, List.mem_filter, Bool.and_eq_true, Bool.not_eq_true']
  constructor
  · rintro ⟨⟨first, -, cross⟩, -, -⟩
    have notAny {sec : StaffedSection} (oneSided : sec.OneSided arrived) :
        sec.anyArrived arrived = false :=
      Bool.eq_false_iff.mpr fun any => (anyArrived_iff.mp any).2 oneSided
    refine ⟨first.imp ?_, first.imp ?_, ?_⟩
    · intro earlier later ordered oneSided none
      have noneIsNotAny : later.anyArrived arrived = false :=
        Bool.eq_false_iff.mpr fun any => (anyArrived_iff.mp any).1 none
      exact oneSided.1 ((ordered (notAny oneSided) noneIsNotAny).1 none)
    · intro earlier later ordered oneSided complete alsoOneSided
      exact (ordered (notAny oneSided) (notAny alsoOneSided)).2 complete
    · intro sec isSection oneSided complete other isOther some twoSided
      have any := anyArrived_iff.mpr ⟨some, twoSided⟩
      by_cases all : other.allArrived arrived = true
      · exact (allArrived_iff.mp all).2
      · exact (cross sec ⟨isSection, notAny oneSided⟩ other
          ⟨isOther, any, Bool.eq_false_iff.mpr all⟩).2 complete
  · intro inOrder
    have oneSided {sec : StaffedSection}
        (notAny : sec.anyArrived arrived = false)
        (some : ¬sec.NoneArrived arrived) : sec.OneSided arrived :=
      oneSided_of_notAny (Bool.eq_false_iff.mp notAny) some
    have someOfAny {sec : StaffedSection} (any : sec.anyArrived arrived = true) :
        ¬sec.NoneArrived arrived := (anyArrived_iff.mp any).1
    have completeOfAll {sec : StaffedSection}
        (all : sec.allArrived arrived = true) : sec.Complete arrived :=
      (allArrived_iff.mp all).2
    refine ⟨⟨?_, ?_, ?_⟩, ?_, ?_⟩
    · refine (inOrder.noneAfter.and inOrder.incompleteAfter).imp ?_
      rintro earlier later ⟨noneAfter, incompleteAfter⟩ notAny alsoNotAny
      have someAfter (some : ¬earlier.NoneArrived arrived) : ¬later.NoneArrived arrived :=
        noneAfter (oneSided notAny some)
      refine ⟨fun none => by_contra fun some => someAfter some none, fun complete => ?_⟩
      have some := complete.not_noneArrived
      exact incompleteAfter (oneSided notAny some) complete (oneSided alsoNotAny (someAfter some))
    · rw [List.pairwise_filter]
      refine List.pairwise_of_forall_mem_list fun earlier _ later _ incomplete also => ?_
      simp only [Bool.and_eq_true, Bool.not_eq_true'] at incomplete also
      refine ⟨fun none => absurd none (someOfAny also.1), fun complete => ?_⟩
      have all := allArrived_iff.mpr ⟨incomplete.1, complete⟩
      rw [incomplete.2] at all
      cases all
    · rintro earlier ⟨isEarlier, notAny⟩ later ⟨isLater, any, -⟩
      refine ⟨fun none => absurd none (someOfAny any), fun complete => ?_⟩
      exact inOrder.bothSides earlier isEarlier (oneSided notAny complete.not_noneArrived) complete
        later isLater (someOfAny any) (anyArrived_iff.mp any).2
    · rw [List.pairwise_filter]
      refine List.pairwise_of_forall_mem_list fun earlier _ later _ _ all => ?_
      exact ⟨fun none => absurd none (completeOfAll all).not_noneArrived,
        fun _ => completeOfAll all⟩
    · rintro earlier - later ⟨-, all⟩
      exact ⟨fun none => absurd none (completeOfAll all).not_noneArrived,
        fun _ => completeOfAll all⟩

/-- Who has arrived matters only for the teachers and moderators of the sections. -/
theorem arrange_congr {other : Finset ℕ}
    (same : ∀ sec ∈ sections, ∀ user ∈ sec.teachers ++ sec.moderators,
      user ∈ arrived ↔ user ∈ other) : arrange arrived sections = arrange other sections := by
  have any (sec : StaffedSection) (isSection : sec ∈ sections) :
      sec.anyArrived arrived = sec.anyArrived other := by
    have agree := same sec isSection
    simp only [List.mem_append, or_imp, forall_and] at agree
    rw [Bool.eq_iff_iff]
    simp only [anyArrived, Bool.and_eq_true, anyOf_iff]
    exact and_congr
      (exists_congr fun user => and_congr_right fun isUser => agree.2 user isUser)
      (exists_congr fun user => and_congr_right fun isUser => agree.1 user isUser)
  have all (sec : StaffedSection) (isSection : sec ∈ sections) :
      sec.allArrived arrived = sec.allArrived other := by
    have agree := same sec isSection
    simp only [List.mem_append, or_imp, forall_and] at agree
    rw [Bool.eq_iff_iff]
    simp only [allArrived, Bool.and_eq_true, allOf_iff]
    exact and_congr
      (and_congr_right fun _ => forall₂_congr fun user isUser => agree.1 user isUser)
      (and_congr_right fun _ => forall₂_congr fun user isUser => agree.2 user isUser)
  rw [arrange, arrange]
  congr 1
  · congr 1
    · exact List.filter_congr fun sec isSection => by rw [any _ isSection]
    · exact List.filter_congr fun sec isSection => by
        rw [any _ isSection, all _ isSection]
  · exact List.filter_congr all

/-- The users who have checked in for the program on the day, up to the time. -/
def checkedIn (records : Table Record) (query : MissingQuery) : Finset ℕ :=
  checkedInUsers records query fun time => time ≤ query.when && dayOf time = dayOf query.when

/-- The list of sections is a permutation of those of the query, and in the order that is wanted
exactly if the check-ins and the order of the query lead to it. -/
theorem getMissingTeachers_missingFirst_iff (records : Table Record)
    (classSections : List StaffedSection) (query : MissingQuery) :
    (getMissingTeachers records classSections query).1.Perm
        (eligibleSections classSections query) ∧
      (MissingFirst (checkedIn records query)
          (getMissingTeachers records classSections query).1 ↔
        SidesInOrder (checkedIn records query) (eligibleSections classSections query)) := by
  refine ⟨arrange_perm, ?_⟩
  have same : (getMissingTeachers records classSections query).1 =
      arrange (checkedIn records query) (eligibleSections classSections query) := by
    refine arrange_congr fun sec isSection user isUser => ?_
    have isStaff : user ∈ ((eligibleSections classSections query).flatMap fun sec =>
        sec.teachers ++ sec.moderators).toFinset :=
      List.mem_toFinset.mpr (List.mem_flatMap.mpr ⟨sec, isSection, isUser⟩)
    rw [arrivedUsers, Finset.mem_inter, and_iff_right isStaff, checkedIn]
  rw [same]
  exact missingFirst_arrange_iff

namespace Sample

/-- Sections of a program without moderators; the teacher of the first one has arrived. -/
def section1 : StaffedSection := ⟨1, 7, ACCEPTED, ACCEPTED, [0], [10], []⟩

def section2 : StaffedSection := ⟨2, 7, ACCEPTED, ACCEPTED, [0], [20], []⟩

def checkIns : Table Record where
  rows := [⟨1, some "teacher_checked_in", some 7, some 10, 0⟩]
  next := 2
  ordered := by decide
  below := by decide

/-- The section whose teacher has arrived comes first. -/
theorem arrived_first : ¬∀ (records : Table Record) (classSections : List StaffedSection)
    (query : MissingQuery), MissingFirst (checkedIn records query)
      (getMissingTeachers records classSections query).1 := by
  intro ordered
  have first := ordered checkIns [section1, section2] ⟨7, [0], none, none, 0⟩
  revert first
  decide

end Sample

end EspWebsite.Program
