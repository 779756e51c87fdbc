import EspWebsite.Users.UserSearch

/-!
# Combinations of lists

What a submission that combines lists means, and when its query selects these users.  The lists that
are combined are tested in queries of their own, but the list that a combination starts from is
tested in one filter with the criteria, and the mailing list is not known to the controller.
-/

namespace EspWebsite.UserSearch

open Python Queries

/-! ## The lists that are offered -/

def allEmaillist : Text := "all_emaillist".toList

def mailingList : Q Lookup := Q.of [passwordIs "emailuser".toList]

namespace Program

variable (site : Site) (program : Program)

def listsFor (userType : Text) : List (Text × Q Lookup) :=
  if userType = "Student".toList then program.students
  else if userType = "Teacher".toList then program.teachers
  else if userType = "Volunteer".toList then program.volunteers
  else []

/-- The list that can be chosen to start from, as `prepare_context` offers it. -/
def offeredBase (userType listName : Text) : Option (Q Lookup) :=
  if userType = "emaillist".toList then
    if listName = allEmaillist then some mailingList else none
  else if userType ∈ site.types ∧ listName = "all_".toList ++ userType then
    some (getAllOfType userType)
  else named (program.listsFor userType) listName

def offeredList (listName : Text) : Option (Q Lookup) :=
  (program.firstNamed listName).or
    (if listName = allEmaillist then some mailingList else none)

end Program

/-! ## What a submission means -/

namespace PostData

variable (data : PostData) (db : Database)

/-- Whether a box of a list is checked. -/
def IsChecked (box listName : Text) : Prop :=
  ∃ value, value ≠ [] ∧ ("checkbox_".toList ++ (box ++ listName), value) ∈ data.fields

/-- A user is in a list, or with `NOT` is not. -/
def Meets (listName : Text) (listed : Q Lookup) (user : ESPUser) : Prop :=
  listed.Selects db.model user ↔ ¬ data.IsChecked "not_".toList listName

/-- A user meets every list that is checked `AND`. -/
def MeetsAll (lists : Text → Option (Q Lookup)) (user : ESPUser) : Prop :=
  ∀ name listed, data.IsChecked "and_".toList name → lists name = some listed →
    data.Meets db name listed user

/-- A user meets a list that is checked `OR`. -/
def MeetsSome (lists : Text → Option (Q Lookup)) (user : ESPUser) : Prop :=
  ∃ name listed, data.IsChecked "or_".toList name ∧ lists name = some listed ∧
    data.Meets db name listed user

/-- The users who are meant: each list and the criteria are evaluated on their own. -/
def Intends (program : Program) (base criteria : Q Lookup) (user : ESPUser) : Prop :=
  user.isActive = true ∧
    ((base.Selects db.model user ∧ data.MeetsAll db program.offeredList user) ∨
      data.MeetsSome db program.offeredList user) ∧
    criteria.Selects db.model user

end PostData

/-- A submission that combines lists: the list that it starts from is offered. -/
structure Combination (site : Site) (program : Program) where
  data : PostData
  userType : Text
  listName : Text
  base : Q Lookup
  isCombo : data.comboBaseList = some (userType ++ ':' :: listName)
  isNotBasic : data.baseList = none
  isOffered : program.offeredBase site userType listName = some base

section Keys

variable {data : PostData} {start name : Text}

theorem drop_checkbox {key : Text} : ("checkbox_".toList ++ key).drop 9 = key :=
  List.drop_left' rfl

theorem mem_keys : name ∈ data.keys start ↔ data.IsChecked start name := by
  constructor
  · intro isKey
    rcases List.mem_map.mp isKey with ⟨key, isStart, rfl⟩
    rcases List.mem_filter.mp isStart with ⟨isKey, startsKey⟩
    rcases List.mem_map.mp isKey with ⟨field, isField, rfl⟩
    rcases List.mem_filter.mp isField with ⟨isField, holds⟩
    rcases Bool.and_eq_true_iff.mp holds with ⟨startsField, hasValue⟩
    rcases List.isPrefixOf_iff_prefix.mp startsField with ⟨rest, isRest⟩
    have dropped : field.1.drop 9 = rest := by
      rw [← isRest]
      exact drop_checkbox
    rw [dropped] at startsKey ⊢
    rcases List.isPrefixOf_iff_prefix.mp startsKey with ⟨name, rfl⟩
    refine ⟨field.2, of_decide_eq_true hasValue, ?_⟩
    rw [List.drop_left, isRest]
    exact isField
  · intro isChecked
    rcases isChecked with ⟨value, hasValue, isField⟩
    refine List.mem_map.mpr ⟨start ++ name, List.mem_filter.mpr ⟨?_, ?_⟩, List.drop_left⟩
    · refine List.mem_map.mpr ⟨_, List.mem_filter.mpr ⟨isField, ?_⟩, drop_checkbox⟩
      rw [Bool.and_eq_true, decide_eq_true_eq]
      exact ⟨List.isPrefixOf_iff_prefix.mpr (List.prefix_append ..), hasValue⟩
    · exact List.isPrefixOf_iff_prefix.mpr (List.prefix_append ..)

end Keys

/-! ## What the query selects -/

section Queries

variable {data : PostData} {db : Database} {program : Program} {user : ESPUser} {row : Joined}
  {q : Q Lookup} {names : List Text} {name : Text} {listed : Q Lookup}

theorem isVacuous_subquery : (data.subquery name listed).isVacuous = false := by
  rw [PostData.subquery]
  split <;> rfl

theorem holds_subquery : (data.subquery name listed).Holds db.model user row false ↔
    data.Meets db name listed user := by
  rw [PostData.subquery, PostData.Meets, ← mem_keys]
  split
  next isNot =>
    rw [Q.holds_invert_pkIn]
    constructor
    · intro isOut
      exact iff_of_false isOut fun notChecked => notChecked isNot
    · intro same selects
      exact same.mp selects isNot
  next isNot =>
    rw [Q.holds_pkIn]
    exact (iff_true_right isNot).symm

/-- The lists that are checked `AND` restrict the query, if the program has them. -/
theorem holds_foldl_addAnd :
    (names.foldl (data.addAnd program) q).Holds db.model user row false ↔
      q.Holds db.model user row false ∧ ∀ name ∈ names, ∀ listed,
        program.firstNamed name = some listed → data.Meets db name listed user := by
  induction names generalizing q with
  | nil => simp
  | cons name names ih =>
      rw [List.foldl_cons, ih, List.forall_mem_cons, ← and_assoc]
      refine and_congr_left fun _ => ?_
      rw [PostData.addAnd]
      cases found : program.firstNamed name with
      | none => simp
      | some listed => simp [Q.holds_and, holds_subquery]

theorem isVacuous_foldl_addAnd : (names.foldl (data.addAnd program) q).isVacuous = true ↔
    q.isVacuous = true ∧ ∀ name ∈ names, program.firstNamed name = none := by
  induction names generalizing q with
  | nil => simp
  | cons name names ih =>
      rw [List.foldl_cons, ih, List.forall_mem_cons, ← and_assoc]
      refine and_congr_left fun _ => ?_
      rw [PostData.addAnd]
      cases found : program.firstNamed name with
      | none => simp
      | some listed => simp [isVacuous_subquery]

/-- The lists that are checked `OR` extend the query, if the program has them; a query without
lookups is lost. -/
theorem holds_foldl_addOr :
    (names.foldl (data.addOr program) q).Holds db.model user row false ↔
      ((q.isVacuous = true → ∀ name ∈ names, program.firstNamed name = none) ∧
          q.Holds db.model user row false) ∨
        ∃ name ∈ names, ∃ listed, program.firstNamed name = some listed ∧
          data.Meets db name listed user := by
  induction names generalizing q with
  | nil => simp
  | cons name names ih =>
      rw [List.foldl_cons, ih, PostData.addOr]
      cases found : program.firstNamed name with
      | none => simp [found]
      | some listed =>
          simp only [Q.isVacuous_or, isVacuous_subquery, Bool.and_false, Q.holds_or, holds_subquery,
            List.exists_mem_cons_iff, List.forall_mem_cons, found, Option.some.injEq,
            exists_eq_left', reduceCtorEq, false_and, imp_false, false_imp_iff, true_and, and_false,
            or_false, Bool.not_eq_true, Bool.false_eq_true]
          tauto

theorem holds_strip {hashing : Hashing} :
    (hashing.strip q).Holds db.model user row false ↔ q.Holds db.model user row false := by
  refine Clause.holds_node_congr fun clause => ?_
  rw [Hashing.strip, List.mem_append, hashing.mem_listOfSet, List.mem_filter, List.mem_filter]
  cases hashing.isHashable clause <;> simp

end Queries

/-! ## When a combination means what it says -/

namespace Combination

variable {site : Site} {program : Program} (combination : Combination site program) (db : Database)
  (criteria : Q Lookup)

def startsFrom : Q Lookup :=
  if "all".toList.isPrefixOf combination.listName then
    if combination.userType ∈ site.types then getAllOfType combination.userType else {}
  else combination.base

/-- A list of all users is lost when it is only extended. -/
def Loses : Prop :=
  combination.startsFrom.isVacuous = true ∧
    (∀ name, combination.data.IsChecked "and_".toList name → program.firstNamed name = none) ∧
    ∃ name, combination.data.IsChecked "or_".toList name ∧ program.firstNamed name ≠ none

/-- The list that the controller starts from and the criteria hold at one joined row of a user. -/
def Shares (user : ESPUser) : Prop :=
  ¬ combination.Loses ∧ ∃ row ∈ db.joined user,
    criteria.Holds db.model user row false ∧ combination.startsFrom.Holds db.model user row false

/-- The mailing list has a box checked, and the program has no list of its name. -/
def NamesMailingList (box : Text) : Prop :=
  combination.data.IsChecked box allEmaillist ∧
    program.firstNamed allEmaillist = none

/-- A user is in the mailing list, or with `NOT` is not. -/
def MeetsMailingList (user : ESPUser) : Prop :=
  combination.data.Meets db allEmaillist mailingList user

/-- The slips of the controller neither leave out a user nor add one. -/
structure Spares (user : ESPUser) : Prop where
  /-- Who is in the list to start from and matches the criteria does both at one row. -/
  shares : combination.base.Selects db.model user →
    combination.data.MeetsAll db program.firstNamed user →
    (combination.NamesMailingList "and_".toList → combination.MeetsMailingList db user) →
    combination.Shares db criteria user
  /-- The mailing list adds no one where it is checked `OR`. -/
  extends' : combination.NamesMailingList "or_".toList → combination.MeetsMailingList db user →
    combination.Shares db criteria user ∧ combination.data.MeetsAll db program.firstNamed user
  /-- The mailing list leaves no one out where it is chosen to start from or checked `AND`. -/
  restricts : combination.Shares db criteria user →
    combination.data.MeetsAll db program.firstNamed user →
    (combination.NamesMailingList "or_".toList ∧ combination.MeetsMailingList db user) ∨
      (combination.base.Selects db.model user ∧
        (combination.NamesMailingList "and_".toList → combination.MeetsMailingList db user))

/-- The parts of `combo_base_list` have no colon. -/
def HasPlainNames : Prop := ':' ∉ combination.userType ∧ ':' ∉ combination.listName

section

variable {combination db criteria} {user : ESPUser} {hashing : Hashing}

theorem offeredList_eq_some {name : Text} {listed : Q Lookup} :
    program.offeredList name = some listed ↔ program.firstNamed name = some listed ∨
      (program.firstNamed name = none ∧ name = allEmaillist ∧ listed = mailingList) := by
  rw [Program.offeredList]
  cases program.firstNamed name with
  | some first => exact ⟨.inl, fun either => either.resolve_right fun none => nomatch none.1⟩
  | none =>
      rw [Option.none_or]
      split
      next same =>
        constructor
        · intro isListed
          exact .inr ⟨rfl, same, (Option.some.inj isListed).symm⟩
        · intro either
          rw [(either.resolve_left (nomatch ·)).2.2]
      next different =>
        constructor
        · intro impossible
          cases impossible
        · intro either
          exact absurd (either.resolve_left (nomatch ·)).2.1 different

theorem meetsAll_offeredList : combination.data.MeetsAll db program.offeredList user ↔
    combination.data.MeetsAll db program.firstNamed user ∧
      (combination.NamesMailingList "and_".toList → combination.MeetsMailingList db user) := by
  constructor
  · intro all
    constructor
    · intro name listed isChecked found
      exact all name listed isChecked (offeredList_eq_some.mpr (.inl found))
    · intro names
      exact all _ _ names.1 (offeredList_eq_some.mpr (.inr ⟨names.2, rfl, rfl⟩))
  · intro both name listed isChecked found
    cases offeredList_eq_some.mp found with
    | inl found => exact both.1 name listed isChecked found
    | inr isMailing =>
        rcases isMailing with ⟨isNone, rfl, rfl⟩
        exact both.2 ⟨isChecked, isNone⟩

theorem meetsSome_offeredList : combination.data.MeetsSome db program.offeredList user ↔
    combination.data.MeetsSome db program.firstNamed user ∨
      (combination.NamesMailingList "or_".toList ∧ combination.MeetsMailingList db user) := by
  constructor
  · intro some
    rcases some with ⟨name, listed, isChecked, found, meets⟩
    cases offeredList_eq_some.mp found with
    | inl found => exact .inl ⟨name, listed, isChecked, found, meets⟩
    | inr isMailing =>
        rcases isMailing with ⟨isNone, rfl, rfl⟩
        exact .inr ⟨⟨isChecked, isNone⟩, meets⟩
  · intro either
    cases either with
    | inl some =>
        rcases some with ⟨name, listed, isChecked, found, meets⟩
        exact ⟨name, listed, isChecked, offeredList_eq_some.mpr (.inl found), meets⟩
    | inr mailing =>
        exact ⟨_, _, mailing.1.1, offeredList_eq_some.mpr (.inr ⟨mailing.1.2, rfl, rfl⟩),
          mailing.2⟩

theorem meetsAll : (∀ name ∈ combination.data.andKeys, ∀ listed,
      program.firstNamed name = some listed → combination.data.Meets db name listed user) ↔
    combination.data.MeetsAll db program.firstNamed user := by
  simp only [PostData.andKeys, mem_keys]
  exact ⟨fun all name listed isChecked => all name isChecked listed,
    fun all name isChecked listed => all name listed isChecked⟩

theorem meetsSome : (∃ name ∈ combination.data.orKeys, ∃ listed,
      program.firstNamed name = some listed ∧ combination.data.Meets db name listed user) ↔
    combination.data.MeetsSome db program.firstNamed user := by
  simp only [PostData.orKeys, mem_keys, PostData.MeetsSome, exists_and_left]

theorem notLoses : (combination.startsFrom.isVacuous = true ∧
      (∀ name ∈ combination.data.andKeys, program.firstNamed name = none) →
    ∀ name ∈ combination.data.orKeys, program.firstNamed name = none) ↔ ¬ combination.Loses := by
  simp only [PostData.andKeys, PostData.orKeys, mem_keys, Loses]
  constructor
  · intro none loses
    rcases loses.2.2 with ⟨name, isChecked, some⟩
    exact some (none ⟨loses.1, loses.2.1⟩ name isChecked)
  · intro kept vacuous name isChecked
    by_contra some
    exact kept ⟨vacuous.1, vacuous.2, name, isChecked, some⟩

theorem selects_combination :
    ((criteria.and (combination.data.combination program combination.startsFrom)).and
      (Q.of [isActive])).Selects db.model user ↔
      user.isActive = true ∧
        ((combination.Shares db criteria user ∧
            combination.data.MeetsAll db program.firstNamed user) ∨
          (combination.data.MeetsSome db program.firstNamed user ∧
            criteria.Selects db.model user)) := by
  have active {row : Joined} :
      (Q.of [isActive]).Holds db.model user row false ↔ user.isActive = true := by
    rw [Q.holds_of, List.forall_mem_singleton]
    rfl
  have combined {row : Joined} :
      (combination.data.combination program combination.startsFrom).Holds db.model user row false ↔
        (¬ combination.Loses ∧ combination.startsFrom.Holds db.model user row false ∧
          combination.data.MeetsAll db program.firstNamed user) ∨
        combination.data.MeetsSome db program.firstNamed user := by
    rw [PostData.combination, holds_foldl_addOr, holds_foldl_addAnd, isVacuous_foldl_addAnd,
      notLoses, meetsAll, meetsSome]
  constructor
  · intro selects
    rcases selects with ⟨row, isRow, holds⟩
    rw [Q.holds_and, Q.holds_and, combined, active] at holds
    rcases holds with ⟨⟨isCriteria, either⟩, isActive⟩
    refine ⟨isActive, ?_⟩
    cases either with
    | inl started => exact .inl ⟨⟨started.1, row, isRow, isCriteria, started.2.1⟩, started.2.2⟩
    | inr some => exact .inr ⟨some, row, isRow, isCriteria⟩
  · intro meant
    rcases meant with ⟨isActive, either⟩
    cases either with
    | inl started =>
        rcases started with ⟨⟨kept, row, isRow, isCriteria, holds⟩, all⟩
        refine ⟨row, isRow, ?_⟩
        rw [Q.holds_and, Q.holds_and, combined, active]
        exact ⟨⟨isCriteria, .inl ⟨kept, holds, all⟩⟩, isActive⟩
    | inr some =>
        rcases some with ⟨some, row, isRow, isCriteria⟩
        refine ⟨row, isRow, ?_⟩
        rw [Q.holds_and, Q.holds_and, combined, active]
        exact ⟨⟨isCriteria, .inr some⟩, isActive⟩

theorem selects_iff_intends_iff :
    (((criteria.and (combination.data.combination program combination.startsFrom)).and
      (Q.of [isActive])).Selects db.model user ↔
        combination.data.Intends db program combination.base criteria user) ↔
      (user.isActive = true → criteria.Selects db.model user →
        ¬ combination.data.MeetsSome db program.firstNamed user →
        combination.Spares db criteria user) := by
  rw [selects_combination, PostData.Intends, meetsAll_offeredList, meetsSome_offeredList]
  constructor
  · intro exactly isActive isCriteria outside
    simp only [isActive, isCriteria, outside, or_false, false_or, true_and, and_true] at exactly
    exact {
      shares := fun isBase all mailing => (exactly.mpr (.inl ⟨isBase, all, mailing⟩)).1
      extends' := fun names meets => exactly.mpr (.inr ⟨names, meets⟩)
      restricts := fun shares all => (exactly.mp ⟨shares, all⟩).symm.imp_right fun meant =>
        ⟨meant.1, meant.2.2⟩ }
  · intro spares
    by_cases isActive : user.isActive = true
    · by_cases isCriteria : criteria.Selects db.model user
      · by_cases inside : combination.data.MeetsSome db program.firstNamed user
        · exact iff_of_true ⟨isActive, .inr ⟨inside, isCriteria⟩⟩
            ⟨isActive, .inr (.inl inside), isCriteria⟩
        · have spared := spares isActive isCriteria inside
          refine and_congr_right fun _ => ?_
          simp only [isCriteria, inside, or_false, false_or, and_true]
          constructor
          · intro started
            exact (spared.restricts started.1 started.2).symm.imp_left fun meant =>
              ⟨meant.1, started.2, meant.2⟩
          · intro meant
            cases meant with
            | inl meant => exact ⟨spared.shares meant.1 meant.2.1 meant.2.2, meant.2.1⟩
            | inr mailing => exact spared.extends' mailing.1 mailing.2
      · refine iff_of_false ?_ fun meant => isCriteria meant.2.2
        intro selected
        cases selected.2 with
        | inl started =>
            rcases started.1.2 with ⟨row, isRow, holds, _⟩
            exact isCriteria ⟨row, isRow, holds⟩
        | inr some => exact isCriteria some.2
    · exact iff_of_false (fun selected => isActive selected.1) fun meant => isActive meant.1

theorem length_splitOn_eq_one_iff {text : Text} : (text.splitOn ':').length = 1 ↔ ':' ∉ text := by
  constructor
  · intro single isColon
    rcases List.append_of_mem isColon with ⟨before, after, rfl⟩
    rw [List.splitOn_append_cons_self, List.length_append] at single
    have first := List.length_pos_of_ne_nil (List.splitOn_ne_nil ':' before)
    have second := List.length_pos_of_ne_nil (List.splitOn_ne_nil ':' after)
    omega
  · intro noColon
    rw [List.splitOn_eq_singleton noColon, List.length_singleton]

/-- The parts of `combo_base_list` are found exactly if they have no colon. -/
theorem unpackPair_splitOn {parts : Text × Text} :
    unpackPair ((combination.userType ++ ':' :: combination.listName).splitOn ':') = .ok parts ↔
      combination.HasPlainNames ∧ parts = (combination.userType, combination.listName) := by
  by_cases plain : combination.HasPlainNames
  · rw [List.splitOn_append_cons_self_of_not_mem plain.1, List.splitOn_eq_singleton plain.2]
    simp [plain, unpackPair, eq_comm]
  · refine iff_of_false (fun unpacked => plain ?_) fun both => plain both.1
    rw [List.splitOn_append_cons_self] at unpacked
    have pair : ((combination.userType.splitOn ':') ++ (combination.listName.splitOn ':')).length =
        2 := by
      revert unpacked
      cases (combination.userType.splitOn ':') ++ (combination.listName.splitOn ':') with
      | nil => exact fun impossible => nomatch impossible
      | cons first rest =>
          cases rest with
          | nil => exact fun impossible => nomatch impossible
          | cons second rest =>
              cases rest with
              | nil => exact fun _ => rfl
              | cons third rest => exact fun impossible => nomatch impossible
    rw [List.length_append] at pair
    have first := List.length_pos_of_ne_nil (List.splitOn_ne_nil ':' combination.userType)
    have second := List.length_pos_of_ne_nil (List.splitOn_ne_nil ':' combination.listName)
    exact ⟨length_splitOn_eq_one_iff.mp (by omega), length_splitOn_eq_one_iff.mp (by omega)⟩

theorem listOf_of_named {userType listName : Text} {listed : Q Lookup}
    (found : named (program.listsFor userType) listName = some listed) :
    program.listOf userType listName = .ok listed := by
  rw [Program.listsFor] at found
  split at found
  next isStudent =>
    rw [isStudent, Program.listOf, if_pos (by decide)]
    simp only [found]
  next =>
    split at found
    next isTeacher =>
      rw [isTeacher, Program.listOf, if_neg (by decide), if_pos (by decide)]
      simp only [found]
    next =>
      split at found
      next isVolunteer =>
        rw [isVolunteer, Program.listOf, if_neg (by decide), if_neg (by decide),
          if_pos (by decide)]
        simp only [found]
      next => cases found

theorem comboBase_eq :
    PostData.comboBase site program combination.userType combination.listName =
      .ok combination.startsFrom := by
  have isOffered := combination.isOffered
  rw [PostData.comboBase, startsFrom]
  split
  next => rfl
  next notAll =>
    rw [Program.offeredBase] at isOffered
    split at isOffered
    next =>
      split at isOffered
      next isName =>
        rw [isName] at notAll
        exact absurd (by decide) notAll
      next => cases isOffered
    next =>
      split at isOffered
      next isName =>
        rw [isName.2] at notAll
        refine absurd (List.isPrefixOf_iff_prefix.mpr ?_) notAll
        exact ⟨'_' :: combination.userType, rfl⟩
      next => exact listOf_of_named isOffered

theorem queryFromPostdata_eq_ok {q : Q Lookup}
    (isCriteria : queryFromCriteria site db "any".toList combination.data.toCriteria
      (some program.id) = .ok criteria) :
    queryFromPostdata site hashing db program combination.data = .ok q ↔
      combination.HasPlainNames ∧ q = hashing.strip
        ((criteria.and (combination.data.combination program combination.startsFrom)).and
          (Q.of [isActive])) := by
  have queries : combination.data.queries site program db = combination.data.comboQueries site
      program db (combination.userType ++ ':' :: combination.listName) := by
    rw [PostData.queries, combination.isNotBasic, combination.isCombo]
  rw [queryFromPostdata, queries, PostData.comboQueries]
  simp only [isCriteria]
  constructor
  · intro run
    rcases bind_eq_ok.mp run with ⟨both, isBoth, stripped⟩
    rcases bind_eq_ok.mp isBoth with ⟨parts, unpacked, isBoth⟩
    rcases unpackPair_splitOn.mp unpacked with ⟨plain, rfl⟩
    rw [comboBase_eq] at isBoth
    cases isBoth
    cases stripped
    exact ⟨plain, rfl⟩
  · intro run
    rw [run.2]
    have unpacked := unpackPair_splitOn.mpr ⟨run.1, rfl⟩
    refine bind_eq_ok.mpr ⟨(criteria, combination.data.combination program combination.startsFrom),
      bind_eq_ok.mpr ⟨_, unpacked, ?_⟩, rfl⟩
    rw [comboBase_eq]
    rfl

/-- Where the criteria are valid, a submission that combines lists selects the users who are meant
exactly if the parts of its first list have no colon and the slips of the controller concern no
active user who matches the criteria and is not taken in by `OR` anyway. -/
theorem selects_intended_iff (isCriteria : queryFromCriteria site db "any".toList
    combination.data.toCriteria (some program.id) = .ok criteria) :
    (∃ q, queryFromPostdata site hashing db program combination.data = .ok q ∧
      ∀ user ∈ db.users, q.Selects db.model user ↔
        combination.data.Intends db program combination.base criteria user) ↔
      combination.HasPlainNames ∧
        ∀ user ∈ db.users, user.isActive = true → criteria.Selects db.model user →
          ¬ combination.data.MeetsSome db program.firstNamed user →
          combination.Spares db criteria user := by
  have stripped (q : Q Lookup) (user : ESPUser) :
      (hashing.strip q).Selects db.model user ↔ q.Selects db.model user :=
    exists_congr fun row => and_congr_right fun _ => holds_strip
  simp only [queryFromPostdata_eq_ok isCriteria]
  constructor
  · intro run
    rcases run with ⟨q, ⟨plain, rfl⟩, exactly⟩
    refine ⟨plain, fun user isUser => selects_iff_intends_iff.mp ?_⟩
    rw [← stripped]
    exact exactly user isUser
  · intro spares
    refine ⟨_, ⟨spares.1, rfl⟩, fun user isUser => ?_⟩
    rw [stripped]
    exact selects_iff_intends_iff.mpr (spares.2 user isUser)

end

/-! ## A list and a criterion on registrations -/

/-- The class and the program of the example. -/
def classSeven : ClassSubject := ⟨7, 1, []⟩

def classEight : ClassSubject := ⟨8, 1, []⟩

/-- A student who is enrolled in class 8 and interested in class 7. -/
def student : ESPUser where
  id := 5
  username := "student".toList
  lastName := []
  firstName := []
  email := []
  password := []
  isActive := true
  groups := []

def registered : Database where
  users := [student]
  classes := [classSeven, classEight]
  sections := [⟨70, classSeven, []⟩, ⟨80, classEight, []⟩]
  registrations := [
    ⟨⟨none, none⟩, 5, ⟨80, classEight, []⟩, "Enrolled".toList⟩,
    ⟨⟨none, none⟩, 5, ⟨70, classSeven, []⟩, "Interested".toList⟩]
  availabilities := []
  profiles := []
  studentInfos := []
  zipCodes := []
  relations := []

/-- A site that compares texts as they are. -/
def plainSite : Site where
  types := ["Student".toList, "Teacher".toList]
  schoolyear := 2026
  now := 0
  iexact text other := text = other
  iregex text other := text = other
  icontains text other := text = other
  isRegex _ := true
  isDecimal _ := true

def enrolled (program : ℕ) : Q Lookup :=
  ((Q.of [relationshipIn ["Enrolled".toList]]).and
    (Q.of [fun _ row => row.registration.any fun registration =>
      registration.sec.parentClass.parentProgram = program])).and (isValidQobject 0)

def splash : Program where
  id := 1
  students := [("enrolled".toList, enrolled 1)]
  teachers := []
  volunteers := []

def interestedInSeven : Combination plainSite splash where
  data := {
    clsid := some ['7']
    regtypes := some ["Interested".toList]
    comboBaseList := some "Student:enrolled".toList }
  userType := "Student".toList
  listName := "enrolled".toList
  base := enrolled 1
  isCombo := rfl
  isNotBasic := rfl
  isOffered := rfl

/-- The criteria of this submission. -/
def interested : Q Lookup :=
  (Q.of [classIn [7], relationshipIn ["Interested".toList]]).and (isValidQobject 0)

/-- A set that gives conditions in the order in which they came. -/
def inOrder : Hashing where
  isHashable _ := true
  listOfSet clauses := clauses
  mem_listOfSet _ _ := Iff.rfl

theorem queryFromCriteria_interestedInSeven :
    queryFromCriteria plainSite registered "any".toList interestedInSeven.data.toCriteria
      (some splash.id) = .ok interested := rfl

/-- No registration is both. -/
theorem not_selects_intended_enrolled :
    ¬ ∃ q, queryFromPostdata plainSite inOrder registered splash interestedInSeven.data = .ok q ∧
      ∀ user ∈ registered.users, q.Selects registered.model user ↔
        interestedInSeven.data.Intends registered splash interestedInSeven.base interested
          user := by
  intro run
  rcases run with ⟨q, isQuery, exactly⟩
  rw [(queryFromPostdata_eq_ok queryFromCriteria_interestedInSeven).mp isQuery |>.2] at exactly
  have same := exactly student (List.mem_singleton_self _)
  have unchecked (box name : Text) : ¬ interestedInSeven.data.IsChecked box name := by
    intro isChecked
    rcases isChecked with ⟨value, _, isField⟩
    exact absurd isField List.not_mem_nil
  have meant : interestedInSeven.data.Intends registered splash interestedInSeven.base interested
      student :=
    ⟨rfl, .inl ⟨by decide, fun _ _ isChecked => absurd isChecked (unchecked _ _)⟩, by decide⟩
  have missed : ¬ (inOrder.strip ((interested.and
      (interestedInSeven.data.combination splash interestedInSeven.startsFrom)).and
        (Q.of [isActive]))).Selects registered.model student := by
    decide
  exact missed (same.mpr meant)

theorem selects_intended_iff_enrolled :
    (∃ q, queryFromPostdata plainSite inOrder registered splash interestedInSeven.data = .ok q ∧
      ∀ user ∈ registered.users, q.Selects registered.model user ↔
        interestedInSeven.data.Intends registered splash interestedInSeven.base interested user) ↔
      interestedInSeven.HasPlainNames ∧ ∀ user ∈ registered.users, user.isActive = true →
        interested.Selects registered.model user →
        ¬ interestedInSeven.data.MeetsSome registered splash.firstNamed user →
        interestedInSeven.Spares registered interested user :=
  selects_intended_iff queryFromCriteria_interestedInSeven

end Combination

end EspWebsite.UserSearch
