import EspWebsite.Autoscheduler.ResourceChecker
import EspWebsite.Library.Patterns
import EspWebsite.Library.Python

/-!
# Specifications of resource criteria

`create_from_specification` of `resource_checker.py`, which reads the text of a criterion, and the
`__str__` methods, which print it.
-/

namespace EspWebsite.Autoscheduler

open Python Patterns Pattern

/-! ## Reading -/

/-- `^if (.+) then (.+)$`. -/
def specPattern : Pattern (List Char × List Char) := do
  literal "if ".toList
  let premise ← greedy
  literal " then ".toList
  let conclusion ← greedy
  atEnd
  return (premise, conclusion)

/-- A clause that asks for a resource type: whether it is negated, the type, and the pattern of the
value. -/
abbrev ResourceClause := Option Unit × List Char × Option (List Char)

/-- `( with (.+))?$` and what comes before. -/
def valuePattern (negate : Option Unit) (resType : List Char) : Pattern ResourceClause := do
  let valueRegex ← optional do
    literal " with ".toList
    greedy
  atEnd
  return (negate, resType, valueRegex)

/-- `^(not )?keyword(.+?)( with (.+))?$`. -/
def resourcePattern (keyword : List Char) : Pattern ResourceClause := do
  let negate ← optional (literal "not ".toList)
  literal keyword
  let resType ← reluctant
  valuePattern negate resType

/-- `^(not )?section requests (.+?)( with (.+))?$`. -/
def resourceRequestPattern : Pattern ResourceClause :=
  resourcePattern "section requests ".toList

/-- `^(not )?classroom has (.+?)( with (.+))?$`. -/
def resourceClassroomPattern : Pattern ResourceClause :=
  resourcePattern "classroom has ".toList

/-- `^(not )?classroom matches (.+)$`. -/
def classroomNamePattern : Pattern (Option Unit × List Char) := do
  let negate ← optional (literal "not ".toList)
  literal "classroom matches ".toList
  let nameRegex ← greedy
  atEnd
  return (negate, nameRegex)

section Create

variable (reMatch : String → String → Bool)

/-- A regular expression for `re.match`. -/
def regex (pattern : String) : Regex where
  pattern := pattern
  «match» := reMatch pattern

/-- The pattern of a value, where `.*` is the default. -/
def valueRegex (value : Option (List Char)) : Regex :=
  regex reMatch ((value.map String.ofList).getD ".*")

/-- A matcher, which is one of sections or one of classrooms. -/
abbrev Matcher := SectionMatcher ⊕ ClassroomMatcher

def createMatchFromClause (group : List Char) (validResTypes : List String) : Raises Matcher :=
  match resourceRequestPattern.match group with
  | some (negate, resType, value) =>
      if String.ofList resType ∉ validResTypes then
        .error (.raised "ValueError"
          ("Resource type " ++ String.ofList resType ++ " doesn't exist"))
      else
        let matcher := .resourceRequest (String.ofList resType) (valueRegex reMatch value)
        .ok (.inl (if negate.isSome then .negating matcher else matcher))
  | none =>
  match resourceClassroomPattern.match group with
  | some (negate, resType, value) =>
      let matcher := .resourceClassroom (String.ofList resType) (valueRegex reMatch value)
      .ok (.inr (if negate.isSome then .negating matcher else matcher))
  | none =>
  match classroomNamePattern.match group with
  | some (negate, nameRegex) =>
      let matcher := .classroomName (regex reMatch (String.ofList nameRegex))
      .ok (.inr (if negate.isSome then .negating matcher else matcher))
  | none =>
      if String.ofList group = "any section" then .ok (.inl .trivial)
      else
        .error (.raised "ValueError"
          ("Clause '" ++ String.ofList group ++ "' doesn't match a valid pattern."))

def createFromSpecification (spec name : String) (validResTypes : List String) :
    Raises ResourceCriterion :=
  match specPattern.match spec.toList with
  | none =>
      .error (.raised "ValueError" "ResourceCriteron spec must match 'if PREMISE then CONCLUSION")
  | some (premise, conclusion) => do
      match ← createMatchFromClause reMatch premise validResTypes,
          ← createMatchFromClause reMatch conclusion validResTypes with
      | .inl sectionMatcher, .inr classroomMatcher =>
          return ⟨sectionMatcher, classroomMatcher, true, name⟩
      | .inl _, .inl _ => .error (.raised "ValueError" "Cannot specify two section matchers")
      | .inr classroomMatcher, .inl sectionMatcher =>
          return ⟨sectionMatcher, classroomMatcher, false, name⟩
      | .inr _, .inr _ => .error (.raised "ValueError" "Cannot specify two classroom matchers")

end Create

/-! ## Printing -/

/-- A resource type, with the pattern of the value unless it is the default. -/
def resourceStr (keyword resType : String) (valueRegex : Regex) : String :=
  if valueRegex.pattern ≠ ".*" then keyword ++ resType ++ " with " ++ valueRegex.pattern
  else keyword ++ resType

def SectionMatcher.str : SectionMatcher → String
  | .trivial => "any section"
  | .negating sectionMatcher => "not " ++ sectionMatcher.str
  | .resourceRequest resType desiredValueRegex =>
      resourceStr "section requests " resType desiredValueRegex

def ClassroomMatcher.str : ClassroomMatcher → String
  | .negating roomMatcher => "not " ++ roomMatcher.str
  | .resourceClassroom resType attributeValueRegex =>
      resourceStr "classroom has " resType attributeValueRegex
  | .classroomName nameRegex => "classroom matches " ++ nameRegex.pattern

@[simp] theorem ClassroomMatcher.str_negating (roomMatcher : ClassroomMatcher) :
    (ClassroomMatcher.negating roomMatcher).str = "not " ++ roomMatcher.str := rfl

@[simp] theorem ClassroomMatcher.str_resourceClassroom (resType : String) (valueRegex : Regex) :
    (ClassroomMatcher.resourceClassroom resType valueRegex).str =
      resourceStr "classroom has " resType valueRegex := rfl

@[simp] theorem ClassroomMatcher.str_classroomName (nameRegex : Regex) :
    (ClassroomMatcher.classroomName nameRegex).str =
      "classroom matches " ++ nameRegex.pattern := rfl

def ResourceCriterion.str (criterion : ResourceCriterion) : String :=
  if criterion.conditionOnSection then
    criterion.name ++ ": if " ++ criterion.sectionMatcher.str ++ " then " ++
      criterion.classroomMatcher.str
  else
    criterion.name ++ ": if " ++ criterion.classroomMatcher.str ++ " then " ++
      criterion.sectionMatcher.str

/-! ## What a clause is split into -/

def valueText : Option (List Char) → List Char
  | none => []
  | some value => " with ".toList ++ value

def clauseText (keyword : List Char) (clause : ResourceClause) : List Char :=
  (clause.1.elim [] fun _ => "not ".toList) ++
    (keyword ++ (clause.2.1 ++ valueText clause.2.2))

/-- The type of a clause ends where the first value begins. -/
structure WellSplit (clause : ResourceClause) : Prop where
  resType_ne_nil : clause.2.1 ≠ []
  value_ne_nil : clause.2.2 ≠ some []
  shortest : ∀ shorter value, clause.2.1 ++ valueText clause.2.2 =
    shorter ++ (" with ".toList ++ value) → shorter ≠ [] → value ≠ [] →
      clause.2.1.length ≤ shorter.length

section Clause

variable {text rest keyword resType : List Char} {negate : Option Unit} {clause : ResourceClause}
  {result : ResourceClause × List Char}

theorem first_valuePattern (line : '\n' ∉ text) :
    (valuePattern negate resType).first text = some result ↔
      ∃ value, text = valueText value ∧ value ≠ some [] ∧
        result = ((negate, resType, value), []) := by
  simp only [valuePattern, first_optional_bind, bind_assoc, first_literal_bind, first_line_bind,
    first_atEnd_bind, first_pure, Option.some.injEq]
  constructor
  · rintro (⟨_, rfl, value, ending, rfl, some, -, rfl | rfl, rfl⟩ | ⟨-, rfl | rfl, rfl⟩)
    · exact ⟨value, by simp [valueText], by simpa using some, rfl⟩
    · simp at line
    · exact ⟨none, rfl, by simp, rfl⟩
    · simp at line
  · rintro ⟨_ | value, rfl, some, rfl⟩
    · refine .inr ⟨Option.eq_none_iff_forall_ne_some.mpr fun other => ?_, .inl rfl, rfl⟩
      rw [Ne, first_literal_bind]
      simp [valueText]
    · refine .inl ⟨value, rfl, value, [], by simp, by simpa using some, ?_, .inl rfl, rfl⟩
      exact fun isEnd => line (by simp [valueText, isEnd])

theorem first_typePattern (line : '\n' ∉ text) :
    (reluctant >>= valuePattern negate).first text = some result ↔
      ∃ clause, result = (clause, []) ∧ clause.1 = negate ∧ WellSplit clause ∧
        text = clause.2.1 ++ valueText clause.2.2 := by
  rw [first_reluctant_bind]
  constructor
  · rintro ⟨resType, after, rfl, some, -, goesThrough, none⟩
    have afterLine : '\n' ∉ after := fun isEnd => line (List.mem_append_right _ isEnd)
    obtain ⟨value, rfl, isValue, rfl⟩ := (first_valuePattern afterLine).mp goesThrough
    refine ⟨(negate, resType, value), rfl, rfl, ⟨some, isValue, ?_⟩, rfl⟩
    intro shorter other same nonempty isOther
    by_contra isShorter
    have fails := none shorter _ same nonempty (by simpa using isShorter)
    have otherLine : '\n' ∉ " with ".toList ++ other := fun isEnd =>
      line (same ▸ List.mem_append_right _ isEnd)
    rw [(first_valuePattern otherLine).mpr ⟨Option.some other, rfl, by simpa using isOther, rfl⟩]
      at fails
    cases fails
  · rintro ⟨⟨negate, resType, value⟩, rfl, rfl, wellSplit, rfl⟩
    have valueLine : '\n' ∉ valueText value := fun isEnd => line (List.mem_append_right _ isEnd)
    refine ⟨resType, valueText value, rfl, wellSplit.resType_ne_nil,
      fun isEnd => line (List.mem_append_left _ isEnd),
      (first_valuePattern valueLine).mpr ⟨value, rfl, wellSplit.value_ne_nil, rfl⟩, ?_⟩
    intro shorter after same nonempty isShorter
    refine Option.eq_none_iff_forall_ne_some.mpr fun other goesThrough => ?_
    have afterLine : '\n' ∉ after := fun isEnd => line (same ▸ List.mem_append_right _ isEnd)
    obtain ⟨_ | found, rfl, isFound, -⟩ := (first_valuePattern afterLine).mp goesThrough
    · have := congrArg List.length same
      simp [valueText] at this
      omega
    · have := wellSplit.shortest shorter found same nonempty (by simpa using isFound)
      exact absurd isShorter this.not_gt

theorem first_keywordPattern (line : '\n' ∉ text) :
    (literal keyword >>= fun _ => reluctant >>= valuePattern negate).first text = some result ↔
      ∃ clause, result = (clause, []) ∧ clause.1 = negate ∧ WellSplit clause ∧
        text = keyword ++ (clause.2.1 ++ valueText clause.2.2) := by
  rw [first_literal_bind]
  constructor
  · rintro ⟨rest, rfl, goesThrough⟩
    have restLine : '\n' ∉ rest := fun isEnd => line (List.mem_append_right _ isEnd)
    obtain ⟨clause, rfl, rfl, wellSplit, rfl⟩ := (first_typePattern restLine).mp goesThrough
    exact ⟨clause, rfl, rfl, wellSplit, rfl⟩
  · rintro ⟨clause, rfl, rfl, wellSplit, rfl⟩
    have restLine : '\n' ∉ clause.2.1 ++ valueText clause.2.2 := fun isEnd =>
      line (List.mem_append_right _ isEnd)
    exact ⟨_, rfl, (first_typePattern restLine).mpr ⟨clause, rfl, rfl, wellSplit, rfl⟩⟩

theorem match_resourcePattern (line : '\n' ∉ text)
    (plain : ∀ rest, ¬"not ".toList <+: keyword ++ rest) :
    (resourcePattern keyword).match text = some clause ↔
      WellSplit clause ∧ text = clauseText keyword clause := by
  rw [match_eq_some]
  simp only [resourcePattern, first_optional_bind, first_keywordPattern line]
  constructor
  · rintro ⟨rest, negated | ⟨-, _, isClause, isPlain, wellSplit, rfl⟩⟩
    · obtain ⟨after, rfl, goesThrough⟩ := first_literal_bind.mp negated
      have afterLine : '\n' ∉ after := fun isEnd => line (List.mem_append_right _ isEnd)
      obtain ⟨_, isClause, isNegated, wellSplit, rfl⟩ :=
        (first_keywordPattern afterLine).mp goesThrough
      cases isClause
      exact ⟨wellSplit, by simp [clauseText, isNegated]⟩
    · cases isClause
      exact ⟨wellSplit, by simp [clauseText, isPlain]⟩
  · rintro ⟨wellSplit, rfl⟩
    refine ⟨[], ?_⟩
    rcases clause with ⟨_ | negate, resType, value⟩
    · refine .inr ⟨Option.eq_none_iff_forall_ne_some.mpr fun other goesThrough => ?_, _, rfl, rfl,
        wellSplit, rfl⟩
      obtain ⟨rest, same, -⟩ := first_literal_bind.mp goesThrough
      exact plain _ ⟨rest, same.symm⟩
    · refine .inl (first_literal_bind.mpr ⟨_, rfl, (first_keywordPattern ?_).mpr ⟨_, rfl, rfl,
        wellSplit, rfl⟩⟩)
      exact fun isEnd => line (List.mem_append_right _ isEnd)

/-- The value that is printed. -/
def shown (value : Option (List Char)) : Option (List Char) :=
  value.filter fun value => value ≠ ".*".toList

theorem shown_eq_or (value : Option (List Char)) :
    shown value = value ∨ value = some ".*".toList ∧ shown value = none := by
  rcases value with _ | value
  · exact .inl rfl
  · by_cases isDefault : value = ".*".toList
    · exact .inr ⟨by rw [isDefault], by rw [isDefault]; rfl⟩
    · exact .inl (Option.filter_some_pos (by simpa using isDefault))

/-- A value that is the default can be left out. -/
theorem WellSplit.shown {value : Option (List Char)}
    (wellSplit : WellSplit (negate, resType, value)) :
    WellSplit (negate, resType, shown value) := by
  rcases shown_eq_or value with same | ⟨rfl, isShown⟩
  · rwa [same]
  · rw [isShown]
    refine ⟨wellSplit.resType_ne_nil, by simp, fun shorter other same nonempty isOther => ?_⟩
    refine wellSplit.shortest shorter (other ++ valueText (some ".*".toList)) ?_ nonempty
      (by simp [isOther])
    have : resType = shorter ++ (" with ".toList ++ other) := by simpa [valueText] using same
    simp [this]

theorem clauseText_shown_isPrefix (keyword : List Char) (negate : Option Unit) (resType : List Char)
    (value : Option (List Char)) :
    clauseText keyword (negate, resType, shown value) <+:
      clauseText keyword (negate, resType, value) := by
  rcases shown_eq_or value with same | ⟨rfl, isShown⟩
  · rw [same]
  · rw [isShown]
    simp [clauseText, valueText, List.prefix_append_right_inj]

theorem valueRegex_shown (reMatch : String → String → Bool) (value : Option (List Char)) :
    valueRegex reMatch (shown value) = valueRegex reMatch value := by
  rcases shown_eq_or value with same | ⟨rfl, isShown⟩
  · rw [same]
  · rw [isShown]
    rfl

theorem toList_resourceStr (reMatch : String → String → Bool) (keyword : String)
    (value : Option (List Char)) :
    (resourceStr keyword (String.ofList resType) (valueRegex reMatch value)).toList =
      keyword.toList ++ (resType ++ valueText (shown value)) := by
  rcases value with _ | value
  · simp [resourceStr, valueRegex, regex, valueText, shown]
  · by_cases isDefault : value = ".*".toList
    · have shows : shown (some value) = none := by
        rw [isDefault]
        rfl
      rw [shows]
      simp [resourceStr, valueRegex, regex, valueText, isDefault]
    · have : String.ofList value ≠ ".*" := fun same =>
        isDefault (by rw [← same, String.toList_ofList])
      have shows : shown (some value) = some value :=
        Option.filter_some_pos (by simpa using isDefault)
      simp [resourceStr, valueRegex, regex, valueText, shows, this]

theorem clauseText_ne (clause other : ResourceClause) :
    clauseText "section requests ".toList clause ≠ clauseText "classroom has ".toList other := by
  rcases clause with ⟨_ | _, _⟩ <;> rcases other with ⟨_ | _, _⟩ <;> simp [clauseText]

end Clause

/-- What is between the two clauses is the last `then`. -/
structure SplitLast (premise conclusion : List Char) : Prop where
  premise_ne_nil : premise ≠ []
  conclusion_ne_nil : conclusion ≠ []
  longest : ∀ longer rest, premise ++ (" then ".toList ++ conclusion) =
    longer ++ (" then ".toList ++ rest) → rest ≠ [] → longer.length ≤ premise.length

theorem first_conclusion {text premise : List Char} {result : (List Char × List Char) × List Char} :
    (literal " then ".toList >>= fun _ => greedy >>= fun conclusion => atEnd >>= fun _ =>
        pure (premise, conclusion)).first text = some result ↔
      ∃ conclusion ending, text = " then ".toList ++ (conclusion ++ ending) ∧ conclusion ≠ [] ∧
        '\n' ∉ conclusion ∧ (ending = [] ∨ ending = ['\n']) ∧
        result = ((premise, conclusion), ending) := by
  simp only [first_literal_bind, first_line_bind, first_pure, Option.some.injEq]
  constructor
  · rintro ⟨_, rfl, conclusion, ending, rfl, some, line, isEnding, rfl⟩
    exact ⟨conclusion, ending, rfl, some, line, isEnding, rfl⟩
  · rintro ⟨conclusion, ending, rfl, some, line, isEnding, rfl⟩
    exact ⟨_, rfl, conclusion, ending, rfl, some, line, isEnding, rfl⟩

theorem match_specPattern {text premise conclusion : List Char} :
    specPattern.match text = some (premise, conclusion) ↔
      SplitLast premise conclusion ∧ '\n' ∉ premise ∧ '\n' ∉ conclusion ∧
        ∃ ending, (ending = [] ∨ ending = ['\n']) ∧
          text = "if ".toList ++ (premise ++ (" then ".toList ++ (conclusion ++ ending))) := by
  rw [match_eq_some]
  constructor
  · rintro ⟨ending, matches'⟩
    obtain ⟨_, rfl, goesThrough⟩ := first_literal_bind.mp matches'
    obtain ⟨_, _, rfl, some, line, goesThrough, none⟩ := first_greedy_bind.mp goesThrough
    obtain ⟨_, _, rfl, some', line', isEnding, same⟩ := first_conclusion.mp goesThrough
    cases same
    refine ⟨⟨some, some', fun longer rest same isRest => ?_⟩, line, line', ending, isEnding, rfl⟩
    by_contra isLonger
    have lines : '\n' ∉ premise ++ (" then ".toList ++ conclusion) := by
      simp [line, line']
    have fails := none longer (" then ".toList ++ (rest ++ ending))
      (by simpa using congrArg (· ++ ending) same)
      (fun isEnd => lines (same ▸ List.mem_append_left _ isEnd)) (by simpa using isLonger)
    rw [first_conclusion.mpr ⟨rest, ending, rfl, isRest, fun isEnd => lines
      (same ▸ List.mem_append_right _ (List.mem_append_right _ isEnd)), isEnding, rfl⟩] at fails
    cases fails
  · rintro ⟨split, line, line', ending, isEnding, rfl⟩
    refine ⟨ending, first_literal_bind.mpr ⟨_, rfl, first_greedy_bind.mpr ⟨premise, _, rfl,
      split.premise_ne_nil, line, first_conclusion.mpr ⟨conclusion, ending, rfl,
        split.conclusion_ne_nil, line', isEnding, rfl⟩, ?_⟩⟩⟩
    intro longer rest same longerLine isLonger
    refine Option.eq_none_iff_forall_ne_some.mpr fun other goesThrough => ?_
    obtain ⟨found, otherEnding, rfl, some, foundLine, isOtherEnding, -⟩ :=
      first_conclusion.mp goesThrough
    have whole :
        premise ++ (" then ".toList ++ conclusion) = longer ++ (" then ".toList ++ found) :=
      line_inj (by simp [line, line']) (by simp [longerLine, foundLine]) isEnding isOtherEnding
        (by simpa using same)
    exact absurd isLonger (split.longest longer found whole some).not_gt

/-! ## What is printed is read back -/

/-- `str(matcher)`. -/
def matcherStr : Matcher → String
  | .inl sectionMatcher => sectionMatcher.str
  | .inr classroomMatcher => classroomMatcher.str

section RoundTrip

variable {reMatch : String → String → Bool} {group : List Char} {validResTypes : List String}
  {matcher : Matcher}

theorem toList_requestStr {negate : Option Unit} {resType : List Char}
    {value : Option (List Char)} :
    let matcher := .resourceRequest (String.ofList resType) (valueRegex reMatch value)
    (matcherStr (.inl (if negate.isSome then .negating matcher else matcher))).toList =
      clauseText "section requests ".toList (negate, resType, shown value) := by
  rcases negate with _ | _ <;>
    simp [matcherStr, SectionMatcher.str, toList_resourceStr, clauseText]

theorem toList_classroomStr {negate : Option Unit} {resType : List Char}
    {value : Option (List Char)} :
    let matcher := .resourceClassroom (String.ofList resType) (valueRegex reMatch value)
    (matcherStr (.inr (if negate.isSome then .negating matcher else matcher))).toList =
      clauseText "classroom has ".toList (negate, resType, shown value) := by
  rcases negate with _ | _ <;>
    simp [matcherStr, toList_resourceStr, clauseText]

theorem createMatchFromClause_request {clause : ResourceClause}
    (line : '\n' ∉ clauseText "section requests ".toList clause) (wellSplit : WellSplit clause) :
    createMatchFromClause reMatch (clauseText "section requests ".toList clause) validResTypes =
      if String.ofList clause.2.1 ∉ validResTypes then
        .error (.raised "ValueError"
          ("Resource type " ++ String.ofList clause.2.1 ++ " doesn't exist"))
      else
        let matcher := .resourceRequest (String.ofList clause.2.1) (valueRegex reMatch clause.2.2)
        .ok (.inl (if clause.1.isSome then .negating matcher else matcher)) := by
  rw [createMatchFromClause, resourceRequestPattern,
    (match_resourcePattern line (by simp)).mpr ⟨wellSplit, rfl⟩]

theorem createMatchFromClause_classroom {clause : ResourceClause}
    (line : '\n' ∉ clauseText "classroom has ".toList clause) (wellSplit : WellSplit clause) :
    createMatchFromClause reMatch (clauseText "classroom has ".toList clause) validResTypes =
      let matcher := .resourceClassroom (String.ofList clause.2.1) (valueRegex reMatch clause.2.2)
      .ok (.inr (if clause.1.isSome then .negating matcher else matcher)) := by
  have noRequest :
      resourceRequestPattern.match (clauseText "classroom has ".toList clause) = none :=
    Option.eq_none_iff_forall_ne_some.mpr fun other isRequest =>
      clauseText_ne other clause ((match_resourcePattern line (by simp)).mp isRequest).2.symm
  rw [createMatchFromClause, noRequest, resourceClassroomPattern]
  dsimp only
  rw [(match_resourcePattern line (by simp)).mpr ⟨wellSplit, rfl⟩]

theorem eq_of_classroomNamePattern {negate : Option Unit} {nameRegex : List Char}
    (line : '\n' ∉ group) (isName : classroomNamePattern.match group = some (negate, nameRegex)) :
    group = (negate.elim [] fun _ => "not ".toList) ++
      ("classroom matches ".toList ++ nameRegex) := by
  obtain ⟨rest, isName⟩ := match_eq_some.mp isName
  simp only [classroomNamePattern, first_optional_bind, first_literal_bind, first_line_bind,
    first_pure] at isName
  rcases isName with ⟨_, rfl, _, rfl, _, ending, rfl, -, -, isEnding, same⟩ |
    ⟨-, _, rfl, _, ending, rfl, -, -, isEnding, same⟩ <;> cases same
  · rcases isEnding with rfl | rfl
    · simp
    · simp at line
  · rcases isEnding with rfl | rfl
    · simp
    · simp at line

theorem createMatchFromClause_str (line : '\n' ∉ group)
    (isMatcher : createMatchFromClause reMatch group validResTypes = .ok matcher) :
    (matcherStr matcher).toList <+: group ∧
      createMatchFromClause reMatch (matcherStr matcher).toList validResTypes = .ok matcher := by
  have created := isMatcher
  rw [createMatchFromClause] at isMatcher
  split at isMatcher
  next negate resType value isRequest =>
    obtain ⟨wellSplit, rfl⟩ := (match_resourcePattern line (by simp)).mp isRequest
    have isPrinted : (matcherStr matcher).toList =
        clauseText "section requests ".toList (negate, resType, shown value) := by
      split at isMatcher
      next => cases isMatcher
      next => exact Except.ok.inj isMatcher ▸ toList_requestStr
    rw [isPrinted]
    have isPart := clauseText_shown_isPrefix "section requests ".toList negate resType value
    refine ⟨isPart, ?_⟩
    rw [createMatchFromClause_request (fun isEnd => line (isPart.subset isEnd)) wellSplit.shown,
      ← isMatcher, valueRegex_shown]
  next =>
  split at isMatcher
  next negate resType value isClassroom =>
    obtain ⟨wellSplit, rfl⟩ := (match_resourcePattern line (by simp)).mp isClassroom
    have isPrinted : (matcherStr matcher).toList =
        clauseText "classroom has ".toList (negate, resType, shown value) := by
      exact Except.ok.inj isMatcher ▸ toList_classroomStr
    rw [isPrinted]
    have isPart := clauseText_shown_isPrefix "classroom has ".toList negate resType value
    refine ⟨isPart, ?_⟩
    rw [createMatchFromClause_classroom (fun isEnd => line (isPart.subset isEnd)) wellSplit.shown,
      ← isMatcher, valueRegex_shown]
  next =>
  split at isMatcher
  next negate nameRegex isName =>
    have isPrinted : (matcherStr matcher).toList = group := by
      cases isMatcher
      rw [eq_of_classroomNamePattern line isName]
      rcases negate with _ | _ <;> simp [matcherStr, regex]
    rw [isPrinted]
    exact ⟨List.prefix_rfl, created⟩
  next =>
  split at isMatcher
  next isTrivial =>
    cases isMatcher
    have isPrinted : (matcherStr (.inl .trivial)).toList = group := by
      rw [matcherStr, SectionMatcher.str, ← isTrivial, String.toList_ofList]
    rw [isPrinted]
    exact ⟨List.prefix_rfl, created⟩
  next => cases isMatcher

/-- What the splitting found stays the last `then` when the clauses lose some of their ends. -/
theorem SplitLast.of_isPrefix {premise conclusion first second : List Char}
    (split : SplitLast premise conclusion) (isSecond : second <+: conclusion) (some : first ≠ [])
    (some' : second ≠ []) : SplitLast first second where
  premise_ne_nil := some
  conclusion_ne_nil := some'
  longest longer rest same isRest := by
    by_contra isLonger
    obtain ⟨more, rfl⟩ : first <+: longer :=
      List.prefix_of_prefix_length_le ⟨_, same⟩ (List.prefix_append _ _) (not_le.mp isLonger).le
    obtain ⟨dropped, rfl⟩ := isSecond
    have after : " then ".toList ++ second = more ++ (" then ".toList ++ rest) := by
      simpa using same
    have := split.longest (premise ++ more) (rest ++ dropped)
      (by simpa using congrArg (premise ++ · ++ dropped) after) (by simp [isRest])
    simp at this isLonger
    exact isLonger this

theorem createMatchFromClause_nil :
    createMatchFromClause reMatch [] validResTypes =
      .error (.raised "ValueError" "Clause '' doesn't match a valid pattern.") := rfl

theorem match_specPattern_str {premise conclusion ending : List Char} {first second : Matcher}
    (isSplit : specPattern.match ending = some (premise, conclusion))
    (isFirst : createMatchFromClause reMatch premise validResTypes = .ok first)
    (isSecond : createMatchFromClause reMatch conclusion validResTypes = .ok second) :
    specPattern.match ("if " ++ matcherStr first ++ " then " ++ matcherStr second).toList =
      some ((matcherStr first).toList, (matcherStr second).toList) := by
  obtain ⟨split, line, line', -⟩ := match_specPattern.mp isSplit
  obtain ⟨isPart, isRead⟩ := createMatchFromClause_str line isFirst
  obtain ⟨isPart', isRead'⟩ := createMatchFromClause_str line' isSecond
  have nonempty {matcher : Matcher}
      (isRead : createMatchFromClause reMatch (matcherStr matcher).toList validResTypes =
        .ok matcher) :
      (matcherStr matcher).toList ≠ [] := by
    intro none
    rw [none, createMatchFromClause_nil] at isRead
    cases isRead
  exact match_specPattern.mpr ⟨split.of_isPrefix isPart' (nonempty isRead) (nonempty isRead'),
    fun isEnd => line (isPart.subset isEnd), fun isEnd => line' (isPart'.subset isEnd), [],
    .inl rfl, by simp⟩

/-- What is printed for a criterion after its name gives the criterion when it is read. -/
theorem createFromSpecification_str {spec name : String} {criterion : ResourceCriterion}
    (isCriterion : createFromSpecification reMatch spec name validResTypes = .ok criterion) :
    ∃ printed, criterion.str = criterion.name ++ ": " ++ printed ∧
      createFromSpecification reMatch printed criterion.name validResTypes = .ok criterion := by
  rw [createFromSpecification] at isCriterion
  split at isCriterion
  next => cases isCriterion
  next premise conclusion isSplit =>
    obtain ⟨first, isFirst, isCriterion⟩ := bind_eq_ok.mp isCriterion
    obtain ⟨second, isSecond, isCriterion⟩ := bind_eq_ok.mp isCriterion
    have isRead := (createMatchFromClause_str (match_specPattern.mp isSplit).2.1 isFirst).2
    have isRead' := (createMatchFromClause_str (match_specPattern.mp isSplit).2.2.1 isSecond).2
    refine ⟨"if " ++ matcherStr first ++ " then " ++ matcherStr second, ?_, ?_⟩
    · have joined (rest : String) : ": " ++ ("if " ++ rest) = ": if " ++ rest := by
        rw [← String.append_assoc]
        rfl
      rcases first with _ | _ <;> rcases second with _ | _ <;> cases isCriterion <;>
        simp [ResourceCriterion.str, matcherStr, String.append_assoc, joined]
    · rw [createFromSpecification, match_specPattern_str isSplit isFirst isSecond]
      dsimp only
      rw [isRead, isRead']
      rcases first with _ | _ <;> rcases second with _ | _ <;> cases isCriterion <;> rfl

end RoundTrip

namespace Sample

def spec : String :=
  "if section requests A then B with .* then not classroom has C with then"

/-- A type and a value may have the keywords in them. -/
theorem createFromSpecification_keywords :
    ∃ criterion printed,
      createFromSpecification (fun _ _ => true) spec "both" ["A then B"] = .ok criterion ∧
      criterion.str = criterion.name ++ ": " ++ printed ∧
      createFromSpecification (fun _ _ => true) printed criterion.name ["A then B"] =
        .ok criterion := by
  obtain ⟨printed, isPrinted, isRead⟩ :=
    @createFromSpecification_str (fun _ _ => true) ["A then B"] spec "both" _ rfl
  exact ⟨_, printed, rfl, isPrinted, isRead⟩

end Sample

end EspWebsite.Autoscheduler
