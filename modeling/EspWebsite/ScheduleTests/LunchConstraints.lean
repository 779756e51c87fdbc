import EspWebsite.ScheduleTests.BooleanTokens

/-!
# Lunch constraints

`lunch_constraints.py`: a schedule constraint for each day, written as Boolean
expressions that test a student's schedule.
-/

namespace EspWebsite.ScheduleTests

/-- A section in a schedule map. -/
structure ClassSection where
  id : Nat
  category : Nat
  deriving DecidableEq, Repr

/-- `ScheduleMap.map`: the sections at each event of a program. -/
abbrev ScheduleMap := Nat → Option (List ClassSection)

/-- The subclasses of `BooleanToken` that the generator uses, with the events they test. -/
inductive ScheduleTest where
  | occupied (timeblock : Nat)
  | category (timeblock category : Nat)
  deriving DecidableEq, Repr

/-- A token; one without a test is a plain `BooleanToken`. -/
structure BooleanToken where
  text : String
  test : Option ScheduleTest
  deriving DecidableEq, Repr

namespace ScheduleTest

/-- The token of a test has no text. -/
def token (test : ScheduleTest) : BooleanToken := ⟨"", some test⟩

/-- `ScheduleTestOccupied.boolean_value` and `ScheduleTestCategory.boolean_value`. -/
def booleanValue (map : ScheduleMap) : ScheduleTest → Bool
  | occupied timeblock =>
      match map timeblock with
      | some sections => decide (sections.length > 0)
      | none => false
  | category timeblock wanted =>
      match map timeblock with
      | some sections => sections.any fun sec => sec.category == wanted
      | none => false

end ScheduleTest

namespace BooleanToken

/-- A token with a text only. -/
def plain (text : String) : BooleanToken := ⟨text, none⟩

/-- `boolean_value` of a token of any class. -/
def booleanValue (map : ScheduleMap) (token : BooleanToken) : Bool :=
  match token.test with
  | some test => test.booleanValue map
  | none =>
      token.text == "1" || token.text.toLower == "t" || token.text.toLower == "true"

end BooleanToken

/-! ## Expressions -/

structure StoredToken where
  seq : Int
  token : BooleanToken
  deriving DecidableEq, Repr

/-- A Boolean expression: the set of its tokens. -/
structure BooleanExpression where
  tokenSet : List StoredToken
  deriving DecidableEq, Repr

namespace BooleanExpression

/-- An expression without tokens. -/
def empty : BooleanExpression := ⟨[]⟩

variable (expression : BooleanExpression)

/-- `get_stack`: the rows in the order of `seq`. -/
def getStack : List StoredToken :=
  expression.tokenSet.insertionSort fun left right => left.seq ≤ right.seq

/-- `add_token`, which copies a token behind the last one. -/
def addToken (token : BooleanToken) : BooleanExpression :=
  let seq :=
    match expression.getStack.getLast? with
    | some last => last.seq + 10
    | none => 0
  ⟨expression.tokenSet ++ [⟨seq, token⟩]⟩

def tokens : List BooleanToken :=
  expression.getStack.map StoredToken.token

def evaluate (map : ScheduleMap) : Option Bool :=
  (ScheduleTests.evaluate BooleanToken.text (BooleanToken.booleanValue map)
    expression.tokens).1

/-- The rows are in the order of `seq`. -/
def Ordered : Prop :=
  expression.tokenSet.Pairwise fun left right => left.seq ≤ right.seq

variable {expression}

theorem Ordered.getStack_eq (ordered : expression.Ordered) :
    expression.getStack = expression.tokenSet :=
  List.Pairwise.insertionSort_eq ordered

theorem ordered_empty : empty.Ordered := List.Pairwise.nil

theorem tokens_empty : empty.tokens = [] := rfl

theorem Ordered.addToken (ordered : expression.Ordered) (token : BooleanToken) :
    (expression.addToken token).Ordered := by
  rw [Ordered, BooleanExpression.addToken, ordered.getStack_eq]
  refine List.pairwise_append.mpr ⟨ordered, List.pairwise_singleton _ _, ?_⟩
  intro row listed added isAdded
  rw [List.mem_singleton.mp isAdded]
  cases last : expression.tokenSet.getLast? with
  | none => simp [List.getLast?_eq_none_iff.mp last] at listed
  | some lastRow =>
      rcases List.getLast?_eq_some_iff.mp last with ⟨earlier, whole⟩
      have isLast : row.seq ≤ lastRow.seq := by
        rw [whole] at listed
        rcases List.mem_append.mp listed with early | late
        · rw [Ordered, whole] at ordered
          exact (List.pairwise_append.mp ordered).2.2 row early lastRow (by simp)
        · rw [List.mem_singleton.mp late]
      dsimp only
      omega

theorem Ordered.tokens_addToken (ordered : expression.Ordered) (token : BooleanToken) :
    (expression.addToken token).tokens = expression.tokens ++ [token] := by
  rw [tokens, (ordered.addToken token).getStack_eq, tokens, ordered.getStack_eq]
  simp [BooleanExpression.addToken]

end BooleanExpression

def applyBinaryOpToList (operatorText identityValue : String)
    (expression : BooleanExpression) : List BooleanToken → BooleanExpression
  | [] => expression
  | [token] =>
      ((expression.addToken token).addToken (.plain identityValue)).addToken
        (.plain operatorText)
  | [first, second] =>
      ((expression.addToken second).addToken first).addToken (.plain operatorText)
  | first :: second :: third :: rest =>
      let tokens := first :: second :: third :: rest
      let midpoint := tokens.length / 2
      let expression :=
        applyBinaryOpToList operatorText identityValue expression (tokens.take midpoint)
      let expression :=
        applyBinaryOpToList operatorText identityValue expression (tokens.drop midpoint)
      expression.addToken (.plain operatorText)
termination_by tokens => tokens.length
decreasing_by
  · simp only [List.length_take, List.length_cons]
    omega
  · simp only [List.length_drop, List.length_cons]
    omega

theorem applyBinaryOpToList_or {operatorText identityValue : String}
    (spelled : operatorOf operatorText = some .or)
    (plain : operatorOf identityValue = none)
    (identity : ∀ map, (BooleanToken.plain identityValue).booleanValue map = false)
    {expression : BooleanExpression} (ordered : expression.Ordered)
    {tokens : List BooleanToken} (tests : ∀ token ∈ tokens, operatorOf token.text = none)
    (nonempty : tokens ≠ []) :
    (applyBinaryOpToList operatorText identityValue expression tokens).Ordered ∧
      ∃ formula : Formula BooleanToken.text,
        (applyBinaryOpToList operatorText identityValue expression tokens).tokens =
            expression.tokens ++ formula.tokens ∧
          ∀ map, formula.value (BooleanToken.booleanValue map) =
            tokens.any (BooleanToken.booleanValue map) := by
  induction expression, tokens using applyBinaryOpToList.induct operatorText identityValue with
  | case1 expression => exact absurd rfl nonempty
  | case2 expression token =>
      have one := ordered.addToken token
      have two := one.addToken (.plain identityValue)
      rw [applyBinaryOpToList]
      refine ⟨two.addToken _, .or (.plain operatorText) spelled
        (.test token (tests token (by simp))) (.test (.plain identityValue) plain), ?_, ?_⟩
      · rw [two.tokens_addToken, one.tokens_addToken, ordered.tokens_addToken]
        simp [Formula.tokens]
      · intro map
        simp [Formula.value, identity]
  | case3 expression first second =>
      have one := ordered.addToken second
      have two := one.addToken first
      rw [applyBinaryOpToList]
      refine ⟨two.addToken _, .or (.plain operatorText) spelled
        (.test second (tests second (by simp))) (.test first (tests first (by simp))), ?_, ?_⟩
      · rw [two.tokens_addToken, one.tokens_addToken, ordered.tokens_addToken]
        simp [Formula.tokens]
      · intro map
        simp [Formula.value, Bool.or_comm]
  | case4 expression first second third rest tokens midpoint half firstIh _ secondIh =>
      have whole : tokens.take midpoint ++ tokens.drop midpoint = tokens :=
        List.take_append_drop midpoint tokens
      have firstTests : ∀ token ∈ tokens.take midpoint, operatorOf token.text = none :=
        fun token listed => tests token (List.mem_of_mem_take listed)
      have secondTests : ∀ token ∈ tokens.drop midpoint, operatorOf token.text = none :=
        fun token listed => tests token (List.mem_of_mem_drop listed)
      have firstNonempty : tokens.take midpoint ≠ [] := by
        simp [tokens, midpoint]
      have secondNonempty : tokens.drop midpoint ≠ [] := by
        simp [tokens, midpoint]
        omega
      rcases firstIh ordered firstTests firstNonempty with ⟨one, left, leftTokens, leftValue⟩
      rcases secondIh one secondTests secondNonempty with
        ⟨two, right, rightTokens, rightValue⟩
      rw [applyBinaryOpToList]
      refine ⟨two.addToken _, .or (.plain operatorText) spelled left right, ?_, ?_⟩
      · rw [two.tokens_addToken, rightTokens, leftTokens]
        simp [Formula.tokens]
      · intro map
        simp only [Formula.value, leftValue, rightValue]
        rw [← List.any_append, whole]

/-! ## The generator -/

/-- A timeslot of the program, with the day on which it starts. -/
structure Timeslot where
  id : Nat
  day : Nat × Nat × Nat
  deriving DecidableEq, Repr

/-- The timeslots of a day before, during and after lunch. -/
structure DayTimeslots where
  before : List Timeslot
  lunch : List Timeslot
  after : List Timeslot
  deriving DecidableEq, Repr

/-- A schedule constraint.  The code in `on_failure` is not run any more; kept here are
the lunch periods that it names. -/
structure ScheduleConstraint where
  condition : BooleanExpression
  requirement : BooleanExpression
  onFailure : Option (List Nat)

namespace ScheduleConstraint

/-- `handle_failure`, which has no new schedule map. -/
def handleFailure (_constraint : ScheduleConstraint) : Option ScheduleMap := none

/-- `evaluate` with `recursive=False`. -/
def evaluateOnce (constraint : ScheduleConstraint) (map : ScheduleMap) : Bool :=
  if constraint.condition.evaluate map = some true then
    constraint.requirement.evaluate map == some true
  else true

/-- `evaluate`, which tries once more after handling a failure. -/
def evaluate (constraint : ScheduleConstraint) (map : ScheduleMap) : Bool :=
  if constraint.condition.evaluate map = some true then
    if constraint.requirement.evaluate map = some true then true
    else constraint.evaluateOnce (constraint.handleFailure.getD map)
  else true

theorem evaluate_iff {constraint : ScheduleConstraint} {map : ScheduleMap} :
    constraint.evaluate map = true ↔
      (constraint.condition.evaluate map = some true →
        constraint.requirement.evaluate map = some true) := by
  rw [evaluate, evaluateOnce, handleFailure, Option.getD_none]
  split
  next holds =>
    split
    next met => simp [met]
    next missed => simp [holds, missed]
  next fails => simp [fails]

end ScheduleConstraint

/-- `LunchConstraintGenerator`, as far as it generates constraints. -/
structure LunchConstraintGenerator where
  lunchTimeslots : List Timeslot
  lunchCategory : Nat
  includeConditions : Bool
  autocorrect : Bool

namespace LunchConstraintGenerator

variable (generator : LunchConstraintGenerator)

variable {generator}

variable (generator)

def generateConstraint (day : DayTimeslots) : ScheduleConstraint :=
  let lunchTests := day.lunch.map fun timeslot =>
    (ScheduleTest.category timeslot.id generator.lunchCategory).token
  let expRequirement := applyBinaryOpToList "OR" "0" .empty lunchTests
  let expCheck :=
    if generator.includeConditions then
      let morningTests := day.before.map fun timeslot =>
        (ScheduleTest.occupied timeslot.id).token
      let expCheck := applyBinaryOpToList "OR" "0" .empty morningTests
      let afternoonTests := day.after.map fun timeslot =>
        (ScheduleTest.occupied timeslot.id).token
      let expCheck := applyBinaryOpToList "OR" "0" expCheck afternoonTests
      expCheck.addToken (.plain "AND")
    else BooleanExpression.empty.addToken (.plain "1")
  { condition := expCheck
    requirement := expRequirement
    onFailure :=
      if generator.autocorrect then some (day.lunch.map Timeslot.id) else none }

end LunchConstraintGenerator

/-- The schedule map has a section at an event. -/
def Occupied (map : ScheduleMap) (timeslot : Timeslot) : Prop :=
  ∃ sections, map timeslot.id = some sections ∧ sections ≠ []

/-- The schedule map has a section of a category at an event. -/
def HoldsCategory (map : ScheduleMap) (category : Nat) (timeslot : Timeslot) : Prop :=
  ∃ sections, map timeslot.id = some sections ∧
    ∃ sec ∈ sections, sec.category = category

section Evaluation

variable {map : ScheduleMap} {timeslots : List Timeslot}

theorem booleanValue_occupied {timeslot : Timeslot} :
    (ScheduleTest.occupied timeslot.id).booleanValue map = true ↔ Occupied map timeslot := by
  rw [ScheduleTest.booleanValue, Occupied]
  cases map timeslot.id with
  | none => simp
  | some sections => simp [List.length_pos_iff]

theorem booleanValue_category {category : Nat} {timeslot : Timeslot} :
    (ScheduleTest.category timeslot.id category).booleanValue map = true ↔
      HoldsCategory map category timeslot := by
  rw [ScheduleTest.booleanValue, HoldsCategory]
  cases map timeslot.id with
  | none => simp
  | some sections => simp

/-- What the tests of a list of timeslots leave on the stack of an expression: nothing, or
an expression that holds if one of the tests does. -/
theorem tests_tokens {expression : BooleanExpression} (ordered : expression.Ordered)
    (test : Timeslot → ScheduleTest) :
    let joined := applyBinaryOpToList "OR" "0" expression
      (timeslots.map fun timeslot => (test timeslot).token)
    joined.Ordered ∧
      ((timeslots = [] ∧ joined = expression) ∨
        ∃ formula : Formula BooleanToken.text,
          joined.tokens = expression.tokens ++ formula.tokens ∧
            ∀ map, formula.value (BooleanToken.booleanValue map) =
              timeslots.any fun timeslot => (test timeslot).booleanValue map) := by
  cases timeslots with
  | nil =>
      rw [List.map_nil, applyBinaryOpToList]
      exact ⟨ordered, Or.inl ⟨rfl, rfl⟩⟩
  | cons timeslot rest =>
      have spelled : operatorOf "OR" = some .or := by decide +kernel
      have plain : operatorOf "0" = none := by decide +kernel
      have noText : operatorOf "" = none := by decide +kernel
      have identity : ∀ map, (BooleanToken.plain "0").booleanValue map = false := by
        intro map
        simp only [BooleanToken.booleanValue, BooleanToken.plain]
        decide +kernel
      have tests : ∀ token ∈ (timeslot :: rest).map fun timeslot => (test timeslot).token,
          operatorOf token.text = none := by
        simp [ScheduleTest.token, noText]
      rcases applyBinaryOpToList_or spelled plain identity ordered tests (by simp) with
        ⟨joinedOrdered, formula, tokens, value⟩
      refine ⟨joinedOrdered, Or.inr ⟨formula, tokens, ?_⟩⟩
      intro map
      rw [value, List.any_map]
      rfl

theorem evaluate_tests (test : Timeslot → ScheduleTest) :
    (applyBinaryOpToList "OR" "0" .empty
        (timeslots.map fun timeslot => (test timeslot).token)).evaluate map = some true ↔
      ∃ timeslot ∈ timeslots, (test timeslot).booleanValue map = true := by
  rcases @tests_tokens timeslots _ BooleanExpression.ordered_empty test with
    ⟨-, ⟨noTimeslots, unchanged⟩ | ⟨formula, tokens, value⟩⟩
  · rw [unchanged, noTimeslots, BooleanExpression.evaluate, BooleanExpression.tokens_empty,
      evaluate_nil]
    simp
  · have evaluated := @Formula.evaluate_append_tokens _ _ (BooleanToken.booleanValue map)
      formula []
    rw [BooleanExpression.evaluate, tokens, BooleanExpression.tokens_empty, evaluated, value]
    simp

theorem evaluate_condition {before after : List Timeslot} :
    ((applyBinaryOpToList "OR" "0"
          (applyBinaryOpToList "OR" "0" .empty
            (before.map fun timeslot => (ScheduleTest.occupied timeslot.id).token))
          (after.map fun timeslot => (ScheduleTest.occupied timeslot.id).token)).addToken
        (.plain "AND")).evaluate map = some true ↔
      (∃ timeslot ∈ before, Occupied map timeslot) ∧
        ∃ timeslot ∈ after, Occupied map timeslot := by
  have spelled : operatorOf (BooleanToken.plain "AND").text = some .and := by
    decide +kernel
  let test : Timeslot → ScheduleTest := fun timeslot => .occupied timeslot.id
  rcases @tests_tokens before _ BooleanExpression.ordered_empty test with
    ⟨morningOrdered, morning⟩
  rcases @tests_tokens after _ morningOrdered test with ⟨bothOrdered, afternoon⟩
  rw [BooleanExpression.evaluate, bothOrdered.tokens_addToken]
  rcases afternoon with ⟨noAfter, unchanged⟩ | ⟨right, rightTokens, rightValue⟩
  · rw [unchanged]
    rcases morning with ⟨noBefore, empty⟩ | ⟨left, leftTokens, leftValue⟩
    · rw [empty, BooleanExpression.tokens_empty, List.nil_append]
      simp [evaluate_and_alone spelled, noAfter]
    · rw [leftTokens, BooleanExpression.tokens_empty, List.nil_append]
      simp [evaluate_and_single left spelled, noAfter]
  · rw [rightTokens]
    rcases morning with ⟨noBefore, empty⟩ | ⟨left, leftTokens, leftValue⟩
    · rw [empty, BooleanExpression.tokens_empty, List.nil_append]
      simp [evaluate_and_single right spelled, noBefore]
    · have evaluated := @Formula.evaluate_append_tokens _ _ (BooleanToken.booleanValue map)
        (.and (.plain "AND") spelled left right) []
      rw [leftTokens, BooleanExpression.tokens_empty]
      simp only [Formula.tokens, List.nil_append] at evaluated ⊢
      rw [evaluated]
      simp only [Formula.value, leftValue, rightValue, Option.some.injEq, Bool.and_eq_true,
        List.any_eq_true, test, booleanValue_occupied]

theorem evaluate_always :
    (BooleanExpression.empty.addToken (.plain "1")).evaluate map = some true := by
  have plain : operatorOf (BooleanToken.plain "1").text = none := by decide +kernel
  have evaluated := @Formula.evaluate_append_tokens _ _ (BooleanToken.booleanValue map)
    (.test (.plain "1") plain) []
  rw [BooleanExpression.evaluate, BooleanExpression.ordered_empty.tokens_addToken,
    BooleanExpression.tokens_empty]
  simp only [Formula.tokens] at evaluated
  rw [evaluated]
  rfl

/-- The constraint of a day holds if a lunch timeslot has lunch or, where the generator
includes conditions, there are no classes before or no classes after lunch. -/
theorem generateConstraint_evaluate (generator : LunchConstraintGenerator)
    (day : DayTimeslots) (map : ScheduleMap) :
    (generator.generateConstraint day).evaluate map = true ↔
      (generator.includeConditions = true ∧
          ((∀ timeslot ∈ day.before, ¬ Occupied map timeslot) ∨
            ∀ timeslot ∈ day.after, ¬ Occupied map timeslot)) ∨
        ∃ timeslot ∈ day.lunch, HoldsCategory map generator.lunchCategory timeslot := by
  have requirement := @evaluate_tests map day.lunch fun timeslot =>
    .category timeslot.id generator.lunchCategory
  simp only [booleanValue_category] at requirement
  rw [ScheduleConstraint.evaluate_iff, LunchConstraintGenerator.generateConstraint]
  dsimp only
  rw [requirement]
  cases included : generator.includeConditions with
  | true =>
      rw [if_pos rfl, evaluate_condition]
      simp only [true_and]
      constructor
      · intro constraint
        by_cases classes : (∃ timeslot ∈ day.before, Occupied map timeslot) ∧
            ∃ timeslot ∈ day.after, Occupied map timeslot
        · exact Or.inr (constraint classes)
        · left
          rcases not_and_or.mp classes with noBefore | noAfter
          · exact Or.inl fun timeslot listed occupied => noBefore ⟨timeslot, listed, occupied⟩
          · exact Or.inr fun timeslot listed occupied => noAfter ⟨timeslot, listed, occupied⟩
      · rintro ((noBefore | noAfter) | lunch) ⟨⟨early, earlyListed, earlyOccupied⟩, late,
          lateListed, lateOccupied⟩
        · exact absurd earlyOccupied (noBefore early earlyListed)
        · exact absurd lateOccupied (noAfter late lateListed)
        · exact lunch
  | false =>
      simp [evaluate_always]

def noon : Timeslot := ⟨1, (2024, 3, 9)⟩

/-- Without conditions lunch is required of a student who has no classes at all. -/
theorem generateConstraint_unconditional :
    ¬ (((⟨[noon], 5, false, false⟩ : LunchConstraintGenerator).generateConstraint
          ⟨[], [noon], []⟩).evaluate (fun _ => some []) = true ↔
        (∀ timeslot ∈ ([] : List Timeslot), ¬ Occupied (fun _ => some []) timeslot) ∨
          (∀ timeslot ∈ ([] : List Timeslot), ¬ Occupied (fun _ => some []) timeslot) ∨
            ∃ timeslot ∈ [noon], HoldsCategory (fun _ => some []) 5 timeslot) := by
  have requirement := @evaluate_tests (fun _ => some []) [noon] fun timeslot =>
    .category timeslot.id 5
  have noLunch : ¬ ∃ timeslot ∈ [noon],
      (ScheduleTest.category timeslot.id 5).booleanValue (fun _ => some []) = true := by
    decide
  intro claimed
  have holds := claimed.mpr (Or.inl fun timeslot listed => by simp at listed)
  rw [ScheduleConstraint.evaluate_iff] at holds
  exact noLunch (requirement.mp (holds evaluate_always))

end Evaluation

end EspWebsite.ScheduleTests
