import Mathlib

/-!
# Boolean tokens

`BooleanToken.evaluate` of `program/models`: expressions are stored as lists of tokens,
operators after their operands, and evaluated from the end of the list.
-/

namespace EspWebsite.ScheduleTests

inductive Operator where
  | or
  | and
  | not
  deriving DecidableEq, Repr

/-- The operator that a text spells, if it does. -/
def operatorOf (text : String) : Option Operator :=
  if text = "||" ∨ text.toLower = "or" then some .or
  else if text = "&&" ∨ text.toLower = "and" then some .and
  else if text = "!" ∨ text = "~" ∨ text.toLower = "not" then some .not
  else none

/-- `left or right`, where a value may be `None`. -/
def orValue : Option Bool → Option Bool → Option Bool
  | some true, _ => some true
  | _, right => right

/-- `left and right`, where a value may be `None`. -/
def andValue : Option Bool → Option Bool → Option Bool
  | some true, right => right
  | left, _ => left

/-- `not value`, where the value may be `None`. -/
def notValue (value : Option Bool) : Bool :=
  value ≠ some true

section Evaluation

variable {Token : Type} (text : Token → String) (booleanValue : Token → Bool)

/-- One repetition of the loop of `BooleanToken.evaluate`: an operator evaluates the
stack for each of its operands. -/
def readToken (evaluateRest : List Token → Option Bool × List Token) (token : Token)
    (stack : List Token) : Option Bool × List Token :=
  match operatorOf (text token) with
  | some .or =>
      let (value1, stack) := evaluateRest stack
      let (value2, stack) := evaluateRest stack
      (orValue value1 value2, stack)
  | some .and =>
      let (value1, stack) := evaluateRest stack
      let (value2, stack) := evaluateRest stack
      (andValue value1 value2, stack)
  | some .not =>
      let (value1, stack) := evaluateRest stack
      (some (notValue value1), stack)
  | none => (some (booleanValue token), stack)

/-- The loop of `BooleanToken.evaluate`, with the top of the stack first.  Every call and
every repetition takes a token from the stack, so that the number of tokens bounds them. -/
def evaluateTop : Nat → List Token → Option Bool × List Token
  | 0, stack => (none, stack)
  | _ + 1, [] => (none, [])
  | fuel + 1, token :: stack =>
      match readToken text booleanValue (evaluateTop fuel) token stack with
      | (some value, stack) => (some value, stack)
      | (none, stack) => evaluateTop fuel stack

/-- `BooleanToken.evaluate`: the value, and the tokens that are left. -/
def evaluate (stack : List Token) : Option Bool × List Token :=
  let (value, rest) := evaluateTop text booleanValue stack.length stack.reverse
  (value, rest.reverse)

variable {text booleanValue}

/-- Boolean expressions over tokens: tests, which spell no operator, and operators. -/
inductive Formula (text : Token → String) where
  | test (token : Token) (plain : operatorOf (text token) = none)
  | or (token : Token) (spelled : operatorOf (text token) = some .or)
      (left right : Formula text)
  | and (token : Token) (spelled : operatorOf (text token) = some .and)
      (left right : Formula text)
  | not (token : Token) (spelled : operatorOf (text token) = some .not)
      (body : Formula text)

namespace Formula

def value (booleanValue : Token → Bool) : Formula text → Bool
  | test token _ => booleanValue token
  | or _ _ left right => left.value booleanValue || right.value booleanValue
  | and _ _ left right => left.value booleanValue && right.value booleanValue
  | not _ _ body => !body.value booleanValue

/-- The tokens of an expression, operators after their operands. -/
def tokens : Formula text → List Token
  | test token _ => [token]
  | or token _ left right | and token _ left right => left.tokens ++ right.tokens ++ [token]
  | not token _ body => body.tokens ++ [token]

theorem evaluateTop_tokens (formula : Formula text) {fuel : Nat}
    (enough : formula.tokens.length ≤ fuel) (stack : List Token) :
    evaluateTop text booleanValue fuel (formula.tokens.reverse ++ stack) =
      (some (formula.value booleanValue), stack) := by
  induction formula generalizing fuel stack with
  | test token plain =>
      cases fuel with
      | zero => simp [tokens] at enough
      | succ fuel => simp [tokens, evaluateTop, readToken, plain, value]
  | or token spelled left right leftIh rightIh | and token spelled left right leftIh rightIh =>
      cases fuel with
      | zero => simp [tokens] at enough
      | succ fuel =>
          simp only [tokens, List.length_append, List.length_singleton] at enough
          have first := @rightIh fuel (by omega) (left.tokens.reverse ++ stack)
          have second := @leftIh fuel (by omega) stack
          cases rightValue : right.value booleanValue <;>
            simp [tokens, evaluateTop, readToken, spelled, first, second, value, rightValue,
              orValue, andValue]
  | not token spelled body ih =>
      cases fuel with
      | zero => simp [tokens] at enough
      | succ fuel =>
          simp only [tokens, List.length_append, List.length_singleton] at enough
          have first := @ih fuel (by omega) stack
          cases bodyValue : body.value booleanValue <;>
            simp [tokens, evaluateTop, readToken, spelled, first, value, bodyValue, notValue]

/-- On a list that ends with the tokens of an expression, evaluation gives the value of the
expression and leaves the rest of the list. -/
theorem evaluate_append_tokens (formula : Formula text) (stack : List Token) :
    evaluate text booleanValue (stack ++ formula.tokens) =
      (some (formula.value booleanValue), stack) := by
  have top := @evaluateTop_tokens _ text booleanValue formula
    (stack ++ formula.tokens).length (by simp) stack.reverse
  rw [evaluate, List.reverse_append, top]
  simp

/-- Whatever the tests read from a schedule map, the tokens of an expression evaluate to its
value, and at the end of a list they are the ones that evaluation takes from it. -/
theorem evaluate_tokens {Map : Type} (booleanValue : Map → Token → Bool) (map : Map)
    (formula : Formula text) :
    evaluate text (booleanValue map) formula.tokens =
        (some (formula.value (booleanValue map)), []) ∧
      ∀ stack, evaluate text (booleanValue map) (stack ++ formula.tokens) =
        (some (formula.value (booleanValue map)), stack) := by
  refine ⟨?_, fun stack => formula.evaluate_append_tokens stack⟩
  have alone := @evaluate_append_tokens _ _ (booleanValue map) formula []
  rwa [List.nil_append] at alone

end Formula

theorem evaluate_nil : evaluate text booleanValue [] = (none, []) := rfl

/-- A conjunction without operands does not hold. -/
theorem evaluate_and_alone {token : Token} (spelled : operatorOf (text token) = some .and) :
    (evaluate text booleanValue [token]).1 ≠ some true := by
  simp [evaluate, evaluateTop, readToken, spelled, andValue]

/-- A conjunction with one operand only does not hold: the other operand is `None`. -/
theorem evaluate_and_single (formula : Formula text) {token : Token}
    (spelled : operatorOf (text token) = some .and) :
    (evaluate text booleanValue (formula.tokens ++ [token])).1 ≠ some true := by
  have operand := @Formula.evaluateTop_tokens _ text booleanValue formula
    formula.tokens.length (le_refl _) []
  rw [List.append_nil] at operand
  have nothing : ∀ fuel, evaluateTop text booleanValue fuel [] = (none, []) := by
    intro fuel
    cases fuel <;> rfl
  rw [evaluate, List.length_append, List.length_singleton, List.reverse_append,
    List.reverse_singleton, List.singleton_append, evaluateTop, readToken, spelled]
  cases holds : formula.value booleanValue <;>
    simp [operand, nothing, andValue, holds]

end Evaluation

end EspWebsite.ScheduleTests
