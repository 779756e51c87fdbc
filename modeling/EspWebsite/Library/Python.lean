import Mathlib

/-!
# Exceptions and sequences of the host language

The modelled programs are written in Python.  A call that may raise is a
computation in `Except PyError`; this module has the exceptions the models use
and the inversion rules that take such computations apart.
-/

namespace Python

universe u

/-- The built-in exceptions a modelled call can raise.  An assertion carries
its message, the empty string when it has none. -/
inductive PyError where
  | assertion (message : String)
  | attributeError
  | indexError
  | keyError
  | typeError
  | valueError
  | zeroDivision
  /-- An exception class of the program itself, with its message. -/
  | raised (className message : String)
  deriving DecidableEq, Repr

/-- A computation that returns a value or raises. -/
abbrev Raises := Except PyError

instance lawfulBEq_listChar : LawfulBEq (List Char) := inferInstance

/-- `assert condition, message`. -/
def assert (condition : Prop) [Decidable condition] (message : String) : Raises Unit :=
  if condition then .ok () else .error (.assertion message)

/-- True division; the divisor zero raises. -/
def div (numerator denominator : ℚ) : Raises ℚ :=
  if denominator = 0 then .error .zeroDivision else .ok (numerator / denominator)

/-- `values[0]`. -/
def first {α : Type u} : List α → Raises α
  | [] => .error .indexError
  | value :: _ => .ok value

/-- `values[index]`. -/
def getItem {α : Type u} (values : List α) (index : ℕ) : Raises α :=
  match values[index]? with
  | none => .error .indexError
  | some value => .ok value

/-- `text.startswith(start)`. -/
def startswith (text start : String) : Bool := start.toList.isPrefixOf text.toList

/-- `left, right = values`. -/
def unpackPair {α : Type u} : List α → Raises (α × α)
  | [left, right] => .ok (left, right)
  | _ => .error .valueError

/-- `values[-1]`. -/
def last {α : Type u} (values : List α) : Raises α :=
  match values.getLast? with
  | none => .error .indexError
  | some value => .ok value

/-- `max(values)`. -/
def maximum (values : List Int) : Raises Int :=
  match values.max? with
  | none => .error .valueError
  | some value => .ok value

/-- The value a computation returns, or another one if it raises. -/
def resultOr {α : Type u} (default : α) : Raises α → α
  | .ok value => value
  | .error _ => default

/-- A `for` loop whose body only raises or does nothing. -/
def forEach {α : Type u} : List α → (α → Raises Unit) → Raises Unit
  | [], _ => .ok ()
  | value :: rest, body =>
      match body value with
      | .error raised => .error raised
      | .ok () => forEach rest body

/-- A tuple or a list: two sequence types that unpack alike but are never equal
to each other. -/
inductive PySeq (α : Type) where
  | tuple (items : List α)
  | list (items : List α)
  deriving DecidableEq, Repr

namespace PySeq

variable {α β : Type}

def items : PySeq α → List α
  | tuple items => items
  | list items => items

end PySeq

variable {α β : Type u}

theorem exists_of_isOk {computation : Raises α} (isOk : computation.isOk = true) :
    ∃ value, computation = .ok value := by
  cases computation with
  | error raised => cases isOk
  | ok value => exact ⟨value, rfl⟩

theorem bind_eq_ok {first : Raises α} {rest : α → Raises β} {value : β} :
    (first >>= rest) = .ok value ↔
      ∃ intermediate, first = .ok intermediate ∧ rest intermediate = .ok value := by
  cases first with
  | error raised => simp [bind, Except.bind]
  | ok intermediate => simp [bind, Except.bind]

theorem andThen_eq_ok {γ : Type} {statement : Raises Unit} {rest : Unit → Raises γ}
    {value : γ} :
    (statement >>= rest) = .ok value ↔ statement = .ok () ∧ rest () = .ok value := by
  cases statement with
  | error raised => simp [bind, Except.bind]
  | ok result => simp [bind, Except.bind]

theorem map_eq_ok {computation : Raises α} {f : α → β} {value : β} :
    computation.map f = .ok value ↔ ∃ result, computation = .ok result ∧ f result = value := by
  cases computation with
  | error raised => simp [Except.map]
  | ok result => simp [Except.map]

theorem bind_eq_error {first : Raises α} {rest : α → Raises β} {raised : PyError} :
    (first >>= rest) = .error raised ↔
      first = .error raised ∨
        ∃ intermediate, first = .ok intermediate ∧ rest intermediate = .error raised := by
  cases first with
  | error other => simp [bind, Except.bind]
  | ok intermediate => simp [bind, Except.bind]

@[simp] theorem ok_bind (value : α) (rest : α → Raises β) :
    ((Except.ok value : Raises α) >>= rest) = rest value := rfl

@[simp] theorem error_bind (raised : PyError) (rest : α → Raises β) :
    ((Except.error raised : Raises α) >>= rest) = .error raised := rfl

@[simp] theorem pure_eq_ok (value : α) : (pure value : Raises α) = .ok value := rfl

@[simp] theorem assert_eq_ok {condition : Prop} [Decidable condition] {message : String}
    {result : Unit} : assert condition message = .ok result ↔ condition := by
  rw [assert]
  split <;> simp_all

section Avoids

variable {errors : Set PyError}

/-- The computation raises none of the given exceptions. -/
def Avoids (errors : Set PyError) (computation : Raises α) : Prop :=
  ∀ raised, computation = .error raised → raised ∉ errors

@[simp] theorem avoids_ok (value : α) : Avoids errors (.ok value : Raises α) := by
  intro raised impossible
  cases impossible

@[simp] theorem avoids_error_iff (raised : PyError) :
    Avoids errors (.error raised : Raises α) ↔ raised ∉ errors := by
  constructor
  · intro avoids
    exact avoids raised rfl
  · intro allowed other same
    cases same
    exact allowed

theorem avoids_bind {first : Raises α} {rest : α → Raises β} (avoids : Avoids errors first)
    (restAvoids : ∀ value, first = .ok value → Avoids errors (rest value)) :
    Avoids errors (first >>= rest) := by
  intro raised raises
  rcases bind_eq_error.mp raises with early | ⟨value, returned, late⟩
  · exact avoids raised early
  · exact restAvoids value returned raised late

end Avoids

@[simp] theorem first_eq_ok {values : List α} {value : α} :
    first values = .ok value ↔ ∃ rest, values = value :: rest := by
  cases values with
  | nil => simp [first]
  | cons head rest => simp [first]

theorem unpackPair_eq_ok {values : List α} {left right : α} :
    unpackPair values = .ok (left, right) ↔ values = [left, right] := by
  rw [unpackPair.eq_def]
  split
  next => simp
  next different =>
    constructor
    · intro raises
      cases raises
    · rintro rfl
      exact absurd rfl (different left right)

theorem assert_of_holds {condition : Prop} [Decidable condition] (holds : condition)
    (message : String) : assert condition message = .ok () :=
  if_pos holds

@[simp] theorem forEach_eq_ok {values : List α} {body : α → Raises Unit} {result : Unit} :
    forEach values body = .ok result ↔ ∀ value ∈ values, body value = .ok () := by
  induction values with
  | nil => simp [forEach]
  | cons value rest ih =>
      cases outcome : body value with
      | error raised => simp [forEach, outcome]
      | ok result => simp [forEach, outcome, ih]

theorem mapM_eq_ok {γ : Type} {δ : Type} {values : List γ} {results : List δ}
    {f : γ → Raises δ} :
    values.mapM f = .ok results ↔
      List.Forall₂ (fun value result => f value = .ok result) values results := by
  induction values generalizing results with
  | nil =>
      rw [List.mapM_nil, List.forall₂_nil_left_iff, pure_eq_ok]
      exact ⟨fun same => (Except.ok.inj same).symm, fun same => congrArg _ same.symm⟩
  | cons value rest ih =>
      rw [List.mapM_cons, bind_eq_ok, List.forall₂_cons_left_iff]
      constructor
      · intro returns
        rcases returns with ⟨result, isResult, others⟩
        rcases bind_eq_ok.mp others with ⟨remaining, isRemaining, whole⟩
        exact ⟨result, remaining, isResult, ih.mp isRemaining, (Except.ok.inj whole).symm⟩
      · intro both
        rcases both with ⟨result, remaining, isResult, others, rfl⟩
        exact ⟨result, isResult, bind_eq_ok.mpr ⟨remaining, ih.mpr others, rfl⟩⟩

theorem exists_mapM {γ : Type} {δ : Type} {values : List γ} {f : γ → Raises δ}
    (each : ∀ value ∈ values, ∃ result, f value = .ok result) :
    ∃ results, values.mapM f = .ok results := by
  induction values with
  | nil => exact ⟨[], rfl⟩
  | cons value rest ih =>
      rw [List.forall_mem_cons] at each
      rcases each.1 with ⟨result, isResult⟩
      rcases ih each.2 with ⟨results, isResults⟩
      rw [List.mapM_cons, isResult, isResults]
      exact ⟨_, rfl⟩

theorem exists_mapM_iff {γ : Type} {δ : Type} {values : List γ} {f : γ → Raises δ} :
    (∃ results, values.mapM f = .ok results) ↔
      ∀ value ∈ values, ∃ result, f value = .ok result := by
  refine ⟨?_, exists_mapM⟩
  rintro ⟨results, returns⟩
  have each := mapM_eq_ok.mp returns
  clear returns
  induction each with
  | nil => simp
  | cons isResult _ ih => simpa [isResult] using ih

theorem exists_of_forall₂ {γ : Type} {δ : Type} {relation : γ → δ → Prop} {values : List γ}
    {results : List δ} (all : List.Forall₂ relation values results) {result : δ}
    (isResult : result ∈ results) : ∃ value ∈ values, relation value result := by
  induction all with
  | nil => cases isResult
  | cons related _ ih =>
      rcases List.mem_cons.mp isResult with rfl | isRest
      · exact ⟨_, List.mem_cons_self, related⟩
      · rcases ih isRest with ⟨value, isValue, found⟩
        exact ⟨value, List.mem_cons_of_mem _ isValue, found⟩

section Forall₂

variable {γ δ : Type} {relation : γ → δ → Prop} {values : List γ} {results : List δ}
  {ofValue : γ → Prop} {ofResult : δ → Prop}

/-- What holds of a result exactly when it holds of its value holds of all or of none. -/
theorem forall_mem_congr (all : List.Forall₂ relation values results)
    (same : ∀ value result, relation value result → (ofResult result ↔ ofValue value)) :
    (∀ result ∈ results, ofResult result) ↔ ∀ value ∈ values, ofValue value := by
  induction all with
  | nil => simp
  | cons related _ ih => simp [same _ _ related, ih]

theorem exists_mem_congr (all : List.Forall₂ relation values results)
    (same : ∀ value result, relation value result → (ofResult result ↔ ofValue value)) :
    (∃ result ∈ results, ofResult result) ↔ ∃ value ∈ values, ofValue value := by
  induction all with
  | nil => simp
  | cons related _ ih => simp [same _ _ related, ih]

end Forall₂

end Python
