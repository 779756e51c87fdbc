import EspWebsite.Library.Binary64

/-!
# Averages of answers

The filter `average` of `survey/templatetags/survey.py` and `Question.global_average` of
`survey/models.py`, with exact numbers.
-/

namespace EspWebsite.Survey

open Binary64

/-- What is shown: `'N/A'`, or the text of a number. -/
inductive Shown where
  | notAvailable
  | number (value : ℚ)
  deriving DecidableEq

structure Question where
  id : ℕ
  isNumeric : Bool

/-- A row of `Answer`, with what `float` reads in the answer if it does not raise.  The target is
a section. -/
structure Answer where
  question : ℕ
  target : ℕ
  answer : Option ℚ

/-- `round(value, 2)`. -/
def round2 (value : ℚ) : ℚ := roundHalfEven (100 * value) / 100

/-- `sum // count`. -/
def floorDiv (sum : ℚ) (count : ℕ) : ℚ := ⌊sum / count⌋

def average (lst : List (Option ℚ)) : Shown :=
  if lst.length = 0 then .notAvailable
  else
    match lst.mapM id with
    | some values => .number (round2 (floorDiv values.sum lst.length))
    | none => .notAvailable

def prettyVal (value : ℚ) : Shown :=
  if value = 0 then .notAvailable else .number (round2 value)

namespace Question

variable (question : Question) (answers : List Answer)

/-- `Answer.objects.filter(question=self)`. -/
def objects : List Answer := answers.filter fun answer => answer.question = question.id

def globalAverage : Option Shown :=
  if question.isNumeric = false then none
  else
    let ans := question.objects answers
    match ans.mapM Answer.answer with
    | none => some .notAvailable
    | some values =>
        some (prettyVal (if ans.length = 0 then 0 else floorDiv values.sum ans.length))

/-- The answers to the question for a section. -/
def answersFor (target : ℕ) : List Answer :=
  (question.objects answers).filter fun answer => answer.target = target

/-- The sections for which the question was answered. -/
def targets : Finset ℕ := ((question.objects answers).map Answer.target).toFinset

end Question

/-! ## Means -/

/-- The numbers in some answers. -/
def values (answers : List Answer) : List ℚ := answers.filterMap Answer.answer

def mean (answers : List Answer) : ℚ := (values answers).sum / answers.length

/-- The averages shown are the means, rounded to two decimals, and so the one of all answers
is the mean of those of the sections with the numbers of answers as weights, up to rounding. -/
structure Question.ShowsMeans (question : Question) (answers : List Answer) : Prop where
  sections : ∀ target ∈ question.targets answers,
    average ((question.answersFor answers target).map Answer.answer) =
      .number (round2 (mean (question.answersFor answers target)))
  overall : question.globalAverage answers =
    some (.number (round2 (mean (question.objects answers))))
  weighted : ∀ averages : ℕ → ℚ, ∀ shown : ℚ,
    (∀ target ∈ question.targets answers,
      average ((question.answersFor answers target).map Answer.answer) =
        .number (averages target)) →
    question.globalAverage answers = some (.number shown) →
      |shown - (∑ target ∈ question.targets answers,
        (question.answersFor answers target).length * averages target) /
          (question.objects answers).length| ≤ 1 / 100

/-- A mean is a whole number, or above one by less than what is rounded away. -/
def IsNearlyWhole (value : ℚ) : Prop := Int.fract value ≤ 1 / 200

instance (value : ℚ) : Decidable (IsNearlyWhole value) :=
  inferInstanceAs (Decidable (Int.fract value ≤ 1 / 200))

section Rounding

variable {value : ℚ} {answers : List Answer}

theorem abs_round2_sub_le : |round2 value - value| ≤ 1 / 200 := by
  have close := abs_roundHalfEven_sub_le (100 * value)
  have scaled : round2 value - value = (roundHalfEven (100 * value) - 100 * value) / 100 := by
    rw [round2]
    ring
  rw [scaled, abs_div, abs_of_pos (by norm_num : (0 : ℚ) < 100)]
  linarith

theorem round2_floor_iff : round2 ⌊value⌋ = round2 value ↔ IsNearlyWhole value := by
  have whole : (100 * (⌊value⌋ : ℚ)) = ((100 * ⌊value⌋ : ℤ) : ℚ) := by push_cast; ring
  have above := Int.fract_nonneg value
  have fract : 100 * value - ((100 * ⌊value⌋ : ℤ) : ℚ) = 100 * Int.fract value := by
    rw [Int.fract]
    push_cast
    ring
  rw [round2, round2, whole, roundHalfEven_intCast, IsNearlyWhole,
    div_left_inj' (by norm_num : (100 : ℚ) ≠ 0), Int.cast_inj]
  constructor
  · intro same
    have close := (abs_le.mp (abs_roundHalfEven_sub_le (100 * value))).1
    rw [← same] at close
    linarith
  · intro near
    have below : ⌊100 * value⌋ = 100 * ⌊value⌋ := by
      rw [Int.floor_eq_iff]
      constructor <;> linarith
    rw [roundHalfEven, below, fract]
    split
    · rfl
    next notBelow =>
      have half : 2 * (100 * Int.fract value) = 1 := by linarith
      rw [if_pos ⟨half, by omega⟩]

def AreNumbers (answers : List Answer) : Prop :=
  ∀ answer ∈ answers, ∃ value, answer.answer = some value ∧ 1 ≤ value

theorem mapM_answer (numbers : AreNumbers answers) :
    answers.mapM Answer.answer = some (values answers) := by
  induction answers with
  | nil => rfl
  | cons answer rest ih =>
      rcases numbers answer List.mem_cons_self with ⟨value, isNumber, _⟩
      have restOf := ih fun other isRest => numbers other (List.mem_cons_of_mem _ isRest)
      have all : values (answer :: rest) = value :: values rest := by
        rw [values, List.filterMap_cons, isNumber, values]
      rw [List.mapM_cons, isNumber, restOf, all]
      rfl

theorem mapM_id (answers : List Answer) :
    (answers.map Answer.answer).mapM id = answers.mapM Answer.answer := by
  induction answers with
  | nil => rfl
  | cons answer rest ih => rw [List.map_cons, List.mapM_cons, List.mapM_cons, ih, id]

theorem length_le_sum (numbers : AreNumbers answers) :
    (answers.length : ℚ) ≤ (values answers).sum := by
  induction answers with
  | nil => simp [values]
  | cons answer rest ih =>
      rcases numbers answer List.mem_cons_self with ⟨value, isNumber, atLeast⟩
      have least := ih fun other isRest => numbers other (List.mem_cons_of_mem _ isRest)
      rw [values] at least ⊢
      rw [List.filterMap_cons, isNumber, List.sum_cons, List.length_cons, Nat.cast_succ]
      linarith

theorem average_eq (numbers : AreNumbers answers) (nonempty : answers ≠ []) :
    average (answers.map Answer.answer) = .number (round2 ⌊mean answers⌋) := by
  have length : (answers.map Answer.answer).length ≠ 0 := by
    rw [List.length_map]
    exact List.length_pos_iff.mpr nonempty |>.ne'
  rw [average, if_neg length, mapM_id, mapM_answer numbers, List.length_map]
  rfl

end Rounding

namespace Question

variable {question : Question} {answers : List Answer}

theorem globalAverage_eq (numeric : question.isNumeric = true)
    (numbers : AreNumbers (question.objects answers)) (nonempty : question.objects answers ≠ []) :
    question.globalAverage answers =
      some (.number (round2 ⌊mean (question.objects answers)⌋)) := by
  have length := List.length_pos_iff.mpr nonempty
  have positive : (1 : ℚ) ≤ mean (question.objects answers) := by
    rw [mean, one_le_div (by exact_mod_cast length)]
    exact length_le_sum numbers
  have notZero : (⌊mean (question.objects answers)⌋ : ℚ) ≠ 0 := by
    have one : 1 ≤ ⌊mean (question.objects answers)⌋ := Int.le_floor.mpr (by exact_mod_cast positive)
    exact Int.cast_ne_zero.mpr (by omega)
  rw [globalAverage, if_neg (by rw [numeric]; decide)]
  dsimp only
  rw [mapM_answer numbers]
  dsimp only
  rw [if_neg length.ne', floorDiv, ← mean, prettyVal, if_neg notZero]

theorem sum_answersFor (amount : Answer → ℚ) :
    ∑ target ∈ question.targets answers,
        ((question.answersFor answers target).map amount).sum =
      ((question.objects answers).map amount).sum := by
  have all : ∀ targets : Finset ℕ, ∀ listed : List Answer,
      (∀ answer ∈ listed, answer.target ∈ targets) →
      ∑ target ∈ targets, ((listed.filter fun answer => answer.target = target).map amount).sum =
        (listed.map amount).sum := by
    intro targets listed
    induction listed with
    | nil => simp
    | cons answer rest ih =>
        intro areTargets
        have split (target : ℕ) :
            (((answer :: rest).filter fun other => other.target = target).map amount).sum =
              (if answer.target = target then amount answer else 0) +
                ((rest.filter fun other => other.target = target).map amount).sum := by
          by_cases here : answer.target = target <;> simp [here]
        simp only [split]
        rw [Finset.sum_add_distrib, Finset.sum_ite_eq, if_pos (areTargets _ List.mem_cons_self),
          ih fun other isRest => areTargets other (List.mem_cons_of_mem _ isRest), List.map_cons,
          List.sum_cons]
  refine all _ _ fun answer isAnswer => ?_
  rw [targets, List.mem_toFinset]
  exact List.mem_map_of_mem isAnswer

theorem sum_values (answers : List Answer) :
    (values answers).sum = (answers.map fun answer => answer.answer.getD 0).sum := by
  induction answers with
  | nil => rfl
  | cons answer rest ih =>
      rw [List.map_cons, List.sum_cons, ← ih, values, List.filterMap_cons]
      cases answer.answer with
      | none => simp [values]
      | some value => simp [values]

theorem mean_eq_weighted :
    (∑ target ∈ question.targets answers, (question.answersFor answers target).length *
        mean (question.answersFor answers target)) / (question.objects answers).length =
      mean (question.objects answers) := by
  have each (listed : List Answer) : (listed.length : ℚ) * mean listed =
      (listed.map fun answer => answer.answer.getD 0).sum := by
    rcases eq_or_ne listed [] with rfl | nonempty
    · simp
    · have length : (listed.length : ℚ) ≠ 0 :=
        Nat.cast_ne_zero.mpr (List.length_pos_iff.mpr nonempty).ne'
      rw [mean, mul_div_cancel₀ _ length, sum_values]
  simp only [each]
  rw [sum_answersFor, ← sum_values, mean]

theorem weighted_of_rounded {averages : ℕ → ℚ} {shown : ℚ}
    (nonempty : question.objects answers ≠ [])
    (sections : ∀ target ∈ question.targets answers,
      averages target = round2 (mean (question.answersFor answers target)))
    (overall : shown = round2 (mean (question.objects answers))) :
    |shown - (∑ target ∈ question.targets answers,
      (question.answersFor answers target).length * averages target) /
        (question.objects answers).length| ≤ 1 / 100 := by
  have length : (0 : ℚ) < (question.objects answers).length :=
    Nat.cast_pos.mpr (List.length_pos_iff.mpr nonempty)
  have total : ∑ target ∈ question.targets answers,
      ((question.answersFor answers target).length : ℚ) = (question.objects answers).length := by
    have counted := @sum_answersFor question answers fun _ => 1
    simpa using counted
  have apart : |(∑ target ∈ question.targets answers,
        (question.answersFor answers target).length * averages target) /
          (question.objects answers).length - mean (question.objects answers)| ≤ 1 / 200 := by
    rw [← mean_eq_weighted, ← sub_div, ← Finset.sum_sub_distrib, abs_div, abs_of_pos length,
      div_le_iff₀ length, ← total, Finset.mul_sum]
    refine (Finset.abs_sum_le_sum_abs _ _).trans (Finset.sum_le_sum fun target isTarget => ?_)
    rw [← mul_sub, abs_mul, sections target isTarget, Nat.abs_cast, mul_comm]
    exact mul_le_mul_of_nonneg_right abs_round2_sub_le (Nat.cast_nonneg _)
  have rounded : |shown - mean (question.objects answers)| ≤ 1 / 200 := by
    rw [overall]
    exact abs_round2_sub_le
  have both := abs_sub_le shown (mean (question.objects answers))
    ((∑ target ∈ question.targets answers,
      (question.answersFor answers target).length * averages target) /
        (question.objects answers).length)
  rw [abs_sub_comm] at apart
  linarith

/-- The averages are the means exactly if these have next to no decimals. -/
theorem showsMeans_iff (numeric : question.isNumeric = true)
    (numbers : AreNumbers (question.objects answers)) (nonempty : question.objects answers ≠ []) :
    question.ShowsMeans answers ↔
      (∀ target ∈ question.targets answers,
        IsNearlyWhole (mean (question.answersFor answers target))) ∧
          IsNearlyWhole (mean (question.objects answers)) := by
  have numbersFor (target : ℕ) : AreNumbers (question.answersFor answers target) :=
    fun answer isAnswer => numbers answer (List.mem_of_mem_filter isAnswer)
  have section_iff {target : ℕ} (isTarget : target ∈ question.targets answers) :
      average ((question.answersFor answers target).map Answer.answer) =
          .number (round2 (mean (question.answersFor answers target))) ↔
        IsNearlyWhole (mean (question.answersFor answers target)) := by
    have some : question.answersFor answers target ≠ [] := by
      rw [targets, List.mem_toFinset, List.mem_map] at isTarget
      rcases isTarget with ⟨answer, isAnswer, same⟩
      exact List.ne_nil_of_mem (List.mem_filter.mpr ⟨isAnswer, decide_eq_true same⟩)
    rw [average_eq (numbersFor target) some, Shown.number.injEq, round2_floor_iff]
  have overall_iff : question.globalAverage answers =
      some (.number (round2 (mean (question.objects answers)))) ↔
        IsNearlyWhole (mean (question.objects answers)) := by
    rw [globalAverage_eq numeric numbers nonempty, Option.some.injEq, Shown.number.injEq,
      round2_floor_iff]
  constructor
  · intro shows
    exact ⟨fun target isTarget => (section_iff isTarget).mp (shows.sections target isTarget),
      overall_iff.mp shows.overall⟩
  · rintro ⟨sections, overall⟩
    have areMeans := fun target isTarget => (section_iff isTarget).mpr (sections target isTarget)
    refine ⟨areMeans, overall_iff.mpr overall, fun averages shown isShown isOverall => ?_⟩
    refine weighted_of_rounded nonempty (fun target isTarget => ?_) ?_
    · have same := (isShown target isTarget).symm.trans (areMeans target isTarget)
      exact Shown.number.inj same
    · have same := isOverall.symm.trans (overall_iff.mpr overall)
      exact Shown.number.inj (Option.some.inj same)

end Question

namespace Sample

def rating : Question := { id := 1, isNumeric := true }

/-- Answers in two sections. -/
def ratings (last : ℚ) : List Answer :=
  [{ question := 1, target := 1, answer := some 4 }, { question := 1, target := 2, answer := some 3 },
    { question := 1, target := 2, answer := some last }]

theorem areNumbers_ratings {last : ℚ} (atLeast : 1 ≤ last) :
    AreNumbers (rating.objects (ratings last)) := by
  intro answer isAnswer
  have listed := List.mem_of_mem_filter isAnswer
  rw [ratings] at listed
  fin_cases listed
  · exact ⟨4, rfl, by norm_num⟩
  · exact ⟨3, rfl, by norm_num⟩
  · exact ⟨last, rfl, atLeast⟩

theorem showsMeans_ratings : rating.ShowsMeans (ratings 5) :=
  (Question.showsMeans_iff rfl (areNumbers_ratings (by norm_num))
    (by simp [ratings, Question.objects, rating])).mpr (by decide +kernel)

theorem not_showsMeans_ratings : ¬ rating.ShowsMeans (ratings 4) := by
  intro shows
  have second := shows.sections 2 (by decide)
  revert second
  decide +kernel

end Sample

end EspWebsite.Survey
