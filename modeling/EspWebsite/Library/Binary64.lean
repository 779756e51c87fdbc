import Mathlib

/-!
# Rounding

Rounding a rational number to an integer, and to the nearest binary64 number.  The range
of exponents is left out: no number overflows, and none is subnormal.
-/

namespace Binary64

/-- The nearest integer; of two that are equally near, the even one. -/
def roundHalfEven (value : ℚ) : ℤ :=
  let below := ⌊value⌋
  if 2 * (value - below) < 1 then below
  else if 2 * (value - below) = 1 ∧ below % 2 = 0 then below
  else below + 1

/-- The nearest integer; of two that are equally near, the one farther from zero. -/
def roundHalfUp (value : ℚ) : ℤ :=
  if 0 ≤ value then ⌊value + 1 / 2⌋ else -⌊-value + 1 / 2⌋

/-- The exponent of the last of the 53 bits of a number. -/
def lastPlace (value : ℚ) : ℤ := Int.log 2 |value| - 52

/-- The nearest binary64 number; of two that are equally near, the one that ends in a zero. -/
def nearest (value : ℚ) : ℚ :=
  roundHalfEven (value / 2 ^ lastPlace value) * 2 ^ lastPlace value

/-- A total to which numbers are added, rounded after each of them. -/
def sumFrom (total : ℚ) (values : List ℚ) : ℚ :=
  values.foldl (fun total value => nearest (total + value)) total

/-- How many numbers are added until the total reaches a target. -/
def countUntil (target : ℚ) : ℚ → List ℚ → ℕ
  | _, [] => 0
  | total, value :: rest =>
      if target ≤ nearest (total + value) then 1
      else countUntil target (nearest (total + value)) rest + 1

/-- The total reaches a target for the first time with the last of some numbers, and is the
target there. -/
structure FirstReaches (target total : ℚ) (values : List ℚ) (count : ℕ) : Prop where
  inRange : count ≤ values.length
  nonempty : 0 < count ∨ values = []
  before : ∀ earlier, 0 < earlier → earlier < count →
    sumFrom total (values.take earlier) < target
  reached : sumFrom total (values.take count) = target

section Integers

variable {value : ℚ} {number : ℤ}

theorem roundHalfUp_nonneg_iff : 0 ≤ roundHalfUp value ↔ -(1 / 2) < value := by
  rw [roundHalfUp]
  split
  · rename_i positive
    have rounded : 0 ≤ ⌊value + 1 / 2⌋ := Int.floor_nonneg.mpr (by linarith)
    simp only [rounded, true_iff]
    linarith
  · rw [Left.nonneg_neg_iff, ← not_lt, ← Int.add_one_le_iff, Int.le_floor]
    push_cast
    constructor
    · intro small
      linarith
    · intro small
      linarith

theorem roundHalfUp_eq_zero_iff : roundHalfUp value = 0 ↔ |value| < 1 / 2 := by
  have below : roundHalfUp value ≤ 0 ↔ value < 1 / 2 := by
    rw [roundHalfUp]
    split
    · rw [← Int.lt_add_one_iff, Int.floor_lt]
      push_cast
      constructor
      · intro small
        linarith
      · intro small
        linarith
    · rename_i negative
      have rounded : 0 ≤ ⌊-value + 1 / 2⌋ := Int.floor_nonneg.mpr (by linarith)
      rw [Left.neg_nonpos_iff]
      simp only [rounded, true_iff]
      linarith
  rw [le_antisymm_iff, below, roundHalfUp_nonneg_iff, abs_lt, and_comm]

theorem roundHalfUp_le (bound : value ≤ number) : roundHalfUp value ≤ number := by
  rw [roundHalfUp]
  split
  · rw [← Int.lt_add_one_iff, Int.floor_lt]
    push_cast
    linarith
  · rw [neg_le, Int.le_floor]
    push_cast
    linarith

theorem abs_roundHalfEven_sub_le (value : ℚ) : |(roundHalfEven value : ℚ) - value| ≤ 1 / 2 := by
  have above : (⌊value⌋ : ℚ) ≤ value := Int.floor_le value
  have below : value < ⌊value⌋ + 1 := Int.lt_floor_add_one value
  rw [roundHalfEven, abs_le]
  split
  · constructor <;> linarith
  · split
    next half => constructor <;> linarith [half.1]
    next => push_cast; constructor <;> linarith

theorem roundHalfEven_eq (close : |value - number| < 1 / 2) : roundHalfEven value = number := by
  have rounded := abs_roundHalfEven_sub_le value
  have apart : |((roundHalfEven value - number : ℤ) : ℚ)| < 1 := by
    calc |((roundHalfEven value - number : ℤ) : ℚ)|
        = |((roundHalfEven value : ℚ) - value) + (value - number)| := by push_cast; ring_nf
      _ ≤ |(roundHalfEven value : ℚ) - value| + |value - number| := abs_add_le _ _
      _ < 1 := by linarith
  have zero : |roundHalfEven value - number| < 1 := by exact_mod_cast apart
  exact sub_eq_zero.mp (Int.abs_lt_one_iff.mp zero)

@[simp] theorem roundHalfEven_intCast (number : ℤ) : roundHalfEven number = number :=
  roundHalfEven_eq (by norm_num)

theorem roundHalfEven_mono {other : ℚ} (before : value ≤ other) :
    roundHalfEven value ≤ roundHalfEven other := by
  by_contra! after
  have apart : (roundHalfEven other : ℚ) + 1 ≤ roundHalfEven value := by exact_mod_cast after
  have rounded := abs_le.mp (abs_roundHalfEven_sub_le value)
  have otherRounded := abs_le.mp (abs_roundHalfEven_sub_le other)
  -- both numbers would have to lie in the middle between two integers
  have same : value = other := by linarith [rounded.2, otherRounded.1]
  rw [same] at after
  exact lt_irrefl _ after

end Integers

section Floats

variable {value : ℚ}

theorem two_zpow_lastPlace_le (nonzero : value ≠ 0) :
    (2 : ℚ) ^ lastPlace value ≤ |value| / 2 ^ 52 := by
  have leading : (2 : ℚ) ^ Int.log 2 |value| ≤ |value| := by
    exact_mod_cast Int.zpow_log_le_self (b := 2) (by norm_num) (abs_pos.mpr nonzero)
  rw [lastPlace, zpow_sub₀ (by norm_num)]
  exact div_le_div_of_nonneg_right leading (by positivity)

theorem nearest_zero : nearest 0 = 0 := by
  rw [nearest, zero_div, ← Int.cast_zero, roundHalfEven_intCast, Int.cast_zero, zero_mul]

theorem abs_nearest_sub_le (value : ℚ) : |nearest value - value| ≤ |value| / 2 ^ 53 := by
  rcases eq_or_ne value 0 with rfl | nonzero
  · rw [nearest_zero]
    norm_num
  · have place : (0 : ℚ) < 2 ^ lastPlace value := by positivity
    have whole : value = value / 2 ^ lastPlace value * 2 ^ lastPlace value :=
      (div_mul_cancel₀ value place.ne').symm
    calc |nearest value - value|
        = |(roundHalfEven (value / 2 ^ lastPlace value) : ℚ) - value / 2 ^ lastPlace value| *
            2 ^ lastPlace value := by
          rw [← abs_of_pos place, ← abs_mul, abs_of_pos place, sub_mul, ← whole, nearest]
      _ ≤ 1 / 2 * (|value| / 2 ^ 52) :=
          mul_le_mul (abs_roundHalfEven_sub_le _) (two_zpow_lastPlace_le nonzero) place.le
            (by norm_num)
      _ = |value| / 2 ^ 53 := by ring

theorem nearest_nonneg (nonneg : 0 ≤ value) : 0 ≤ nearest value := by
  have rounded : 0 ≤ roundHalfEven (value / 2 ^ lastPlace value) := by
    have quotient : ((0 : ℤ) : ℚ) ≤ value / 2 ^ lastPlace value := by positivity
    have mono := roundHalfEven_mono quotient
    rwa [roundHalfEven_intCast] at mono
  rw [nearest]
  exact mul_nonneg (by exact_mod_cast rounded) (by positivity)

/-- A positive number and the powers of two around it, in units of the last place. -/
theorem nearest_bounds (positive : 0 < value) :
    (2 : ℚ) ^ Int.log 2 value ≤ nearest value ∧ nearest value ≤ 2 ^ (Int.log 2 value + 1) := by
  have place : (0 : ℚ) < 2 ^ lastPlace value := by positivity
  have unit : lastPlace value = Int.log 2 value - 52 := by rw [lastPlace, abs_of_pos positive]
  have low : (2 : ℚ) ^ Int.log 2 value = ((2 ^ 52 : ℤ) : ℚ) * 2 ^ lastPlace value := by
    rw [unit, zpow_sub₀ two_ne_zero]
    push_cast
    field_simp
  have high : (2 : ℚ) ^ (Int.log 2 value + 1) = ((2 ^ 53 : ℤ) : ℚ) * 2 ^ lastPlace value := by
    rw [zpow_add_one₀ two_ne_zero, low]
    push_cast
    ring
  have above : (2 : ℚ) ^ Int.log 2 value ≤ value := by
    exact_mod_cast Int.zpow_log_le_self (b := 2) (by norm_num) positive
  have below : value < 2 ^ (Int.log 2 value + 1) := by
    exact_mod_cast Int.lt_zpow_succ_log_self (b := 2) (by norm_num) value
  rw [low] at above ⊢
  rw [high] at below ⊢
  rw [nearest]
  constructor
  · refine mul_le_mul_of_nonneg_right ?_ place.le
    have mono := roundHalfEven_mono ((le_div_iff₀ place).mpr above)
    rw [roundHalfEven_intCast] at mono
    exact_mod_cast mono
  · refine mul_le_mul_of_nonneg_right ?_ place.le
    have mono := roundHalfEven_mono ((div_le_iff₀ place).mpr below.le)
    rw [roundHalfEven_intCast] at mono
    exact_mod_cast mono

theorem nearest_mono {other : ℚ} (nonneg : 0 ≤ value) (before : value ≤ other) :
    nearest value ≤ nearest other := by
  rcases nonneg.eq_or_lt with rfl | positive
  · rw [nearest_zero]
    exact nearest_nonneg before
  · have otherPositive := positive.trans_le before
    rcases (Int.log_mono_right (b := 2) positive before).eq_or_lt with same | less
    · have unit : lastPlace value = lastPlace other := by
        rw [lastPlace, lastPlace, abs_of_pos positive, abs_of_pos otherPositive, same]
      rw [nearest, nearest, unit]
      refine mul_le_mul_of_nonneg_right ?_ (by positivity)
      have mono := roundHalfEven_mono (div_le_div_of_nonneg_right before
        (show (0 : ℚ) ≤ 2 ^ lastPlace other by positivity))
      exact_mod_cast mono
    · calc nearest value ≤ 2 ^ (Int.log 2 value + 1) := (nearest_bounds positive).2
        _ ≤ 2 ^ Int.log 2 other := zpow_le_zpow_right₀ (by norm_num) less
        _ ≤ nearest other := (nearest_bounds otherPositive).1

end Floats

section Sums

variable {target total value : ℚ} {values rest : List ℚ} {count : ℕ}

@[simp] theorem sumFrom_cons :
    sumFrom total (value :: rest) = sumFrom (nearest (total + value)) rest := rfl

theorem countUntil_le_length : countUntil target total values ≤ values.length := by
  induction values generalizing total with
  | nil => exact Nat.le_refl 0
  | cons value rest ih =>
      rw [countUntil]
      split
      next => exact Nat.succ_pos _
      next => exact Nat.succ_le_succ ih

theorem FirstReaches.count_eq (reaches : FirstReaches target total values count) :
    count = countUntil target total values := by
  induction values generalizing total count with
  | nil => exact Nat.le_zero.mp reaches.inRange
  | cons value rest ih =>
      rcases count with _ | count
      · cases reaches.nonempty.resolve_left (lt_irrefl 0)
      · rw [countUntil]
        split
        next large =>
          rcases Nat.eq_zero_or_pos count with rfl | more
          · rfl
          · exact absurd large (not_le.mpr (reaches.before 1 Nat.one_pos (Nat.succ_lt_succ more)))
        next small =>
          refine congrArg Nat.succ (ih ⟨Nat.le_of_succ_le_succ reaches.inRange, ?_, ?_,
            reaches.reached⟩)
          · refine Or.inl (Nat.pos_of_ne_zero ?_)
            rintro rfl
            exact small reaches.reached.ge
          · intro earlier _ less
            exact reaches.before (earlier + 1) (Nat.succ_pos _) (Nat.succ_lt_succ less)

theorem firstReaches_of_eq
    (stops : sumFrom total (values.take (countUntil target total values)) = target) :
    FirstReaches target total values (countUntil target total values) := by
  refine ⟨countUntil_le_length, ?_, ?_, stops⟩
  · cases values with
    | nil => exact Or.inr rfl
    | cons value rest =>
        left
        rw [countUntil]
        split <;> exact Nat.succ_pos _
  · clear stops
    induction values generalizing total with
    | nil =>
        intro earlier _ less
        cases less
    | cons value rest ih =>
        intro earlier positive less
        rcases earlier with _ | earlier
        · cases positive
        · rw [countUntil] at less
          split at less
          next => exact absurd (Nat.lt_of_succ_lt_succ less) (Nat.not_lt_zero _)
          next small =>
            rcases Nat.eq_zero_or_pos earlier with rfl | more
            · exact not_le.mp small
            · exact ih earlier more (Nat.lt_of_succ_lt_succ less)

end Sums

end Binary64
