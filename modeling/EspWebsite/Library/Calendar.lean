import Mathlib

/-!
# Naive date-times of the proleptic Gregorian calendar

A date-time without a time zone, with the fields of a calendar date and a time
of day.  Two of them are compared and subtracted through the number of
microseconds since the first instant of year 1.
-/

namespace Calendar

/-- Whether a year has a 29th of February. -/
def isLeap (year : Nat) : Bool :=
  year % 4 == 0 && (year % 100 != 0 || year % 400 == 0)

def daysBeforeYear (year : Nat) : Nat :=
  let past := year - 1
  past * 365 + past / 4 - past / 100 + past / 400

def daysInMonth (year month : Nat) : Nat :=
  if month = 2 then
    if isLeap year then 29 else 28
  else if month ∈ [4, 6, 9, 11] then 30 else 31

/-- Number of days in the months of the year before the given one. -/
def daysBeforeMonth (year month : Nat) : Nat :=
  ((List.range (month - 1)).map fun index => daysInMonth year (index + 1)).sum

def ValidFields (year month day hour minute second microsecond : Nat) : Prop :=
  (1 ≤ year ∧ year ≤ 9999) ∧ (1 ≤ month ∧ month ≤ 12) ∧
    (1 ≤ day ∧ day ≤ daysInMonth year month) ∧
    hour < 24 ∧ minute < 60 ∧ second < 60 ∧ microsecond < 1000000

instance (year month day hour minute second microsecond : Nat) :
    Decidable (ValidFields year month day hour minute second microsecond) := by
  unfold ValidFields
  infer_instance

/-- A naive date-time with fields in range. -/
structure DateTime where
  year : Nat
  month : Nat
  day : Nat
  hour : Nat
  minute : Nat
  second : Nat
  microsecond : Nat
  valid : ValidFields year month day hour minute second microsecond
  deriving DecidableEq

namespace DateTime

/-- Days from the start of year 1 to the start of the date. -/
def toOrdinal (time : DateTime) : Nat :=
  daysBeforeYear time.year + daysBeforeMonth time.year time.month + time.day

/-- Position of the date-time on the time line, in microseconds. -/
def toMicroseconds (time : DateTime) : Nat :=
  (((time.toOrdinal * 24 + time.hour) * 60 + time.minute) * 60 + time.second) * 1000000 +
    time.microsecond

instance : LT DateTime := ⟨fun left right => left.toMicroseconds < right.toMicroseconds⟩

instance : LE DateTime := ⟨fun left right => left.toMicroseconds ≤ right.toMicroseconds⟩

instance (left right : DateTime) : Decidable (left < right) :=
  inferInstanceAs (Decidable (left.toMicroseconds < right.toMicroseconds))

instance (left right : DateTime) : Decidable (left ≤ right) :=
  inferInstanceAs (Decidable (left.toMicroseconds ≤ right.toMicroseconds))

theorem lt_iff {left right : DateTime} :
    left < right ↔ left.toMicroseconds < right.toMicroseconds := Iff.rfl

theorem le_iff {left right : DateTime} :
    left ≤ right ↔ left.toMicroseconds ≤ right.toMicroseconds := Iff.rfl

theorem not_lt_iff_le {left right : DateTime} : ¬ left < right ↔ right ≤ left :=
  Nat.not_lt

instance : Preorder DateTime where
  le_refl time := le_refl time.toMicroseconds
  le_trans first second third := le_trans (b := second.toMicroseconds)
  lt_iff_le_not_ge left right := by
    rw [lt_iff, le_iff, le_iff]
    exact lt_iff_le_not_ge

/-- Length of the interval between two date-times, in microseconds; negative
when the second one is earlier. -/
def microsecondsBetween (left right : DateTime) : Int :=
  (right.toMicroseconds : Int) - left.toMicroseconds

def hoursBetween (left right : DateTime) : ℚ :=
  (microsecondsBetween left right : ℚ) / 3600000000

/-- The calendar day of a date-time. -/
def date (time : DateTime) : Nat × Nat × Nat :=
  (time.year, time.month, time.day)

def padded (width number : Nat) : String :=
  let digits := toString number
  String.ofList (List.replicate (width - digits.length) '0') ++ digits

/-- The text of a date-time: date and time of day, with the microseconds unless
they are zero. -/
def str (time : DateTime) : String :=
  padded 4 time.year ++ "-" ++ padded 2 time.month ++ "-" ++ padded 2 time.day ++ " " ++
    padded 2 time.hour ++ ":" ++ padded 2 time.minute ++ ":" ++ padded 2 time.second ++
    if time.microsecond = 0 then "" else "." ++ padded 6 time.microsecond

/-- The date-time with the given fields, if they are in range. -/
def ofFields? (year month day hour minute second microsecond : Nat) : Option DateTime :=
  if valid : ValidFields year month day hour minute second microsecond then
    some ⟨year, month, day, hour, minute, second, microsecond, valid⟩
  else
    none

theorem hoursBetween_add (first second third : DateTime) :
    hoursBetween first second + hoursBetween second third = hoursBetween first third := by
  simp only [hoursBetween, microsecondsBetween]
  push_cast
  ring

theorem hoursBetween_nonneg_iff {left right : DateTime} :
    0 ≤ hoursBetween left right ↔ left ≤ right := by
  rw [hoursBetween, le_iff, div_nonneg_iff]
  simp only [microsecondsBetween]
  push_cast
  constructor
  · rintro (⟨nonneg, -⟩ | ⟨-, impossible⟩)
    · exact_mod_cast sub_nonneg.mp nonneg
    · norm_num at impossible
  · intro ordered
    left
    refine ⟨?_, by norm_num⟩
    rw [sub_nonneg]
    exact_mod_cast ordered

theorem hoursBetween_pos_iff {left right : DateTime} :
    0 < hoursBetween left right ↔ left < right := by
  rw [hoursBetween, lt_iff, div_pos_iff]
  simp only [microsecondsBetween]
  push_cast
  constructor
  · rintro (⟨positive, -⟩ | ⟨-, impossible⟩)
    · exact_mod_cast sub_pos.mp positive
    · norm_num at impossible
  · intro ordered
    left
    refine ⟨?_, by norm_num⟩
    rw [sub_pos]
    exact_mod_cast ordered

end DateTime

end Calendar
