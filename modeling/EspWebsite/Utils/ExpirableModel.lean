import Mathlib

/-!
# Rows that expire

`utils/expirable_model.py`: rows with a start and an end date, both of which may be missing
and both of which belong to the time in which the row is valid.
-/

namespace EspWebsite

/-- A point in time, in microseconds. -/
abbrev DateTime := ℤ

/-- A row that has started always, without a start date, and never ends, without an end
date. -/
structure ExpirableModel where
  startDate : Option DateTime
  endDate : Option DateTime
  deriving DecidableEq

namespace ExpirableModel

/-- `is_valid`, and the query of `is_valid_qobject`. -/
def isValid (row : ExpirableModel) (when' : DateTime) : Bool :=
  (∀ start ∈ row.startDate, start ≤ when') ∧ ∀ finish ∈ row.endDate, when' ≤ finish

def expire (row : ExpirableModel) (now : DateTime) : ExpirableModel :=
  { row with endDate := some now }

def unexpire (row : ExpirableModel) (now : DateTime) : ExpirableModel where
  startDate := row.startDate.map fun start => if now < start then now else start
  endDate := none

variable {row : ExpirableModel} {when' now : DateTime}

theorem isValid_iff : row.isValid when' = true ↔
    (∀ start ∈ row.startDate, start ≤ when') ∧ ∀ finish ∈ row.endDate, when' ≤ finish := by
  rw [isValid, decide_eq_true_eq]

theorem isValid_expire_iff : (row.expire now).isValid when' = true ↔
    (∀ start ∈ row.startDate, start ≤ when') ∧ when' ≤ now := by
  rw [isValid_iff, expire]
  refine and_congr_right fun _ => ?_
  constructor
  · intro before
    exact before now rfl
  · intro before finish isFinish
    cases isFinish
    exact before

end ExpirableModel

end EspWebsite
