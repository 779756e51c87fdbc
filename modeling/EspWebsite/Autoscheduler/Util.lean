import EspWebsite.Library.Calendar
import EspWebsite.Library.Python

/-!
# Autoscheduler configuration and time utilities

`config.DELTA_TIME` and the helpers of `util.py`.  Durations are hours, in exact
arithmetic.
-/

namespace EspWebsite.Autoscheduler

open Calendar Python

/-- `DELTA_TIME`: the largest gap, in hours, between two consecutive timeslots,
and the least length of a timeslot. -/
def deltaTime : ℚ := 34 / 100

theorem deltaTime_pos : 0 < deltaTime := by norm_num [deltaTime]

def hoursDifference (datetime1 datetime2 : DateTime) : ℚ :=
  DateTime.hoursBetween datetime1 datetime2

/-- The tolerance of `contiguous`: twenty minutes, in microseconds. -/
def contiguousTolerance : Int := 20 * 60 * 1000000

/-- `datetimedump`: the first six fields of the time tuple, so microseconds are
dropped. -/
def datetimedump (dt : DateTime) : List Nat :=
  [dt.year, dt.month, dt.day, dt.hour, dt.minute, dt.second]

theorem hoursDifference_add (first second third : DateTime) :
    hoursDifference first second + hoursDifference second third =
      hoursDifference first third :=
  DateTime.hoursBetween_add first second third

end EspWebsite.Autoscheduler
