/-
The window of a test.

A test is launched at a time and ends after a duration. The end is computed in doubles,
cut to whole milliseconds, and written as a date; dates go up to a certain time, and the
operations show only those with a year of four digits.
-/

import ListmonkOps.Experiment.Creation

namespace ListmonkOps.Experiment

open ListmonkOps.Math ListmonkOps.Runtime

/-! ## Sums -/

section Hours

variable {time : ℤ} {hours : ℚ}

end Hours

/-! ## Dates -/

section Dates

variable {total hours : ℚ} {time : ℤ}

end Dates

/-! ## Windows -/

/-- The launch time and, where a duration is asked for, the end are dates with years of four
digits. -/
structure WindowFits (sendAt : DateTime) (durationHours : Option ℚ) : Prop where
  starts : hasFourDigitYear sendAt.time
  ends : ∀ hours, durationHours = some hours → ∃ time,
    timeClip (addHours sendAt.time hours) = some time ∧ hasFourDigitYear time

section Windows

variable {sendAt endsAt : DateTime} {hours : ℚ} {durationHours : Option ℚ}
  {before after : Option DateTime}

end Windows

end ListmonkOps.Experiment
