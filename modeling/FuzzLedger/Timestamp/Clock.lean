import FuzzLedger.Timestamp.Basic

/-!
# Readings of the clock

A clock counts milliseconds from the first moment of 1970 in UTC; `Stamp.ofMillis?` gives the
reading as a calendar date and a time of day.
-/

set_option autoImplicit false

namespace FuzzLedger

/-- The year of a day, both counted from the start of year 0.  By the mean length of a year the
guess is off by at most one. -/
def yearOfDay (day : Nat) : Nat :=
  let guess := day * 400 / 146097
  if daysBeforeYear (guess + 1) ≤ day then guess + 1
  else if day < daysBeforeYear guess then guess - 1
  else guess

/-- The last month, up to the given one, that begins on a day of the year or before it. -/
def monthOfDay (year day : Nat) : Nat → Nat
  | 0 => 1
  | month + 1 => if daysBeforeMonth year (month + 1) ≤ day then month + 1
    else monthOfDay year day month

/-- The number of days before 1970. -/
def daysBefore1970 : Nat := daysBeforeYear 1970

/-- The reading of a clock that counts milliseconds from the start of 1970, up to the end of year
9999. -/
def Stamp.ofMillis? (millis : Nat) : Option Stamp :=
  let day := millis / 86400000 + daysBefore1970
  let year := yearOfDay day
  let dayOfYear := day - daysBeforeYear year
  let month := monthOfDay year dayOfYear 12
  let dayOfMonth := dayOfYear - daysBeforeMonth year month + 1
  let second := millis / 1000 % 86400
  let nanosecond := millis % 1000 * 1000000
  if h : InCalendar year month dayOfMonth (second / 3600) (second / 60 % 60) (second % 60)
      nanosecond 0 then
    some ⟨⟨_, _, _, _, _, _, _, _, h⟩, rfl, Nat.mul_mod_left _ _⟩
  else none

/-- The start of 1970. -/
def Stamp.epoch : Stamp := ⟨⟨1970, 1, 1, 0, 0, 0, 0, 0, by decide⟩, rfl, rfl⟩

end FuzzLedger
