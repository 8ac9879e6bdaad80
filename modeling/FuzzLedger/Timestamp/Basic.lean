/-!
# Points in time with an offset

A `Timestamp` is a calendar date and a time of day of the proleptic Gregorian calendar, years
0 to 9999, read at an offset of whole minutes from UTC.  The fields are in range by construction,
so every timestamp can be written and has an `instant`.

A `Stamp` is what the ledger's clock gives: a timestamp in UTC with whole milliseconds.
-/

set_option autoImplicit false

namespace FuzzLedger

/-! ## The calendar -/

/-- Every fourth year is a leap year, except centuries not divisible by 400. -/
def isLeapYear (year : Nat) : Bool :=
  year % 4 == 0 && (year % 100 != 0 || year % 400 == 0)

/-- The number of days of a month. -/
def daysIn (year : Nat) : Nat → Nat
  | 1 | 3 | 5 | 7 | 8 | 10 | 12 => 31
  | 4 | 6 | 9 | 11 => 30
  | 2 => if isLeapYear year then 29 else 28
  | _ => 0

/-- The number of days of a year before its given month. -/
def daysBeforeMonth (year : Nat) : Nat → Nat
  | 0 => 0
  | 1 => 0
  | month + 2 => daysBeforeMonth year (month + 1) + daysIn year (month + 1)

/-- The number of days before the first day of a year, counted from the first day of year 0. -/
def daysBeforeYear (year : Nat) : Nat :=
  365 * year + (year + 3) / 4 - (year + 99) / 100 + (year + 399) / 400

/-- The fields of a timestamp lie in their ranges. -/
structure InCalendar (year month day hour minute second nanosecond : Nat) (offset : Int) : Prop where
  year_le : year ≤ 9999
  one_le_month : 1 ≤ month
  month_le : month ≤ 12
  one_le_day : 1 ≤ day
  day_le : day ≤ daysIn year month
  hour_lt : hour < 24
  minute_lt : minute < 60
  second_lt : second < 60
  nanosecond_lt : nanosecond < 1000000000
  offset_gt : -1440 < offset
  offset_lt : offset < 1440

theorem inCalendar_iff (year month day hour minute second nanosecond : Nat) (offset : Int) :
    InCalendar year month day hour minute second nanosecond offset ↔
      (year ≤ 9999 ∧ 1 ≤ month ∧ month ≤ 12 ∧ 1 ≤ day ∧ day ≤ daysIn year month ∧ hour < 24 ∧
        minute < 60 ∧ second < 60 ∧ nanosecond < 1000000000 ∧ -1440 < offset ∧ offset < 1440) :=
  ⟨fun ⟨a, b, c, d, e, f, g, h, i, j, k⟩ => ⟨a, b, c, d, e, f, g, h, i, j, k⟩,
    fun ⟨a, b, c, d, e, f, g, h, i, j, k⟩ => ⟨a, b, c, d, e, f, g, h, i, j, k⟩⟩

instance (year month day hour minute second nanosecond : Nat) (offset : Int) :
    Decidable (InCalendar year month day hour minute second nanosecond offset) :=
  decidable_of_iff _ (inCalendar_iff year month day hour minute second nanosecond offset).symm

/-! ## Timestamps -/

/-- A date and time of day, as read `offset` minutes ahead of UTC. -/
structure Timestamp where
  year : Nat
  month : Nat
  day : Nat
  hour : Nat
  minute : Nat
  second : Nat
  nanosecond : Nat
  offset : Int
  inCalendar : InCalendar year month day hour minute second nanosecond offset
  deriving DecidableEq

namespace Timestamp

/-- The timestamp with the given fields, if they are in range. -/
def ofFields? (year month day hour minute second nanosecond : Nat) (offset : Int) :
    Option Timestamp :=
  if h : InCalendar year month day hour minute second nanosecond offset then
    some ⟨year, month, day, hour, minute, second, nanosecond, offset, h⟩
  else none

/-- Days from the first day of year 0 to the timestamp's date. -/
def dayNumber (t : Timestamp) : Nat :=
  daysBeforeYear t.year + daysBeforeMonth t.year t.month + (t.day - 1)

/-- Seconds of the timestamp's day that have passed. -/
def secondOfDay (t : Timestamp) : Nat := (t.hour * 60 + t.minute) * 60 + t.second

/-- Nanoseconds from the start of year 0 in UTC: the point in time that the timestamp denotes. -/
def instant (t : Timestamp) : Int :=
  ((t.dayNumber : Int) * 86400 + t.secondOfDay - t.offset * 60) * 1000000000 + t.nanosecond

/-- Whether the minute of the timestamp is, in UTC, the last minute of a month: the only place
where a leap second may stand.  Offsets stay below a day, so in UTC that minute belongs to the
timestamp's own date or to the day before. -/
def endsMonth (t : Timestamp) : Bool :=
  let utcMinute : Int := t.hour * 60 + t.minute - t.offset
  if utcMinute = 1439 then t.day == daysIn t.year t.month
  else if utcMinute = -1 then t.day == 1
  else false

end Timestamp

/-! ## Clock readings -/

/-- A reading of the ledger's clock: UTC, with whole milliseconds. -/
structure Stamp where
  time : Timestamp
  utc : time.offset = 0
  whole : time.nanosecond % 1000000 = 0
  deriving DecidableEq

end FuzzLedger
