import FuzzLedger.Timestamp.Text

/-!
# Times in the ranges of a calendar library

Dates and offsets are computed with in wider ranges than a text has room for: years from -9999 to
9999, and offsets to the second, below 26 hours either way.  A `ZonedTime` is a time in these
ranges.  Reading (`ZonedTime.parse?`) checks no others, and formatting (`ZonedTime.format`) refuses
what has no text: a year before year 0, an offset of a day or more, an offset with seconds.  A time
within these bounds is a `Timestamp`.

Where a time is shown, a refusal is not reported: nothing is shown (`Timestamp.shown`).
-/

set_option autoImplicit false

namespace FuzzLedger

/-- The fields of a time lie in the ranges of the library; the offset is in seconds. -/
structure InLibrary (year : Int) (month day hour minute second nanosecond : Nat) (offset : Int) :
    Prop where
  year_ge : -9999 ≤ year
  year_le : year ≤ 9999
  one_le_month : 1 ≤ month
  month_le : month ≤ 12
  one_le_day : 1 ≤ day
  day_le : day ≤ daysIn year.natAbs month
  hour_lt : hour < 24
  minute_lt : minute < 60
  second_lt : second < 60
  nanosecond_lt : nanosecond < 1000000000
  offset_gt : -93600 < offset
  offset_lt : offset < 93600

theorem inLibrary_iff (year : Int) (month day hour minute second nanosecond : Nat) (offset : Int) :
    InLibrary year month day hour minute second nanosecond offset ↔
      (-9999 ≤ year ∧ year ≤ 9999 ∧ 1 ≤ month ∧ month ≤ 12 ∧ 1 ≤ day ∧
        day ≤ daysIn year.natAbs month ∧ hour < 24 ∧ minute < 60 ∧ second < 60 ∧
        nanosecond < 1000000000 ∧ -93600 < offset ∧ offset < 93600) :=
  ⟨fun ⟨a, b, c, d, e, f, g, h, i, j, k, l⟩ => ⟨a, b, c, d, e, f, g, h, i, j, k, l⟩,
    fun ⟨a, b, c, d, e, f, g, h, i, j, k, l⟩ => ⟨a, b, c, d, e, f, g, h, i, j, k, l⟩⟩

instance (year : Int) (month day hour minute second nanosecond : Nat) (offset : Int) :
    Decidable (InLibrary year month day hour minute second nanosecond offset) :=
  decidable_of_iff _ (inLibrary_iff year month day hour minute second nanosecond offset).symm

/-- A date and time of day, as read `offset` seconds ahead of UTC. -/
structure ZonedTime where
  year : Int
  month : Nat
  day : Nat
  hour : Nat
  minute : Nat
  second : Nat
  nanosecond : Nat
  offset : Int
  inLibrary : InLibrary year month day hour minute second nanosecond offset
  deriving DecidableEq

namespace ZonedTime

/-- The time with the given fields, if they are in range. -/
def ofFields? (year : Int) (month day hour minute second nanosecond : Nat) (offset : Int) :
    Option ZonedTime :=
  if h : InLibrary year month day hour minute second nanosecond offset then
    some ⟨year, month, day, hour, minute, second, nanosecond, offset, h⟩
  else none

/-! ## Reading -/

/-- Whether the second of the time is, in UTC, the last second of a month.  Offsets stay below 26
hours, so in UTC that second belongs to the time's own date, to the day after or to one of the two
days before. -/
def endsMonth (t : ZonedTime) : Bool :=
  let utcSecond : Int := (t.hour * 60 + t.minute) * 60 + t.second - t.offset
  if utcSecond = 86399 then t.day == daysIn t.year.natAbs t.month
  else if utcSecond = 172799 then t.day + 1 == daysIn t.year.natAbs t.month
  else if utcSecond = -1 then t.day == 1
  else if utcSecond = -86401 then t.day == 2
  else false

/-- The time that fields denote.  A sixtieth second is the last nanosecond before it. -/
def ofTimeFields? (f : TimeFields) : Option ZonedTime :=
  if f.second = 60 then do
    let stand ← ofFields? f.year f.month f.day f.hour f.minute 59 999999999 (f.offset * 60)
    if stand.endsMonth then some stand else none
  else ofFields? f.year f.month f.day f.hour f.minute f.second f.nanosecond (f.offset * 60)

/-- Reads a time. -/
def parse? (text : String) : Option ZonedTime := do ofTimeFields? (← readFields text.toList)

/-! ## Formatting -/

/-- Why a time has no text. -/
inductive FormatFault where
  | year
  | offsetHour
  | offsetSecond
  deriving DecidableEq, Repr

theorem inCalendar (t : ZonedTime) (hyear : ¬(t.year < 0 ∨ 9999 < t.year))
    (hhour : ¬23 < t.offset.natAbs / 3600) (hsecond : ¬t.offset.natAbs % 60 ≠ 0) :
    InCalendar t.year.toNat t.month t.day t.hour t.minute t.second t.nanosecond (t.offset / 60) := by
  obtain ⟨_, _, hmonth, hmonth', hday, hday', hhour', hminute, hsecond', hnanosecond, _, _⟩ :=
    t.inLibrary
  have habs : t.year.natAbs = t.year.toNat := by omega
  rw [habs] at hday'
  exact ⟨by omega, hmonth, hmonth', hday, hday', hhour', hminute, hsecond', hnanosecond, by omega,
    by omega⟩

/-- The time as a timestamp, unless it is refused. -/
def toTimestamp (t : ZonedTime) : Except FormatFault Timestamp :=
  if hyear : t.year < 0 ∨ 9999 < t.year then .error .year
  else if hhour : 23 < t.offset.natAbs / 3600 then .error .offsetHour
  else if hsecond : t.offset.natAbs % 60 ≠ 0 then .error .offsetSecond
  else .ok ⟨_, _, _, _, _, _, _, _, t.inCalendar hyear hhour hsecond⟩

/-- The text of a time, unless it is refused. -/
def format (t : ZonedTime) : Except FormatFault String := do return (← t.toTimestamp).render

end ZonedTime

namespace Timestamp

theorem inLibrary (t : Timestamp) :
    InLibrary t.year t.month t.day t.hour t.minute t.second t.nanosecond (t.offset * 60) := by
  obtain ⟨hyear, hmonth, hmonth', hday, hday', hhour, hminute, hsecond, hnanosecond, _, _⟩ :=
    t.inCalendar
  exact ⟨by omega, by omega, hmonth, hmonth', hday, by simpa using hday', hhour, hminute, hsecond,
    hnanosecond, by omega, by omega⟩

/-- The timestamp as the library has it. -/
def zoned (t : Timestamp) : ZonedTime := ⟨_, _, _, _, _, _, _, _, t.inLibrary⟩

/-- The timestamp as it is shown: nothing, where formatting refuses it. -/
def shown (t : Timestamp) : String :=
  match t.zoned.format with
  | .ok text => text
  | .error _ => ""

end Timestamp

end FuzzLedger
