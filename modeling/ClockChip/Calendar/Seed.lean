import ClockChip.Bcd
import ClockChip.Calendar.Basic
import ClockChip.Calendar.Civil

/-!
# Calendar registers and civil dates

The host sets the clock to a civil date and reads it back as one.  The registers
hold the years 2000 to 2099: of any other year only the last two digits count,
and a year before the common era is taken as 2000.  A field that is out of range
becomes the least value that it may have.
-/

namespace ClockChip

namespace DateTime

/-- The date with every field brought into the chip's range, the year counted
from 2000. -/
def intoCentury (t : DateTime) : DateTime :=
  let year := max (t.year.tmod 100) 0
  let month := if 1 ≤ t.month ∧ t.month ≤ 12 then t.month else 1
  let days := Civil.monthLength (decide (year % 4 = 0)) month
  { year
    month
    day := if 1 ≤ t.day ∧ t.day ≤ days then t.day else 1
    hour := if t.hour ≤ 23 then t.hour else 0
    minute := if t.minute ≤ 59 then t.minute else 0
    second := if t.second ≤ 59 then t.second else 0 }

end DateTime

namespace Calendar

/-- The day of the week in a year counted from 2000, nought for Sunday.  The
first day of the century was a Saturday. -/
def weekdayOf (year month day : Nat) : Nat :=
  let leapDays := (year + 3) / 4
  let days := Civil.daysBeforeMonth (decide (year % 4 = 0)) month + (day - 1)
  (6 + year * 365 + leapDays + days) % 7

/-- The hour register for an hour of the day. -/
def hourOf (mode : HourMode) (hour : Nat) : UInt8 :=
  let half := if hour ≥ 12 then afternoon else 0
  let digits := match mode with
    | .twentyFour => hour
    | .twelve => if hour ≥ 12 then hour - 12 else hour
  Bcd.ofBinary (UInt8.ofNat digits) ||| half

/-- The registers that hold a date, as near as they can. -/
def ofDateTime (mode : HourMode) (t : DateTime) : Calendar :=
  let t := t.intoCentury
  let year := t.year.toNat
  { year := Bcd.ofBinary (UInt8.ofNat year)
    month := Bcd.ofBinary (UInt8.ofNat t.month)
    day := Bcd.ofBinary (UInt8.ofNat t.day)
    weekday := UInt8.ofNat (weekdayOf year t.month t.day)
    hour := hourOf mode t.hour
    minute := Bcd.ofBinary (UInt8.ofNat t.minute)
    second := Bcd.ofBinary (UInt8.ofNat t.second) }

/-- The date that the registers show. -/
def toDateTime (mode : HourMode) (c : Calendar) : DateTime where
  year := 2000 + (Bcd.toBinary c.year).toNat
  month := (Bcd.toBinary (c.month &&& 0x3F)).toNat
  day := (Bcd.toBinary (c.day &&& 0x3F)).toNat
  hour := (Bcd.toBinary c.hourDigits).toNat +
    if mode = .twelve ∧ c.hourHalf ≠ 0 then 12 else 0
  minute := (Bcd.toBinary (c.minute &&& 0x7F)).toNat
  second := (Bcd.toBinary (c.second &&& 0x7F)).toNat

end Calendar

end ClockChip
