import ClockChip.Bcd
import ClockChip.Calendar.Basic

/-!
# Counting seconds

Once a second the chip adds one to the second register and lets the carry run
through minute, hour, day, month and year.  Every step compares the register as
it is and replaces it when it has gone past its end; nothing is converted to a
number, so registers out of range count on from where they are.
-/

namespace ClockChip.Calendar

/-! ## Days, months and years -/

/-- The last day of the month in the registers, or zero if there is no such
month.  The century is the one from 2000 on, in which every fourth year is a
leap year. -/
def monthEnd (c : Calendar) : UInt8 :=
  if c.month ∈ [0x01, 0x03, 0x05, 0x07, 0x08, 0x10, 0x12] then 0x31
  else if c.month ∈ [0x04, 0x06, 0x09, 0x11] then 0x30
  else if c.month = 0x02 then
    if Bcd.toBinary c.year % 4 = 0 then 0x29 else 0x28
  else 0

/-- Adds a year. -/
def countYear (c : Calendar) : Calendar := { c with year := Bcd.increment c.year }

/-- Adds a month. -/
def countMonth (c : Calendar) : Calendar :=
  let month := Bcd.increment c.month
  if month > 0x12 then { c with month := 1 }.countYear else { c with month }

/-- Goes to the first of the next month if the day is past the end of this one. -/
def leaveMonth (c : Calendar) : Calendar :=
  if c.day > c.monthEnd then { c with day := 1 }.countMonth else c

/-- Adds a day. -/
def countDay (c : Calendar) : Calendar :=
  let weekday := c.weekday + 1
  { c with
    weekday := if weekday ≥ 7 then 0 else weekday
    day := Bcd.increment c.day }.leaveMonth

/-! ## Hours, minutes and seconds -/

/-- Adds an hour. -/
def countHour (mode : HourMode) (c : Calendar) : Calendar :=
  let hour := Bcd.increment c.hourDigits
  match mode with
  | .twentyFour =>
    if hour ≥ 0x24 then { c.countDay with hour := 0 }
    else { c with hour := hour ||| halfOf hour }
  | .twelve =>
    if hour ≥ 0x12 then
      let c' := if c.hourHalf = 0 then c else c.countDay
      { c' with hour := c.hourHalf ^^^ afternoon }
    else { c with hour := hour ||| c.hourHalf }

/-- Adds a minute. -/
def countMinute (mode : HourMode) (c : Calendar) : Calendar :=
  let minute := Bcd.increment c.minute
  if minute ≥ 0x60 then { c with minute := 0 }.countHour mode else { c with minute }

/-- Whether the next second is the first of a minute. -/
def endsMinute (c : Calendar) : Bool := decide (Bcd.increment c.second ≥ 0x60)

/-- Adds a second. -/
def countSecond (mode : HourMode) (c : Calendar) : Calendar :=
  if c.endsMinute then { c with second := 0 }.countMinute mode
  else { c with second := Bcd.increment c.second }

end ClockChip.Calendar
