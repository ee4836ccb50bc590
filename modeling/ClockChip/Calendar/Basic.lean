/-!
# The calendar registers

Seven bytes of packed decimal: year within the century, month, day, day of the
week, hour, minute and second.  The day of the week is a plain counter from
nought to six.  Bit 6 of the hour says that it is afternoon, in either hour
mode; in the twelve-hour mode the digits then start again from nought.

The fields are bytes and nothing more: a host can put anything into a state that
it restores, and what the chip makes of it is part of what it does.
-/

namespace ClockChip

/-- How the hour register counts. -/
inductive HourMode where
  /-- From nought to eleven, twice a day. -/
  | twelve
  /-- From nought to twenty-three. -/
  | twentyFour
deriving DecidableEq, Repr

/-- The date and time as the chip holds them. -/
structure Calendar where
  year : UInt8 := 0
  month : UInt8 := 0
  day : UInt8 := 0
  weekday : UInt8 := 0
  hour : UInt8 := 0
  minute : UInt8 := 0
  second : UInt8 := 0
deriving DecidableEq, Repr

namespace Calendar

/-- The registers in the order in which the chip sends them. -/
def toBytes (c : Calendar) : Vector UInt8 7 :=
  #v[c.year, c.month, c.day, c.weekday, c.hour, c.minute, c.second]

/-- The calendar with these registers. -/
def ofBytes (bs : Vector UInt8 7) : Calendar where
  year := bs[0]
  month := bs[1]
  day := bs[2]
  weekday := bs[3]
  hour := bs[4]
  minute := bs[5]
  second := bs[6]

@[simp] theorem toBytes_ofBytes (bs : Vector UInt8 7) : (ofBytes bs).toBytes = bs := by
  ext i hi
  have : i = 0 ∨ i = 1 ∨ i = 2 ∨ i = 3 ∨ i = 4 ∨ i = 5 ∨ i = 6 := by omega
  rcases this with rfl | rfl | rfl | rfl | rfl | rfl | rfl <;> rfl

/-! ## The hour -/

/-- The bit of the hour register that says afternoon. -/
def afternoon : UInt8 := 0x40

/-- The digits of the hour. -/
def hourDigits (c : Calendar) : UInt8 := c.hour &&& 0x3F

/-- The afternoon bit of the hour, in place. -/
def hourHalf (c : Calendar) : UInt8 := c.hour &&& afternoon

/-- The afternoon bit that belongs to an hour of the day. -/
def halfOf (hour : UInt8) : UInt8 := if hour ≥ 0x12 then afternoon else 0

end Calendar

end ClockChip
