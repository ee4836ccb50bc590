import ClockChip.Calendar.Count

/-!
# Calendars that the chip keeps

A calendar is well formed when every register holds a value that counting could
bring about: two digits in the range of the field, and an hour that fits the hour
mode.  That the day exists in its month is a condition of its own, because a
transfer writes day, month and year one after another.
-/

namespace ClockChip.Calendar

/-- An hour register that fits the hour mode: in the twenty-four-hour mode the
afternoon bit follows from the digits, in the twelve-hour mode it is free. -/
def HourFits : HourMode → UInt8 → Prop
  | .twentyFour, b =>
    Bcd.InRange 0x00 0x23 (b &&& 0x3F) ∧ b = (b &&& 0x3F) ||| halfOf (b &&& 0x3F)
  | .twelve, b =>
    Bcd.InRange 0x00 0x11 (b &&& 0x3F) ∧ b = (b &&& 0x3F) ||| (b &&& afternoon)

instance (mode : HourMode) (b : UInt8) : Decidable (HourFits mode b) := by
  cases mode <;> unfold HourFits <;> infer_instance

/-- Every register holds a value of its range. -/
structure WellFormed (mode : HourMode) (c : Calendar) : Prop where
  year : Bcd.InRange 0x00 0x99 c.year
  month : Bcd.InRange 0x01 0x12 c.month
  day : Bcd.InRange 0x01 0x31 c.day
  weekday : c.weekday ≤ 0x06
  hour : HourFits mode c.hour
  minute : Bcd.InRange 0x00 0x59 c.minute
  second : Bcd.InRange 0x00 0x59 c.second

/-- The day is one of its month. -/
def DayExists (c : Calendar) : Prop := 1 ≤ c.day ∧ c.day ≤ c.monthEnd

instance (c : Calendar) : Decidable c.DayExists := inferInstanceAs (Decidable (_ ∧ _))

/-- A date and a time of day that the chip comes to by counting: every register is in its
range, and the day is one of its month. -/
structure Valid (mode : HourMode) (c : Calendar) : Prop extends WellFormed mode c where
  dayExists : c.DayExists

/-- A calendar stays in its month if its day exists. -/
theorem leaveMonth_of_dayExists {c : Calendar} (h : c.DayExists) : c.leaveMonth = c :=
  if_neg (UInt8.not_lt.2 h.2)

/-- The first of January 2000 is well formed in either mode. -/
theorem wellFormed_first (mode : HourMode) : WellFormed mode { month := 1, day := 1 } := by
  cases mode <;> constructor <;> decide

end ClockChip.Calendar
