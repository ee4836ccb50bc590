import ClockChip.Proofs.WellFormed

/-!
# Repairing a calendar

A calendar from outside is repaired by writing every register back to where it came from.
This gives a valid calendar whatever it begins with (`valid_sanitize`), it leaves the valid
ones alone, and no others (`sanitize_eq_self_iff`).  So repairing is a projection onto the
valid calendars.

Of a calendar that is merely well formed, which a transfer that was cut short leaves behind, the
repair changes nothing but the month that the day is not one of (`WellFormed.sanitize`).

The repair does not depend on what the bytes are written over: year and month come first,
and they are all that the day looks at (`writeFrom_toBytes`).
-/

namespace ClockChip.Calendar

variable {mode : HourMode} {c : Calendar}

/-! ## Writing back what is well formed -/

theorem WellFormed.cleanDate (h : WellFormed mode c) : c.cleanDate = c := by
  have maskMonth : ∀ b ≤ (0x12 : UInt8), b &&& 0x1F = b := by decide
  have month : c.month &&& 0x1F = c.month := maskMonth c.month h.month.2.1
  have day : c.day &&& 0x3F = c.day := (mask_of_le c.day).1 h.day.2.1
  rw [Calendar.cleanDate, month, day, Bcd.clamp_of_inRange h.year, Bcd.clamp_of_inRange h.month,
    Bcd.clamp_of_inRange h.day]

/-- An hour that fits is written as it is. -/
theorem hourWritten_of_hourFits {b : UInt8} (h : HourFits mode b) : hourWritten mode b = b := by
  cases mode with
  | twelve => rw [hourWritten, Bcd.clamp_of_inRange h.1, ← h.2]
  | twentyFour => rw [hourWritten, Bcd.clamp_of_inRange h.1, ← h.2]

/-- Writing the registers back changes nothing but that it leaves a month whose end has
been passed. -/
theorem WellFormed.sanitize (h : WellFormed mode c) : c.sanitize mode = c.leaveMonth := by
  have allWeekdays : ∀ b ≤ (0x06 : UInt8), Bcd.clamp (b &&& 0x07) 0x00 0x06 = b := by decide
  have weekday : Bcd.clamp (c.weekday &&& 0x07) 0x00 0x06 = c.weekday :=
    allWeekdays c.weekday h.weekday
  have minute : c.minute &&& 0x7F = c.minute := (mask_of_le c.minute).2 h.minute.2.1
  have second : c.second &&& 0x7F = c.second := (mask_of_le c.second).2 h.second.2.1
  rw [sanitize_eq, h.cleanDate, weekday, hourWritten_of_hourFits h.hour, minute, second,
    Bcd.clamp_of_inRange h.minute, Bcd.clamp_of_inRange h.second]
  exact (leaveMonth_frame c).symm

/-- The months that are not left are those in which the day exists. -/
theorem WellFormed.leaveMonth_eq_self_iff (h : WellFormed mode c) :
    c.leaveMonth = c ↔ c.DayExists := by
  constructor
  · intro same
    have date := showsDate_leaveMonth h.year h.month h.day.isDigits h.day.1
    rw [same] at date
    exact date.day
  · exact leaveMonth_of_dayExists

/-! ## The projection -/

theorem Shows.valid (h : Shows mode c) (inWeek : c.weekday ≤ 6) : Valid mode c :=
  ⟨h.wellFormed inWeek, h.day⟩

/-- Whatever the registers hold, when they have been written back they are valid. -/
theorem valid_sanitize (mode : HourMode) (c : Calendar) : Valid mode (c.sanitize mode) :=
  (shows_sanitize mode c).valid (written_weekday_le c.weekday)

theorem Valid.sanitize (h : Valid mode c) : c.sanitize mode = c := by
  rw [h.toWellFormed.sanitize, leaveMonth_of_dayExists h.dayExists]

/-- The calendars that writing back leaves alone are the valid ones. -/
theorem sanitize_eq_self_iff : c.sanitize mode = c ↔ Valid mode c := by
  constructor
  · intro same
    rw [← same]
    exact valid_sanitize mode c
  · exact Valid.sanitize

/-- So the repair itself can tell whether a calendar is valid. -/
instance (mode : HourMode) (c : Calendar) : Decidable (Valid mode c) :=
  decidable_of_iff _ sanitize_eq_self_iff

/-! ## The year -/

/-- No day of the range is past the end of December, so that leaving a month never ends the
year. -/
theorem year_leaveMonth (month : Bcd.InRange 0x01 0x12 c.month) (day : c.day ≤ 0x31) :
    c.leaveMonth.year = c.year := by
  unfold leaveMonth
  split
  · next past =>
    have notLast : c.month ≠ 0x12 := by
      intro december
      have last : c.monthEnd = 0x31 := by
        unfold monthEnd
        rw [december]
        rfl
      rw [last] at past
      exact absurd past (UInt8.not_lt.2 day)
    have lt := (UInt8.lt_or_eq_of_le month.2.1).resolve_right notLast
    rw [countMonth_of_lt (c := { c with day := 1 }) month lt]
  · rfl

/-- The year stays, or it is not a year at all and becomes the first of the century. -/
theorem year_sanitize (mode : HourMode) (c : Calendar) :
    (c.sanitize mode).year = if Bcd.isDigits c.year then c.year else 0 := by
  have kept : c.cleanDate.leaveMonth.year = Bcd.clamp c.year 0x00 0x99 :=
    year_leaveMonth (Bcd.inRange_clamp (by decide) _) (inRange_written_day c.day).2.1
  rw [sanitize_eq]
  refine kept.trans ?_
  split
  · next digits => exact Bcd.clamp_of_inRange (Bcd.inRange_of_isDigits digits)
  · next digits => exact Bcd.clamp_of_not_inRange fun inRange ↦ digits inRange.isDigits

/-! ## What the bytes are written over -/

/-- Seven bytes that are written one after another leave what repairing the calendar of these
bytes does, whatever the registers held before. -/
theorem writeFrom_toBytes (mode : HourMode) (old c : Calendar) :
    old.writeFrom mode 1 c.toBytes.toList = c.sanitize mode := by
  have bytes : c.toBytes.toList =
      [c.year, c.month, c.day, c.weekday, c.hour, c.minute, c.second] := rfl
  -- the date when the day is written, over the old registers
  let dated : Calendar :=
    { old with
      year := c.cleanDate.year
      month := c.cleanDate.month
      day := c.cleanDate.day }
  have same : SameDate c.cleanDate.leaveMonth dated.leaveMonth :=
    SameDate.leaveMonth ⟨rfl, rfl, rfl⟩
  have written : old.writeFrom mode 1 c.toBytes.toList =
      { dated.leaveMonth with
        weekday := Bcd.clamp (c.weekday &&& 0x07) 0x00 0x06
        hour := hourWritten mode c.hour
        minute := Bcd.clamp (c.minute &&& 0x7F) 0x00 0x59
        second := Bcd.clamp (c.second &&& 0x7F) 0x00 0x59 } := by
    rw [bytes]
    simp only [writeFrom, write]
    rfl
  rw [written, sanitize_eq]
  dsimp only
  rw [same.year, same.month, same.day]

end ClockChip.Calendar

namespace ClockChip.Registers

/-- The calendar is valid in the present hour mode. -/
def Valid (r : Registers) : Prop := r.calendar.Valid r.hourMode

theorem sanitize_eq_self_iff {r : Registers} : r.sanitize = r ↔ r.Valid := by
  rw [Valid, ← Calendar.sanitize_eq_self_iff]
  exact ⟨congrArg Registers.calendar, fun same ↦ by rw [sanitize, same]⟩

/-- Repairing a register file is a projection onto those with a valid calendar.  Whatever bytes
the calendar holds, it becomes valid in the hour mode of the file; the year stays if it is one,
and otherwise becomes the first of the century; and no other register becomes another.  What has
been repaired is not changed by a further repair, and the files that a repair does not change are
those whose calendar is valid already. -/
theorem sanitize_projects (r : Registers) :
    r.sanitize.Valid ∧
      r.sanitize = { r with calendar := r.sanitize.calendar } ∧
      (r.sanitize.calendar.year = if Bcd.isDigits r.calendar.year then r.calendar.year else 0) ∧
      r.sanitize.sanitize = r.sanitize ∧
      (r.sanitize = r ↔ r.Valid) := by
  have valid : r.sanitize.Valid := Calendar.valid_sanitize r.hourMode r.calendar
  exact ⟨valid, rfl, Calendar.year_sanitize r.hourMode r.calendar, sanitize_eq_self_iff.2 valid,
    sanitize_eq_self_iff⟩

end ClockChip.Registers
