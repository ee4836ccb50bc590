import ClockChip.Calendar.Valid
import ClockChip.Proofs.CivilTime
import ClockChip.Proofs.Digits

/-!
# Counting days

Year, month and day that are a date (`ShowsDate`) stand for a number of days since
the beginning of the century.  The upper half of the carry chain adds one to that
number, modulo the century (`ShowsDate.countDay`): within a month by the digits of the
day, at the end of a month by those of the month, and at the end of December by those
of the year.
-/

namespace ClockChip.Calendar

open Bcd (value)

/-! ## Dates -/

/-- The year, month and day are a date of the century. -/
structure ShowsDate (c : Calendar) : Prop where
  year : Bcd.InRange 0x00 0x99 c.year
  month : Bcd.InRange 0x01 0x12 c.month
  digits : Bcd.isDigits c.day = true
  day : c.DayExists

/-- The days since the first of January 2000. -/
def dayOfCentury (c : Calendar) : Nat :=
  Civil.dayOfCentury (value c.year) (value c.month) (value c.day)

variable {c : Calendar}

/-! ## The end of the month -/

/-- Only the month and the kind of the year make the end of the month. -/
theorem monthEnd_eq (c : Calendar) :
    c.monthEnd =
      monthEnd { year := if Civil.leapInCentury (value c.year) then 0 else 1
                 month := c.month } := by
  have leap : Bcd.toBinary c.year % 4 = 0 ↔ Civil.leapInCentury (value c.year) = true := by
    rw [Civil.leapInCentury_iff, value, ← UInt8.toNat_inj, UInt8.toNat_mod]
    rfl
  have chosen (leap : Bool) : Bcd.toBinary (if leap then 0 else 1) % 4 = 0 ↔ leap = true := by
    cases leap <;> decide
  unfold monthEnd
  simp only [leap, chosen]

theorem monthEnd_table : ∀ (leap : Bool) (month : UInt8), Bcd.InRange 0x01 0x12 month →
    Bcd.isDigits (monthEnd { year := if leap then 0 else 1, month }) = true ∧
      value (monthEnd { year := if leap then 0 else 1, month }) =
        Civil.monthLength leap (value month) := by
  decide

theorem isDigits_monthEnd (h : Bcd.InRange 0x01 0x12 c.month) :
    Bcd.isDigits c.monthEnd = true := by
  rw [monthEnd_eq]
  exact (monthEnd_table _ c.month h).1

/-- The end of the month is the length of the month. -/
theorem value_monthEnd (h : Bcd.InRange 0x01 0x12 c.month) :
    value c.monthEnd =
      Civil.monthLength (Civil.leapInCentury (value c.year)) (value c.month) := by
  rw [monthEnd_eq]
  exact (monthEnd_table _ c.month h).2

theorem value_month (h : Bcd.InRange 0x01 0x12 c.month) :
    1 ≤ value c.month ∧ value c.month ≤ 12 :=
  ⟨h.le_value (by decide), h.value_le (by decide)⟩

theorem monthLength_range : ∀ leap : Bool, ∀ month < 13, 1 ≤ month →
    1 ≤ Civil.monthLength leap month ∧ Civil.monthLength leap month ≤ 31 := by
  decide

/-- A month has a first day, and its days are not so many that they outgrow two digits. -/
theorem value_monthEnd_range (h : Bcd.InRange 0x01 0x12 c.month) :
    1 ≤ value c.monthEnd ∧ value c.monthEnd ≤ 31 := by
  have month := value_month h
  rw [value_monthEnd h]
  exact monthLength_range _ _ (Nat.lt_succ_of_le month.2) month.1

theorem monthEnd_le (h : Bcd.InRange 0x01 0x12 c.month) : c.monthEnd ≤ 0x31 :=
  (Bcd.value_le_iff (isDigits_monthEnd h) (by decide)).1 (value_monthEnd_range h).2

/-- The first of a month exists. -/
theorem dayExists_of_first (h : Bcd.InRange 0x01 0x12 c.month) (first : c.day = 1) :
    c.DayExists := by
  rw [DayExists, first]
  exact ⟨UInt8.le_refl 1,
    (Bcd.value_le_iff (by decide) (isDigits_monthEnd h)).1 (value_monthEnd_range h).1⟩

namespace ShowsDate

theorem inMonth (h : ShowsDate c) : Bcd.InRange 0x01 c.monthEnd c.day :=
  ⟨h.day.1, h.day.2, h.digits⟩

theorem inRange_day (h : ShowsDate c) : Bcd.InRange 0x01 0x31 c.day :=
  ⟨h.day.1, UInt8.le_trans h.day.2 (monthEnd_le h.month), h.digits⟩

theorem value_day (h : ShowsDate c) :
    1 ≤ value c.day ∧
      value c.day ≤ Civil.monthLength (Civil.leapInCentury (value c.year)) (value c.month) := by
  rw [← value_monthEnd h.month]
  exact ⟨h.inMonth.le_value (by decide), h.inMonth.value_le (isDigits_monthEnd h.month)⟩

theorem value_year (h : ShowsDate c) : value c.year < 100 := Bcd.value_lt h.year.isDigits

theorem dayOfCentury_lt (h : ShowsDate c) : c.dayOfCentury < 36525 :=
  Civil.dayOfCentury_lt h.value_year (Calendar.value_month h.month) h.value_day

end ShowsDate

/-! ## Adding a day -/

/-- The day of the week after this one.  A register that is out of range starts anew. -/
def nextWeekday (w : UInt8) : UInt8 := if w + 1 ≥ 7 then 0 else w + 1

/-- A new month changes the month and the year. -/
theorem countMonth_frame (c : Calendar) :
    c.countMonth = { c with year := c.countMonth.year, month := c.countMonth.month } := by
  unfold countMonth countYear
  dsimp only
  split <;> rfl

theorem leaveMonth_frame (c : Calendar) :
    c.leaveMonth =
      { c with
        year := c.leaveMonth.year
        month := c.leaveMonth.month
        day := c.leaveMonth.day } := by
  unfold leaveMonth
  split
  · rw [countMonth_frame]
  · rfl

/-- A new day changes the date and the day of the week. -/
theorem countDay_frame (c : Calendar) :
    c.countDay =
      { c with
        year := c.countDay.year
        month := c.countDay.month
        day := c.countDay.day
        weekday := nextWeekday c.weekday } :=
  leaveMonth_frame { c with weekday := nextWeekday c.weekday, day := Bcd.increment c.day }

/-- Year, month and day are as they were. -/
structure SameDate (c c' : Calendar) : Prop where
  year : c'.year = c.year
  month : c'.month = c.month
  day : c'.day = c.day

namespace SameDate

variable {c' c'' : Calendar}

theorem refl (c : Calendar) : SameDate c c := ⟨rfl, rfl, rfl⟩

theorem trans (h : SameDate c c') (h' : SameDate c' c'') : SameDate c c'' where
  year := h'.year.trans h.year
  month := h'.month.trans h.month
  day := h'.day.trans h.day

theorem monthEnd (h : SameDate c c') : c'.monthEnd = c.monthEnd := by
  rw [Calendar.monthEnd, Calendar.monthEnd, h.year, h.month]

/-- Whether a day exists is a matter of the date. -/
theorem dayExists_iff (h : SameDate c c') : c'.DayExists ↔ c.DayExists := by
  rw [DayExists, DayExists, h.monthEnd, h.day]

theorem countMonth (h : SameDate c c') : SameDate c.countMonth c'.countMonth := by
  unfold Calendar.countMonth countYear
  dsimp only
  rw [h.month, h.year]
  split <;> exact ⟨rfl, rfl, h.day⟩

/-- The end of the month is a matter of the date as well. -/
theorem leaveMonth (h : SameDate c c') : SameDate c.leaveMonth c'.leaveMonth := by
  have first : SameDate { c with day := 1 } { c' with day := 1 } := ⟨h.year, h.month, rfl⟩
  unfold Calendar.leaveMonth
  rw [h.monthEnd, h.day]
  split
  · exact first.countMonth
  · exact h

/-- Whatever else the registers hold, the day after a date is one and the same. -/
theorem countDay (h : SameDate c c') : SameDate c.countDay c'.countDay := by
  have next : SameDate
      { c with weekday := nextWeekday c.weekday, day := Bcd.increment c.day }
      { c' with weekday := nextWeekday c'.weekday, day := Bcd.increment c'.day } :=
    ⟨h.year, h.month, congrArg Bcd.increment h.day⟩
  exact next.leaveMonth

end SameDate

/-- On the last day of a month the next month begins. -/
theorem countDay_of_last (h : ShowsDate c) (last : c.day = c.monthEnd) :
    c.countDay = countMonth { c with weekday := nextWeekday c.weekday, day := 1 } := by
  have range := value_monthEnd_range h.month
  have step := Bcd.value_increment h.digits
  rw [last] at step
  have next : c.monthEnd < Bcd.increment c.day := by
    rw [last, Bcd.lt_iff_value_lt (isDigits_monthEnd h.month)
      (Bcd.isDigits_increment (isDigits_monthEnd h.month)), step]
    omega
  exact if_pos next

/-- On any other day the month goes on. -/
theorem countDay_of_lt (h : ShowsDate c) (lt : c.day < c.monthEnd) :
    c.countDay = { c with weekday := nextWeekday c.weekday, day := Bcd.increment c.day } := by
  have stays := (h.inMonth.increment (isDigits_monthEnd h.month) lt).2.1
  exact if_neg (UInt8.not_lt.2 stays)

/-- After December the next year begins. -/
theorem countMonth_of_last (last : c.month = 0x12) :
    c.countMonth = { c with year := Bcd.increment c.year, month := 1 } := by
  unfold countMonth
  rw [last]
  rfl

theorem countMonth_of_lt (h : Bcd.InRange 0x01 0x12 c.month) (lt : c.month < 0x12) :
    c.countMonth = { c with month := Bcd.increment c.month } := by
  have stays := (h.increment (by decide) lt).2.1
  exact if_neg (UInt8.not_lt.2 stays)

/-- On the first of a month the next one begins with a date as well. -/
theorem showsDate_countMonth (year : Bcd.InRange 0x00 0x99 c.year)
    (month : Bcd.InRange 0x01 0x12 c.month) (first : c.day = 1) : ShowsDate c.countMonth := by
  have digits : Bcd.isDigits c.day = true := by rw [first]; decide
  rcases UInt8.lt_or_eq_of_le month.2.1 with lt | december
  · have next := month.increment (by decide) lt
    rw [countMonth_of_lt month lt]
    exact ⟨year, next, digits, dayExists_of_first next first⟩
  · have next := Bcd.inRange_of_isDigits (Bcd.isDigits_increment year.isDigits)
    have january : Bcd.InRange 0x01 0x12 1 := by decide
    rw [countMonth_of_last december]
    exact ⟨next, january, digits, dayExists_of_first january first⟩

/-- The next month begins the day after the last of this one. -/
theorem ShowsDate.nextMonth (h : ShowsDate c) (last : c.day = c.monthEnd) :
    dayOfCentury (countMonth { c with day := 1 }) = (c.dayOfCentury + 1) % 36525 := by
  have length := value_monthEnd h.month
  have bound := (showsDate_countMonth (c := { c with day := 1 }) h.year h.month rfl).dayOfCentury_lt
  rw [← last] at length
  rcases UInt8.lt_or_eq_of_le h.month.2.1 with lt | december
  · rw [countMonth_of_lt (c := { c with day := 1 }) h.month lt] at bound ⊢
    have next : dayOfCentury { c with month := Bcd.increment c.month, day := 1 } =
        c.dayOfCentury + 1 := by
      rw [dayOfCentury, dayOfCentury, length, h.month.value_increment (by decide) lt,
        Bcd.value_one]
      exact Civil.dayOfCentury_next_month (value_month h.month).1
        (Nat.le_trans h.value_day.1 h.value_day.2)
    rw [← next, Nat.mod_eq_of_lt bound]
  · rw [countMonth_of_last (c := { c with day := 1 }) december] at bound ⊢
    have today : c.dayOfCentury = Civil.dayOfCentury (value c.year) 12 31 := by
      rw [dayOfCentury, length, december]
      rfl
    have tomorrow :
        dayOfCentury { c with year := Bcd.increment c.year, month := 1, day := 1 } =
          Civil.dayOfCentury ((value c.year + 1) % 100) 1 1 := by
      rw [dayOfCentury, Bcd.value_increment h.year.isDigits, Bcd.value_one]
    have next := Civil.dayOfCentury_next_year (value c.year)
    have year := h.value_year
    change dayOfCentury { c with year := Bcd.increment c.year, month := 1, day := 1 } < _ at bound
    change dayOfCentury { c with year := Bcd.increment c.year, month := 1, day := 1 } = _
    rw [tomorrow] at bound ⊢
    rw [today]
    rcases Nat.lt_or_ge (value c.year) 99 with lt | ge
    · rw [Nat.mod_eq_of_lt (by omega : value c.year + 1 < 100)] at bound ⊢
      rw [← next, Nat.mod_eq_of_lt bound]
    · have top : value c.year = 99 := by omega
      rw [top]
      rfl

/-- Adding a day to a date adds one to the days of the century. -/
theorem ShowsDate.countDay (h : ShowsDate c) :
    ShowsDate c.countDay ∧ c.countDay.dayOfCentury = (c.dayOfCentury + 1) % 36525 := by
  rcases UInt8.lt_or_eq_of_le h.day.2 with lt | last
  · have day := h.inMonth.increment (isDigits_monthEnd h.month) lt
    rw [countDay_of_lt h lt]
    have shows : ShowsDate
        { c with weekday := nextWeekday c.weekday, day := Bcd.increment c.day } :=
      ⟨h.year, h.month, day.isDigits, day.1, day.2.1⟩
    refine ⟨shows, ?_⟩
    have next : dayOfCentury
        { c with weekday := nextWeekday c.weekday, day := Bcd.increment c.day } =
          c.dayOfCentury + 1 := by
      rw [dayOfCentury, dayOfCentury, h.inMonth.value_increment (isDigits_monthEnd h.month) lt]
      exact Civil.dayOfCentury_next_day h.value_day.1
    rw [← next, Nat.mod_eq_of_lt shows.dayOfCentury_lt]
  · rw [countDay_of_last h last]
    have named : ShowsDate { c with weekday := nextWeekday c.weekday } :=
      ⟨h.year, h.month, h.digits, h.day⟩
    exact ⟨showsDate_countMonth h.year h.month rfl, named.nextMonth last⟩

end ClockChip.Calendar
