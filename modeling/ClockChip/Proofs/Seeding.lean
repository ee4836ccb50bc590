import ClockChip.Proofs.Repair

/-!
# The date that is set

The host hands the chip a civil date, which the registers hold in packed decimal.  Every
date comes out as one that exists (`shows_ofDateTime`), and a date of the century is held
exactly: it is what the registers show (`toDateTime_ofDateTime`), and the day of the week is
the one that it has in the Gregorian calendar (`toNat_weekday_ofDateTime`).

The host may also hand it numbers that are no date.  The chip then takes another date for it
(`DateTime.taken`), field by field, and this is one of the century; so the registers show it,
with its day of the week (`Registers.setDateTime_exact`).
-/

namespace ClockChip

namespace DateTime

/-- The day of the week of a date, nought for Sunday.  The first of January of the year 1 was a
Monday. -/
def weekday (t : DateTime) : Nat := ((t.dayNumber + 1) % 7).toNat

variable {t : DateTime}

/-- A date of the century as the registers take it. -/
theorem IsCivil.intoCentury (h : t.IsCivil) {year : Nat} (lt : year < 100)
    (century : t.year = 2000 + year) : t.intoCentury = { t with year := year } := by
  have rest : (2000 + year : Int).tmod 100 = year := by
    rw [Int.tmod_eq_emod_of_nonneg (by omega)]
    omega
  have leap : decide ((year : Int) % 4 = 0) = Civil.isLeap t.year := by
    rw [century, Civil.isLeap_century lt, Civil.leapInCentury]
    exact decide_eq_decide.2 (by omega)
  have month := Civil.month_of_monthLength (Nat.lt_of_lt_of_le h.day.1 h.day.2)
  have hour : t.hour ≤ 23 := Nat.le_of_lt_succ h.hour
  have minute : t.minute ≤ 59 := Nat.le_of_lt_succ h.minute
  have second : t.second ≤ 59 := Nat.le_of_lt_succ h.second
  have kept : max (year : Int) 0 = year := by omega
  simp only [DateTime.intoCentury, century, rest, kept, if_pos month]
  rw [leap, if_pos h.day, if_pos hour, if_pos minute, if_pos second]

end DateTime

namespace Calendar

open Bcd (value)

/-! ## Every date -/

section

variable (mode : HourMode) (t : DateTime)

theorem value_year_ofDateTime : value (ofDateTime mode t).year = t.intoCentury.year.toNat :=
  value_ofBinary (year_intoCentury t)

theorem value_month_ofDateTime : value (ofDateTime mode t).month = t.intoCentury.month := by
  have month := month_intoCentury t
  exact value_ofBinary (by omega)

theorem value_day_ofDateTime : value (ofDateTime mode t).day = t.intoCentury.day := by
  have day := day_intoCentury t
  have length := length_intoCentury t
  exact value_ofBinary (by omega)

/-- The day is one of the month, since both were brought into the same year. -/
theorem dayExists_ofDateTime : (ofDateTime mode t).DayExists := by
  have wellFormed := wellFormed_ofDateTime mode t
  have day := day_intoCentury t
  have leap : Civil.leapInCentury (value (ofDateTime mode t).year) =
      decide (t.intoCentury.year % 4 = 0) := by
    have zero : 0 ≤ t.intoCentury.year := Int.le_max_right _ _
    rw [value_year_ofDateTime, Civil.leapInCentury]
    exact decide_eq_decide.2 (by omega)
  refine ⟨wellFormed.day.1, ?_⟩
  rw [← Bcd.value_le_iff wellFormed.day.isDigits (isDigits_monthEnd wellFormed.month),
    value_monthEnd wellFormed.month, leap, value_month_ofDateTime, value_day_ofDateTime]
  exact day.2

/-- Whatever the host sets, the registers then show a date that exists. -/
theorem shows_ofDateTime : Shows mode (ofDateTime mode t) :=
  let wellFormed := wellFormed_ofDateTime mode t
  { year := wellFormed.year
    month := wellFormed.month
    digits := wellFormed.day.isDigits
    day := dayExists_ofDateTime mode t
    hour := wellFormed.hour
    minute := wellFormed.minute
    second := wellFormed.second }

end

/-! ## Dates of the century -/

/-- The hour register says which hour it is, in either mode. -/
theorem hourNumber_hourOf (mode : HourMode) :
    ∀ hour < 24, hourNumber mode (hourOf mode hour) = hour := by
  cases mode <;> decide

section

variable {t : DateTime} (h : t.IsCivil) {year : Nat} (lt : year < 100)
  (century : t.year = 2000 + year) (mode : HourMode)

include h lt century

/-- A date of the century comes back as it was set. -/
theorem toDateTime_ofDateTime : (ofDateTime mode t).toDateTime mode = t := by
  have taken := h.intoCentury lt century
  have minute : t.minute < 100 := Nat.lt_trans h.minute (by decide)
  have second : t.second < 100 := Nat.lt_trans h.second (by decide)
  have hour : (ofDateTime mode t).hour = hourOf mode t.intoCentury.hour := rfl
  have year' : value (ofDateTime mode t).year = year := by
    rw [value_year_ofDateTime, taken]
    exact Int.toNat_natCast year
  have minute' : value (ofDateTime mode t).minute = t.minute := by
    change value (Bcd.ofBinary (UInt8.ofNat t.intoCentury.minute)) = t.minute
    rw [taken]
    exact value_ofBinary minute
  have second' : value (ofDateTime mode t).second = t.second := by
    change value (Bcd.ofBinary (UInt8.ofNat t.intoCentury.second)) = t.second
    rw [taken]
    exact value_ofBinary second
  rw [(shows_ofDateTime mode t).toDateTime_eq, year', value_month_ofDateTime,
    value_day_ofDateTime, hour, minute', second', taken, hourNumber_hourOf mode _ h.hour,
    ← century]

/-- The day of the week is that of the Gregorian calendar. -/
theorem toNat_weekday_ofDateTime : (ofDateTime mode t).weekday.toNat = t.weekday := by
  have taken := h.intoCentury lt century
  have small : weekdayOf year t.month t.day < 7 := Nat.mod_lt _ (by decide)
  have weekday : (ofDateTime mode t).weekday = UInt8.ofNat (weekdayOf year t.month t.day) := by
    change UInt8.ofNat (weekdayOf t.intoCentury.year.toNat t.intoCentury.month
      t.intoCentury.day) = _
    rw [taken]
    rfl
  rw [weekday, UInt8.toNat_ofNat_of_lt' (by rw [UInt8.size]; omega), DateTime.weekday,
    DateTime.dayNumber_century lt century, weekdayOf, Civil.dayOfCentury, Civil.leapInCentury]
  omega

end

/-! ## The date that is taken -/

end Calendar

namespace DateTime

open Calendar

/-- The date of the century to which the registers are set. -/
def taken (t : DateTime) : DateTime := { t.intoCentury with year := 2000 + t.intoCentury.year }

variable (t : DateTime)

theorem exists_year_intoCentury : ∃ year : Nat, year < 100 ∧ t.intoCentury.year = year := by
  have zero : 0 ≤ t.intoCentury.year := Int.le_max_right _ _
  exact ⟨_, year_intoCentury t, (Int.toNat_of_nonneg zero).symm⟩

theorem isLeap_taken : Civil.isLeap t.taken.year = decide (t.intoCentury.year % 4 = 0) := by
  obtain ⟨year, lt, eq⟩ := t.exists_year_intoCentury
  rw [taken]
  dsimp only
  rw [eq, Civil.isLeap_century lt, Civil.leapInCentury]
  exact decide_eq_decide.2 (by omega)

theorem isCivil_taken : t.taken.IsCivil := by
  obtain ⟨hour, minute, second⟩ := time_intoCentury t
  refine ⟨?_, hour, Nat.lt_succ_of_le minute, Nat.lt_succ_of_le second⟩
  rw [dateExists, Bool.and_eq_true, decide_eq_true_iff, decide_eq_true_iff, isLeap_taken]
  exact day_intoCentury t

/-- It is taken as it is. -/
theorem intoCentury_taken : t.taken.intoCentury = t.intoCentury := by
  obtain ⟨year, lt, eq⟩ := t.exists_year_intoCentury
  rw [t.isCivil_taken.intoCentury lt (congrArg (2000 + ·) eq), ← eq]
  rfl

/-- The day stays if the month that is taken has such a day, and otherwise is the first. -/
theorem day_taken :
    t.taken.day =
      if { t with year := t.taken.year, month := t.taken.month }.dateExists then t.day else 1 := by
  have inMonth : { t with year := t.taken.year, month := t.taken.month }.dateExists = true ↔
      1 ≤ t.day ∧
        t.day ≤ Civil.monthLength (decide (t.intoCentury.year % 4 = 0)) t.intoCentury.month := by
    rw [dateExists, Bool.and_eq_true, decide_eq_true_iff, decide_eq_true_iff, isLeap_taken]
    rfl
  simp only [inMonth]
  rfl

end DateTime

namespace Calendar

variable (mode : HourMode) (t : DateTime)

theorem ofDateTime_taken : ofDateTime mode t.taken = ofDateTime mode t := by
  unfold ofDateTime
  rw [t.intoCentury_taken]

/-- Whatever date is set, the registers show the one that is taken for it, with the day of the
week that this one has. -/
theorem toDateTime_ofDateTime_eq_taken :
    (ofDateTime mode t).toDateTime mode = t.taken ∧
      (ofDateTime mode t).weekday.toNat = t.taken.weekday := by
  obtain ⟨year, lt, eq⟩ := t.exists_year_intoCentury
  have century : t.taken.year = 2000 + year := congrArg (2000 + ·) eq
  rw [← ofDateTime_taken]
  exact ⟨toDateTime_ofDateTime t.isCivil_taken lt century mode,
    toNat_weekday_ofDateTime t.isCivil_taken lt century mode⟩

theorem valid_ofDateTime : Valid mode (ofDateTime mode t) :=
  ⟨wellFormed_ofDateTime mode t, dayExists_ofDateTime mode t⟩

/-- The first of January 2000 shows itself, in either mode. -/
theorem shows_first (mode : HourMode) : Shows mode { month := 1, day := 1 } := by
  cases mode <;> exact ⟨⟨by decide, by decide, by decide, by decide⟩, by decide, by decide,
    by decide⟩

end Calendar

namespace Registers

/-- Setting the date is exact.  Whatever the registers held, and whatever numbers the host
gives, the calendar is then valid in the hour mode, which stays, and nothing is left to repair.
Of the year it shows the last two digits, or nought if it was negative, in the century from 2000
on; of the other fields those that are in range, where the day has to be one of the month that is
shown; and the least value for all others.  The day of the week is that of the date that is shown.
No other register becomes another, but that the power no longer counts as lost. -/
theorem setDateTime_exact (t : DateTime) (r : Registers) :
    let set := r.setDateTime t
    let seen := set.dateTime
    set.Valid ∧ set.hourMode = r.hourMode ∧ set.sanitize = set ∧
      seen.year = 2000 + max 0 (t.year.tmod 100) ∧
      seen.month = (if 1 ≤ t.month ∧ t.month ≤ 12 then t.month else 1) ∧
      seen.day =
        (if { t with year := seen.year, month := seen.month }.dateExists then t.day else 1) ∧
      seen.hour = (if t.hour ≤ 23 then t.hour else 0) ∧
      seen.minute = (if t.minute ≤ 59 then t.minute else 0) ∧
      seen.second = (if t.second ≤ 59 then t.second else 0) ∧
      set.calendar.weekday.toNat = seen.weekday ∧
      set = { r with calendar := set.calendar, status1 := r.status1 &&& 0x7F } := by
  intro set seen
  have mode : set.hourMode = r.hourMode := hourMode_setDateTime t r
  have valid : set.Valid := by
    rw [Valid, mode]
    exact Calendar.valid_ofDateTime r.hourMode t
  obtain ⟨shown, weekday⟩ := Calendar.toDateTime_ofDateTime_eq_taken r.hourMode t
  have taken : seen = t.taken := by
    change set.calendar.toDateTime set.hourMode = t.taken
    rw [mode]
    exact shown
  have powered : ∀ status : BitVec 8, Status1.powerLost.put false status = status &&& 0x7F := by
    decide
  have registers : set = { r with calendar := set.calendar, status1 := r.status1 &&& 0x7F } := by
    rw [← powered]
    rfl
  rw [taken]
  exact ⟨valid, mode, sanitize_eq_self_iff.2 valid, congrArg (2000 + ·) (Int.max_comm _ _), rfl,
    t.day_taken, rfl, rfl, rfl, weekday, registers⟩

end Registers

namespace Machine

/-- A machine that has just been switched on shows a date that exists. -/
theorem shows_ofConfig (config : Config) : (ofConfig config).chip.registers.Shows := by
  rw [ofConfig, registers_reset]
  cases config.boot with
  | none => exact Calendar.shows_first _
  | some t =>
    rw [Registers.Shows, Registers.hourMode_setDateTime]
    exact Calendar.shows_ofDateTime _ t

end Machine

end ClockChip
