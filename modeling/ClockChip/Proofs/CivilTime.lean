import ClockChip.Calendar.Civil

/-!
# Counting civil time

Civil dates are counted in days of the Gregorian calendar, whose centuries are leap
years only every fourth time, and civil times in seconds (`DateTime.seconds`).
A date and time of day that exist are given by that count
(`DateTime.seconds_inj`): the count is what it means for one time to be so many
seconds after another.
-/

namespace ClockChip

namespace Civil

/-- The number of days from the first of January of the year 1 to that of `year`. -/
def daysBeforeYear (year : Int) : Int :=
  365 * (year - 1) + (year - 1) / 4 - (year - 1) / 100 + (year - 1) / 400

/-- The number of days of a year. -/
def yearLength (leap : Bool) : Nat := if leap then 366 else 365

theorem isLeap_eq_true_iff {year : Int} :
    isLeap year = true ↔ year % 4 = 0 ∧ (year % 100 ≠ 0 ∨ year % 400 = 0) := by
  rw [isLeap, Bool.and_eq_true, Bool.or_eq_true, decide_eq_true_iff, decide_eq_true_iff,
    decide_eq_true_iff]

theorem daysBeforeYear_succ (year : Int) :
    daysBeforeYear (year + 1) = daysBeforeYear year + yearLength (isLeap year) := by
  rw [daysBeforeYear, daysBeforeYear, yearLength]
  cases leap : isLeap year with
  | true =>
    have := isLeap_eq_true_iff.1 leap
    simp only [if_true]
    omega
  | false =>
    have := mt isLeap_eq_true_iff.2 (Bool.eq_false_iff.1 leap)
    simp only [Bool.false_eq_true, if_false]
    omega

theorem daysBeforeYear_mono {y y' : Int} (h : y ≤ y') : daysBeforeYear y ≤ daysBeforeYear y' := by
  rw [daysBeforeYear, daysBeforeYear]
  rcases Int.lt_or_eq_of_le h with lt | rfl
  · omega
  · exact Int.le_refl _

/-! ## Months -/

theorem daysBeforeMonth_one (leap : Bool) : daysBeforeMonth leap 1 = 0 := rfl

theorem daysBeforeMonth_succ (leap : Bool) {month : Nat} (h : 1 ≤ month) :
    daysBeforeMonth leap (month + 1) = daysBeforeMonth leap month + monthLength leap month := by
  obtain ⟨m, rfl⟩ := Nat.exists_eq_add_of_le h
  rw [daysBeforeMonth, daysBeforeMonth, Nat.add_sub_cancel, Nat.add_sub_cancel_left,
    Nat.add_comm 1 m, List.range'_concat, List.foldl_append]
  rw [Nat.one_mul, Nat.add_comm 1 m]
  rfl

theorem daysBeforeMonth_mono (leap : Bool) {m m' : Nat} (one : 1 ≤ m) (h : m ≤ m') :
    daysBeforeMonth leap m ≤ daysBeforeMonth leap m' := by
  induction h with
  | refl => exact Nat.le_refl _
  | step le ih =>
    rw [daysBeforeMonth_succ leap (Nat.le_trans one le)]
    exact Nat.le_trans ih (Nat.le_add_right _ _)

/-- The months of a year make up the year. -/
theorem daysBeforeMonth_thirteen (leap : Bool) : daysBeforeMonth leap 13 = yearLength leap := by
  cases leap <;> rfl

/-- A month that has a day is one of twelve. -/
theorem month_of_monthLength {leap : Bool} {month : Nat} (h : 0 < monthLength leap month) :
    1 ≤ month ∧ month ≤ 12 := by
  unfold monthLength at h
  split at h <;> omega

end Civil

namespace DateTime

/-- A date of the calendar and a time of day. -/
structure IsCivil (t : DateTime) : Prop where
  date : t.dateExists = true
  hour : t.hour < 24
  minute : t.minute < 60
  second : t.second < 60

/-- The days from the first of January of the year 1 to the date. -/
def dayNumber (t : DateTime) : Int :=
  Civil.daysBeforeYear t.year + Civil.daysBeforeMonth (Civil.isLeap t.year) t.month +
    ((t.day - 1 : Nat) : Int)

/-- The seconds that have passed since midnight. -/
def secondOfDay (t : DateTime) : Nat := (t.hour * 60 + t.minute) * 60 + t.second

/-- The seconds from the beginning of the year 1. -/
def seconds (t : DateTime) : Int := t.dayNumber * 86400 + t.secondOfDay

variable {t u : DateTime}

theorem IsCivil.day (h : t.IsCivil) :
    1 ≤ t.day ∧ t.day ≤ Civil.monthLength (Civil.isLeap t.year) t.month := by
  have date := h.date
  rw [dateExists, Bool.and_eq_true, decide_eq_true_iff, decide_eq_true_iff] at date
  exact date

theorem IsCivil.secondOfDay_lt (h : t.IsCivil) : t.secondOfDay < 86400 := by
  have := h.hour
  have := h.minute
  have := h.second
  rw [secondOfDay]
  omega

/-- A date lies in its month. -/
theorem IsCivil.before_next_month (h : t.IsCivil) :
    Civil.daysBeforeMonth (Civil.isLeap t.year) t.month + (t.day - 1) <
      Civil.daysBeforeMonth (Civil.isLeap t.year) (t.month + 1) := by
  obtain ⟨one, le⟩ := h.day
  have month := Civil.month_of_monthLength (Nat.lt_of_lt_of_le one le)
  rw [Civil.daysBeforeMonth_succ _ month.1]
  omega

/-- A date lies in its year. -/
theorem IsCivil.before_next_year (h : t.IsCivil) :
    t.dayNumber < Civil.daysBeforeYear (t.year + 1) := by
  obtain ⟨one, le⟩ := h.day
  have month := Civil.month_of_monthLength (Nat.lt_of_lt_of_le one le)
  have inMonth := h.before_next_month
  have inYear := Civil.daysBeforeMonth_mono (Civil.isLeap t.year)
    (Nat.le_add_left 1 t.month) (Nat.add_le_add_right month.2 1)
  rw [Civil.daysBeforeMonth_thirteen] at inYear
  rw [Civil.daysBeforeYear_succ, dayNumber]
  omega

theorem daysBeforeYear_le_dayNumber (t : DateTime) :
    Civil.daysBeforeYear t.year ≤ t.dayNumber := by
  rw [dayNumber]
  omega

/-- The count of days gives the year. -/
theorem year_le_of_dayNumber_le (hu : u.IsCivil) (h : t.dayNumber ≤ u.dayNumber) :
    t.year ≤ u.year := by
  refine Int.not_lt.1 fun later ↦ ?_
  have next : Civil.daysBeforeYear (u.year + 1) ≤ Civil.daysBeforeYear t.year :=
    Civil.daysBeforeYear_mono later
  have before := hu.before_next_year
  have := daysBeforeYear_le_dayNumber t
  omega

/-- Within a year it gives the month. -/
theorem month_le_of_dayNumber_le (hu : u.IsCivil) (year : t.year = u.year)
    (h : t.dayNumber ≤ u.dayNumber) : t.month ≤ u.month := by
  refine Nat.not_lt.1 fun later ↦ ?_
  have next := Civil.daysBeforeMonth_mono (Civil.isLeap u.year) (Nat.le_add_left 1 u.month) later
  have before := hu.before_next_month
  rw [dayNumber, dayNumber, year] at h
  omega

theorem dayNumber_inj (ht : t.IsCivil) (hu : u.IsCivil) (h : t.dayNumber = u.dayNumber) :
    t.year = u.year ∧ t.month = u.month ∧ t.day = u.day := by
  have year : t.year = u.year := Int.le_antisymm
    (year_le_of_dayNumber_le hu (Int.le_of_eq h))
    (year_le_of_dayNumber_le ht (Int.le_of_eq h.symm))
  have month : t.month = u.month := Nat.le_antisymm
    (month_le_of_dayNumber_le hu year (Int.le_of_eq h))
    (month_le_of_dayNumber_le ht year.symm (Int.le_of_eq h.symm))
  have := ht.day
  have := hu.day
  rw [dayNumber, dayNumber, year, month] at h
  exact ⟨year, month, by omega⟩

theorem secondOfDay_inj (ht : t.IsCivil) (hu : u.IsCivil) (h : t.secondOfDay = u.secondOfDay) :
    t.hour = u.hour ∧ t.minute = u.minute ∧ t.second = u.second := by
  have := ht.minute
  have := ht.second
  have := hu.minute
  have := hu.second
  rw [secondOfDay, secondOfDay] at h
  omega

/-- There is one civil time for each count of seconds at most. -/
theorem seconds_inj (ht : t.IsCivil) (hu : u.IsCivil) (h : t.seconds = u.seconds) : t = u := by
  have inDay := ht.secondOfDay_lt
  have inDay' := hu.secondOfDay_lt
  rw [seconds, seconds] at h
  obtain ⟨year, month, day⟩ := dayNumber_inj ht hu (by omega)
  obtain ⟨hour, minute, second⟩ := secondOfDay_inj ht hu (by omega)
  cases t
  cases u
  dsimp only at year month day hour minute second
  rw [year, month, day, hour, minute, second]

end DateTime

/-! ## The century from 2000 on -/

namespace Civil

/-- Whether a year counted from 2000 is a leap year. -/
def leapInCentury (year : Nat) : Bool := decide (year % 4 = 0)

theorem leapInCentury_iff {year : Nat} : leapInCentury year = true ↔ year % 4 = 0 :=
  decide_eq_true_iff

/-- From 2000 to 2099 every fourth year is a leap year. -/
theorem isLeap_century {year : Nat} (h : year < 100) :
    isLeap (2000 + year) = leapInCentury year := by
  rw [Bool.eq_iff_iff, isLeap_eq_true_iff, leapInCentury_iff]
  omega

/-- The days from the first of January 2000 to a date of the century, whose year is
counted from 2000. -/
def dayOfCentury (year month day : Nat) : Nat :=
  365 * year + (year + 3) / 4 + daysBeforeMonth (leapInCentury year) month + (day - 1)

variable {year month day : Nat}

theorem dayOfCentury_next_day (h : 1 ≤ day) :
    dayOfCentury year month (day + 1) = dayOfCentury year month day + 1 := by
  rw [dayOfCentury, dayOfCentury]
  omega

theorem dayOfCentury_next_month (h : 1 ≤ month)
    (length : 1 ≤ monthLength (leapInCentury year) month) :
    dayOfCentury year (month + 1) 1 =
      dayOfCentury year month (monthLength (leapInCentury year) month) + 1 := by
  rw [dayOfCentury, dayOfCentury, daysBeforeMonth_succ _ h]
  omega

theorem dayOfCentury_next_year (year : Nat) :
    dayOfCentury (year + 1) 1 1 = dayOfCentury year 12 31 + 1 := by
  have inYear := daysBeforeMonth_thirteen (leapInCentury year)
  have december : daysBeforeMonth (leapInCentury year) 13 =
    daysBeforeMonth (leapInCentury year) 12 + 31 := daysBeforeMonth_succ _ (by decide)
  rw [dayOfCentury, dayOfCentury, daysBeforeMonth_one]
  rw [yearLength] at inYear
  by_cases leap : leapInCentury year = true
  · have fourth := leapInCentury_iff.1 leap
    rw [if_pos leap] at inYear
    omega
  · have fourth := mt leapInCentury_iff.2 leap
    rw [if_neg leap] at inYear
    omega

theorem dayOfCentury_lt (century : year < 100) (inYear : 1 ≤ month ∧ month ≤ 12)
    (inMonth : 1 ≤ day ∧ day ≤ monthLength (leapInCentury year) month) :
    dayOfCentury year month day < 36525 := by
  have next := daysBeforeMonth_succ (leapInCentury year) inYear.1
  have last := daysBeforeMonth_mono (leapInCentury year)
    (Nat.le_add_left 1 month) (Nat.add_le_add_right inYear.2 1)
  rw [daysBeforeMonth_thirteen, yearLength] at last
  rw [dayOfCentury]
  by_cases leap : leapInCentury year = true
  · have fourth := leapInCentury_iff.1 leap
    rw [if_pos leap] at last
    omega
  · have fourth := mt leapInCentury_iff.2 leap
    rw [if_neg leap] at last
    omega

example : dayOfCentury 0 1 1 = 0 ∧ dayOfCentury 99 12 31 + 1 = 36525 := ⟨rfl, rfl⟩

end Civil

namespace DateTime

/-- The seconds from the beginning of the year 2000. -/
def sinceCentury (t : DateTime) : Int := t.seconds - 730119 * 86400

example : sinceCentury ⟨2000, 1, 1, 0, 0, 0⟩ = 0 := by decide

/-- The Gregorian count agrees with the one of the century. -/
theorem dayNumber_century {t : DateTime} {year : Nat} (h : year < 100)
    (eq : t.year = 2000 + year) :
    t.dayNumber = 730119 + Civil.dayOfCentury year t.month t.day := by
  rw [dayNumber, eq, Civil.isLeap_century h, Civil.daysBeforeYear, Civil.dayOfCentury]
  omega

end DateTime

end ClockChip
