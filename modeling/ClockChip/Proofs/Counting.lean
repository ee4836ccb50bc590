import ClockChip.Proofs.Days
import ClockChip.Registers.Basic
import Mathlib.Logic.Function.Iterate

/-!
# Counting seconds is calendar arithmetic

A calendar that shows a date and a time of day (`Shows`) stands for a number of
seconds since the beginning of the century (`secondOfCentury`).  Each carry of the
chain adds one in its own unit, modulo the century: an hour to the hours
(`Shows.countHour`), a minute to the minutes (`Shows.countMinute`) and a second to the
seconds (`Shows.countSecond`).  The hour is the one register that has two forms, which
carry in different places; `nextHour` and `endsDay` say what they have in common.

What the chip then shows is the civil time of that number (`Shows.sinceCentury`),
and the day of the week has gone on once for each midnight.
-/

namespace ClockChip.Calendar

open Bcd (value)

/-! ## What a calendar shows -/

/-- The registers are a date of the century and a time of day in the form of the hour
mode.  Nothing is said of the day of the week. -/
structure Shows (mode : HourMode) (c : Calendar) : Prop extends ShowsDate c where
  hour : HourFits mode c.hour
  minute : Bcd.InRange 0x00 0x59 c.minute
  second : Bcd.InRange 0x00 0x59 c.second

/-- The hour of the day that an hour register stands for. -/
def hourNumber (mode : HourMode) (b : UInt8) : Nat :=
  value (b &&& 0x3F) + if mode = .twelve ∧ b &&& afternoon ≠ 0 then 12 else 0

/-- The hours since the beginning of the century. -/
def hourOfCentury (mode : HourMode) (c : Calendar) : Nat :=
  c.dayOfCentury * 24 + hourNumber mode c.hour

/-- The minutes since the beginning of the century. -/
def minuteOfCentury (mode : HourMode) (c : Calendar) : Nat :=
  c.hourOfCentury mode * 60 + value c.minute

/-- The seconds since the beginning of the century. -/
def secondOfCentury (mode : HourMode) (c : Calendar) : Nat :=
  c.minuteOfCentury mode * 60 + value c.second

variable {mode : HourMode} {c : Calendar}

/-! ## The hour -/

/-- The hour register an hour later. -/
def nextHour (mode : HourMode) (b : UInt8) : UInt8 :=
  let hour := Bcd.increment (b &&& 0x3F)
  match mode with
  | .twentyFour => if hour ≥ 0x24 then 0 else hour ||| halfOf hour
  | .twelve => if hour ≥ 0x12 then (b &&& afternoon) ^^^ afternoon else hour ||| (b &&& afternoon)

/-- Whether the next hour is the first of a day.  In the twelve-hour mode only the second
round of the digits ends the day. -/
def endsDay (mode : HourMode) (b : UInt8) : Bool :=
  match mode with
  | .twentyFour => decide (Bcd.increment (b &&& 0x3F) ≥ 0x24)
  | .twelve => decide (Bcd.increment (b &&& 0x3F) ≥ 0x12) && b &&& afternoon != 0

theorem countHour_eq (mode : HourMode) (c : Calendar) :
    c.countHour mode =
      { if endsDay mode c.hour then c.countDay else c with hour := nextHour mode c.hour } := by
  cases mode with
  | twentyFour =>
    unfold countHour endsDay nextHour hourDigits
    by_cases past : Bcd.increment (c.hour &&& 0x3F) ≥ 0x24
    · simp only [past, if_true, decide_true]
    · simp only [past, if_false, decide_false, Bool.false_eq_true]
  | twelve =>
    unfold countHour endsDay nextHour hourDigits hourHalf
    by_cases past : Bcd.increment (c.hour &&& 0x3F) ≥ 0x12
    · by_cases half : c.hour &&& afternoon = 0
      · simp only [past, half, if_true, decide_true, Bool.true_and, bne_self_eq_false,
          Bool.false_eq_true, if_false]
      · simp only [past, half, if_true, if_false, decide_true, Bool.true_and, bne_iff_ne, ne_eq,
          not_false_eq_true]
    · simp only [past, if_false, decide_false, Bool.false_eq_true, Bool.false_and]

/-- The next hour fits the mode, is one more, and ends the day after the twenty-third. -/
def HourCounts (mode : HourMode) (b : UInt8) : Prop :=
  HourFits mode (nextHour mode b) ∧
    hourNumber mode (nextHour mode b) = (hourNumber mode b + 1) % 24 ∧
    endsDay mode b = decide (hourNumber mode b = 23) ∧ hourNumber mode b < 24

instance (mode : HourMode) (b : UInt8) : Decidable (HourCounts mode b) :=
  inferInstanceAs (Decidable (_ ∧ _ ∧ _ ∧ _))

theorem hourCounts : ∀ {b : UInt8}, HourFits mode b → HourCounts mode b := by
  cases mode with
  | twelve => decide
  | twentyFour => decide

/-! ## Hours, minutes and seconds -/

/-- Adding an hour adds one to the hours of the century. -/
theorem Shows.countHour (h : Shows mode c) :
    Shows mode (c.countHour mode) ∧
      (c.countHour mode).hourOfCentury mode = (c.hourOfCentury mode + 1) % (36525 * 24) ∧
      (c.countHour mode).weekday =
        if c.hourOfCentury mode % 24 = 23 then nextWeekday c.weekday else c.weekday := by
  obtain ⟨fits, step, ends, inDay⟩ := hourCounts h.hour
  obtain ⟨date, days⟩ := h.toShowsDate.countDay
  have bound := h.dayOfCentury_lt
  have ofDay : c.hourOfCentury mode % 24 = hourNumber mode c.hour := by
    rw [hourOfCentury]
    omega
  rw [countHour_eq, ends, ofDay]
  by_cases last : hourNumber mode c.hour = 23
  · rw [if_pos (decide_eq_true last), if_pos last]
    have frame := countDay_frame c
    refine ⟨⟨⟨date.year, date.month, date.digits, date.day⟩, fits, ?_, ?_⟩, ?_, ?_⟩
    · rw [frame]; exact h.minute
    · rw [frame]; exact h.second
    · change c.countDay.dayOfCentury * 24 + hourNumber mode (nextHour mode c.hour) = _
      rw [days, step, hourOfCentury, last]
      omega
    · rw [frame]
  · rw [if_neg (by rw [decide_eq_true_iff]; exact last), if_neg last]
    refine ⟨⟨⟨h.year, h.month, h.digits, h.day⟩, fits, h.minute, h.second⟩, ?_, rfl⟩
    change c.dayOfCentury * 24 + hourNumber mode (nextHour mode c.hour) = _
    rw [step, hourOfCentury]
    omega

/-- Registers that count to sixty either go on or come to their end. -/
theorem sixty {b : UInt8} (h : Bcd.InRange 0x00 0x59 b) :
    Bcd.increment b ≥ 0x60 ∧ value b = 59 ∨
      ¬Bcd.increment b ≥ 0x60 ∧ Bcd.InRange 0x00 0x59 (Bcd.increment b) ∧
        value (Bcd.increment b) = value b + 1 ∧ value b < 59 := by
  rcases UInt8.lt_or_eq_of_le h.2.1 with lt | rfl
  · have next := h.increment (by decide) lt
    have under : Bcd.increment b < 0x60 := UInt8.lt_of_le_of_lt next.2.1 (by decide)
    have below := (Bcd.lt_iff_value_lt h.isDigits (by decide)).1 lt
    exact .inr ⟨UInt8.not_le.2 under, next, h.value_increment (by decide) lt, below⟩
  · exact .inl (by decide)

/-- Such a register may start anew. -/
theorem sixty_zero : Bcd.InRange 0x00 0x59 0 := by decide

theorem minute_countHour (mode : HourMode) (c : Calendar) :
    (c.countHour mode).minute = c.minute := by
  rw [countHour_eq]
  cases endsDay mode c.hour with
  | true =>
    have kept := congrArg Calendar.minute (countDay_frame c)
    exact kept
  | false => rfl

theorem second_countHour (mode : HourMode) (c : Calendar) :
    (c.countHour mode).second = c.second := by
  rw [countHour_eq]
  cases endsDay mode c.hour with
  | true =>
    have kept := congrArg Calendar.second (countDay_frame c)
    exact kept
  | false => rfl

theorem second_countMinute (mode : HourMode) (c : Calendar) :
    (c.countMinute mode).second = c.second := by
  unfold countMinute
  dsimp only
  split
  · exact second_countHour mode { c with minute := 0 }
  · rfl

theorem Shows.hourOfCentury_lt (h : Shows mode c) : c.hourOfCentury mode < 36525 * 24 := by
  have days := h.dayOfCentury_lt
  have hour := (hourCounts h.hour).2.2.2
  rw [hourOfCentury]
  omega

/-- Adding a minute adds one to the minutes of the century. -/
theorem Shows.countMinute (h : Shows mode c) :
    Shows mode (c.countMinute mode) ∧
      (c.countMinute mode).minuteOfCentury mode = (c.minuteOfCentury mode + 1) % (36525 * 1440) ∧
      (c.countMinute mode).weekday =
        if c.minuteOfCentury mode % 1440 = 1439 then nextWeekday c.weekday else c.weekday := by
  have bound := h.hourOfCentury_lt
  rcases sixty h.minute with ⟨past, top⟩ | ⟨inside, minute, step, below⟩
  · have zero : Shows mode { c with minute := 0 } :=
      ⟨⟨h.year, h.month, h.digits, h.day⟩, h.hour, sixty_zero, h.second⟩
    have eq : c.countMinute mode = Calendar.countHour mode { c with minute := 0 } := if_pos past
    obtain ⟨shows, hours, weekday⟩ := zero.countHour
    rw [eq]
    refine ⟨shows, ?_, ?_⟩
    · have kept : value 0 = 0 := by decide
      rw [minuteOfCentury, hours, minute_countHour, minuteOfCentury, top, kept]
      change (c.hourOfCentury mode + 1) % (36525 * 24) * 60 + 0 = _
      omega
    · rw [weekday, minuteOfCentury, top]
      change (if c.hourOfCentury mode % 24 = 23 then _ else _) = _
      congr 1
      exact propext ⟨fun _ ↦ by omega, fun _ ↦ by omega⟩
  · have eq : c.countMinute mode = { c with minute := Bcd.increment c.minute } := if_neg inside
    rw [eq]
    refine ⟨⟨⟨h.year, h.month, h.digits, h.day⟩, h.hour, minute, h.second⟩, ?_, ?_⟩
    · change c.hourOfCentury mode * 60 + value (Bcd.increment c.minute) = _
      rw [step, minuteOfCentury]
      omega
    · rw [minuteOfCentury, if_neg (by omega)]

theorem Shows.minuteOfCentury_lt (h : Shows mode c) :
    c.minuteOfCentury mode < 36525 * 1440 := by
  have hours := h.hourOfCentury_lt
  have minute := h.minute.value_le (by decide)
  change value c.minute ≤ 59 at minute
  rw [minuteOfCentury]
  omega

/-- Adding a second adds one to the seconds of the century, and at midnight the day of the
week goes on. -/
theorem Shows.countSecond (h : Shows mode c) :
    Shows mode (c.countSecond mode) ∧
      (c.countSecond mode).secondOfCentury mode =
        (c.secondOfCentury mode + 1) % (36525 * 86400) ∧
      (c.countSecond mode).weekday =
        if c.secondOfCentury mode % 86400 = 86399 then nextWeekday c.weekday else c.weekday := by
  have bound := h.minuteOfCentury_lt
  rcases sixty h.second with ⟨past, top⟩ | ⟨inside, second, step, below⟩
  · have zero : Shows mode { c with second := 0 } :=
      ⟨⟨h.year, h.month, h.digits, h.day⟩, h.hour, h.minute, sixty_zero⟩
    have eq : c.countSecond mode = Calendar.countMinute mode { c with second := 0 } :=
      if_pos (decide_eq_true past)
    obtain ⟨shows, minutes, weekday⟩ := zero.countMinute
    rw [eq]
    refine ⟨shows, ?_, ?_⟩
    · have kept : value 0 = 0 := by decide
      rw [secondOfCentury, minutes, second_countMinute, secondOfCentury, top, kept]
      change (c.minuteOfCentury mode + 1) % (36525 * 1440) * 60 + 0 = _
      omega
    · rw [weekday, secondOfCentury, top]
      change (if c.minuteOfCentury mode % 1440 = 1439 then _ else _) = _
      congr 1
      exact propext ⟨fun _ ↦ by omega, fun _ ↦ by omega⟩
  · have eq : c.countSecond mode = { c with second := Bcd.increment c.second } :=
      if_neg (by rw [endsMinute, decide_eq_true_iff]; exact inside)
    rw [eq]
    refine ⟨⟨⟨h.year, h.month, h.digits, h.day⟩, h.hour, h.minute, second⟩, ?_, ?_⟩
    · change c.minuteOfCentury mode * 60 + value (Bcd.increment c.second) = _
      rw [step, secondOfCentury]
      omega
    · rw [secondOfCentury, if_neg (by omega)]

theorem Shows.secondOfCentury_lt (h : Shows mode c) :
    c.secondOfCentury mode < 36525 * 86400 := by
  have minutes := h.minuteOfCentury_lt
  have second := h.second.value_le (by decide)
  change value c.second ≤ 59 at second
  rw [secondOfCentury]
  omega

/-! ## Civil time -/

/-- The masks with which the registers are read take nothing from them. -/
theorem mask_of_le : ∀ b : UInt8, (b ≤ 0x31 → b &&& 0x3F = b) ∧ (b ≤ 0x59 → b &&& 0x7F = b) := by
  decide

/-- The date that such a calendar shows has the numbers of its registers for fields. -/
theorem Shows.toDateTime_eq (h : Shows mode c) :
    c.toDateTime mode =
      { year := 2000 + (value c.year : Int)
        month := value c.month
        day := value c.day
        hour := hourNumber mode c.hour
        minute := value c.minute
        second := value c.second } := by
  have month := (mask_of_le c.month).1 (UInt8.le_trans h.month.2.1 (by decide))
  have day := (mask_of_le c.day).1 h.inRange_day.2.1
  have minute := (mask_of_le c.minute).2 h.minute.2.1
  have second := (mask_of_le c.second).2 h.second.2.1
  rw [toDateTime, month, day, minute, second]
  rfl

theorem Shows.isCivil (h : Shows mode c) : (c.toDateTime mode).IsCivil := by
  rw [h.toDateTime_eq]
  constructor
  · rw [DateTime.dateExists, Civil.isLeap_century h.value_year, Bool.and_eq_true,
      decide_eq_true_iff, decide_eq_true_iff]
    exact h.value_day
  · exact (hourCounts h.hour).2.2.2
  · exact Nat.lt_succ_of_le (h.minute.value_le (by decide))
  · exact Nat.lt_succ_of_le (h.second.value_le (by decide))

/-- What the calendar shows is the civil time of its number of seconds. -/
theorem Shows.sinceCentury (h : Shows mode c) :
    (c.toDateTime mode).sinceCentury = c.secondOfCentury mode := by
  have year : (c.toDateTime mode).year = 2000 + (value c.year : Int) := by rw [h.toDateTime_eq]
  rw [DateTime.sinceCentury, DateTime.seconds, DateTime.dayNumber_century h.value_year year,
    h.toDateTime_eq, DateTime.secondOfDay, secondOfCentury, minuteOfCentury, hourOfCentury,
    dayOfCentury]
  dsimp only
  omega

theorem Shows.secondOfDay (h : Shows mode c) :
    (c.toDateTime mode).secondOfDay = c.secondOfCentury mode % 86400 := by
  have inDay := h.isCivil.secondOfDay_lt
  rw [h.toDateTime_eq, DateTime.secondOfDay] at inDay ⊢
  rw [secondOfCentury, minuteOfCentury, hourOfCentury]
  dsimp only at inDay ⊢
  omega

/-! ## Days of the week -/

/-- Within its range the day of the week is a counter modulo seven. -/
theorem toNat_nextWeekday_iterate {w : UInt8} (h : w ≤ 6) (n : Nat) :
    (nextWeekday^[n] w).toNat = (w.toNat + n) % 7 := by
  have step : ∀ b ≤ (6 : UInt8), (nextWeekday b).toNat = (b.toNat + 1) % 7 := by decide
  have inWeek := UInt8.le_iff_toNat_le.1 h
  change w.toNat ≤ 6 at inWeek
  induction n with
  | zero => exact (Nat.mod_eq_of_lt (Nat.lt_succ_of_le inWeek)).symm
  | succ n ih =>
    have here : nextWeekday^[n] w ≤ 6 := by
      rw [UInt8.le_iff_toNat_le, ih]
      exact Nat.le_of_lt_succ (Nat.mod_lt _ (by decide))
    rw [Function.iterate_succ_apply']
    rw [step _ here, ih]
    omega

end ClockChip.Calendar

namespace ClockChip.Registers

open Calendar (nextWeekday)

/-- The registers show a date and a time of day in the form of their hour mode. -/
def Shows (r : Registers) : Prop := r.calendar.Shows r.hourMode

/-- The seconds since the beginning of the century. -/
def secondOfCentury (r : Registers) : Nat := r.calendar.secondOfCentury r.hourMode

/-- After any number of seconds the registers show a date again, the seconds have been
added, and the day of the week has gone on with every midnight. -/
theorem Shows.iterate_countSecond {r : Registers} (h : r.Shows) (n : Nat) :
    (countSecond^[n] r).Shows ∧
      (countSecond^[n] r).secondOfCentury = (r.secondOfCentury + n) % (36525 * 86400) ∧
      (countSecond^[n] r).calendar.weekday =
        nextWeekday^[(r.secondOfCentury % 86400 + n) / 86400] r.calendar.weekday := by
  induction n with
  | zero =>
    have bound := Calendar.Shows.secondOfCentury_lt h
    have inDay : (r.secondOfCentury % 86400 + 0) / 86400 = 0 := by omega
    rw [inDay]
    exact ⟨h, (Nat.mod_eq_of_lt bound).symm, rfl⟩
  | succ n ih =>
    obtain ⟨shows, seconds, weekday⟩ := ih
    obtain ⟨shows', seconds', weekday'⟩ := Calendar.Shows.countSecond shows
    rw [Function.iterate_succ_apply']
    change secondOfCentury (countSecond^[n] r).countSecond = _ at seconds'
    change _ = if secondOfCentury (countSecond^[n] r) % 86400 = 86399 then _ else _ at weekday'
    refine ⟨shows', ?_, ?_⟩
    · rw [seconds']
      change ((countSecond^[n] r).secondOfCentury + 1) % _ = _
      rw [seconds]
      omega
    · change Calendar.weekday _ = _ at weekday'
      rw [seconds, weekday] at weekday'
      refine weekday'.trans ?_
      by_cases midnight : (r.secondOfCentury + n) % (36525 * 86400) % 86400 = 86399
      · have more : (r.secondOfCentury % 86400 + (n + 1)) / 86400 =
            (r.secondOfCentury % 86400 + n) / 86400 + 1 := by omega
        rw [if_pos midnight, more, Function.iterate_succ_apply']
      · have same : (r.secondOfCentury % 86400 + (n + 1)) / 86400 =
            (r.secondOfCentury % 86400 + n) / 86400 := by omega
        rw [if_neg midnight, same]

/-- Counting seconds is the arithmetic of civil time.  Registers that show a date and a
time of day of the century do so after any number of seconds, in either hour mode.  The
time that they then show is the one civil time so many seconds later, where the end of
2099 is followed by the beginning of 2000, and the day of the week has gone on by one for
each midnight in between. -/
theorem dateTime_iterate_countSecond {r : Registers} (h : r.Shows) (n : Nat) :
    let after := countSecond^[n] r
    let midnights := (r.dateTime.secondOfDay + n) / 86400
    after.Shows ∧
      (∀ t : DateTime, t = after.dateTime ↔
        t.IsCivil ∧ t.sinceCentury = (r.dateTime.sinceCentury + n) % (36525 * 86400)) ∧
      (r.calendar.weekday ≤ 6 →
        after.calendar.weekday.toNat = (r.calendar.weekday.toNat + midnights) % 7) := by
  intro after midnights
  obtain ⟨shows, seconds, weekday⟩ := h.iterate_countSecond n
  have now : r.dateTime.sinceCentury = r.secondOfCentury := Calendar.Shows.sinceCentury h
  have then' : after.dateTime.sinceCentury =
      (r.dateTime.sinceCentury + n) % (36525 * 86400) := by
    rw [now]
    refine (Calendar.Shows.sinceCentury shows).trans ?_
    change ((countSecond^[n] r).secondOfCentury : Int) = _
    rw [seconds]
    omega
  refine ⟨shows, fun t ↦ ⟨?_, ?_⟩, fun inWeek ↦ ?_⟩
  · rintro rfl
    exact ⟨Calendar.Shows.isCivil shows, then'⟩
  · rintro ⟨civil, same⟩
    have equal : t.sinceCentury = after.dateTime.sinceCentury := by rw [same, then']
    rw [DateTime.sinceCentury, DateTime.sinceCentury] at equal
    exact DateTime.seconds_inj civil (Calendar.Shows.isCivil shows) (by omega)
  · have inDay : r.dateTime.secondOfDay = r.secondOfCentury % 86400 :=
      Calendar.Shows.secondOfDay h
    change (countSecond^[n] r).calendar.weekday.toNat =
      (r.calendar.weekday.toNat + (r.dateTime.secondOfDay + n) / 86400) % 7
    rw [weekday, inDay]
    exact Calendar.toNat_nextWeekday_iterate inWeek _

/-- The last second of the century, a Thursday, in the twelve-hour mode. -/
def endOfCentury : Registers :=
  { cleared with
    calendar :=
      { year := 0x99, month := 0x12, day := 0x31, weekday := 4,
        hour := 0x51, minute := 0x59, second := 0x59 } }

/-- A second after the end of the century its first day has begun. -/
theorem dateTime_iterate_countSecond_endOfCentury :
    endOfCentury.Shows ∧
      (⟨2000, 1, 1, 0, 0, 0⟩ : DateTime) = (countSecond^[1] endOfCentury).dateTime ∧
      (countSecond^[1] endOfCentury).calendar.weekday.toNat = 5 := by
  have shows : endOfCentury.Shows :=
    ⟨⟨by decide, by decide, by decide, by decide⟩, by decide, by decide, by decide⟩
  obtain ⟨-, civil, weekday⟩ := dateTime_iterate_countSecond shows 1
  refine ⟨shows, (civil _).2 ⟨?_, ?_⟩, ?_⟩
  · constructor <;> decide
  · decide
  · rw [weekday (by decide)]
    decide

end ClockChip.Registers
