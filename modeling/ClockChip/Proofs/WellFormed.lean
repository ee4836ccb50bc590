import ClockChip.Proofs.Counting
import ClockChip.Proofs.Serving

/-!
# Registers stay in range

A calendar that is well formed stays so whatever the chip does with it: counting
(`WellFormed.countSecond`), a byte from the bus at any position (`WellFormed.write`)
and a change of the hour mode (`WellFormed.convertHour`) each take a well-formed
calendar to another one.  Where nothing is known of the calendar before, as when the
host installs registers or restores a stream, writing every register back makes one
(`wellFormed_sanitize`), and one with a date.

The hour is the register to watch, because its range depends on a bit of another
register; `Registers.WellFormed` takes the two together.  From there it is a walk over
the actions of a machine (`Machine.Reachable.wellFormed`).
-/

namespace ClockChip.Calendar

variable {mode : HourMode} {c : Calendar}

/-! ## Counting -/

theorem nextWeekday_le (w : UInt8) : nextWeekday w ≤ 6 := by
  unfold nextWeekday
  split
  · exact UInt8.zero_le
  · next under =>
    have lt := UInt8.lt_iff_toNat_lt.1 (UInt8.not_le.1 under)
    exact UInt8.le_iff_toNat_le.2 (Nat.le_of_lt_succ lt)

/-- Leaving a month takes digits past its end to a date. -/
theorem showsDate_leaveMonth (year : Bcd.InRange 0x00 0x99 c.year)
    (month : Bcd.InRange 0x01 0x12 c.month) (digits : Bcd.isDigits c.day = true)
    (pos : 1 ≤ c.day) : ShowsDate c.leaveMonth := by
  by_cases past : c.day > c.monthEnd
  · rw [leaveMonth, if_pos past]
    exact showsDate_countMonth (c := { c with day := 1 }) year month rfl
  · have exists_ : c.DayExists := ⟨pos, UInt8.not_lt.1 past⟩
    rw [leaveMonth_of_dayExists exists_]
    exact ⟨year, month, digits, exists_⟩

/-- The day after any is a date, even if that one was none. -/
theorem WellFormed.showsDate_countDay (h : WellFormed mode c) : ShowsDate c.countDay := by
  have digits := Bcd.isDigits_increment h.day.isDigits
  have step := Bcd.value_increment h.day.isDigits
  have first : Bcd.value 0x01 ≤ Bcd.value c.day := h.day.le_value (by decide)
  have last : Bcd.value c.day ≤ Bcd.value 0x31 := h.day.value_le (by decide)
  have top : Bcd.value 0x31 = 31 := by decide
  have pos : 1 ≤ Bcd.increment c.day := by
    refine (Bcd.value_le_iff (by decide) digits).1 ?_
    rw [step, Bcd.value_one]
    omega
  exact showsDate_leaveMonth
    (c := { c with weekday := nextWeekday c.weekday, day := Bcd.increment c.day })
    h.year h.month digits pos

theorem WellFormed.countDay (h : WellFormed mode c) : WellFormed mode c.countDay := by
  have date := h.showsDate_countDay
  rw [countDay_frame]
  exact ⟨date.year, date.month, date.inRange_day, nextWeekday_le _, h.hour, h.minute, h.second⟩

theorem WellFormed.countHour (h : WellFormed mode c) : WellFormed mode (c.countHour mode) := by
  have hour := (hourCounts h.hour).1
  rw [countHour_eq]
  cases endsDay mode c.hour with
  | true =>
    have next := h.countDay
    exact ⟨next.year, next.month, next.day, next.weekday, hour, next.minute, next.second⟩
  | false => exact ⟨h.year, h.month, h.day, h.weekday, hour, h.minute, h.second⟩

theorem WellFormed.minute_zero (h : WellFormed mode c) : WellFormed mode { c with minute := 0 } :=
  ⟨h.year, h.month, h.day, h.weekday, h.hour, sixty_zero, h.second⟩

theorem WellFormed.second_zero (h : WellFormed mode c) : WellFormed mode { c with second := 0 } :=
  ⟨h.year, h.month, h.day, h.weekday, h.hour, h.minute, sixty_zero⟩

theorem WellFormed.countMinute (h : WellFormed mode c) : WellFormed mode (c.countMinute mode) := by
  unfold Calendar.countMinute
  rcases sixty h.minute with ⟨past, -⟩ | ⟨inside, minute, -⟩
  · rw [if_pos past]
    exact h.minute_zero.countHour
  · rw [if_neg inside]
    exact ⟨h.year, h.month, h.day, h.weekday, h.hour, minute, h.second⟩

/-- Counting a second keeps every register in its range, also while the day is not one of
its month. -/
theorem WellFormed.countSecond (h : WellFormed mode c) : WellFormed mode (c.countSecond mode) := by
  unfold Calendar.countSecond endsMinute
  rcases sixty h.second with ⟨past, -⟩ | ⟨inside, second, -⟩
  · rw [if_pos (decide_eq_true past)]
    exact h.second_zero.countMinute
  · rw [if_neg (mt of_decide_eq_true inside)]
    exact ⟨h.year, h.month, h.day, h.weekday, h.hour, h.minute, second⟩

/-! ## Writing -/

/-- Whatever hour is written, the register fits the mode. -/
theorem hourFits_hourWritten (mode : HourMode) : ∀ b, HourFits mode (hourWritten mode b) := by
  cases mode with
  | twelve => decide
  | twentyFour => decide

/-- There are two modes. -/
theorem other_cases {mode' : HourMode} (other : mode' ≠ mode) :
    mode = .twelve ∧ mode' = .twentyFour ∨ mode = .twentyFour ∧ mode' = .twelve := by
  cases mode with
  | twelve =>
    cases mode' with
    | twelve => exact absurd rfl other
    | twentyFour => exact .inl ⟨rfl, rfl⟩
  | twentyFour =>
    cases mode' with
    | twelve => exact .inr ⟨rfl, rfl⟩
    | twentyFour => exact absurd rfl other

/-- An hour that fits one mode is converted to one that fits the other. -/
theorem hourFits_convertHour {mode' : HourMode} (other : mode' ≠ mode)
    (h : HourFits mode c.hour) : HourFits mode' (c.convertHour mode').hour := by
  have toTwentyFour : ∀ b, HourFits .twelve b →
      HourFits .twentyFour (convertHour .twentyFour { hour := b }).hour := by
    decide
  have toTwelve : ∀ b, HourFits .twentyFour b →
      HourFits .twelve (convertHour .twelve { hour := b }).hour := by
    decide
  rcases other_cases other with ⟨rfl, rfl⟩ | ⟨rfl, rfl⟩
  · exact toTwentyFour c.hour h
  · exact toTwelve c.hour h

theorem convertHour_frame (mode : HourMode) (c : Calendar) :
    c.convertHour mode = { c with hour := (c.convertHour mode).hour } := by
  cases mode <;> rfl

theorem WellFormed.convertHour {mode' : HourMode} (other : mode' ≠ mode) (h : WellFormed mode c) :
    WellFormed mode' (c.convertHour mode') := by
  have hour := hourFits_convertHour other h.hour
  rw [convertHour_frame]
  exact ⟨h.year, h.month, h.day, h.weekday, hour, h.minute, h.second⟩

/-- What is written to a register that counts to sixty. -/
theorem inRange_written_sixty (b : UInt8) :
    Bcd.InRange 0x00 0x59 (Bcd.clamp (b &&& 0x7F) 0x00 0x59) :=
  Bcd.inRange_clamp (by decide) _

theorem inRange_written_day (b : UInt8) :
    Bcd.InRange 0x01 0x31 (Bcd.clamp (b &&& 0x3F) 0x01 0x31) :=
  Bcd.inRange_clamp (by decide) _

theorem written_weekday_le (b : UInt8) : Bcd.clamp (b &&& 0x07) 0x00 0x06 ≤ 0x06 :=
  (Bcd.inRange_clamp (by decide) _).2.1

/-- A byte that is written, at whatever position, keeps every register in its range. -/
theorem WellFormed.write (h : WellFormed mode c) (position : Nat) (b : UInt8) :
    WellFormed mode (c.write mode position b) := by
  unfold Calendar.write
  split
  · exact ⟨Bcd.inRange_clamp (by decide) b, h.month, h.day, h.weekday, h.hour, h.minute, h.second⟩
  · exact ⟨h.year, Bcd.inRange_clamp (by decide) _, h.day, h.weekday, h.hour, h.minute, h.second⟩
  · have day := inRange_written_day b
    have date := showsDate_leaveMonth (c := { c with day := Bcd.clamp (b &&& 0x3F) 0x01 0x31 })
      h.year h.month day.isDigits day.1
    rw [leaveMonth_frame]
    exact ⟨date.year, date.month, date.inRange_day, h.weekday, h.hour, h.minute, h.second⟩
  · exact ⟨h.year, h.month, h.day, written_weekday_le b, h.hour, h.minute, h.second⟩
  · exact ⟨h.year, h.month, h.day, h.weekday, hourFits_hourWritten mode b, h.minute, h.second⟩
  · exact ⟨h.year, h.month, h.day, h.weekday, h.hour, inRange_written_sixty b, h.second⟩
  · exact ⟨h.year, h.month, h.day, h.weekday, h.hour, h.minute, inRange_written_sixty b⟩
  · exact h

/-! ## Making a calendar well formed -/

/-- The calendar when its year, month and day have been written back, but for the end of
the month. -/
def cleanDate (c : Calendar) : Calendar :=
  { c with
    year := Bcd.clamp c.year 0x00 0x99
    month := Bcd.clamp (c.month &&& 0x1F) 0x01 0x12
    day := Bcd.clamp (c.day &&& 0x3F) 0x01 0x31 }

theorem sanitize_eq (mode : HourMode) (c : Calendar) :
    c.sanitize mode =
      { c.cleanDate.leaveMonth with
        weekday := Bcd.clamp (c.weekday &&& 0x07) 0x00 0x06
        hour := hourWritten mode c.hour
        minute := Bcd.clamp (c.minute &&& 0x7F) 0x00 0x59
        second := Bcd.clamp (c.second &&& 0x7F) 0x00 0x59 } := by
  have bytes : c.toBytes.toList =
      [c.year, c.month, c.day, c.weekday, c.hour, c.minute, c.second] := rfl
  rw [sanitize, bytes]
  simp only [writeFrom, write]
  rfl

/-- Whatever the registers hold, when they have been written back they show a date and a
time of day. -/
theorem shows_sanitize (mode : HourMode) (c : Calendar) : Shows mode (c.sanitize mode) := by
  have day := inRange_written_day c.day
  have date := showsDate_leaveMonth (c := c.cleanDate) (Bcd.inRange_clamp (by decide) _)
    (Bcd.inRange_clamp (by decide) _) day.isDigits day.1
  rw [sanitize_eq]
  exact ⟨⟨date.year, date.month, date.digits, date.day⟩, hourFits_hourWritten mode c.hour,
    inRange_written_sixty c.minute, inRange_written_sixty c.second⟩

theorem Shows.wellFormed (h : Shows mode c) (inWeek : c.weekday ≤ 6) : WellFormed mode c :=
  ⟨h.year, h.month, h.inRange_day, inWeek, h.hour, h.minute, h.second⟩

theorem wellFormed_sanitize (mode : HourMode) (c : Calendar) : WellFormed mode (c.sanitize mode) :=
  (shows_sanitize mode c).wellFormed (written_weekday_le c.weekday)

/-! ## Setting a date -/

theorem value_ofBinary {n : Nat} (h : n < 100) : Bcd.value (Bcd.ofBinary (UInt8.ofNat n)) = n := by
  rw [Bcd.value, Bcd.toBinary_ofBinary n h, UInt8.toNat_ofNat_of_lt' (by rw [UInt8.size]; omega)]

/-- A number packed into digits is in any range that it is between. -/
theorem inRange_ofBinary {low high : UInt8} {n : Nat} (bottom : Bcd.isDigits low = true)
    (top : Bcd.isDigits high = true) (ge : Bcd.value low ≤ n) (le : n ≤ Bcd.value high) :
    Bcd.InRange low high (Bcd.ofBinary (UInt8.ofNat n)) := by
  have small : n < 100 := Nat.lt_of_le_of_lt le (Bcd.value_lt top)
  have digits := Bcd.isDigits_ofBinary n small
  refine ⟨(Bcd.value_le_iff bottom digits).1 ?_, (Bcd.value_le_iff digits top).1 ?_, digits⟩
  · rwa [value_ofBinary small]
  · rwa [value_ofBinary small]

theorem hourFits_hourOf (mode : HourMode) : ∀ hour < 24, HourFits mode (hourOf mode hour) := by
  cases mode <;> decide

/-- The year of a date that is brought into the century is below a hundred. -/
theorem year_intoCentury (t : DateTime) : t.intoCentury.year.toNat < 100 := by
  have small : t.year.tmod 100 < 100 := Int.tmod_lt_of_pos t.year (by decide)
  change (max (t.year.tmod 100) 0).toNat < 100
  omega

/-- A number that becomes the first of its range where it is not in it. -/
theorem range_or_first {first last n : Nat} (h : first ≤ last) :
    first ≤ (if first ≤ n ∧ n ≤ last then n else first) ∧
      (if first ≤ n ∧ n ≤ last then n else first) ≤ last := by
  split
  · assumption
  · exact ⟨Nat.le_refl first, h⟩

theorem month_intoCentury (t : DateTime) :
    1 ≤ t.intoCentury.month ∧ t.intoCentury.month ≤ 12 :=
  range_or_first (by decide : 1 ≤ 12)

/-- The end of the month that a date is brought into. -/
theorem length_intoCentury (t : DateTime) :
    let length := Civil.monthLength (decide (t.intoCentury.year % 4 = 0)) t.intoCentury.month
    1 ≤ length ∧ length ≤ 31 :=
  monthLength_range _ _ (Nat.lt_succ_of_le (month_intoCentury t).2) (month_intoCentury t).1

theorem day_intoCentury (t : DateTime) :
    1 ≤ t.intoCentury.day ∧
      t.intoCentury.day ≤
        Civil.monthLength (decide (t.intoCentury.year % 4 = 0)) t.intoCentury.month :=
  range_or_first (length_intoCentury t).1

theorem time_intoCentury (t : DateTime) :
    t.intoCentury.hour < 24 ∧ t.intoCentury.minute ≤ 59 ∧ t.intoCentury.second ≤ 59 := by
  unfold DateTime.intoCentury
  refine ⟨?_, ?_, ?_⟩
  · dsimp only; split <;> omega
  · dsimp only; split <;> omega
  · dsimp only; split <;> omega

/-- Any date that the host sets comes out well formed. -/
theorem wellFormed_ofDateTime (mode : HourMode) (t : DateTime) :
    WellFormed mode (ofDateTime mode t) := by
  have year := year_intoCentury t
  have month := month_intoCentury t
  have day := day_intoCentury t
  have length := length_intoCentury t
  have weekday : weekdayOf t.intoCentury.year.toNat t.intoCentury.month t.intoCentury.day < 7 :=
    Nat.mod_lt _ (by decide)
  obtain ⟨hour, minute, second⟩ := time_intoCentury t
  constructor
  · exact inRange_ofBinary (by decide) (by decide) (Nat.zero_le _) (Nat.le_of_lt_succ year)
  · exact inRange_ofBinary (by decide) (by decide) month.1 month.2
  · exact inRange_ofBinary (by decide) (by decide) day.1 (Nat.le_trans day.2 length.2)
  · rw [UInt8.le_iff_toNat_le]
    change (UInt8.ofNat _).toNat ≤ 6
    rw [UInt8.toNat_ofNat_of_lt' (by rw [UInt8.size]; omega)]
    omega
  · exact hourFits_hourOf mode _ hour
  · exact inRange_ofBinary (by decide) (by decide) (Nat.zero_le _) minute
  · exact inRange_ofBinary (by decide) (by decide) (Nat.zero_le _) second

end ClockChip.Calendar

/-! ## Register files -/

namespace ClockChip.Registers

/-- Every calendar register is in its range, the hour in that of the present mode. -/
def WellFormed (r : Registers) : Prop := r.calendar.WellFormed r.hourMode

/-- The flags that are reported once say nothing of the hour mode. -/
@[simp] theorem hourMode_acknowledge (g : Group) (r : Registers) :
    (r.acknowledge g).hourMode = r.hourMode := by
  have kept : ∀ status : BitVec 8,
      Status1.hour24.isSet (status &&& ~~~Status1.reported) = Status1.hour24.isSet status := by
    decide
  cases g with
  | status1 => rw [acknowledge, hourMode, hourMode, kept]
  | _ => rfl

@[simp] theorem hourMode_setDateTime (t : DateTime) (r : Registers) :
    (r.setDateTime t).hourMode = r.hourMode := by
  have kept : ∀ status : BitVec 8,
      Status1.hour24.isSet (Status1.powerLost.put false status) =
        Status1.hour24.isSet status := by
    decide
  rw [setDateTime, hourMode, hourMode, kept]

theorem wellFormed_cleared (mode : HourMode) : cleared.calendar.WellFormed mode :=
  Calendar.wellFormed_first mode

variable {r : Registers}

theorem WellFormed.countSecond (h : r.WellFormed) : r.countSecond.WellFormed :=
  Calendar.WellFormed.countSecond h

theorem WellFormed.iterate_countSecond (h : r.WellFormed) (n : Nat) :
    (Registers.countSecond^[n] r).WellFormed := by
  induction n with
  | zero => exact h
  | succ n ih =>
    rw [Function.iterate_succ_apply']
    exact ih.countSecond

/-- The calendar does not know what is acknowledged. -/
@[simp] theorem calendar_acknowledge (g : Group) (r : Registers) :
    (r.acknowledge g).calendar = r.calendar := by
  cases g <;> rfl

theorem WellFormed.acknowledge (h : r.WellFormed) (g : Group) : (r.acknowledge g).WellFormed := by
  rw [WellFormed, hourMode_acknowledge, calendar_acknowledge]
  exact h

/-- The registers when a byte has been written to status register 1, but for the
conversion of the hour. -/
def withStatus1 (b : UInt8) (r : Registers) : Registers :=
  let base := if Status1.reset.isSet b.toBitVec then cleared else r
  { base with
    status1 := (base.status1 &&& Status1.reported) ||| (b.toBitVec &&& Status1.writable) }

theorem writeStatus1_eq (b : UInt8) (r : Registers) :
    r.writeStatus1 b =
      if (r.withStatus1 b).hourMode = r.hourMode then r.withStatus1 b
      else (r.withStatus1 b).convertHour :=
  rfl

/-- The calendar is cleared or stays, and in either case it fits the mode before. -/
theorem WellFormed.calendar_withStatus1 (h : r.WellFormed) (b : UInt8) :
    (r.withStatus1 b).calendar.WellFormed r.hourMode := by
  unfold withStatus1
  dsimp only
  split
  · exact wellFormed_cleared r.hourMode
  · exact h

/-- Status register 1 has three effects at once: it may clear the calendar, it sets the
hour mode, and where the mode becomes the other one it converts the hour. -/
theorem WellFormed.writeStatus1 (h : r.WellFormed) (b : UInt8) : (r.writeStatus1 b).WellFormed := by
  have before := h.calendar_withStatus1 b
  rw [writeStatus1_eq]
  split
  · next same =>
    rw [WellFormed, same]
    exact before
  · next other => exact before.convertHour other

theorem WellFormed.writeCalendar (h : r.WellFormed) (position : Nat) (b : UInt8) :
    (r.writeCalendar position b).WellFormed :=
  Calendar.WellFormed.write h position b

theorem WellFormed.sameClock {r' : Registers} (h : r.WellFormed) (same : r.SameClock r') :
    r'.WellFormed := by
  rw [WellFormed, hourMode, same.status1, same.calendar]
  exact h

/-- A byte that is stored in any group, at any position, keeps the registers well formed. -/
theorem WellFormed.write (h : r.WellFormed) (g : Group) (position : Nat) (b : UInt8) :
    (r.write g position b).WellFormed := by
  rcases write_cases g position b r with eq | ⟨place, eq⟩ | same
  · rw [eq]
    exact h.writeStatus1 b
  · rw [eq]
    exact h.writeCalendar place b
  · exact h.sameClock same

theorem WellFormed.touched {r' : Registers} (h : r.WellFormed) (t : r.Touched r') :
    r'.WellFormed := by
  cases t with
  | kept => exact h
  | acknowledged g => exact h.acknowledge g
  | written g position b => exact h.write g position b

/-- Registers that are installed need not have been well formed before. -/
theorem wellFormed_sanitize (r : Registers) : r.sanitize.WellFormed :=
  Calendar.wellFormed_sanitize r.hourMode r.calendar

theorem wellFormed_setDateTime (t : DateTime) (r : Registers) : (r.setDateTime t).WellFormed := by
  rw [WellFormed, hourMode_setDateTime]
  exact Calendar.wellFormed_ofDateTime r.hourMode t

end ClockChip.Registers

/-! ## Machines -/

namespace ClockChip.Machine

variable {m : Machine}

theorem registers_reset (m : Machine) :
    m.reset.chip.registers =
      match m.config.boot with
      | none => m.chip.registers
      | some t => m.chip.registers.setDateTime t := by
  unfold reset
  cases m.config.boot <;> rfl

theorem wellFormed_reset (h : m.chip.registers.WellFormed) : m.reset.chip.registers.WellFormed := by
  rw [registers_reset]
  split
  · exact h
  · exact Registers.wellFormed_setDateTime _ _

theorem wellFormed_write (h : m.chip.registers.WellFormed) (w : Word) :
    (m.chip.write w).registers.WellFormed :=
  h.touched (Chip.touched_write m.chip w)

/-- Whatever is done to a machine, its registers stay well formed. -/
theorem wellFormed_act (h : m.chip.registers.WellFormed) (a : Action) :
    (m.act a).chip.registers.WellFormed := by
  cases a with
  | reset => exact wellFormed_reset h
  | run cycles =>
    change (m.run cycles).chip.registers.WellFormed
    rw [registers_run]
    exact h.iterate_countSecond _
  | write16 address w =>
    exact write16_of (p := fun m ↦ m.chip.registers.WellFormed) h (wellFormed_write h) address w
  | write8 address b =>
    exact write8_of (p := fun m ↦ m.chip.registers.WellFormed) h (wellFormed_write h) address b
  | setDateTime t => exact Registers.wellFormed_setDateTime t _
  | install r => exact r.wellFormed_sanitize
  | setConsole console => exact h
  | load data =>
    unfold act
    dsimp only
    cases loaded : m.load data with
    | error e => exact h
    | ok m' =>
      obtain ⟨s, -, rfl⟩ := load_eq_ok_iff.1 loaded
      exact s.chip.registers.wellFormed_sanitize

theorem Reachable.wellFormed (h : Reachable m) : m.chip.registers.WellFormed := by
  induction h with
  | start config => exact wellFormed_reset (Registers.wellFormed_cleared _)
  | act _ a ih => exact wellFormed_act ih a

end ClockChip.Machine
