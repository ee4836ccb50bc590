import ClockChip.Proofs.OnDisk
import ClockChip.Proofs.Seeding

/-!
# What the program shows

A machine that was set to a date holds, some seconds later, the date that it then is, with its
day of the week (`Shows.later`).  The program does not quite show it.  It shows the digits of
the hour without the half of the day (`lineOf_eq`), and a chip that is switched on counts twelve
hours.  So the line is that of the date with its hour taken modulo twelve, which is the right
one just in the morning (`runOn_dates`).
-/

namespace ClockChip

/-! ## Dates as text -/

namespace DateTime

/-- Two decimal digits. -/
def twoDigits (n : Nat) : String := toString (n / 10) ++ toString (n % 10)

/-- The line that shows a date, a time of day and a day of the week. -/
def lineOn (weekday : Nat) (t : DateTime) : String :=
  "RTC: " ++ toString t.year ++ "-" ++ twoDigits t.month ++ "-" ++ twoDigits t.day ++ " " ++
    twoDigits t.hour ++ ":" ++ twoDigits t.minute ++ ":" ++ twoDigits t.second ++
    " (day of week " ++ toString weekday ++ ")"

/-- The line that shows a date, with its own day of the week. -/
def line (t : DateTime) : String := t.lineOn t.weekday

/-- The date at the same hour of the first half of the day. -/
def inMorning (t : DateTime) : DateTime := { t with hour := t.hour % 12 }

theorem toString_century : ∀ year < 100, toString (2000 + (year : Nat) : Int) =
    "20" ++ twoDigits year := by
  decide +kernel

/-- Lines that differ in their hours at most show the hours. -/
theorem twoDigits_of_lineOn (t : DateTime) {weekday hour hour' : Nat}
    (same : lineOn weekday { t with hour } = lineOn weekday { t with hour := hour' }) :
    twoDigits hour = twoDigits hour' := by
  unfold lineOn at same
  simpa only [String.append_left_inj, String.append_right_inj] using same

/-- The afternoon is not shown like the morning. -/
theorem line_inMorning_iff {t : DateTime} (h : t.IsCivil) :
    t.inMorning.line = t.line ↔ t.hour < 12 := by
  have apart : ∀ hour < 24, twoDigits (hour % 12) = twoDigits hour → hour < 12 := by
    decide +kernel
  constructor
  · intro same
    have hours : twoDigits (t.hour % 12) = twoDigits t.hour := twoDigits_of_lineOn t same
    exact apart t.hour h.hour hours
  · intro morning
    rw [inMorning, Nat.mod_eq_of_lt morning]

end DateTime

namespace Text

variable (letters : LetterCase) {n : Nat}

theorem hexDigits_zero : hexDigits letters 0 = [] := by rw [hexDigits, if_pos rfl]

theorem hexDigits_of_lt (pos : n ≠ 0) (lt : n < 16) :
    hexDigits letters n = [hexDigit letters n] := by
  rw [hexDigits, if_neg pos, Nat.div_eq_of_lt lt, Nat.mod_eq_of_lt lt, hexDigits_zero,
    List.nil_append]

/-- A byte has two digits. -/
theorem hex_two (lt : n < 256) :
    hex letters 2 n = String.ofList [hexDigit letters (n / 16), hexDigit letters (n % 16)] := by
  have zero : hexDigit letters 0 = '0' := rfl
  by_cases nothing : n = 0
  · rw [nothing, hex, hexDigits_zero]
    rfl
  · by_cases small : n < 16
    · rw [hex, hexDigits_of_lt letters nothing small, Nat.div_eq_of_lt small,
        Nat.mod_eq_of_lt small, zero]
      rfl
    · have high : n / 16 ≠ 0 := by omega
      rw [hex, hexDigits, if_neg nothing, hexDigits_of_lt letters high (by omega)]
      rfl

end Text

/-! ## Registers as text -/

open Bcd (value)

/-- The date as it is shown in an hour mode. -/
def DateTime.shownIn : HourMode → DateTime → DateTime
  | .twelve, t => t.inMorning
  | .twentyFour, t => t

/-- The digits of the hour, in either mode. -/
theorem Calendar.digits_of_hourFits {mode : HourMode} : ∀ {b : UInt8}, HourFits mode b →
    Bcd.isDigits (b &&& 0x3F) = true ∧
      value (b &&& 0x3F) =
        match mode with
        | .twelve => hourNumber mode b % 12
        | .twentyFour => hourNumber mode b := by
  cases mode with
  | twelve => decide
  | twentyFour => decide

namespace Machine

theorem digits_eq {b : UInt8} (h : Bcd.isDigits b = true) :
    digits b = DateTime.twoDigits (value b) := by
  have decimal : ∀ d < 10, toString d = String.ofList [Text.hexDigit .lower d] := by decide
  obtain ⟨low, high⟩ := Bcd.isDigits_iff.1 h
  have tens : value b / 10 = b.toNat / 16 := by
    rw [Bcd.value_eq]
    omega
  have ones : value b % 10 = b.toNat % 16 := by
    rw [Bcd.value_eq]
    omega
  rw [digits, Text.hex_two _ b.toNat_lt, DateTime.twoDigits, tens, ones, decimal _ high,
    decimal _ low, ← String.ofList_append]
  rfl

/-- The line shows the date in the registers, but in the twelve-hour mode it says nothing of the
half of the day. -/
theorem lineOf_eq {r : Registers} (h : r.Shows) :
    lineOf r = (r.dateTime.shownIn r.hourMode).lineOn r.calendar.weekday.toNat := by
  obtain ⟨hourDigits, hour⟩ := Calendar.digits_of_hourFits h.hour
  have date : r.dateTime = _ := Calendar.Shows.toDateTime_eq h
  have year : "RTC: 20" ++ DateTime.twoDigits (value r.calendar.year) =
      "RTC: " ++ toString (2000 + (value r.calendar.year : Int)) := by
    rw [DateTime.toString_century _ h.value_year, ← String.append_assoc]
    rfl
  have line : lineOf r =
      "RTC: 20" ++ digits r.calendar.year ++ "-" ++ digits r.calendar.month ++ "-" ++
        digits r.calendar.day ++ " " ++ digits (r.calendar.hour &&& 0x3F) ++ ":" ++
        digits r.calendar.minute ++ ":" ++ digits r.calendar.second ++ " (day of week " ++
        toString r.calendar.weekday.toNat ++ ")" := rfl
  rw [line, digits_eq h.year.isDigits, digits_eq h.month.isDigits, digits_eq h.digits,
    digits_eq hourDigits, digits_eq h.minute.isDigits, digits_eq h.second.isDigits, hour, date, year]
  cases r.hourMode <;> rfl

end Machine

/-! ## The date some seconds later -/

namespace DateTime

variable {t u : DateTime}

theorem weekday_lt (t : DateTime) : t.weekday < 7 := by
  rw [weekday]
  omega

theorem year_le_of_seconds_le (hu : u.IsCivil) (h : t.seconds ≤ u.seconds) : t.year ≤ u.year := by
  apply year_le_of_dayNumber_le hu
  have inDay := hu.secondOfDay_lt
  rw [seconds, seconds] at h
  omega

/-- The day of the week goes on with every midnight. -/
theorem weekday_later (ht : t.IsCivil) (hu : u.IsCivil) {n : Nat}
    (later : u.seconds = t.seconds + n) :
    u.weekday = (t.weekday + (t.secondOfDay + n) / 86400) % 7 := by
  have inDay := ht.secondOfDay_lt
  have inDay' := hu.secondOfDay_lt
  rw [seconds, seconds] at later
  rw [weekday, weekday]
  omega

/-- A time of the century as its seconds. -/
theorem IsCivil.sinceCentury_lt (h : t.IsCivil) (first : 2000 ≤ t.year) (last : t.year < 2100) :
    t.sinceCentury < 36525 * 86400 := by
  obtain ⟨year, century⟩ := Int.le.dest first
  have lt : year < 100 := by omega
  have date := h.day
  have month := Civil.month_of_monthLength (Nat.lt_of_lt_of_le date.1 date.2)
  rw [← century, Civil.isLeap_century lt] at date
  have day := Civil.dayOfCentury_lt lt month date
  have inDay := h.secondOfDay_lt
  rw [sinceCentury, seconds, dayNumber_century lt century.symm]
  omega

end DateTime

namespace Registers

variable {r : Registers}

theorem hourMode_iterate_countSecond (n : Nat) (r : Registers) :
    (countSecond^[n] r).hourMode = r.hourMode := by
  induction n with
  | zero => rfl
  | succ n ih =>
    rw [Function.iterate_succ_apply']
    exact ih

/-- Registers that show a date show, some seconds later in the century, the date that it then
is, and its day of the week if they had the right one before. -/
theorem Shows.later (h : r.Shows) (weekday : r.calendar.weekday.toNat = r.dateTime.weekday)
    {n : Nat} {t : DateTime} (civil : t.IsCivil) (century : t.year < 2100)
    (later : t.seconds = r.dateTime.seconds + n) :
    (countSecond^[n] r).Shows ∧ (countSecond^[n] r).dateTime = t ∧
      (countSecond^[n] r).calendar.weekday.toNat = t.weekday := by
  obtain ⟨shows, seconds, midnights⟩ := h.iterate_countSecond n
  have now : r.dateTime.sinceCentury = r.secondOfCentury := Calendar.Shows.sinceCentury h
  have then' : (countSecond^[n] r).dateTime.sinceCentury = (countSecond^[n] r).secondOfCentury :=
    Calendar.Shows.sinceCentury shows
  have civil' : r.dateTime.IsCivil := Calendar.Shows.isCivil h
  have inDay : r.dateTime.secondOfDay = r.secondOfCentury % 86400 := Calendar.Shows.secondOfDay h
  have first : 2000 ≤ r.dateTime.year := by
    have date : r.dateTime = _ := Calendar.Shows.toDateTime_eq h
    rw [date]
    exact Int.le_add_of_nonneg_right (Int.natCast_nonneg _)
  have notBefore : r.dateTime.year ≤ t.year :=
    DateTime.year_le_of_seconds_le civil (by omega)
  have inCentury := civil.sinceCentury_lt (Int.le_trans first notBefore) century
  rw [DateTime.sinceCentury] at now then' inCentury
  refine ⟨shows, DateTime.seconds_inj (Calendar.Shows.isCivil shows) civil ?_, ?_⟩
  · omega
  · have inWeek : r.calendar.weekday ≤ 6 := by
      rw [UInt8.le_iff_toNat_le, weekday]
      exact Nat.le_of_lt_succ (DateTime.weekday_lt _)
    rw [midnights, Calendar.toNat_nextWeekday_iterate inWeek, weekday, ← inDay,
      DateTime.weekday_later civil' civil later]

end Registers

namespace Machine

variable {config : Config} {boot : DateTime}

/-- A chip that is switched on counts twelve hours. -/
theorem hourMode_ofConfig (config : Config) :
    (ofConfig config).chip.registers.hourMode = .twelve := by
  have powered : ∀ console, (Chip.powerOn console).registers.hourMode = .twelve := by
    rintro (_ | _) <;> decide
  rw [ofConfig, registers_reset]
  cases config.boot with
  | none => exact powered _
  | some t =>
    rw [Registers.hourMode_setDateTime]
    exact powered _

/-- A machine shows the date that it was built with, if this is one of the century. -/
theorem dateTime_ofConfig (set : config.boot = some boot) (civil : boot.IsCivil)
    (first : 2000 ≤ boot.year) (last : boot.year < 2100) :
    (ofConfig config).chip.registers.dateTime = boot ∧
      (ofConfig config).chip.registers.calendar.weekday.toNat = boot.weekday := by
  obtain ⟨year, century⟩ := Int.le.dest first
  have lt : year < 100 := by omega
  rw [ofConfig, registers_reset]
  dsimp only
  rw [set]
  dsimp only
  rw [Registers.dateTime, Registers.hourMode_setDateTime]
  exact ⟨Calendar.toDateTime_ofDateTime civil lt century.symm _,
    Calendar.toNat_weekday_ofDateTime civil lt century.symm _⟩

/-- The lines that a machine shows from the date on that it was built with. -/
theorem dateLines_ofConfig (set : config.boot = some boot) (civil : boot.IsCivil)
    (first : 2000 ≤ boot.year) {n k : Nat} (lt : k < n) {t : DateTime} (time : t.IsCivil)
    (last : t.year < 2100) (later : t.seconds = boot.seconds + (k + 1 : Nat)) :
    ((ofConfig config).dateLines n)[k]? = some t.inMorning.line ∧
      ((ofConfig config).afterSeconds (k + 1)).chip.registers.dateTime = t := by
  have shows := shows_ofConfig config
  have notBefore : boot.year ≤ t.year := DateTime.year_le_of_seconds_le time (by omega)
  obtain ⟨date, weekday⟩ :=
    dateTime_ofConfig set civil first (Int.lt_of_le_of_lt notBefore last)
  -- a century is not too long for the machine's cycles
  have fits : (0 + (k + 1)) * 33513982 + 1023 < UInt64.size := by
    have now : boot.sinceCentury = (ofConfig config).chip.registers.secondOfCentury := by
      rw [← date]
      exact Calendar.Shows.sinceCentury shows
    have inCentury := time.sinceCentury_lt (Int.le_trans first notBefore) last
    rw [DateTime.sinceCentury] at now inCentury
    exact fits_of_le (show 0 + (k + 1) ≤ 3155760000 by omega) (by decide)
  obtain ⟨-, registers⟩ := (onTheSecond_ofConfig config).afterSeconds (k + 1) fits
  rw [← date] at weekday later
  obtain ⟨shows', date', weekday'⟩ := shows.later weekday time last later
  rw [(onTheSecond_ofConfig config).getElem?_dateLines lt fits, lineOf_eq shows', registers, date',
    weekday', Registers.hourMode_iterate_countSecond, hourMode_ofConfig]
  exact ⟨rfl, rfl⟩

end Machine

/-! ## The display -/

namespace Program

section

variable {α β : Type}

/-- A part of the program only adds to what is printed, whether it goes well or not. -/
def Adds (part : Run (StateM Desktop) α) : Prop :=
  ∀ d, ∃ more, (part.run.run d).2.printed = d.printed ++ more

theorem Adds.pure (a : α) : Adds (Pure.pure a) := fun _ ↦ ⟨"", String.append_empty.symm⟩

theorem adds_throw (f : Failure) : Adds (throw f : Run (StateM Desktop) α) :=
  fun _ ↦ ⟨"", String.append_empty.symm⟩

theorem Adds.bind {x : Run (StateM Desktop) α} {f : α → Run (StateM Desktop) β} (first : Adds x)
    (rest : ∀ a, Adds (f a)) : Adds (x >>= f) := by
  intro d
  obtain ⟨more, printed⟩ := first d
  change ∃ more, ((x.run >>= ExceptT.bindCont f).run d).2.printed = _
  rw [StateT.run_bind]
  cases ended : x.run.run d with
  | mk result d' =>
    rw [ended] at printed
    cases result with
    | error e => exact ⟨more, printed⟩
    | ok a =>
      obtain ⟨more', printed'⟩ := rest a d'
      exact ⟨more ++ more', by rw [← String.append_assoc, ← printed]; exact printed'⟩

theorem adds_tell (text : String) : Adds (tell text) := by
  intro d
  refine ⟨recordLine .info text ++ "\n", ?_⟩
  have ends : _ = (_, _) := ends_tell text d
  rw [ends, Desktop.told, Desktop.printed_appendLog, String.append_assoc]

/-- Writing a file prints nothing. -/
theorem adds_withFile (doing path : String) (content : List UInt8) :
    Adds (withFile doing (Host.writeFile (m := StateM Desktop) path content)) := by
  have writes : Adds (ExceptT.lift (Host.writeFile (m := StateM Desktop) path content)) := by
    intro d
    refine ⟨"", ?_⟩
    rw [String.append_empty]
    change ((Except.ok <$> Host.writeFile path content : StateM Desktop _).run d).2.printed = _
    rw [StateT.run_map]
    change ((Host.writeFile path content : StateM Desktop _).run d).2.printed = _
    simp only [Host.writeFile, StateT.run_bind, StateT.run_get, pure_bind]
    cases d.disk.write path content <;> rfl
  refine writes.bind fun result ↦ ?_
  cases result with
  | error e => exact adds_throw _
  | ok written => exact .pure written

theorem adds_save (path : String) (machine : Machine) : Adds (save path machine) :=
  (adds_withFile _ path _).bind fun _ ↦ adds_tell _

theorem adds_finishing (o : Options) (machine : Machine) : Adds (finishing o machine) := by
  unfold finishing
  cases o.save with
  | none => exact .pure ()
  | some path => exact adds_save path machine

/-- Options that start a new machine print its dates first, whatever becomes of the rest. -/
theorem printed_runOptions {o : Options} (fresh : o.load = none) (d : Desktop) :
    ∃ more, ((runOptions o : Run (StateM Desktop) Unit).run.run d).2.printed =
      d.printed ++ Desktop.lines ((Machine.ofConfig o.config).dateLines o.seconds.toNat) ++
        more := by
  have shows := ends_showSeconds o.seconds.toNat (Machine.ofConfig o.config)
    (d.noted (Machine.ofConfig o.config).resetNotice)
  have printed := Desktop.printed_toldAll
    ((Machine.ofConfig o.config).dateLines o.seconds.toNat)
    (d.noted (Machine.ofConfig o.config).resetNotice)
  rw [Desktop.printed_noted] at printed
  rw [← printed, runOptions, fresh, (ends_note _ d).run_bind, (Ends.pure _ _).run_bind,
    shows.run_bind]
  cases o.config.console with
  | ds => exact ((Adds.pure _).bind (adds_finishing o)) _
  | dsi => exact ((adds_tell _).bind fun _ ↦ (Adds.pure _).bind (adds_finishing o)) _

/-- So the program begins with the dates. -/
theorem output_runOn {disk : Disk} {place : Location} {arguments : List String} {o : Options}
    (asked : Request.ofArguments arguments = .ok (.run o)) (fresh : o.load = none)
    (log : disk.Leads logFile place) :
    ∃ more, (runOn disk arguments).output =
      Desktop.lines ((Machine.ofConfig o.config).dateLines o.seconds.toNat) ++ more := by
  obtain ⟨more, printed⟩ := printed_runOptions fresh { disk := disk.put place [] }
  rw [String.empty_append] at printed
  have output : (runOn disk arguments).output =
      ((run arguments : Run (StateM Desktop) Unit).run.run { disk }).2.printed := by
    rw [runOn]
    split
    next result d ended =>
      rw [ended]
      cases result <;> rfl
  refine ⟨more, ?_⟩
  rw [output, run, (ends_openLog log).run_bind, asked]
  exact printed

/-- The clock that the program shows.  A machine is set to a date of the century, on either
console, whatever is to become of its state.  The output begins with a line for each second.
In the second in which a time of the century has come, the machine has that time, in twenty-four
hours, for its own.  The line shows the same date, minute and second and the true day of the
week, but the hour modulo twelve.  So it is the line of that time before noon, and in the
afternoon the line of twelve hours earlier. -/
theorem runOn_dates {disk : Disk} {place : Location} {arguments : List String} {o : Options}
    {boot : DateTime} (asked : Request.ofArguments arguments = .ok (.run o))
    (fresh : o.load = none) (set : o.config.boot = some boot) (civil : boot.IsCivil)
    (first : 2000 ≤ boot.year) (log : disk.Leads logFile place) :
    ∃ dates more, (runOn disk arguments).output = Desktop.lines dates ++ more ∧
      dates.length = o.seconds.toNat ∧
      ∀ k < o.seconds.toNat, ∀ t : DateTime, t.IsCivil → t.year < 2100 →
        t.seconds = boot.seconds + (k + 1 : Nat) →
          ((Machine.ofConfig o.config).afterSeconds (k + 1)).chip.registers.dateTime = t ∧
            dates[k]? = some t.inMorning.line ∧ (dates[k]? = some t.line ↔ t.hour < 12) := by
  obtain ⟨more, output⟩ := output_runOn asked fresh log
  refine ⟨_, more, output, Machine.length_dateLines _ _, fun k lt t time last later ↦ ?_⟩
  obtain ⟨line, date⟩ := Machine.dateLines_ofConfig set civil first lt time last later
  refine ⟨date, line, ?_⟩
  rw [line, Option.some_inj]
  exact DateTime.line_inMorning_iff time

/-- Two seconds, of which the second one is noon. -/
theorem runOn_dates_noon :
    let ended := runOn (.ofFiles [] [])
      ["--dsi", "--date", "2024-02-29 11:59:58", "--seconds", "2"]
    ∃ dates more, ended.output = Desktop.lines dates ++ more ∧ dates.length = 2 ∧
      dates[0]? = some "RTC: 2024-02-29 11:59:59 (day of week 4)" ∧
      dates[1]? = some "RTC: 2024-02-29 00:00:00 (day of week 4)" := by
  intro ended
  let boot : DateTime := ⟨2024, 2, 29, 11, 59, 58⟩
  have civil : boot.IsCivil := ⟨by decide, by decide, by decide, by decide⟩
  have asked :
      Request.ofArguments ["--dsi", "--date", "2024-02-29 11:59:58", "--seconds", "2"] =
        .ok (.run { config := { console := .dsi, boot := some boot }, seconds := 2 }) := rfl
  obtain ⟨dates, more, output, length, shown⟩ :=
    runOn_dates asked rfl rfl civil (by decide) Disk.leads_logFile
  have before := shown 0 (by decide) ⟨2024, 2, 29, 11, 59, 59⟩
    ⟨by decide, by decide, by decide, by decide⟩ (by decide) (by decide)
  have noon := shown 1 (by decide) ⟨2024, 2, 29, 12, 0, 0⟩
    ⟨by decide, by decide, by decide, by decide⟩ (by decide) (by decide)
  exact ⟨dates, more, output, length, before.2.1, noon.2.1⟩

/-- An hour after noon is shown as an hour after midnight. -/
theorem afternoon_shown_as_morning :
    let boot : DateTime := ⟨2024, 1, 1, 13, 0, 0⟩
    let later : DateTime := ⟨2024, 1, 1, 13, 0, 1⟩
    boot.IsCivil ∧ later.IsCivil ∧ later.seconds = boot.seconds + 1 ∧
      (runOn (.ofFiles [] []) ["--date", "2024-01-01 13:00:00", "--seconds", "1"]).output =
        "[INFO] RTC: 2024-01-01 01:00:01 (day of week 1)\n" ∧
      Desktop.lines [later.line] = "[INFO] RTC: 2024-01-01 13:00:01 (day of week 1)\n" := by
  intro boot later
  have civil : boot.IsCivil := ⟨by decide, by decide, by decide, by decide⟩
  have civil' : later.IsCivil := ⟨by decide, by decide, by decide, by decide⟩
  let o : Options := { config := { boot := some boot }, seconds := 1 }
  let machine := Machine.ofConfig o.config
  have dates : machine.dateLines 1 = [later.inMorning.line] := by
    obtain ⟨shown, only⟩ := List.length_eq_one_iff.1 (Machine.length_dateLines 1 machine)
    have set : o.config.boot = some boot := rfl
    obtain ⟨line, -⟩ := Machine.dateLines_ofConfig set civil (by decide) Nat.zero_lt_one civil'
      (by decide) (by decide)
    change (machine.dateLines 1)[0]? = _ at line
    rw [only] at line ⊢
    exact congrArg ([·]) (Option.some.inj line)
  have ends := ends_runOptions (o := o)
    (d := { disk := (Disk.ofFiles [] []).put (Disk.scratch ++ [logFile]) [] })
    (Ends.pure machine _) (Ends.pure () _)
  refine ⟨civil, civil', by decide, ?_, by decide +kernel⟩
  rw [runOn_eq (o := o) rfl Disk.leads_logFile ends, Desktop.printed_toldAll, Desktop.printed_noted]
  change "" ++ Desktop.lines (machine.dateLines 1 ++ []) = _
  rw [dates]
  decide +kernel

end

end Program

end ClockChip
