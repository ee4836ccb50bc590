import ClockChip.Proofs.Writing

/-!
# The hour mode and the passing of time

A chip can be switched between its two hour modes at any time, and its calendar goes on as if
it had not been.  The mode decides how the hour is kept and where it carries: at eleven the
digits of one mode end and only half a day is over, those of the other go on to
twenty-three.  What the two have in common is the hour of the day that they stand for
(`Calendar.hourNumber`), and calendars that agree on it and on everything else
(`Calendar.Agrees`) agree after each second, whichever modes they are kept in, and after
each conversion.

So a run in which the mode is switched goes along with one in which it is not.  Of a host that
writes status register 1, with seconds falling between any two of its words, the registers
undergo the stores of that register alone (`accesses_writeTransfer`), since seconds have no
say in what a word is.  Nothing is asked of the day: one that a transfer has left standing
past the end of its month is no exception.
-/

namespace ClockChip

/-! ## Calendars that agree -/

namespace Calendar

variable {mode mode' : HourMode} {c c' : Calendar}

/-- Calendars that show the same day of the week, date and time of day, each in an hour mode
of its own. -/
structure Agrees (mode mode' : HourMode) (c c' : Calendar) : Prop extends SameDate c c' where
  weekday : c'.weekday = c.weekday
  hour : hourNumber mode' c'.hour = hourNumber mode c.hour
  minute : c'.minute = c.minute
  second : c'.second = c.second

namespace Agrees

theorem refl (mode : HourMode) (c : Calendar) : Agrees mode mode c c :=
  ⟨.refl c, rfl, rfl, rfl, rfl⟩

theorem toDateTime (h : Agrees mode mode' c c') : c'.toDateTime mode' = c.toDateTime mode := by
  have hour : (c'.toDateTime mode').hour = (c.toDateTime mode).hour := h.hour
  unfold Calendar.toDateTime at hour ⊢
  rw [h.year, h.month, h.day, h.minute, h.second]
  exact congrArg (DateTime.mk _ _ _ · _ _) hour

theorem countDay (h : Agrees mode mode' c c') : Agrees mode mode' c.countDay c'.countDay := by
  have date := h.toSameDate.countDay
  rw [countDay_frame c, countDay_frame c']
  exact ⟨⟨date.year, date.month, date.day⟩, congrArg nextWeekday h.weekday, h.hour, h.minute,
    h.second⟩

/-- Both go on to the next hour, and if it is the first of a day for one of them it is for the
other. -/
theorem countHour (h : Agrees mode mode' c c') (fits : HourFits mode c.hour)
    (fits' : HourFits mode' c'.hour) :
    Agrees mode mode' (c.countHour mode) (c'.countHour mode') := by
  obtain ⟨-, next, ends, -⟩ := hourCounts fits
  obtain ⟨-, next', ends', -⟩ := hourCounts fits'
  have hour : hourNumber mode' (nextHour mode' c'.hour) =
      hourNumber mode (nextHour mode c.hour) := by
    rw [next', next, h.hour]
  rw [countHour_eq, countHour_eq, ends', ends, h.hour]
  split
  · have day := h.countDay
    exact ⟨⟨day.year, day.month, day.day⟩, day.weekday, hour, day.minute, day.second⟩
  · exact ⟨⟨h.year, h.month, h.day⟩, h.weekday, hour, h.minute, h.second⟩

theorem countMinute (h : Agrees mode mode' c c') (fits : HourFits mode c.hour)
    (fits' : HourFits mode' c'.hour) :
    Agrees mode mode' (c.countMinute mode) (c'.countMinute mode') := by
  have zero : Agrees mode mode' { c with minute := 0 } { c' with minute := 0 } :=
    ⟨⟨h.year, h.month, h.day⟩, h.weekday, h.hour, rfl, h.second⟩
  unfold Calendar.countMinute
  dsimp only
  rw [h.minute]
  split
  · exact zero.countHour fits fits'
  · exact ⟨⟨h.year, h.month, h.day⟩, h.weekday, h.hour, rfl, h.second⟩

theorem endsMinute (h : Agrees mode mode' c c') : c'.endsMinute = c.endsMinute := by
  rw [Calendar.endsMinute, Calendar.endsMinute, h.second]

theorem countSecond (h : Agrees mode mode' c c') (fits : HourFits mode c.hour)
    (fits' : HourFits mode' c'.hour) :
    Agrees mode mode' (c.countSecond mode) (c'.countSecond mode') := by
  have zero : Agrees mode mode' { c with second := 0 } { c' with second := 0 } :=
    ⟨⟨h.year, h.month, h.day⟩, h.weekday, h.hour, h.minute, rfl⟩
  unfold Calendar.countSecond
  rw [h.endsMinute, h.second]
  split
  · exact zero.countMinute fits fits'
  · exact ⟨⟨h.year, h.month, h.day⟩, h.weekday, h.hour, h.minute, rfl⟩

end Agrees

/-- A conversion keeps the hour of the day. -/
theorem hourNumber_convertHour (other : mode' ≠ mode) (fits : HourFits mode c.hour) :
    hourNumber mode' (c.convertHour mode').hour = hourNumber mode c.hour := by
  have toTwentyFour : ∀ b, HourFits .twelve b →
      hourNumber .twentyFour (convertHour .twentyFour { hour := b }).hour =
        hourNumber .twelve b := by
    decide
  have toTwelve : ∀ b, HourFits .twentyFour b →
      hourNumber .twelve (convertHour .twelve { hour := b }).hour = hourNumber .twentyFour b := by
    decide
  rcases other_cases other with ⟨rfl, rfl⟩ | ⟨rfl, rfl⟩
  · exact toTwentyFour c.hour fits
  · exact toTwelve c.hour fits

end Calendar

/-! ## Register files that agree -/

namespace Registers

variable {r r' : Registers}

/-- Register files with calendars that agree and the same minutes in the minute counter. -/
structure Agrees (r r' : Registers) : Prop where
  wellFormed : r.WellFormed
  wellFormed' : r'.WellFormed
  calendar : Calendar.Agrees r.hourMode r'.hourMode r.calendar r'.calendar
  minuteCount : r'.minuteCount = r.minuteCount

namespace Agrees

theorem refl (h : r.WellFormed) : Agrees r r := ⟨h, h, .refl r.hourMode r.calendar, rfl⟩

theorem dateTime (h : Agrees r r') : r'.dateTime = r.dateTime := h.calendar.toDateTime

theorem countSecond (h : Agrees r r') : Agrees r.countSecond r'.countSecond where
  wellFormed := h.wellFormed.countSecond
  wellFormed' := h.wellFormed'.countSecond
  calendar := h.calendar.countSecond h.wellFormed.hour h.wellFormed'.hour
  minuteCount := by
    unfold Registers.countSecond
    dsimp only
    rw [h.calendar.endsMinute, h.minuteCount]

/-- A byte for status register 1 that does not clear leaves the calendar, or converts its
hour. -/
theorem writeStatus1 (h : Agrees r r') {b : UInt8}
    (kept : Status1.reset.isSet b.toBitVec = false) : Agrees r (r'.writeStatus1 b) := by
  have after := h.wellFormed'.writeStatus1 b
  have written := writeStatus1_kept kept r'
  have calendar : (r'.writeStatus1 b).calendar =
      if (r'.writeStatus1 b).hourMode = r'.hourMode then r'.calendar
      else
        { r'.calendar with
          hour := (r'.calendar.convertHour (r'.writeStatus1 b).hourMode).hour } :=
    congrArg Registers.calendar written
  have minuteCount : (r'.writeStatus1 b).minuteCount = r'.minuteCount := by rw [written]
  refine ⟨h.wellFormed, after, ?_, minuteCount.trans h.minuteCount⟩
  rw [calendar]
  split
  · next same =>
    rw [same]
    exact h.calendar
  · next other =>
    have hour := Calendar.hourNumber_convertHour other h.wellFormed'.hour
    exact ⟨⟨h.calendar.year, h.calendar.month, h.calendar.day⟩, h.calendar.weekday,
      hour.trans h.calendar.hour, h.calendar.minute, h.calendar.second⟩

end Agrees

end Registers

/-! ## Writes of status register 1 -/

/-- The access stores a byte in status register 1, or past it, and clears nothing. -/
def Access.Switches (a : Access) : Prop :=
  ∃ position b, a = .store .status1 position b ∧ a.clears = false

namespace Access.Switches

variable {a : Access}

theorem ne_read (h : a.Switches) (g : Group) : a ≠ .read g := by
  rintro rfl
  obtain ⟨_, _, eq, -⟩ := h
  nomatch eq

/-- Only the first byte of a transfer is stored. -/
theorem agrees (h : a.Switches) {r r' : Registers} (same : r.Agrees r') :
    r.Agrees (r'.accessed (some a)) := by
  obtain ⟨position, b, rfl, kept⟩ := h
  rw [Registers.accessed, Registers.write]
  split
  · next first =>
    subst first
    exact same.writeStatus1 kept
  · exact same

end Access.Switches

/-- A transfer by which a host writes status register 1: a command, data, and some bits more
that do not make a byte. -/
structure StatusWrite where
  command : UInt8
  data : List UInt8
  extra : List Bool := []

namespace StatusWrite

/-- The words of the transfer. -/
def words (t : StatusWrite) : List Word := Wire.writeTransfer t.command t.data t.extra

/-- On the console, the command is one that writes status register 1, and the byte for the
register does not ask to clear all others.  Whatever else is in it is left open, and so are
the bytes after it, of which there are no more than can be counted. -/
structure Keeps (console : Console) (t : StatusWrite) : Prop where
  writes : Command.isRead (Command.normalize console t.command) = false
  addressed : Command.group? console (Command.normalize console t.command) = some .status1
  kept : ∀ b, t.data.head? = some b → Status1.reset.isSet b.toBitVec = false
  countable : t.data.length < UInt32.size
  incomplete : t.extra.length < 8

variable {console : Console} {t : StatusWrite} {c : Chip}

theorem Keeps.switches (h : t.Keeps console) (on : c.console = console) :
    ∀ a ∈ c.accesses t.words, a.Switches := by
  subst on
  intro a mem
  rw [words, Chip.accesses_writeTransfer c h.writes h.addressed h.countable h.incomplete] at mem
  obtain ⟨i, lt, rfl⟩ := List.mem_mapIdx.1 mem
  refine ⟨i + 1, t.data[i], rfl, ?_⟩
  cases i with
  | zero => exact h.kept _ (List.head?_eq_getElem?.trans (List.getElem?_eq_getElem lt))
  | succ i => exact Access.clears_of_ne (by omega) _

theorem switches_flatMap {ts : List StatusWrite} (h : ∀ t ∈ ts, t.Keeps console)
    (on : c.console = console) : ∀ a ∈ c.accesses (ts.flatMap words), a.Switches := by
  induction ts generalizing c with
  | nil => exact List.forall_mem_nil _
  | cons t ts ih =>
    obtain ⟨first, rest⟩ := List.forall_mem_cons.1 h
    rw [List.flatMap_cons, Chip.accesses_append]
    exact List.forall_mem_append.2
      ⟨first.switches on, ih rest ((c.console_writeAll t.words).trans on)⟩

end StatusWrite

/-! ## A run with switches and one without -/

/-- What happens to a chip: a second is over, or a word is written. -/
inductive Happening where
  | second
  | word (w : Word)
deriving DecidableEq, Repr

namespace Happening

/-- The word that is written. -/
def word? : Happening → Option Word
  | second => none
  | word w => some w

/-- The words that are written, without the seconds in between. -/
def words (hs : List Happening) : List Word := hs.filterMap word?

end Happening

namespace Chip

/-- The chip when something has happened to it. -/
def happen (c : Chip) : Happening → Chip
  | .second => { c with registers := c.registers.countSecond }
  | .word w => c.write w

/-- The chip when one thing has happened after another. -/
def happenAll (hs : List Happening) (c : Chip) : Chip := hs.foldl happen c

/-- As long as words do nothing but to switch, the registers go along with others that count
the same seconds. -/
theorem agrees_happenAll {c : Chip} {r : Registers} (hs : List Happening)
    (switches : ∀ a ∈ c.accesses (Happening.words hs), a.Switches)
    (same : r.Agrees c.registers) :
    (Registers.countSecond^[hs.count .second] r).Agrees (c.happenAll hs).registers := by
  induction hs generalizing c r with
  | nil => exact same
  | cons h hs ih =>
    cases h with
    | second =>
      have unread (g : Group) : .read g ∉ c.accesses (Happening.words hs) :=
        fun mem ↦ (switches _ mem).ne_read g rfl
      rw [List.count_cons_self, Function.iterate_succ_apply]
      apply ih (c := c.happen .second)
      · rw [happen, accesses_withRegisters unread]
        exact switches
      · exact same.countSecond
    | word w =>
      have words : Happening.words (.word w :: hs) = w :: Happening.words hs := rfl
      rw [words, accesses_cons] at switches
      obtain ⟨first, rest⟩ := List.forall_mem_append.1 switches
      have written : r.Agrees (c.write w).registers := by
        rw [registers_write]
        cases access : c.access? w with
        | none => exact same
        | some a => exact (first a (by rw [access]; exact List.mem_singleton_self a)).agrees same
      have other : Happening.word w ≠ .second := nofun
      rw [List.count_cons_of_ne other]
      exact ih rest written

end Chip

namespace Machine

variable {m : Machine}

/-- No user can tell from the date whether the hour mode has been switched in between.
Whatever state a machine has come to, let any transfers be made that write status register 1
without clearing the registers, with as many seconds as there are falling before, between and
among their words.  The date and time, the day of the week and the minute counter are then
what they would be after the same seconds alone. -/
theorem Reachable.switching_unseen (h : Reachable m) (ts : List StatusWrite)
    (keeps : ∀ t ∈ ts, t.Keeps m.chip.console) (hs : List Happening)
    (words : Happening.words hs = ts.flatMap StatusWrite.words) :
    let after := (m.chip.happenAll hs).registers
    let alone := Registers.countSecond^[hs.count .second] m.chip.registers
    after.dateTime = alone.dateTime ∧
      after.calendar.weekday = alone.calendar.weekday ∧
      after.minuteCount = alone.minuteCount := by
  intro after alone
  have switches : ∀ a ∈ m.chip.accesses (Happening.words hs), a.Switches := by
    rw [words]
    exact StatusWrite.switches_flatMap keeps rfl
  have same : alone.Agrees after := Chip.agrees_happenAll hs switches (.refl h.wellFormed)
  exact ⟨same.dateTime, same.calendar.weekday, same.minuteCount⟩

/-- A clock that is two seconds before the end of its century. -/
def beforeNewYear : Machine := ofConfig { boot := some ⟨2099, 12, 31, 23, 59, 58⟩ }

/-- It is switched to twenty-four hours and back.  One second ends in the middle of the first
transfer, the other one, with which the year ends, after it. -/
def switchedAtNewYear : List StatusWrite := [⟨0x06, [0x02], []⟩, ⟨0x60, [0xFC, 0x01], [true]⟩]

/-- What happens to the clock meanwhile. -/
def newYear : List Happening :=
  let there := Wire.writeTransfer 0x06 [0x02] []
  let back := Wire.writeTransfer 0x60 [0xFC, 0x01] [true]
  (there.take 20).map .word ++ [.second] ++ (there.drop 20).map .word ++ [.second] ++
    back.map .word

/-- At the end the new year has begun, as it would have without switching. -/
theorem Reachable.switching_unseen_newYear :
    let after := (beforeNewYear.chip.happenAll newYear).registers
    let alone := Registers.countSecond^[newYear.count .second] beforeNewYear.chip.registers
    after.dateTime = alone.dateTime ∧ after.calendar.weekday = alone.calendar.weekday ∧
      after.minuteCount = alone.minuteCount ∧ after.dateTime = ⟨2000, 1, 1, 0, 0, 0⟩ := by
  have keeps : ∀ t ∈ switchedAtNewYear, t.Keeps beforeNewYear.chip.console := by
    intro t mem
    rw [switchedAtNewYear, List.mem_cons, List.mem_singleton] at mem
    rcases mem with rfl | rfl
    · exact ⟨by decide +kernel, by decide +kernel, by decide, by decide, by decide⟩
    · exact ⟨by decide +kernel, by decide +kernel, by decide, by decide, by decide⟩
  obtain ⟨dateTime, weekday, minuteCount⟩ := Reachable.switching_unseen (m := beforeNewYear)
    (.start _) switchedAtNewYear keeps newYear (by decide +kernel)
  exact ⟨dateTime, weekday, minuteCount, by decide +kernel⟩

end Machine

end ClockChip
