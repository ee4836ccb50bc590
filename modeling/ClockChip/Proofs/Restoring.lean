import ClockChip.Proofs.Alike
import ClockChip.Proofs.Repair
import ClockChip.Proofs.Stream

/-!
# Saving and loading a running machine

A machine that is driven by its user alone, by resets, runs, writes of the bus register
and settings of the date (`Driven`), keeps everything that a stream cannot hold in its
range: cursors inside their buffers, the minute counter in twenty-four bits, a tick that
is not due yet (`Driven.inRange`).  Reading its stream therefore gives back its snapshot
(`Driven.decode_save`), and a machine of the same configuration that restores it has
its bus register, session, oscillator, time and tick.

The calendar is the exception.  A transfer writes year, month and day one after another
and looks at the end of the month only when the day comes, so that between two bytes the
registers can hold a day that is not one of its month.  A load writes all of them back
(`Calendar.WellFormed.sanitize`), goes to the first of the next month there, and so
does what the transfer itself would not have done.  On any other moment the load is
exact.
-/

namespace ClockChip

namespace Session

theorem Cursors.none : Cursors {} where
  inputBit := show (0 : UInt32) < 8 by decide
  outputBit := show (0 : UInt32) < 8 by decide
  outputPos := show (0 : UInt32) ≤ 7 by decide

/-- Cursors in their ranges come back as they are. -/
theorem Cursors.clamped {s : Session} (h : s.Cursors) : s.clamped = s := by
  have below {n : UInt32} (lt : n < 8) : n % 8 = n := by
    rw [← UInt32.toNat_inj, UInt32.toNat_mod]
    exact Nat.mod_eq_of_lt (UInt32.lt_iff_toNat_lt.1 lt)
  have inside : min s.outputPos 7 = s.outputPos := if_pos h.outputPos
  rw [Session.clamped, below h.inputBit, below h.outputBit, inside]

end Session

/-! ## The minute counter -/

namespace Registers

/-- The minute counter is in its range. -/
def MinutesFit (r : Registers) : Prop := r.minuteCount &&& minuteMask = r.minuteCount

variable {r : Registers}

theorem MinutesFit.clamped (h : r.MinutesFit) : r.clamped = r := by
  rw [Registers.clamped, h]

theorem MinutesFit.countSecond (h : r.MinutesFit) : r.countSecond.MinutesFit := by
  unfold MinutesFit Registers.countSecond
  dsimp only
  split
  · rw [UInt32.and_assoc, UInt32.and_self]
  · exact h

theorem MinutesFit.iterate_countSecond (h : r.MinutesFit) (n : Nat) :
    (Registers.countSecond^[n] r).MinutesFit := by
  induction n with
  | zero => exact h
  | succ n ih =>
    rw [Function.iterate_succ_apply']
    exact ih.countSecond

/-- A byte for status register 1 clears the minute counter or leaves it. -/
theorem minuteCount_writeStatus1 (b : UInt8) (r : Registers) :
    (r.writeStatus1 b).minuteCount =
      if Status1.reset.isSet b.toBitVec then 0 else r.minuteCount := by
  have base : (r.withStatus1 b).minuteCount =
      if Status1.reset.isSet b.toBitVec then 0 else r.minuteCount := by
    unfold withStatus1
    dsimp only
    split <;> rfl
  rw [writeStatus1_eq]
  split <;> exact base

/-- No byte reaches the minute counter, but that it can be cleared with everything else. -/
theorem minuteCount_write (g : Group) (position : Nat) (b : UInt8) (r : Registers) :
    (r.write g position b).minuteCount =
      if (Access.store g position b).clears then 0 else r.minuteCount := by
  cases g with
  | status1 =>
    unfold write
    dsimp only
    by_cases first : position = 1
    · rw [if_pos first, minuteCount_writeStatus1, first]
      rfl
    · rw [if_neg first, Access.clears_of_ne first]
      rfl
  | dateTime => rfl
  | time => rfl
  | _ =>
    exact (sameClock_write (by decide) (by decide) (by decide) position b r).minuteCount

theorem minuteCount_accessed (access : Option Access) (r : Registers) :
    (r.accessed access).minuteCount =
      if access.any Access.clears then 0 else r.minuteCount := by
  match access with
  | none => rfl
  | some (.read g) => cases g <;> rfl
  | some (.store g position b) => exact minuteCount_write g position b r

theorem MinutesFit.accessed (h : r.MinutesFit) (access : Option Access) :
    (r.accessed access).MinutesFit := by
  rw [MinutesFit, minuteCount_accessed]
  split
  · rfl
  · exact h

end Registers

/-! ## Machines that are driven -/

namespace Machine

/-- Whether an action is one of the ordinary use of a machine. -/
def Action.drives : Action → Bool
  | .reset | .run _ | .write16 _ _ | .write8 _ _ | .setDateTime _ => true
  | _ => false

/-- A machine that has been built and then used, with its time short of the end of
sixty-four bits. -/
inductive Driven (config : Config) : Machine → Prop where
  | start : Driven config (ofConfig config)
  | act {m : Machine} (h : Driven config m) {a : Action} (drives : a.drives)
    (fits : m.scheduler.now.toNat + a.cycles + 1024 < UInt64.size) : Driven config (m.act a)

variable {config : Config} {m m' : Machine}

theorem Driven.reachable (h : Driven config m) : Reachable m := by
  induction h with
  | start => exact .start config
  | act _ _ _ ih => exact ih.act _

/-- Everything is in the range in which a stream holds it. -/
structure InRange (config : Config) (m : Machine) : Prop where
  built : m.config = config
  console : m.chip.console = config.console
  cursors : m.chip.session.Cursors
  minutes : m.chip.registers.MinutesFit
  upToDate : ∃ k, UpToDate k m
  fits : m.scheduler.now.toNat + 1024 < UInt64.size

/-- A reset brings the session and the time into range, and the rest stays there. -/
theorem inRange_reset (built : m.config = config) (minutes : m.chip.registers.MinutesFit) :
    InRange config m.reset := by
  refine ⟨built, ?_, ?_, ?_, ⟨0, upToDate_reset m⟩, ?_⟩
  · unfold reset
    rw [← built]
    cases m.config.boot <;> rfl
  · unfold reset
    cases m.config.boot <;> exact .none
  · rw [registers_reset]
    cases m.config.boot <;> exact minutes
  · change (0 : UInt64).toNat + 1024 < UInt64.size
    decide

/-- A write of the bus register keeps the cursors and the minute counter where they may
be. -/
theorem InRange.write (h : InRange config m) (w : Word) :
    InRange config { m with chip := m.chip.write w } where
  built := h.built
  console := (Chip.console_write m.chip w).trans h.console
  cursors := Chip.cursors_write h.cursors w
  minutes := by
    rw [Chip.registers_write]
    exact h.minutes.accessed _
  upToDate := by
    obtain ⟨k, upToDate⟩ := h.upToDate
    exact ⟨k, upToDate.congr rfl (Chip.oscillator_write _ w) (Chip.tickHandle_write _ w)⟩
  fits := h.fits

/-- A run keeps the schedule and does not touch the bus. -/
theorem InRange.run (h : InRange config m) {cycles : UInt64}
    (fits : m.scheduler.now.toNat + cycles.toNat + 1024 < UInt64.size) :
    InRange config (m.run cycles) := by
  have bus := sameBus_run cycles m
  obtain ⟨k, upToDate⟩ := h.upToDate
  obtain ⟨n, after, -, now⟩ := upToDate.run (Nat.lt_of_succ_lt fits)
  refine ⟨bus.config.trans h.built, bus.console.trans h.console, ?_, ?_, ⟨k + n, after⟩, ?_⟩
  · rw [bus.session]
    exact h.cursors
  · rw [registers_run]
    exact h.minutes.iterate_countSecond _
  · rw [now]
    exact fits

theorem Driven.inRange (h : Driven config m) : InRange config m := by
  induction h with
  | start =>
    have minutes : (Chip.powerOn config.console).registers.MinutesFit := by
      change (0 : UInt32) &&& Registers.minuteMask = 0
      rfl
    exact inRange_reset (m := { chip := .powerOn config.console, config }) rfl minutes
  | @act m _ a drives fits ih =>
    cases a with
    | reset => exact inRange_reset ih.built ih.minutes
    | run cycles => exact ih.run fits
    | write16 address w => exact write16_of ih ih.write address w
    | write8 address b => exact write8_of ih ih.write address b
    | setDateTime t =>
      obtain ⟨k, upToDate⟩ := ih.upToDate
      exact ⟨ih.built, ih.console, ih.cursors, ih.minutes, ⟨k, upToDate.congr rfl rfl rfl⟩,
        ih.fits⟩
    | install r => cases drives
    | setConsole console => cases drives
    | load data => cases drives

theorem Driven.writes (h : Driven config m) (ws : List Word) :
    Driven config (m.play (ws.map (.write16 chipAddress))) := by
  induction ws generalizing m with
  | nil => exact h
  | cons w ws ih => exact ih (h.act rfl h.inRange.fits)

/-! ## Saving and loading -/

/-- The tick that waits is not due yet, and its time is not the latest there is. -/
theorem InRange.pending (h : InRange config m) :
    ∃ due, m.Pending due ∧ m.scheduler.now ≤ due ∧ due ≠ Scheduler.never := by
  obtain ⟨k, upToDate⟩ := h.upToDate
  obtain ⟨due, pending, at'⟩ := upToDate.pending
  have ahead := upToDate.ahead
  have past := upToDate.past
  have near := Oscillator.tickTime_succ_le k
  have fits := h.fits
  rw [UInt64.size] at fits
  refine ⟨due, pending, UInt64.le_iff_toNat_le.2 (by omega), ?_⟩
  rintro rfl
  change 18446744073709551615 = _ at at'
  omega

theorem InRange.clamped (h : InRange config m) : m.snapshot.clamped = m.snapshot := by
  obtain ⟨due, pending, -, notNever⟩ := h.pending
  have waiting : m.Waiting (some due) := pending
  have chip : m.chip.snapshot.clamped = m.chip.snapshot := by
    rw [Chip.Snapshot.clamped, Chip.snapshot, h.cursors.clamped, h.minutes.clamped]
  have kept : (if some due = some Scheduler.never then none else some due) = some due :=
    if_neg (mt Option.some.inj notNever)
  rw [Snapshot.clamped, snapshot, waiting.find?, kept, chip]

/-- The stream of a machine that is driven gives back its snapshot. -/
theorem InRange.decode_save (h : InRange config m) : Snapshot.decode m.save = .ok m.snapshot := by
  have decoded := m.snapshot.decode_encode []
  rw [List.append_nil, h.clamped] at decoded
  exact decoded

theorem InRange.load_save_eq (h : InRange config m) (m' : Machine) :
    m'.load m.save = .ok (m'.restore m.snapshot) := by
  rw [load, h.decode_save]
  rfl

theorem registers_restore (wellFormed : m.chip.registers.WellFormed) (m' : Machine) :
    (m'.restore m.snapshot).chip.registers =
      { m.chip.registers with calendar := m.chip.registers.calendar.leaveMonth } := by
  change m.chip.registers.sanitize = _
  rw [Registers.sanitize, Calendar.WellFormed.sanitize wellFormed]

/-- The tick is due again when it was. -/
theorem InRange.waiting_restore (h : InRange config m) {due' : Option UInt64}
    (own : m'.Waiting due') :
    ∃ due, m.Waiting (some due) ∧ (m'.restore m.snapshot).Waiting (some due) := by
  obtain ⟨due, pending, le, -⟩ := h.pending
  have waiting : m.Waiting (some due) := pending
  have restored := own.restore m.snapshot
  have later : m.snapshot.now ≤ due := le
  have back : m.snapshot.now + (due - m.snapshot.now) = due := by
    rw [UInt64.add_comm, UInt64.sub_add_cancel]
  have same : m.snapshot.dueRestored = some due := by
    rw [Snapshot.dueRestored]
    change (m.scheduler.find? m.chip.tickHandle).map _ = _
    rw [waiting.find?, Option.map_some, if_pos later, back]
  rw [same] at restored
  exact ⟨due, waiting, restored⟩

/-- If the day is one of its month, nobody can tell the restored machine from the one that
was saved. -/
theorem InRange.alike_restore (h : InRange config m) (wellFormed : m.chip.registers.WellFormed)
    (dayExists : m.chip.registers.calendar.DayExists) {due' : Option UInt64}
    (own : m'.Waiting due') (built : m'.config = config)
    (console : m'.chip.console = config.console) : Alike m (m'.restore m.snapshot) := by
  have registers := registers_restore wellFormed m'
  rw [Calendar.leaveMonth_of_dayExists dayExists] at registers
  refine ⟨built.trans h.built.symm, ⟨m'.chip.tickHandle, ?_⟩, now_restore _ _, ?_⟩
  · have chip : (m'.restore m.snapshot).chip =
        { m.chip with
          console := m'.chip.console
          registers := (m'.restore m.snapshot).chip.registers
          tickHandle := m'.chip.tickHandle } := rfl
    rw [chip, registers, console, ← h.console]
    rfl
  · obtain ⟨due, waiting, waiting'⟩ := h.waiting_restore own
    exact ⟨some due, waiting, waiting'⟩

/-- A machine that has been used in any way, and is saved at any moment, also in the
middle of a byte or between two bytes of a transfer, can be loaded into any machine of
its configuration, whatever has been done to that one.  The load gives back the bus
register, the session, the oscillator, the time and the one tick that waits, exactly.
Of the registers it gives back all but the date, and the date exactly if the day in the
registers is one of its month: a day past the end, as a transfer leaves it between the
month and the day, becomes the first of the next month.  Where the day exists everything
goes on as it would have: after any further actions the two write the same streams and
show the same words on the bus. -/
theorem Driven.load_save (h : Driven config m) (h' : Reachable m') (built : m'.config = config) :
    ∃ loaded, m'.load m.save = .ok loaded ∧
      loaded.chip.bus = m.chip.bus ∧ loaded.chip.session = m.chip.session ∧
      loaded.chip.oscillator = m.chip.oscillator ∧ loaded.scheduler.now = m.scheduler.now ∧
      (∃ due, m.scheduler.events = [⟨due, m.chip.tickHandle⟩] ∧
        loaded.scheduler.events = [⟨due, loaded.chip.tickHandle⟩]) ∧
      loaded.chip.registers =
        { m.chip.registers with calendar := m.chip.registers.calendar.leaveMonth } ∧
      (loaded.chip.registers = m.chip.registers ↔ m.chip.registers.calendar.DayExists) ∧
      (m.chip.registers.calendar.DayExists → m'.chip.console = config.console →
        ∀ actions, (loaded.play actions).save = (m.play actions).save ∧
          ∀ address, (loaded.play actions).read16 address = (m.play actions).read16 address) := by
  have inRange := h.inRange
  have wellFormed := h.reachable.wellFormed
  have registers := registers_restore wellFormed m'
  obtain ⟨due', own⟩ := h'.waiting
  obtain ⟨due, waiting, waiting'⟩ := inRange.waiting_restore own
  refine ⟨m'.restore m.snapshot, inRange.load_save_eq m', rfl, rfl, rfl, now_restore _ _,
    ⟨due, Queue.toList_eq_single.2 waiting, Queue.toList_eq_single.2 waiting'⟩, registers, ?_, ?_⟩
  · rw [registers, ← Calendar.WellFormed.leaveMonth_eq_self_iff wellFormed]
    constructor
    · intro same
      exact congrArg Registers.calendar same
    · intro same
      rw [same]
  · intro dayExists console actions
    have alike := (inRange.alike_restore wellFormed dayExists own built console).play actions
    exact ⟨alike.save, alike.read16⟩

/-- A machine that is reading the date over the bus, one bit into the second byte. -/
def reading : Machine :=
  (ofConfig {}).play
    ((Wire.start ++ Wire.sendByte 0xA6 ++ Wire.receive 1 ++ Wire.pollBit).map
      (.write16 chipAddress))

/-- A transfer that is saved in the middle of a byte goes on in another machine. -/
theorem Driven.load_save_reading :
    Driven {} reading ∧ reading.chip.session.outputPos = 1 ∧ reading.chip.session.outputBit = 1 ∧
      ∃ loaded, (ofConfig {}).load reading.save = .ok loaded ∧
        loaded.chip.registers = reading.chip.registers ∧
        ∀ actions, (loaded.play actions).save = (reading.play actions).save := by
  have driven : Driven {} reading := Driven.start.writes _
  have dayExists : reading.chip.registers.calendar.DayExists := by decide +kernel
  obtain ⟨loaded, eq, -, -, -, -, -, -, registers, continued⟩ :=
    Driven.load_save driven (.start {}) rfl
  refine ⟨driven, by decide +kernel, by decide +kernel, loaded, eq, registers.2 dayExists, ?_⟩
  exact fun actions ↦ (continued dayExists rfl actions).1

/-- The noon of the last of January 2023. -/
def lastOfJanuary : Config := { boot := some ⟨2023, 1, 31, 12, 0, 0⟩ }

/-- A transfer has written the year and has made the month February; the day comes next. -/
def halfWritten : Machine :=
  (ofConfig lastOfJanuary).play
    ((Wire.start ++ Wire.send [0x26, 0x23, 0x02]).map (.write16 chipAddress))

/-- A date that is saved half written does not come back, and the rest of its transfer ends
up in another month. -/
theorem halfWritten_not_restored :
    Driven lastOfJanuary halfWritten ∧
      halfWritten.chip.registers.calendar = ⟨0x23, 0x02, 0x31, 0x02, 0x40, 0x00, 0x00⟩ ∧
      ∃ loaded, (ofConfig lastOfJanuary).load halfWritten.save = .ok loaded ∧
        loaded.chip.registers ≠ halfWritten.chip.registers ∧
        loaded.chip.registers.calendar = ⟨0x23, 0x03, 0x01, 0x02, 0x40, 0x00, 0x00⟩ ∧
        let day : List Action := (Wire.sendByte 0x10).map (.write16 chipAddress)
        (halfWritten.play day).chip.registers.calendar =
            ⟨0x23, 0x02, 0x10, 0x02, 0x40, 0x00, 0x00⟩ ∧
          (loaded.play day).chip.registers.calendar =
            ⟨0x23, 0x03, 0x10, 0x02, 0x40, 0x00, 0x00⟩ := by
  have driven : Driven lastOfJanuary halfWritten := Driven.start.writes _
  refine ⟨driven, by decide +kernel, _, driven.inRange.load_save_eq _, ?_, ?_, ?_, ?_⟩
  · decide +kernel
  · decide +kernel
  · decide +kernel
  · decide +kernel

end Machine

end ClockChip
