import ClockChip.Proofs.Restoring
import ClockChip.Proofs.Seconds
import ClockChip.Proofs.Seeding

/-!
# Going on from a saved state

A machine that has been shown for some seconds is saved, and another one that has just been
switched on with any date loads the stream and is shown for some seconds more.  This is the
display of the first machine going on.

The two machines are not alike.  They are built with different dates, and the first may have
been asked for its minute counter before it was saved.  What they share is the clockwork
(`InStep`): the console, the registers, the oscillator, the time and the tick that waits.  A run
sees nothing else (`InStep.run`), and a transfer leaves on the bus what follows from it
(`second_eq`, `minutes_eq`), so that the display and in the end even the saved states are the
same (`InRange.resume`).
-/

namespace ClockChip.Machine

variable {config : Config} {m m' m'' : Machine}

/-! ## Outside of the clockwork -/

/-- The machine built in another way and with something else on the bus. -/
def withOutside (config : Config) (bus : Word) (session : Session) (m : Machine) : Machine :=
  { m with chip := { m.chip with bus, session }, config }

section

variable (config : Config) (bus : Word) (session : Session)

theorem serveDue?_withOutside (m : Machine) (s : Scheduler) :
    (m.withOutside config bus session).chip.serveDue? s =
      (m.chip.serveDue? s).map fun served ↦ ({ served.1 with bus, session }, served.2) := by
  unfold Chip.serveDue?
  cases s.popDue? <;> rfl

theorem serveUpTo_withOutside (bound : Nat) (m : Machine) :
    (m.withOutside config bus session).serveUpTo bound =
      (m.serveUpTo bound).withOutside config bus session := by
  induction bound generalizing m with
  | zero => rfl
  | succ bound ih =>
    have same : (m.withOutside config bus session).scheduler = m.scheduler := rfl
    rw [serveUpTo, serveUpTo, serveDue?_withOutside, same]
    cases m.chip.serveDue? m.scheduler with
    | none => rfl
    | some served => exact ih { m with chip := served.1, scheduler := served.2 }

theorem step_withOutside (stop : UInt64) (m : Machine) :
    (m.withOutside config bus session).step stop =
      (m.step stop).withOutside config bus session := by
  have waited : (m.withOutside config bus session).wait stop =
      (m.wait stop).withOutside config bus session := rfl
  rw [step_eq, step_eq, waited, serveAll, serveAll, serveUpTo_withOutside]
  rfl

theorem runTo_withOutside (stop : UInt64) (bound : Nat) (m : Machine) :
    (m.withOutside config bus session).runTo stop bound =
      (m.runTo stop bound).withOutside config bus session := by
  induction bound generalizing m with
  | zero => rfl
  | succ bound ih =>
    have same : (m.withOutside config bus session).scheduler = m.scheduler := rfl
    rw [runTo, runTo, same, step_withOutside, ih]
    split <;> rfl

theorem waiting_withOutside {due : Option UInt64} :
    (m.withOutside config bus session).Waiting due ↔ m.Waiting due := by
  cases due <;> exact Iff.rfl

/-- A transfer that reads does nothing else. -/
theorem released_eq (command : UInt8) (answer : List UInt8) (m : Machine) :
    m.released command answer =
      m.withOutside m.config Wire.released (.afterRead command answer answer.length) := rfl

/-- A run does not see it. -/
theorem run_withOutside (cycles : UInt64) (m : Machine) :
    (m.withOutside config bus session).run cycles =
      (m.run cycles).withOutside config bus session :=
  runTo_withOutside config bus session _ _ m

end

/-! ## The clockwork -/

/-- Machines in which everything that the clock consists of is the same. -/
structure InStep (m m' : Machine) : Prop where
  console : m'.chip.console = m.chip.console
  registers : m'.chip.registers = m.chip.registers
  oscillator : m'.chip.oscillator = m.chip.oscillator
  now : m'.scheduler.now = m.scheduler.now
  waiting : ∃ due, m.Waiting due ∧ m'.Waiting due

theorem InStep.refl {due : Option UInt64} (waiting : m.Waiting due) : InStep m m :=
  ⟨rfl, rfl, rfl, rfl, due, waiting, waiting⟩

theorem InStep.trans (h : InStep m m') (h' : InStep m' m'') : InStep m m'' := by
  obtain ⟨due, first, second⟩ := h.waiting
  obtain ⟨due', second', third⟩ := h'.waiting
  have same : due = due' := second.find?.symm.trans second'.find?
  exact ⟨h'.console.trans h.console, h'.registers.trans h.registers,
    h'.oscillator.trans h.oscillator, h'.now.trans h.now, due, first, same ▸ third⟩

/-- Put into the same surroundings, machines in step are alike. -/
theorem InStep.alike (h : InStep m m') :
    Alike m (m'.withOutside m.config m.chip.bus m.chip.session) := by
  obtain ⟨due, waiting, waiting'⟩ := h.waiting
  refine ⟨rfl, ⟨m'.chip.tickHandle, ?_⟩, h.now, due, waiting,
    (waiting_withOutside _ _ _).2 waiting'⟩
  change (⟨m'.chip.console, m.chip.bus, m.chip.session, m'.chip.registers, m'.chip.oscillator,
    m'.chip.tickHandle⟩ : Chip) = _
  rw [h.console, h.registers, h.oscillator]
  rfl

theorem Alike.inStep {bus : Word} {session : Session}
    (h : Alike m (m'.withOutside config bus session)) : InStep m m' := by
  obtain ⟨handle, chip⟩ := h.chip
  obtain ⟨due, waiting, placed⟩ := h.waiting
  exact ⟨(congrArg Chip.console chip :), (congrArg Chip.registers chip :),
    (congrArg Chip.oscillator chip :), h.now, due, waiting, (waiting_withOutside _ _ _).1 placed⟩

/-- Machines that are in step stay in step while they run. -/
theorem InStep.run (h : InStep m m') (cycles : UInt64) :
    InStep (m.run cycles) (m'.run cycles) := by
  have ran := h.alike.run cycles
  rw [run_withOutside] at ran
  exact ran.inStep

/-- Machines in step that have the same on the bus. -/
structure Abreast (m m' : Machine) : Prop extends InStep m m' where
  bus : m'.chip.bus = m.chip.bus
  session : m'.chip.session = m.chip.session

/-- They write the same stream. -/
theorem Abreast.save (h : Abreast m m') : m'.save = m.save := by
  obtain ⟨due, waiting, waiting'⟩ := h.waiting
  have snapshot : m'.snapshot = m.snapshot := by
    rw [Machine.snapshot, Machine.snapshot, waiting.find?, waiting'.find?, h.now, Chip.snapshot,
      Chip.snapshot, h.bus, h.session, h.registers, h.oscillator]
  rw [Machine.save, Machine.save, snapshot]

/-! ## Transfers -/

/-- A transfer moves nothing of the clockwork. -/
theorem inStep_released {due : Option UInt64} (waiting : m.Waiting due) (command : UInt8)
    (answer : List UInt8) : InStep m (m.released command answer) := by
  rw [released_eq]
  exact ⟨rfl, rfl, rfl, rfl, due, waiting, (waiting_withOutside _ _ _).2 waiting⟩

/-- After the same transfer there is the same on the bus. -/
theorem InStep.released (h : InStep m m') (command : UInt8) (answer : List UInt8) :
    Abreast (m.released command answer) (m'.released command answer) := by
  obtain ⟨due, waiting, waiting'⟩ := h.waiting
  rw [released_eq, released_eq]
  exact ⟨⟨h.console, h.registers, h.oscillator, h.now, due, (waiting_withOutside _ _ _).2 waiting,
    (waiting_withOutside _ _ _).2 waiting'⟩, rfl, rfl⟩

theorem InStep.second (h : InStep m m') :
    m'.second.1 = m.second.1 ∧ Abreast m.second.2 m'.second.2 := by
  have ran := h.run secondCycles
  rw [second_eq, second_eq, ran.registers]
  exact ⟨rfl, ran.released _ _⟩

theorem InStep.minutes (h : InStep m m') (console : m.chip.console = .dsi) :
    m'.minutes.1 = m.minutes.1 ∧ Abreast m.minutes.2 m'.minutes.2 := by
  rw [minutes_eq console, minutes_eq (h.console.trans console), h.registers]
  exact ⟨rfl, h.released _ _⟩

/-- Machines that are in step show the same dates. -/
theorem InStep.dateLines (n : Nat) (h : InStep m m') :
    m'.dateLines n = m.dateLines n ∧ InStep (m.afterSeconds n) (m'.afterSeconds n) := by
  induction n generalizing m m' with
  | zero => exact ⟨rfl, h⟩
  | succ n ih =>
    obtain ⟨line, abreast⟩ := h.second
    obtain ⟨lines, inStep⟩ := ih abreast.toInStep
    rw [dateLines_succ, dateLines_succ, afterSeconds_succ, afterSeconds_succ, line, lines]
    exact ⟨rfl, inStep⟩

theorem console_afterSeconds (n : Nat) (m : Machine) :
    (m.afterSeconds n).chip.console = m.chip.console := by
  induction n generalizing m with
  | zero => rfl
  | succ n ih =>
    rw [afterSeconds_succ, ih, second_eq, console_released]
    exact (sameBus_run secondCycles m).console

theorem Abreast.afterSeconds (n : Nat) (h : Abreast m m') :
    Abreast (m.afterSeconds n) (m'.afterSeconds n) := by
  induction n generalizing m m' with
  | zero => exact h
  | succ n ih =>
    rw [afterSeconds_succ, afterSeconds_succ]
    exact ih h.second.2

/-! ## The end of a display -/

/-- Nothing of the clockwork is moved by it. -/
theorem InStep.closing {due : Option UInt64} (waiting : m.Waiting due) {console : Console}
    (same : m.chip.console = console) : InStep m (m.closing console).2 := by
  cases console with
  | ds => exact .refl waiting
  | dsi =>
    rw [Machine.closing, minutes_eq same]
    exact inStep_released waiting _ _

/-- Machines in step end their displays alike.  If this is without a transfer they have to have
the same on the bus already. -/
theorem InStep.closed (h : InStep m m') {console : Console} (same : m.chip.console = console)
    (abreast : console = .ds → Abreast m m') :
    (m'.closing console).1 = (m.closing console).1 ∧
      (m'.closing console).2.save = (m.closing console).2.save := by
  cases console with
  | ds => exact ⟨rfl, (abreast rfl).save⟩
  | dsi =>
    obtain ⟨line, after⟩ := h.minutes same
    exact ⟨congrArg ([·]) line, after.save⟩

theorem InRange.released (h : InRange config m) (command : UInt8) (answer : List UInt8) :
    InRange config (m.released command answer) := by
  obtain ⟨k, upToDate⟩ := h.upToDate
  exact ⟨h.built, h.console, Session.cursors_afterRead _ _ _, h.minutes,
    ⟨k, upToDate.congr rfl rfl rfl⟩, h.fits⟩

theorem InRange.closing (h : InRange config m) :
    InRange config (m.closing config.console).2 := by
  unfold Machine.closing
  cases console : config.console with
  | ds => exact h
  | dsi =>
    dsimp only
    rw [minutes_eq (h.console.trans console)]
    exact h.released _ _

/-- A machine that restores another of its console is abreast of it. -/
theorem InRange.abreast_restore (h : InRange config m) (wellFormed : m.chip.registers.WellFormed)
    (dayExists : m.chip.registers.calendar.DayExists) {due' : Option UInt64}
    (own : m'.Waiting due') (console : m'.chip.console = config.console) :
    Abreast m (m'.restore m.snapshot) := by
  have registers := registers_restore wellFormed m'
  rw [Calendar.leaveMonth_of_dayExists dayExists] at registers
  obtain ⟨due, waiting, waiting'⟩ := h.waiting_restore own
  exact ⟨⟨console.trans h.console.symm, registers, rfl, now_restore _ _, some due, waiting,
    waiting'⟩, rfl, rfl⟩

/-- Seconds that are shown keep a machine in range. -/
theorem InRange.afterSeconds {j : Nat} (n : Nat) (h : InRange config m)
    (onTheSecond : OnTheSecond j m) (fits : (j + n) * 33513982 + 1023 < UInt64.size) :
    InRange config (m.afterSeconds n) := by
  induction n generalizing j m with
  | zero => exact h
  | succ n ih =>
    have next : j + (n + 1) = j + 1 + n := by omega
    rw [next] at fits
    have once := fits_of_le (Nat.le_add_right (j + 1) n) fits
    have cycles : secondCycles.toNat = 33513982 := rfl
    have ran : InRange config (m.run secondCycles) := h.run (by
      rw [onTheSecond.now, cycles, ← Nat.succ_mul]
      exact fits_strictly once)
    rw [afterSeconds_succ]
    refine ih ?_ (onTheSecond.second once).1 fits
    rw [second_eq]
    exact ran.released _ _

/-- A machine is saved when its display has ended, and another of its console loads the stream.
Then this one goes on to show, for any number of seconds, what the first would have shown, and
it writes the stream that the first would have written. -/
theorem InRange.resume (h : InRange config m) (wellFormed : m.chip.registers.WellFormed)
    (dayExists : m.chip.registers.calendar.DayExists) {due' : Option UInt64}
    (own : m'.Waiting due') (console : m'.chip.console = config.console) (n : Nat) :
    ∃ loaded, m'.load (m.closing config.console).2.save = .ok loaded ∧
      loaded.dateLines n = m.dateLines n ∧
      ((loaded.afterSeconds n).closing config.console).1 =
        ((m.afterSeconds n).closing config.console).1 ∧
      ((loaded.afterSeconds n).closing config.console).2.save =
        ((m.afterSeconds n).closing config.console).2.save := by
  obtain ⟨due, waiting, -⟩ := h.waiting_restore own
  have inStep : InStep m (m.closing config.console).2 := .closing waiting h.console
  have saved := h.closing
  have abreast := saved.abreast_restore (by rw [inStep.registers]; exact wellFormed)
    (by rw [inStep.registers]; exact dayExists) own console
  obtain ⟨lines, after⟩ := (inStep.trans abreast.toInStep).dateLines n
  refine ⟨_, saved.load_save_eq m', lines, after.closed ?_ fun mine ↦ ?_⟩
  · rw [console_afterSeconds, h.console]
  · have still : (m.closing config.console).2 = m := by
      rw [mine]
      rfl
    rw [still] at abreast ⊢
    exact abreast.afterSeconds n

/-- So it is with a machine that has been shown since it was switched on. -/
theorem resume_ofConfig {config config' : Config} (console : config'.console = config.console)
    {n k : Nat} (fits : (n + k) * 33513982 + 1023 < UInt64.size) :
    let m := (ofConfig config).afterSeconds n
    ∃ loaded, (ofConfig config').load (m.closing config.console).2.save = .ok loaded ∧
      loaded.dateLines k = m.dateLines k ∧
      ((loaded.afterSeconds k).closing config.console).1 =
        ((m.afterSeconds k).closing config.console).1 ∧
      ((loaded.afterSeconds k).closing config.console).2.save =
        ((m.afterSeconds k).closing config.console).2.save := by
  intro m
  have before := fits_of_le (Nat.le_add_right n k) fits
  rw [← Nat.zero_add n] at before
  obtain ⟨-, registers⟩ := (onTheSecond_ofConfig config).afterSeconds n before
  have driven : Driven config (ofConfig config) := .start
  have driven' : Driven config' (ofConfig config') := .start
  have inRange := driven.inRange.afterSeconds n (onTheSecond_ofConfig config) before
  have wellFormed : m.chip.registers.WellFormed := by
    rw [registers]
    exact (Reachable.start config).wellFormed.iterate_countSecond n
  have shows' : m.chip.registers.Shows := by
    rw [registers]
    exact ((shows_ofConfig config).iterate_countSecond n).1
  obtain ⟨due, waiting⟩ := (Reachable.start config').waiting
  have built : (ofConfig config').chip.console = config.console :=
    driven'.inRange.console.trans console
  exact inRange.resume wellFormed shows'.day waiting built k

end ClockChip.Machine
