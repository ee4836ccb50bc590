import ClockChip.Chip.Bus

/-!
# The machine

As much of a console as the clock chip needs: the chip, the scheduler that drives
it, and an address space in which one address is the chip's bus register.  Reads
elsewhere give zero and writes elsewhere do nothing; both leave a record.

To run for a number of cycles, time goes from one due event to the next, and
every event that is due is served before time goes on.  Serving a tick schedules
the next one at least a thousand cycles later, but for the first tick after a
restored state, whose remainder can be anything; this bounds both loops.
-/

namespace ClockChip

/-- What is fixed when a machine is built. -/
structure Config where
  console : Console := .ds
  /-- The date to which every reset sets the clock. -/
  boot : Option DateTime := none
deriving DecidableEq, Repr

/-- A console with its clock chip. -/
structure Machine where
  chip : Chip
  scheduler : Scheduler := {}
  config : Config
deriving DecidableEq, Repr

namespace Machine

/-- The address of the chip's bus register. -/
def chipAddress : UInt32 := 0x04000138

/-! ## Reset -/

/-- Starts time anew and resets the chip. -/
def reset (m : Machine) : Machine :=
  let (chip, scheduler) := { m.chip with console := m.config.console }.reset m.scheduler.reset
  { m with
    scheduler
    chip := match m.config.boot with
      | none => chip
      | some t => chip.setDateTime t }

/-- The record that a reset leaves. -/
def resetNotice (m : Machine) : Notice := .machineReset m.config.console

/-- A machine that has just been switched on. -/
def ofConfig (config : Config) : Machine :=
  reset { chip := .powerOn config.console, config }

/-! ## The address space -/

/-- Reads sixteen bits. -/
def read16 (address : UInt32) (m : Machine) : Word :=
  if address = chipAddress then m.chip.bus else 0

/-- Reads eight bits. -/
def read8 (address : UInt32) (m : Machine) : UInt8 :=
  ⟨(m.read16 address).setWidth 8⟩

/-- Writes sixteen bits. -/
def write16 (address : UInt32) (w : Word) (m : Machine) : Machine :=
  if address = chipAddress then { m with chip := m.chip.write w } else m

/-- Writes eight bits. -/
def write8 (address : UInt32) (b : UInt8) (m : Machine) : Machine :=
  if address = chipAddress then { m with chip := m.chip.writeByte b } else m

/-- The record that a read of sixteen bits leaves. -/
def read16Notice? (address : UInt32) : Option Notice :=
  if address = chipAddress then none else some (.unmappedRead16 address)

/-- The record that a read of eight bits leaves. -/
def read8Notice? (address : UInt32) : Option Notice :=
  if address = chipAddress then none else some (.unmappedRead8 address)

/-- The record that a write of sixteen bits leaves. -/
def write16Notice? (address : UInt32) (w : Word) (m : Machine) : Option Notice :=
  if address = chipAddress then m.chip.writeNotice? w else some (.unmappedWrite16 address w)

/-- The record that a write of eight bits leaves. -/
def write8Notice? (address : UInt32) (b : UInt8) (m : Machine) : Option Notice :=
  if address = chipAddress then m.chip.writeByteNotice? b else some (.unmappedWrite8 address b)

/-! ## Running -/

/-- Serves due events, at most `bound` of them. -/
def serveUpTo : Nat → Machine → Machine
  | 0, m => m
  | bound + 1, m =>
    match m.chip.serveDue? m.scheduler with
    | none => m
    | some (chip, scheduler) => serveUpTo bound { m with chip, scheduler }

/-- Serves every event that is due.  After the first one the due times grow with
each tick and do not pass the present, so there are not more than two beyond the
number of cycles that have gone by. -/
def serveAll (m : Machine) : Machine := m.serveUpTo (m.scheduler.now.toNat + 2)

/-- Lets time pass to the next event or to `stop`, whichever comes first, and
serves what is due. -/
def step (stop : UInt64) (m : Machine) : Machine :=
  let next := min m.scheduler.nextDue stop
  { m with scheduler := m.scheduler.advance (next - m.scheduler.now) }.serveAll

/-- Goes on to `stop`, in at most `bound` steps. -/
def runTo (stop : UInt64) : Nat → Machine → Machine
  | 0, m => m
  | bound + 1, m =>
    if m.scheduler.now < stop then (m.step stop).runTo stop bound else m

/-- Runs for a number of cycles.  Every step but the first takes time, so there
are not more than one beyond the number of cycles. -/
def run (cycles : UInt64) (m : Machine) : Machine :=
  m.runTo (m.scheduler.now + cycles) (cycles.toNat + 1)

end Machine

end ClockChip
