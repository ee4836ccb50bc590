import ClockChip.Notice
import ClockChip.Oscillator
import ClockChip.Registers.Basic
import ClockChip.Scheduler
import ClockChip.Session
import ClockChip.Wire

/-!
# The clock chip

The chip is its registers, its time base, its side of the serial session and the
bus register through which the host reaches it.  It lives on a scheduler: each
tick of the oscillator is an event, and serving it schedules the next one.
-/

namespace ClockChip

/-- The clock chip as it is built into a console. -/
structure Chip where
  console : Console
  /-- The bus register. -/
  bus : Word := 0
  session : Session := {}
  registers : Registers
  oscillator : Oscillator := {}
  /-- The registration under which its ticks are scheduled. -/
  tickHandle : Handle := .unregistered
deriving DecidableEq, Repr

namespace Chip

/-- The chip when it gets power for the first time: it says that the power was
lost, and its oscillator does not run yet. -/
def powerOn (console : Console) : Chip where
  console
  registers := { Registers.cleared with status1 := Status1.powerLost.put true 0 }

/-! ## Registers -/

/-- Puts a register file into the chip and repairs its calendar. -/
def install (r : Registers) (c : Chip) : Chip := { c with registers := r.sanitize }

/-- The date and time that the chip shows. -/
def dateTime (c : Chip) : DateTime := c.registers.dateTime

/-- Sets the chip's date and time. -/
def setDateTime (t : DateTime) (c : Chip) : Chip :=
  { c with registers := c.registers.setDateTime t }

/-! ## Ticks -/

/-- Starts the serial interface and the oscillator anew.  The registers are on
the battery and stay. -/
def reset (c : Chip) (s : Scheduler) : Chip × Scheduler :=
  let (tickHandle, s) := (s.cancel c.tickHandle).register "RTC Tick"
  let (delay, oscillator) := { c.oscillator with ticks := 0 }.fromRest.nextDelay
  ({ c with session := {}, oscillator, tickHandle }, s.add delay tickHandle)

/-- Serves a tick: it may complete a second, and the next tick is scheduled. -/
def tick (c : Chip) (s : Scheduler) : Chip × Scheduler :=
  let ticked := c.oscillator.tick
  let registers := if ticked.atSecond then c.registers.countSecond else c.registers
  let (delay, oscillator) := ticked.nextDelay
  ({ c with registers, oscillator }, s.addPeriodic delay c.tickHandle)

/-- Serves the next event of the scheduler if it is due. -/
@[inline] def serveDue? (c : Chip) (s : Scheduler) : Option (Chip × Scheduler) :=
  s.popDue?.map fun (_, s) => c.tick s

end Chip

end ClockChip
