/-!
# The oscillator

The chip counts time with a crystal of 32768 ticks a second, while everything
around it counts cycles of the bus clock.  A tick is not a whole number of
cycles: the delay to the next tick is rounded down, and what is left over is
carried into the delay after it, so that no cycle is ever lost.
-/

namespace ClockChip

/-- The frequency of the bus clock, the unit in which every delay is measured. -/
def busClock : Int32 := 33513982

/-- The frequency of the crystal. -/
def ticksPerSecond : UInt32 := 32768

/-- The state of the chip's time base. -/
structure Oscillator where
  /-- The ticks since the last reset, as far as a word holds them. -/
  ticks : UInt32 := 0
  /-- The part of a cycle that the last delay left over, in units of one
  32768th. -/
  remainder : Int32 := 0
deriving DecidableEq, Repr

namespace Oscillator

/-- The cycles until the next tick, and the oscillator with the new remainder. -/
@[inline] def nextDelay (o : Oscillator) : UInt64 × Oscillator :=
  let total := busClock + o.remainder
  ((total >>> 15).toInt64.toUInt64, { o with remainder := total &&& 32767 })

/-- The oscillator when it starts from rest: nothing is left over. -/
@[inline] def fromRest (o : Oscillator) : Oscillator := { o with remainder := 0 }

/-- The oscillator after a tick. -/
@[inline] def tick (o : Oscillator) : Oscillator := { o with ticks := o.ticks + 1 }

/-- Whether a second has just passed. -/
@[inline] def atSecond (o : Oscillator) : Bool := o.ticks % ticksPerSecond == 0

end Oscillator

end ClockChip
