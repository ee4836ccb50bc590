import ClockChip.BitRange
import ClockChip.Calendar.Seed
import ClockChip.Calendar.Write

/-!
# The register file

Everything that the chip keeps while it is on its battery: two status registers,
the calendar, two alarms, a few single bytes, and, on the later console, a
counter of minutes, two frequency outputs and two alarm dates.  The minute
counter goes on by itself and does not know about dates.
-/

namespace ClockChip

/-! ## Status register 1 -/

namespace Status1

/-- Written as one, it clears every register. -/
@[inline] def reset : BitRange 8 := .bit 0

/-- Hours are counted to twenty-four. -/
@[inline] def hour24 : BitRange 8 := .bit 1

/-- Two bits for the host to use. -/
@[inline] def general : BitRange 8 := ⟨2, 3, by decide, by decide⟩

/-- The chip has been without power since the date was set. -/
@[inline] def powerLost : BitRange 8 := .bit 7

/-- The flags that a read reports and clears. -/
def reported : BitVec 8 := 0xF0

/-- The bits that a write sets. -/
def writable : BitVec 8 := 0x0E

end Status1

/-! ## Status register 2 -/

namespace Status2

/-- Alarm 1 is three bytes, day of the week, hour and minute, and not just one. -/
@[inline] def alarm1Date : BitRange 8 := .bit 2

/-- The bits that enable an interrupt. -/
def interrupts : BitVec 8 := 0x4F

end Status2

/-! ## The registers -/

/-- The registers that the serial interface reaches. -/
structure Registers where
  status1 : BitVec 8 := 0
  status2 : BitVec 8 := 0
  calendar : Calendar := {}
  alarm1 : Vector UInt8 3 := #v[0, 0, 0]
  alarm2 : Vector UInt8 3 := #v[0, 0, 0]
  clockAdjust : UInt8 := 0
  free : UInt8 := 0
  fout1 : UInt8 := 0
  fout2 : UInt8 := 0
  alarmDate1 : Vector UInt8 3 := #v[0, 0, 0]
  alarmDate2 : Vector UInt8 3 := #v[0, 0, 0]
  /-- The minutes since it last overflowed its twenty-four bits. -/
  minuteCount : UInt32 := 0
deriving DecidableEq, Repr

namespace Registers

/-- The registers after the chip has cleared them: the first of January 2000. -/
def cleared : Registers := { calendar := { month := 1, day := 1 } }

/-- How the hour register counts at present. -/
def hourMode (r : Registers) : HourMode :=
  if Status1.hour24.isSet r.status1 then .twentyFour else .twelve

/-- The value that the minute counter does not go beyond. -/
def minuteMask : UInt32 := 0xFFFFFF

/-! ## The passing of time -/

/-- Adds a second. -/
def countSecond (r : Registers) : Registers :=
  { r with
    calendar := r.calendar.countSecond r.hourMode
    minuteCount :=
      if r.calendar.endsMinute then (r.minuteCount + 1) &&& minuteMask else r.minuteCount }

/-! ## What the host sees and sets -/

/-- Repairs a calendar that the chip could not have come to by itself. -/
def sanitize (r : Registers) : Registers :=
  { r with calendar := r.calendar.sanitize r.hourMode }

/-- Turns the hour into the present hour mode from the other one. -/
def convertHour (r : Registers) : Registers :=
  { r with calendar := r.calendar.convertHour r.hourMode }

/-- The date and time in the calendar. -/
def dateTime (r : Registers) : DateTime := r.calendar.toDateTime r.hourMode

/-- Sets the calendar, after which the power no longer counts as lost. -/
def setDateTime (t : DateTime) (r : Registers) : Registers :=
  { r with
    calendar := .ofDateTime r.hourMode t
    status1 := Status1.powerLost.put false r.status1 }

end Registers

end ClockChip
