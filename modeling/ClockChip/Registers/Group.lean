import ClockChip.Notice
import ClockChip.Registers.Basic

/-!
# Register groups

A transfer addresses a group of registers as a whole.  Reading a group copies its
bytes; writing it stores one byte after another, each at its position, which is
counted from one.  Bytes beyond the width of a group go nowhere.
-/

namespace ClockChip

/-- What a command can address. -/
inductive Group where
  | status1
  | status2
  | dateTime
  | time
  | alarm1
  | alarm2
  | clockAdjust
  | free
  | minuteCount
  | fout1
  | fout2
  | alarmDate1
  | alarmDate2
deriving DecidableEq, Repr

namespace Registers

/-! ## Reading -/

/-- The minute counter, most significant byte first. -/
def minuteBytes (r : Registers) : List UInt8 :=
  [(r.minuteCount >>> 16).toUInt8, (r.minuteCount >>> 8).toUInt8, r.minuteCount.toUInt8]

/-- The bytes that a read of a group sends. -/
def read (g : Group) (r : Registers) : List UInt8 :=
  match g with
  | .status1 => [⟨r.status1⟩]
  | .status2 => [⟨r.status2⟩]
  | .dateTime => r.calendar.toBytes.toList
  | .time => r.calendar.toBytes.toList.drop 4
  | .alarm1 => if Status2.alarm1Date.isSet r.status2 then r.alarm1.toList else [r.alarm1[2]]
  | .alarm2 => r.alarm2.toList
  | .clockAdjust => [r.clockAdjust]
  | .free => [r.free]
  | .minuteCount => r.minuteBytes
  | .fout1 => [r.fout1]
  | .fout2 => [r.fout2]
  | .alarmDate1 => r.alarmDate1.toList
  | .alarmDate2 => r.alarmDate2.toList

/-- The registers after a read of a group: the flags of status register 1 are
reported once. -/
def acknowledge (g : Group) (r : Registers) : Registers :=
  match g with
  | .status1 => { r with status1 := r.status1 &&& ~~~Status1.reported }
  | _ => r

/-! ## Writing -/

/-- Writes status register 1: the lowest bit clears every register, and a change
of the hour mode converts the hour. -/
def writeStatus1 (b : UInt8) (r : Registers) : Registers :=
  let base := if Status1.reset.isSet b.toBitVec then cleared else r
  let status1 := (base.status1 &&& Status1.reported) ||| (b.toBitVec &&& Status1.writable)
  let written := { base with status1 }
  if written.hourMode = r.hourMode then written else written.convertHour

/-- Writes alarm 1, whose single byte is the last of the three. -/
def writeAlarm1 (position : Nat) (b : UInt8) (r : Registers) : Registers :=
  if Status2.alarm1Date.isSet r.status2 then
    { r with alarm1 := r.alarm1.setIfInBounds (position - 1) b }
  else if position = 1 then { r with alarm1 := r.alarm1.set 2 b }
  else r

/-- Writes one byte of the calendar. -/
def writeCalendar (position : Nat) (b : UInt8) (r : Registers) : Registers :=
  { r with calendar := r.calendar.write r.hourMode position b }

/-- Writes the byte at `position` of a group. -/
def write (g : Group) (position : Nat) (b : UInt8) (r : Registers) : Registers :=
  match g with
  | .status1 => if position = 1 then r.writeStatus1 b else r
  | .status2 => if position = 1 then { r with status2 := b.toBitVec } else r
  | .dateTime => r.writeCalendar position b
  | .time => r.writeCalendar (position + 4) b
  | .alarm1 => r.writeAlarm1 position b
  | .alarm2 => { r with alarm2 := r.alarm2.setIfInBounds (position - 1) b }
  | .clockAdjust => if position = 1 then { r with clockAdjust := b } else r
  | .free => if position = 1 then { r with free := b } else r
  | .minuteCount => r
  | .fout1 => if position = 1 then { r with fout1 := b } else r
  | .fout2 => if position = 1 then { r with fout2 := b } else r
  | .alarmDate1 => { r with alarmDate1 := r.alarmDate1.setIfInBounds (position - 1) b }
  | .alarmDate2 => { r with alarmDate2 := r.alarmDate2.setIfInBounds (position - 1) b }

/-- The record that a write leaves. -/
def writeNotice? (g : Group) (position : Nat) (b : UInt8) (r : Registers) : Option Notice :=
  match g with
  | .status2 =>
    if position = 1 ∧ b.toBitVec &&& Status2.interrupts ≠ 0 then
      some (.interruptEnabled b r.alarm1 r.alarm2)
    else none
  | .clockAdjust => if position = 1 then some (.clockAdjusted b) else none
  | .minuteCount => some .minuteCounterWritten
  | _ => none

end Registers

end ClockChip
