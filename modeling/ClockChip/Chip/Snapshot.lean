import ClockChip.Chip.Basic
import ClockChip.Savestate.Reader

/-!
# Snapshots of the chip

A snapshot holds what a running chip remembers: the bus register, the serial
session, the registers and the oscillator.  It is one section of a state stream.
Cursors that are read from a stream are brought into the range that the chip
itself keeps them in, and so is the calendar when the snapshot is restored.
-/

namespace ClockChip

namespace Chip

/-- What a stream holds of a chip. -/
structure Snapshot where
  bus : Word
  session : Session
  registers : Registers
  oscillator : Oscillator
deriving DecidableEq, Repr

/-- The tag of the chip's section: `RTC.`. -/
def sectionTag : Savestate.Tag := #v[0x52, 0x54, 0x43, 0x2E]

/-- What is worth keeping of a chip. -/
def snapshot (c : Chip) : Snapshot := ⟨c.bus, c.session, c.registers, c.oscillator⟩

/-- Puts a snapshot back into a chip. -/
def restore (s : Snapshot) (c : Chip) : Chip :=
  { c with bus := s.bus, session := s.session, oscillator := s.oscillator }.install s.registers

end Chip

/-! ## Fields -/

namespace Session

/-- The fields of a session. -/
def fields (s : Session) : List Savestate.Field :=
  [.word8 s.input, .word32 s.inputBit, .word32 s.inputPos, .bytes s.output.toList,
    .word32 s.outputBit, .word32 s.outputPos, .word8 s.command]

open Savestate in
/-- Reads the fields of a session, with the cursors inside their bytes. -/
def readFields : Read Session := do
  let input ← Read.word8
  let inputBit ← Read.word32
  let inputPos ← Read.word32
  let output ← Read.bytes 8
  let outputBit ← Read.word32
  let outputPos ← Read.word32
  let command ← Read.word8
  return {
    input, inputPos, output, command
    inputBit := inputBit % 8
    outputBit := outputBit % 8
    outputPos := min outputPos 7 }

end Session

namespace Registers

/-- The fields of a register file. -/
def fields (r : Registers) : List Savestate.Field :=
  [.word8 ⟨r.status1⟩, .word8 ⟨r.status2⟩, .bytes r.calendar.toBytes.toList,
    .bytes r.alarm1.toList, .bytes r.alarm2.toList, .word8 r.clockAdjust, .word8 r.free,
    .word8 r.fout1, .word8 r.fout2, .bytes r.alarmDate1.toList, .bytes r.alarmDate2.toList,
    .word32 r.minuteCount]

open Savestate in
/-- Reads the fields of a register file, with the minute counter in its range. -/
def readFields : Read Registers := do
  let status1 ← Read.word8
  let status2 ← Read.word8
  let calendar ← Read.bytes 7
  let alarm1 ← Read.bytes 3
  let alarm2 ← Read.bytes 3
  let clockAdjust ← Read.word8
  let free ← Read.word8
  let fout1 ← Read.word8
  let fout2 ← Read.word8
  let alarmDate1 ← Read.bytes 3
  let alarmDate2 ← Read.bytes 3
  let minuteCount ← Read.word32
  return {
    status1 := status1.toBitVec
    status2 := status2.toBitVec
    calendar := .ofBytes calendar
    alarm1, alarm2, clockAdjust, free, fout1, fout2, alarmDate1, alarmDate2
    minuteCount := minuteCount &&& minuteMask }

end Registers

namespace Oscillator

/-- The fields of an oscillator. -/
def fields (o : Oscillator) : List Savestate.Field :=
  [.word32 o.remainder.toUInt32, .word32 o.ticks]

open Savestate in
/-- Reads the fields of an oscillator. -/
def readFields : Read Oscillator := do
  let remainder ← Read.word32
  let ticks ← Read.word32
  return { ticks, remainder := remainder.toInt32 }

end Oscillator

namespace Chip.Snapshot

/-- The chip's section of a stream. -/
def fields (s : Snapshot) : List Savestate.Field :=
  .tag sectionTag :: .word16 ⟨s.bus⟩ ::
    (s.session.fields ++ s.registers.fields ++ s.oscillator.fields)

open Savestate in
/-- Reads the chip's section. -/
def readFields : Read Snapshot := do
  Read.tag sectionTag
  let bus ← Read.word16
  let session ← Session.readFields
  let registers ← Registers.readFields
  let oscillator ← Oscillator.readFields
  return ⟨bus.toBitVec, session, registers, oscillator⟩

end Chip.Snapshot

/-! ## A stream for the chip alone -/

namespace Chip

/-- The chip as a byte string. -/
def save (c : Chip) : List UInt8 := Savestate.encode c.snapshot.fields

/-- The chip with the state in a byte string, and the reader behind that state. -/
def load (data : List UInt8) (c : Chip) :
    Except Savestate.ReadError (Chip × Savestate.Reader) := do
  let r ← Savestate.Reader.ofBytes data
  match Snapshot.readFields r with
  | .ok s r => return (c.restore s, r)
  | .error e _ => throw e

end Chip

end ClockChip
