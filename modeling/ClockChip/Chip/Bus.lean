import ClockChip.Chip.Basic
import ClockChip.Command

/-!
# The chip on the bus

A write of the bus register does one of four things: nothing, the start of a
frame, a bit from the host, or a bit to the host.  Which one it is follows from
the select line before the write and from the word that is written.

The first byte of a frame is a command.  A read command puts the bytes of its
group into the output buffer at once; every further byte is data for the group.
-/

namespace ClockChip

/-! ## What a write asks for -/

/-- What a write of the bus register means to the chip. -/
inductive Edge where
  | idle
  /-- The chip is selected: a frame begins. -/
  | start
  /-- A bit comes from the host. -/
  | toChip (bit : Bool)
  /-- A bit goes to the host. -/
  | fromChip
deriving DecidableEq, Repr

namespace Edge

/-- What it means that `w` is written while the register holds `latched`. -/
def of (latched w : Word) : Edge :=
  if !Wire.select.isSet w then idle
  else if !Wire.select.isSet latched then start
  else if Wire.clock.isSet w then idle
  else if Wire.output.isSet w then toChip (Wire.data.isSet w)
  else fromChip

end Edge

namespace Chip

/-! ## Bytes -/

/-- Answers a read command: the bytes of its group go to the output buffer. -/
def answer (c : Chip) : Chip :=
  match Command.group? c.console c.session.command with
  | none => c
  | some g =>
    { c with
      session := c.session.load (c.registers.read g)
      registers := c.registers.acknowledge g }

/-- Stores a byte of data. -/
def store (b : UInt8) (c : Chip) : Chip :=
  match Command.group? c.console c.session.command with
  | none => c
  | some g => { c with registers := c.registers.write g c.session.inputPos.toNat b }

/-- Takes the command of a frame. -/
def command (b : UInt8) (c : Chip) : Chip :=
  let cmd := Command.normalize c.console b
  let c := { c with session.command := cmd }
  if Command.isRead cmd then c.answer else c

/-- Takes a byte from the host. -/
def receive (b : UInt8) (c : Chip) : Chip :=
  let c := if c.session.inputPos = 0 then c.command b else c.store b
  { c with session.inputPos := c.session.inputPos + 1 }

/-! ## Bits -/

/-- Takes a bit from the host. -/
def takeBit (bit : Bool) (c : Chip) : Chip :=
  match c.session.shiftIn bit with
  | (none, session) => { c with session }
  | (some b, session) => { c with session }.receive b

/-- Puts a bit for the host on the data line. -/
def giveBit (c : Chip) : Chip :=
  match c.session.shiftOut? with
  | none => c
  | some (bit, session) => { c with session, bus := Wire.data.put bit c.bus }

/-- Does what a write means. -/
def serve : Edge → Chip → Chip
  | .idle, c => c
  | .start, c => { c with session := c.session.start }
  | .toChip bit, c => c.takeBit bit
  | .fromChip, c => c.giveBit

/-! ## Words -/

/-- Keeps the word that is written, but for a data line that the chip drives. -/
def latch (w : Word) (c : Chip) : Chip :=
  { c with bus := if Wire.output.isSet w then w else Wire.data.put (Wire.data.isSet c.bus) w }

/-- Writes the bus register. -/
def write (w : Word) (c : Chip) : Chip := (c.serve (.of c.bus w)).latch w

/-- The word that the bus register is given by a write of its low half. -/
def widen (b : UInt8) (c : Chip) : Word := Wire.lowByte.setByte b.toBitVec c.bus

/-- Writes the low half of the bus register. -/
def writeByte (b : UInt8) (c : Chip) : Chip := c.write (c.widen b)

/-- Writes one word after another. -/
def writeAll (ws : List Word) (c : Chip) : Chip := ws.foldl (fun c w => c.write w) c

/-- Writes one word after another and reads the register after each. -/
def trace : List Word → Chip → List Word × Chip
  | [], c => ([], c)
  | w :: ws, c =>
    let (readings, c') := (c.write w).trace ws
    ((c.write w).bus :: readings, c')

@[simp] theorem writeAll_nil (c : Chip) : c.writeAll [] = c := rfl

@[simp] theorem writeAll_cons (w : Word) (ws : List Word) (c : Chip) :
    c.writeAll (w :: ws) = (c.write w).writeAll ws := rfl

theorem writeAll_append (vs ws : List Word) (c : Chip) :
    c.writeAll (vs ++ ws) = (c.writeAll vs).writeAll ws :=
  List.foldl_append

/-- Reading the register does not change what the writes do. -/
@[simp] theorem trace_snd (ws : List Word) (c : Chip) : (c.trace ws).2 = c.writeAll ws := by
  induction ws generalizing c with
  | nil => rfl
  | cons w ws ih => exact ih (c.write w)

/-- Makes a whole transfer as a host does: sends a command and receives bytes. -/
def readTransfer (cmd : UInt8) (bytes : Nat) (c : Chip) : List UInt8 × Chip :=
  let (readings, c) := (c.writeAll (Wire.start ++ Wire.sendByte cmd)).trace (Wire.receive bytes)
  (Wire.pack (Wire.samples readings), c.writeAll Wire.stop)

/-! ## Records -/

/-- The record that a byte from the host leaves. -/
def receiveNotice? (c : Chip) (b : UInt8) : Option Notice :=
  if c.session.inputPos = 0 then
    let cmd := Command.normalize c.console b
    if Command.isRead cmd ∧ Command.group? c.console cmd = none then some (.unknownRead cmd)
    else none
  else
    match Command.group? c.console c.session.command with
    | none => some (.unknownWrite c.session.command)
    | some g => c.registers.writeNotice? g c.session.inputPos.toNat b

/-- The record that a write of the bus register leaves. -/
def writeNotice? (w : Word) (c : Chip) : Option Notice :=
  match Edge.of c.bus w with
  | .toChip bit => (c.session.shiftIn bit).1.bind c.receiveNotice?
  | _ => none

/-- The record that a write of the low half leaves. -/
def writeByteNotice? (b : UInt8) (c : Chip) : Option Notice := c.writeNotice? (c.widen b)

end Chip

end ClockChip
