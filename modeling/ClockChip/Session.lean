/-!
# Serial sessions

While the chip is selected, bytes move over one data line, least significant bit
first.  A session is the chip's side of it: a byte that is being collected from
the host, and a buffer of eight bytes that is being sent to it.

The cursors are words, and a restored session may have any value in them; a bit
cursor counts modulo eight when it shifts.
-/

namespace ClockChip

/-- The state of the serial interface. -/
structure Session where
  /-- The bits of the byte that is being received. -/
  input : UInt8 := 0
  inputBit : UInt32 := 0
  /-- How many bytes have been received. -/
  inputPos : UInt32 := 0
  /-- The bytes to send. -/
  output : Vector UInt8 8 := .replicate 8 0
  outputBit : UInt32 := 0
  outputPos : UInt32 := 0
  /-- The last command that has been received. -/
  command : UInt8 := 0
deriving DecidableEq, Repr

namespace Session

/-- The session when the chip is selected.  The last command stays until the next
one has arrived. -/
def start (s : Session) : Session := { command := s.command }

/-! ## From the host -/

/-- The byte that is being received, with one more bit. -/
def accept (s : Session) (bit : Bool) : UInt8 :=
  if bit then s.input ||| 1 <<< s.inputBit.toUInt8 else s.input

/-- Takes a bit from the host, and gives the byte that it completes. -/
def shiftIn (s : Session) (bit : Bool) : Option UInt8 × Session :=
  if s.inputBit + 1 < 8 then
    (none, { s with input := s.accept bit, inputBit := s.inputBit + 1 })
  else (some (s.accept bit), { s with input := 0, inputBit := 0 })

/-! ## To the host -/

/-- The session when a bit has been sent.  The last byte of the buffer is sent
again and again. -/
def advance (s : Session) : Session :=
  if s.outputBit + 1 < 8 then { s with outputBit := s.outputBit + 1 }
  else { s with
    outputBit := 0
    outputPos := if s.outputPos < 7 then s.outputPos + 1 else s.outputPos }

/-- Sends a bit.  There is none if the cursor is outside the buffer. -/
def shiftOut? (s : Session) : Option (Bool × Session) :=
  s.output[s.outputPos.toNat]?.map fun b => (b &&& 1 <<< s.outputBit.toUInt8 != 0, s.advance)

/-- Puts bytes at the front of the buffer; what is behind them stays. -/
def load (bs : List UInt8) (s : Session) : Session :=
  { s with output := s.output.mapIdx fun i b => bs[i]?.getD b }

end Session

end ClockChip
