import ClockChip.BitRange

/-!
# The three wires

The chip hangs on a data line, a clock line and a select line, and the host moves
them by writing words to one register.  This file gives the layout of that
register and the sequences of words by which a host makes a transfer: select the
chip, send bytes, poll for bytes, and release the chip.  Both directions move the
least significant bit of a byte first.
-/

namespace ClockChip

/-- A value of the bus register. -/
abbrev Word := BitVec 16

namespace Wire

/-! ## Layout -/

@[inline] def data : BitRange 16 := .bit 0

@[inline] def clock : BitRange 16 := .bit 1

@[inline] def select : BitRange 16 := .bit 2

/-- The host drives the data line; otherwise the chip does. -/
@[inline] def output : BitRange 16 := .bit 4

/-- The half of the register that an 8-bit write replaces. -/
@[inline] def lowByte : BitRange 16 := .byte 0

/-! ## What the host writes -/

/-- The word by which the host lets go of the chip. -/
def released : Word := 0x0012

/-- The word with the chip selected, the host's direction and the clock high. -/
def selected : Word := 0x0016

/-- Selects the chip anew. -/
def start : List Word := [released, selected]

/-- Lets go of the chip. -/
def stop : List Word := [released]

/-- Sends a bit, by a clock that goes low and high again. -/
def sendBit (b : Bool) : List Word := [data.put b 0x0014, data.put b 0x0016]

/-- Sends a byte. -/
def sendByte (b : UInt8) : List Word :=
  (List.range 8).flatMap fun i => sendBit (b.toBitVec.getLsbD i)

/-- Sends bytes. -/
def send (bs : List UInt8) : List Word := bs.flatMap sendByte

/-- Asks for a bit; it stands in the register after the second word. -/
def pollBit : List Word := [0x0004, 0x0006]

/-- Asks for a number of bytes. -/
def receive (bytes : Nat) : List Word := (List.replicate (8 * bytes) pollBit).flatten

/-! ## What the host makes of the answers -/

/-- The bits in the values that the register had after each word of `receive`. -/
def samples : List Word → List Bool
  | _ :: w :: ws => data.isSet w :: samples ws
  | _ => []

/-- The number whose bits these are, the first one lowest. -/
def number : List Bool → Nat
  | [] => 0
  | b :: bs => b.toNat + 2 * number bs

/-- The bytes whose bits these are, as far as there are eight for a byte. -/
def pack : List Bool → List UInt8
  | a :: b :: c :: d :: e :: f :: g :: h :: bs =>
    UInt8.ofNat (number [a, b, c, d, e, f, g, h]) :: pack bs
  | _ => []

/-! ## Lengths -/

@[simp] theorem length_receive (bytes : Nat) : (receive bytes).length = 16 * bytes := by
  simp [receive, pollBit]
  omega

/-- The bits of a byte that is sent are the bits of the byte that is received. -/
theorem number_bits (b : BitVec 8) :
    number ((List.range 8).map b.getLsbD) = b.toNat := by
  revert b
  decide

end Wire

end ClockChip
