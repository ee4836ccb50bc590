import ClockChip.BitRange

/-!
# Accessors

The layout of a control register gives names to ranges of its bits, and with each name goes an
`Accessor`, which says what is read and written under it: a truth value for a flag, a number for
a field, and eight bits for a byte.  The number may have more bits than the range.

A value can be written into a copy of a word (`write`) or into a word that is kept (`assign`).
-/

namespace ClockChip

/-- A range of a `w`-bit word and the kind of value by which it is known. -/
inductive Accessor (w : Nat) where
  | flag (bits : BitRange w) (single : bits.width = 1 := by decide)
  /-- A number of `size` bits. -/
  | field (bits : BitRange w) (size : Nat) (fits : bits.width ≤ size := by decide)
  | byte (bits : BitRange w) (whole : bits.width = 8 := by decide)
deriving DecidableEq, Repr

namespace Accessor

variable {w : Nat}

/-- The bits that it is about. -/
def range : Accessor w → BitRange w
  | .flag bits _ | .field bits _ _ | .byte bits _ => bits

/-- What it reads and writes. -/
def Value : Accessor w → Type
  | .flag _ _ => Bool
  | .field _ size _ => BitVec size
  | .byte _ _ => BitVec 8

/-- The number that a value stands for. -/
def number : (a : Accessor w) → a.Value → Nat
  | .flag _ _ => Bool.toNat
  | .field _ _ _ => BitVec.toNat
  | .byte _ _ => BitVec.toNat

/-- The value in a word. -/
def read : (a : Accessor w) → BitVec w → a.Value
  | .flag bits _, x => bits.isSet x
  | .field bits size _, x => bits.get x size
  | .byte bits _, x => bits.getByte x

/-- The word with another value. -/
def write : (a : Accessor w) → a.Value → BitVec w → BitVec w
  | .flag bits _, b, x => bits.put b x
  | .field bits _ _, v, x => bits.set v x
  | .byte bits _, v, x => bits.setByte v x

/-- Replaces the value in a word that is kept. -/
def assign (a : Accessor w) (v : a.Value) : StateM (BitVec w) Unit := modify (a.write v)

end Accessor

end ClockChip
