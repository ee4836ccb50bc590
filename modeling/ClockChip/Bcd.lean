/-!
# Packed decimal bytes

The chip keeps every calendar value as two decimal digits, one in each half of
a byte, so that `0x59` stands for fifty-nine.  Nothing stops a host from
sending a byte whose halves are not digits; the operations here say what becomes
of those bytes too.
-/

namespace ClockChip.Bcd

/-- Packs a number below a hundred. -/
def ofBinary (n : UInt8) : UInt8 := n / 10 * 16 + n % 10

/-- The number that the halves spell, whether or not they are digits. -/
def toBinary (b : UInt8) : UInt8 := b / 16 * 10 + b % 16

/-- Whether both halves are decimal digits. -/
def isDigits (b : UInt8) : Bool := decide (b % 16 < 10) && decide (b / 16 < 10)

/-- Adds one, carrying from the low digit into the high one and out of the byte. -/
def increment (b : UInt8) : UInt8 :=
  let b := b + 1
  let b := if b % 16 < 10 then b else b + 0x06
  if b / 16 < 10 then b else b + 0x60

/-- The sum, with a carry from the low digit into the high one. -/
def add (a b : UInt8) : UInt8 :=
  let s := a + b
  if s % 16 < 10 then s else s + 0x06

/-- The difference, with a borrow of the low digit from the high one. -/
def sub (a b : UInt8) : UInt8 :=
  let d := a - b
  if d % 16 < 10 then d else d - 0x06

/-! ## Ranges -/

/-- A byte of two digits between two bounds. -/
def InRange (low high b : UInt8) : Prop := low ≤ b ∧ b ≤ high ∧ isDigits b = true

instance (low high b : UInt8) : Decidable (InRange low high b) :=
  inferInstanceAs (Decidable (_ ∧ _ ∧ _))

/-- Keeps a byte that is in range; any other becomes `low`. -/
def clamp (b low high : UInt8) : UInt8 := if InRange low high b then b else low

theorem clamp_of_inRange {low high b : UInt8} (h : InRange low high b) : clamp b low high = b :=
  if_pos h

theorem clamp_of_not_inRange {low high b : UInt8} (h : ¬InRange low high b) :
    clamp b low high = low :=
  if_neg h

/-- What comes out is in range, as long as the least value is. -/
theorem inRange_clamp {low high : UInt8} (h : InRange low high low) (b : UInt8) :
    InRange low high (clamp b low high) := by
  by_cases hb : InRange low high b
  · rwa [clamp_of_inRange hb]
  · rwa [clamp_of_not_inRange hb]

/-! ## Numbers below a hundred -/

/-- Packing and unpacking a number below a hundred gives it back. -/
theorem toBinary_ofBinary : ∀ n < 100, toBinary (ofBinary (UInt8.ofNat n)) = UInt8.ofNat n := by
  decide

/-- Packing a number below a hundred gives two digits. -/
theorem isDigits_ofBinary : ∀ n < 100, isDigits (ofBinary (UInt8.ofNat n)) = true := by
  decide

end ClockChip.Bcd
