import ClockChip.Registers.Group

/-!
# Command bytes

The first byte of a transfer is a command.  Read from bit 7 down it is one bit
for the direction, three for the register group and four for the command class.
A host may also send the byte with its bits in the opposite order; then the class
arrives in the high half, and the low half has to be turned round.
-/

namespace ClockChip.Command

/-- The class of the commands that both consoles have. -/
def baseClass : UInt8 := 0x06

/-- The class of the commands that only the later console has. -/
def extendedClass : UInt8 := 0x0E

/-! ## Bit order -/

/-- The low half of a byte with its bits in the opposite order. -/
def flipHalf (b : UInt8) : UInt8 :=
  b % 2 * 8 + b / 2 % 2 * 4 + b / 4 % 2 * 2 + b / 8 % 2

/-- The command of a class whose direction and group arrived in the low half of
`b`, in the opposite order. -/
def reverse (cls b : UInt8) : UInt8 := (flipHalf b <<< 4) ||| cls

/-- A command byte in its natural order.  What a later console takes for one of
its own commands in the opposite order excludes the two natural commands of the
free register. -/
def normalize (console : Console) (b : UInt8) : UInt8 :=
  let b := if b / 16 = 0x6 then reverse baseClass b else b
  if console = .dsi ∧ b / 16 = 0x7 ∧ b / 2 ≠ 0x76 / 2 then reverse extendedClass b else b

/-! ## Meaning -/

/-- Whether the command reads its group. -/
def isRead (b : UInt8) : Bool := decide (0x80 ≤ b)

/-- The groups of the base class. -/
def baseGroups : Vector Group 8 :=
  #v[.status1, .alarm1, .dateTime, .clockAdjust, .status2, .alarm2, .time, .free]

/-- The groups of the extended class. -/
def extendedGroups : Vector (Option Group) 8 :=
  #v[some .minuteCount, some .alarmDate1, some .fout2, none,
    some .fout1, some .alarmDate2, none, none]

/-- The number of the group that a command addresses. -/
def groupIndex (b : UInt8) : Fin 8 := ⟨b.toNat / 16 % 8, Nat.mod_lt _ (by decide)⟩

/-- The group that a command in its natural order addresses on a console. -/
def group? (console : Console) (b : UInt8) : Option Group :=
  if b % 16 = baseClass then some baseGroups[groupIndex b]
  else if b % 16 = extendedClass ∧ console = .dsi then extendedGroups[groupIndex b]
  else none

end ClockChip.Command
