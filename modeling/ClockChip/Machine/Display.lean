import ClockChip.Machine.Basic

/-!
# Showing the clock

The machine's user sees the clock as a console's firmware does: it reads the
bytes of a register group over the bus and shows their digits.  The hour is
shown in the mode in which the chip keeps it.
-/

namespace ClockChip.Machine

/-- Cycles in a second. -/
def secondCycles : UInt64 := 33513982

/-- The command that reads date and time. -/
def readDateCommand : UInt8 := 0xA6

/-- The command that reads the minute counter. -/
def readMinutesCommand : UInt8 := 0x8E

/-- Reads bytes of a register group over the bus. -/
def readGroup (cmd : UInt8) (bytes : Nat) (m : Machine) : List UInt8 × Machine :=
  let (bs, chip) := m.chip.readTransfer cmd bytes
  (bs, { m with chip })

/-- Two digits of a register. -/
def digits (b : UInt8) : String := Text.hex .lower 2 b.toNat

/-- The line that shows the bytes of date and time. -/
def dateLine : List UInt8 → String
  | [year, month, day, weekday, hour, minute, second] =>
    "RTC: 20" ++ digits year ++ "-" ++ digits month ++ "-" ++ digits day ++ " " ++
      digits (hour &&& 0x3F) ++ ":" ++ digits minute ++ ":" ++ digits second ++
      " (day of week " ++ toString weekday.toNat ++ ")"
  | _ => ""

/-- The line that shows the bytes of the minute counter. -/
def minutesLine (bs : List UInt8) : String :=
  "RTC: minute counter " ++ String.join (bs.map digits)

/-- Runs for a second, and shows the date that the clock then has. -/
def second (m : Machine) : String × Machine :=
  let (bs, m) := (m.run secondCycles).readGroup readDateCommand 7
  (dateLine bs, m)

/-- Shows the minute counter. -/
def minutes (m : Machine) : String × Machine :=
  let (bs, m) := m.readGroup readMinutesCommand 3
  (minutesLine bs, m)

end ClockChip.Machine
