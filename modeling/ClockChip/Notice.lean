import ClockChip.Text.Quoted

/-!
# Consoles and their log records

The chip is built into two hand-helds.  They differ in its command set: the later
one also has a minute counter, frequency outputs and alarm dates.

What the chip and the machine tell whoever watches them is a log record.  A record
says what happened; its level and its wording are functions of that.
-/

namespace ClockChip

/-! ## Consoles -/

/-- The console that the chip is built into. -/
inductive Console where
  | ds
  | dsi
deriving DecidableEq, Repr, Inhabited

namespace Console

/-- The console's name in a log record. -/
def name : Console → String
  | ds => "Ds"
  | dsi => "Dsi"

end Console

/-! ## Records -/

/-- How much a record matters. -/
inductive Level where
  | debug
  | info
  | warn
deriving DecidableEq, Repr

namespace Level

/-- The level's name in front of a record. -/
def name : Level → String
  | debug => "DEBUG"
  | info => "INFO"
  | warn => "WARN"

end Level

/-- Something worth a record. -/
inductive Notice where
  /-- A read command that addresses no register group. -/
  | unknownRead (command : UInt8)
  /-- Data for a command that addresses no register group. -/
  | unknownWrite (command : UInt8)
  /-- Status register 2 was written with an interrupt enabled. -/
  | interruptEnabled (status2 : UInt8) (alarm1 alarm2 : Vector UInt8 3)
  /-- The clock adjustment was written. -/
  | clockAdjusted (value : UInt8)
  /-- Data for the minute counter, which only counts. -/
  | minuteCounterWritten
  /-- The machine was reset. -/
  | machineReset (console : Console)
  /-- A state of this version was restored. -/
  | stateLoaded (version : UInt16)
  /-- A read of sixteen bits where no device is. -/
  | unmappedRead16 (address : UInt32)
  /-- A read of eight bits where no device is. -/
  | unmappedRead8 (address : UInt32)
  /-- A write of sixteen bits where no device is. -/
  | unmappedWrite16 (address : UInt32) (value : BitVec 16)
  /-- A write of eight bits where no device is. -/
  | unmappedWrite8 (address : UInt32) (value : UInt8)
deriving DecidableEq, Repr

namespace Notice

/-- How much a notice matters. -/
def level : Notice → Level
  | unmappedRead16 _ | unmappedRead8 _ | unmappedWrite16 _ _ | unmappedWrite8 _ _ => .warn
  | _ => .debug

/-- A byte as the chip's records write it. -/
def byteText (b : UInt8) : String := Text.hex .upper 2 b.toNat

/-- An address as the machine's records write it. -/
def addressText (a : UInt32) : String := Text.hex .lower 8 a.toNat

/-- The bytes of an alarm, with a blank between them. -/
def alarmText (a : Vector UInt8 3) : String := " ".intercalate (a.toList.map byteText)

/-- The wording of a notice. -/
def message : Notice → String
  | unknownRead command => "RTC: unknown read command " ++ byteText command
  | unknownWrite command => "RTC: unknown write command " ++ byteText command
  | interruptEnabled status2 alarm1 alarm2 =>
    "RTC: interrupt on: " ++ byteText status2 ++ ", " ++ alarmText alarm1 ++ ", " ++
      alarmText alarm2
  | clockAdjusted value => "RTC: clock adjust = " ++ byteText value
  | minuteCounterWritten => "RTC: trying to write read-only minute counter"
  | machineReset console => "System: reset (" ++ console.name ++ ")"
  | stateLoaded version => "System: loaded state version " ++ toString version.toNat
  | unmappedRead16 address => "System: handle 16-bit read " ++ addressText address
  | unmappedRead8 address => "System: handle 8-bit read " ++ addressText address
  | unmappedWrite16 address value =>
    "System: handle 16-bit write " ++ addressText address ++ " = " ++
      Text.hex .lower 4 value.toNat
  | unmappedWrite8 address value =>
    "System: handle 8-bit write " ++ addressText address ++ " = " ++
      Text.hex .lower 2 value.toNat

end Notice

end ClockChip
