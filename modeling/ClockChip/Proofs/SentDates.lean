import ClockChip.Proofs.Repair
import ClockChip.Proofs.Transfer
import ClockChip.Proofs.Writing

/-!
# A date that is sent and a date that is installed

There are two ways for seven bytes from outside to become the calendar.  A host sends them
one after another, and each is written over a calendar that is partly the old one still; or a
register file that holds them is installed as a whole and repaired.  Both leave the same
registers (`sendDate_eq_install`), since year and month have come by the time the day looks at
them.  Where the bytes are a valid calendar already, they are also what the host reads
afterwards.
-/

namespace ClockChip

open Wire

/-! ## The commands of the calendar -/

namespace Command

variable {command : UInt8}

/-- The command that writes the calendar, in either order of its bits. -/
def WritesDate (command : UInt8) : Prop := command = 0x26 ∨ command = 0x64

/-- The command that reads the calendar, in either order of its bits. -/
def ReadsDate (command : UInt8) : Prop := command = 0xA6 ∨ command = 0x65

theorem WritesDate.normalize (h : WritesDate command) (console : Console) :
    normalize console command = 0x26 := by
  rcases h with rfl | rfl <;> cases console <;> decide

theorem ReadsDate.normalize (h : ReadsDate command) (console : Console) :
    normalize console command = 0xA6 := by
  rcases h with rfl | rfl <;> cases console <;> decide

theorem group?_date (console : Console) :
    group? console 0x26 = some .dateTime ∧ group? console 0xA6 = some .dateTime := by
  cases console <;> decide +kernel

end Command

/-! ## Both ways -/

namespace Chip

variable {command : UInt8}

/-- A transfer that reads the calendar gives its bytes. -/
theorem readTransfer_date (reads : Command.ReadsDate command) (c : Chip) :
    (c.readTransfer command 7).1 = c.registers.calendar.toBytes.toList := by
  have natural := reads.normalize c.console
  exact c.readTransfer_bytes 7 (by rw [natural]; decide)
    (by rw [natural]; exact (Command.group?_date c.console).2)

/-- A transfer that writes the calendar leaves the registers with the calendar of its bytes,
repaired. -/
theorem registers_sendDate (writes : Command.WritesDate command) (bs : Vector UInt8 7)
    (c : Chip) :
    (c.writeAll (writeTransfer command bs.toList [])).registers =
      { c.registers with calendar := .ofBytes bs }.sanitize := by
  have natural := writes.normalize c.console
  have countable : bs.toList.length < UInt32.size := by
    rw [Vector.length_toList]
    decide
  have bytes := Calendar.writeFrom_toBytes c.registers.hourMode c.registers.calendar (.ofBytes bs)
  rw [Calendar.toBytes_ofBytes] at bytes
  rw [registers_writeTransfer c (by rw [natural]; decide) countable (by decide), natural,
    (Command.group?_date c.console).1, Registers.sent, Registers.writeGroup,
    List.take_of_length_le (Nat.le_of_eq bs.length_toList), bytes]
  rfl

/-- Whatever state the chip is in, and whatever date it shows, a transfer that writes seven
bytes to the calendar leaves the registers that come of installing the old ones with these
bytes for a calendar.  If the bytes are a valid calendar in the hour mode of the chip, they are
its calendar after both, and a transfer that reads the calendar then gives them back. -/
theorem sendDate_eq_install (c : Chip) (bs : Vector UInt8 7)
    (writes : Command.WritesDate command) :
    let sent := c.writeAll (writeTransfer command bs.toList [])
    let installed := c.install { c.registers with calendar := .ofBytes bs }
    sent.registers = installed.registers ∧
      ((Calendar.ofBytes bs).Valid c.registers.hourMode →
        sent.registers.calendar.toBytes = bs ∧
          installed.registers.calendar.toBytes = bs ∧
          ∀ reading, Command.ReadsDate reading →
            (sent.readTransfer reading 7).1 = bs.toList ∧
              (installed.readTransfer reading 7).1 = bs.toList) := by
  intro sent installed
  have same : sent.registers = installed.registers := registers_sendDate writes bs c
  refine ⟨same, fun valid ↦ ?_⟩
  have calendar : installed.registers.calendar = .ofBytes bs := valid.sanitize
  have bytes : installed.registers.calendar.toBytes = bs := by
    rw [calendar, Calendar.toBytes_ofBytes]
  refine ⟨by rw [same, bytes], bytes, fun reading reads ↦ ⟨?_, ?_⟩⟩
  · rw [readTransfer_date reads, same, bytes]
  · rw [readTransfer_date reads, bytes]

/-- The last second of a leap day, at twelve hours, is what is read when it has been sent. -/
theorem sendDate_eq_install_leapDay :
    let bs : Vector UInt8 7 := #v[0x24, 0x02, 0x29, 0x04, 0x51, 0x59, 0x59]
    let sent := switchedOn.writeAll (writeTransfer 0x64 bs.toList [])
    sent.registers =
        (switchedOn.install { switchedOn.registers with calendar := .ofBytes bs }).registers ∧
      (sent.readTransfer 0xA6 7).1 = bs.toList := by
  intro bs sent
  obtain ⟨same, valid⟩ := sendDate_eq_install switchedOn bs (.inr rfl : Command.WritesDate 0x64)
  obtain ⟨-, -, read⟩ := valid (by decide +kernel)
  exact ⟨same, (read 0xA6 (.inl rfl)).1⟩

end Chip

end ClockChip
